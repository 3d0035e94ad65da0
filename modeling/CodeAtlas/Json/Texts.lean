import CodeAtlas.Json.Read
import CodeAtlas.Text.Quoted

/-! # Lists of texts as JSON

Lists of texts are written with printable ASCII characters only: all others are escaped, those with a code
of more than 16 bits as a pair of surrogates. Whatever is written is read back as it was. -/

namespace CodeAtlas.Json

/-! ## Writing -/

/-- The letter of a character that has a short escape. -/
def escapeLetter? (c : Char) : Option Char :=
  match c with
  | '"' => some '"'
  | '\\' => some '\\'
  | '\x08' => some 'b'
  | '\x0c' => some 'f'
  | '\n' => some 'n'
  | '\r' => some 'r'
  | '\t' => some 't'
  | _ => none

/-- The escape of 16 bits. -/
def escapeUnit (n : Nat) : List Char := '\\' :: 'u' :: Text.hexDigits 4 n

def escapeAscii (c : Char) : List Char :=
  match escapeLetter? c with
  | some letter => ['\\', letter]
  | none =>
    if 0x20 ≤ c.toNat && c.toNat < 0x7f then [c]
    else if c.toNat < 0x10000 then escapeUnit c.toNat
    else escapeUnit (0xd800 + (c.toNat - 0x10000) / 1024) ++
      escapeUnit (0xdc00 + (c.toNat - 0x10000) % 1024)

def quoteAscii (s : String) : List Char := '"' :: (s.toList.flatMap escapeAscii ++ ['"'])

/-- The elements of an array behind the first one, and its end. -/
def furtherTexts (ss : List String) : List Char :=
  ss.flatMap (fun s => ',' :: ' ' :: quoteAscii s) ++ [']']

/-- A list of texts as an array. -/
def writeTexts : List String → List Char
  | [] => ['[', ']']
  | s :: rest => '[' :: (quoteAscii s ++ furtherTexts rest)

/-! ## Reading back -/

def string? : Json → Option String
  | string s => some s
  | _ => none

/-- The list of texts that a value is. -/
def texts? : Json → Option (List String)
  | array elements => elements.mapM string?
  | _ => none

theorem texts?_strings (ss : List String) : (strings ss).texts? = some ss := by
  induction ss with
  | nil => rfl
  | cons s ss ih =>
    have hrest : (ss.map string).mapM string? = some ss := ih
    rw [strings, texts?, List.map_cons, List.mapM_cons, hrest]
    rfl

theorem hexValue?_hexDigitOf {n : Nat} (h : n < 16) : hexValue? (Text.hexDigitOf n) = some n := by
  have hall : ∀ n : Fin 16, hexValue? (Text.hexDigitOf n) = some n.val := by decide
  exact hall ⟨n, h⟩

theorem code?_hexDigits {n : Nat} (h : n < 0x10000) (next : Char) (rest : List Char) :
    code? (Text.hexDigits 4 n ++ next :: rest) = some (n, next :: rest) := by
  have hdigit (k : Nat) : hexValue? (Text.hexDigitOf (k % 16)) = some (k % 16) :=
    hexValue?_hexDigitOf (Nat.mod_lt k (by decide))
  simp only [Text.hexDigits, List.nil_append, List.cons_append, code?, hdigit]
  simp only [bind, Option.bind, pure]
  have hsum : ((n / 16 / 16 / 16 % 16 * 16 + n / 16 / 16 % 16) * 16 + n / 16 % 16) * 16 + n % 16 = n := by
    omega
  rw [hsum]

theorem surrogate_false (c : Char) :
    isHighSurrogate c.toNat = false ∧ isLowSurrogate c.toNat = false := by
  have hvalid : c.toNat < 0xd800 ∨ 0xdfff < c.toNat ∧ c.toNat < 0x110000 := c.valid
  simp only [isHighSurrogate, isLowSurrogate, Bool.and_eq_false_iff, decide_eq_false_iff_not]
  omega

theorem charOf_toNat (c : Char) : charOf c.toNat = c := by
  simp [charOf, surrogate_false c]

theorem simpleEscape?_escapeLetter {c letter : Char} (h : escapeLetter? c = some letter) :
    letter ≠ 'u' ∧ simpleEscape? letter = some c := by
  unfold escapeLetter? at h
  split at h <;> cases h <;> decide

theorem readEscape_unit {n : Nat} (h : n < 0x10000) (start : Nat) (next : Char) (rest : List Char) :
    readEscape start ('u' :: (Text.hexDigits 4 n ++ next :: rest)) =
      if isHighSurrogate n then joined n (next :: rest) else .ok (charOf n, next :: rest) := by
  rw [readEscape, code?_hexDigits h]

/-- The halves of a code of more than 16 bits are joined. -/
theorem joined_unit {c : Char} (h : 0x10000 ≤ c.toNat) (next : Char) (rest : List Char) :
    joined (0xd800 + (c.toNat - 0x10000) / 1024)
      (escapeUnit (0xdc00 + (c.toNat - 0x10000) % 1024) ++ next :: rest) = .ok (c, next :: rest) := by
  have hlow : isLowSurrogate (0xdc00 + (c.toNat - 0x10000) % 1024) = true := by
    simp only [isLowSurrogate, Bool.and_eq_true, decide_eq_true_eq]
    omega
  have hsum : 0x10000 + (0xd800 + (c.toNat - 0x10000) / 1024 - 0xd800) * 1024 +
      (0xdc00 + (c.toNat - 0x10000) % 1024 - 0xdc00) = c.toNat := by omega
  rw [escapeUnit, List.cons_append, List.cons_append, joined, code?_hexDigits (by omega)]
  simp only [hlow, if_true, hsum, Char.ofNat_toNat]

/-- A character stands for itself or is read back behind a backslash. -/
theorem escapeAscii_cases (c : Char) :
    (escapeAscii c = [c] ∧ c ≠ '"' ∧ c ≠ '\\' ∧ 0x20 ≤ c.toNat) ∨
    ∃ tail, escapeAscii c = '\\' :: tail ∧ ∀ start next rest,
      readEscape start (tail ++ next :: rest) = .ok (c, next :: rest) := by
  have htop : c.toNat < 0x110000 := by
    have hvalid : c.toNat < 0xd800 ∨ 0xdfff < c.toNat ∧ c.toNat < 0x110000 := c.valid
    omega
  unfold escapeAscii
  cases hletter : escapeLetter? c with
  | some letter =>
    obtain ⟨hu, hsimple⟩ := simpleEscape?_escapeLetter hletter
    refine Or.inr ⟨[letter], rfl, fun start next rest => ?_⟩
    rw [List.singleton_append, readEscape.eq_3 _ _ _ hu, hsimple]
  | none =>
    by_cases hplain : 0x20 ≤ c.toNat ∧ c.toNat < 0x7f
    · refine Or.inl ⟨by simp [hplain], ?_, ?_, hplain.1⟩
      · rintro rfl
        cases hletter
      · rintro rfl
        cases hletter
    by_cases hsmall : c.toNat < 0x10000
    · refine Or.inr ⟨'u' :: Text.hexDigits 4 c.toNat, ?_, fun start next rest => ?_⟩
      · simp [hplain, hsmall, escapeUnit]
      · rw [List.cons_append, readEscape_unit hsmall, (surrogate_false c).1, charOf_toNat]
        rfl
    · refine Or.inr ⟨'u' :: (Text.hexDigits 4 (0xd800 + (c.toNat - 0x10000) / 1024) ++
        escapeUnit (0xdc00 + (c.toNat - 0x10000) % 1024)), ?_, fun start next rest => ?_⟩
      · simp [hplain, hsmall, escapeUnit]
      · have hhigh : isHighSurrogate (0xd800 + (c.toNat - 0x10000) / 1024) = true := by
          simp only [isHighSurrogate, Bool.and_eq_true, decide_eq_true_eq]
          omega
        have hjoined := joined_unit (Nat.le_of_not_lt hsmall) next rest
        rw [escapeUnit, List.cons_append] at hjoined
        rw [escapeUnit, List.cons_append, List.append_assoc, List.cons_append,
          readEscape_unit (by omega), hhigh, if_pos rfl, hjoined]

theorem readChars_escapeAscii (start fuel : Nat) (c next : Char) (rest reversed : List Char) :
    readChars start (fuel + 1) (escapeAscii c ++ next :: rest) reversed =
      readChars start fuel (next :: rest) (c :: reversed) := by
  rcases escapeAscii_cases c with ⟨hself, hquote, hslash, hplain⟩ | ⟨tail, htail, hread⟩
  · rw [hself, List.singleton_append, readChars]
    simp [hquote, hslash, Nat.not_lt.mpr hplain]
  · rw [htail, List.cons_append, readChars, hread]
    rfl

/-- The characters between quotes are read one after the other. -/
theorem readChars_flatMap (start : Nat) (cs rest reversed : List Char) {fuel : Nat}
    (h : cs.length < fuel) :
    readChars start fuel (cs.flatMap escapeAscii ++ '"' :: rest) reversed =
      .ok (String.ofList (reversed.reverse ++ cs), rest) := by
  induction cs generalizing fuel reversed with
  | nil =>
    obtain ⟨fuel, rfl⟩ := Nat.exists_eq_add_one_of_ne_zero (Nat.ne_of_gt h)
    simp [readChars]
  | cons c cs ih =>
    obtain ⟨fuel, rfl⟩ := Nat.exists_eq_add_one_of_ne_zero (Nat.ne_of_gt (Nat.zero_lt_of_lt h))
    have hlater : ∃ next later, cs.flatMap escapeAscii ++ '"' :: rest = next :: later := by
      cases hhead : cs.flatMap escapeAscii with
      | nil => exact ⟨_, _, rfl⟩
      | cons next later => exact ⟨_, _, rfl⟩
    obtain ⟨next, later, hnext⟩ := hlater
    rw [List.flatMap_cons, List.append_assoc, hnext, readChars_escapeAscii, ← hnext,
      ih (c :: reversed) (Nat.lt_of_succ_lt_succ h)]
    simp

theorem length_le_flatMap_escapeAscii (cs : List Char) :
    cs.length ≤ (cs.flatMap escapeAscii).length := by
  induction cs with
  | nil => exact Nat.le_refl _
  | cons c cs ih =>
    have hone : 1 ≤ (escapeAscii c).length := by
      rcases escapeAscii_cases c with ⟨hself, _⟩ | ⟨tail, htail, _⟩
      · rw [hself]
        exact Nat.le_refl _
      · rw [htail]
        exact Nat.succ_le_succ (Nat.zero_le _)
    rw [List.flatMap_cons, List.length_append, List.length_cons]
    omega

theorem readValue_quoteAscii (fuel : Nat) (s : String) (rest : List Char) :
    readValue (fuel + 1) (quoteAscii s ++ rest) = .ok (.string s, rest) := by
  have hread : readString (s.toList.flatMap escapeAscii ++ '"' :: rest) = .ok (s, rest) := by
    have hlen := length_le_flatMap_escapeAscii s.toList
    rw [readString, readChars_flatMap _ _ _ _ (by rw [List.length_append]; omega)]
    simp
  rw [quoteAscii, List.cons_append, List.append_assoc, List.singleton_append, readValue, hread]
  rfl

theorem readElements_last (fuel : Nat) (s : String) (rest : List Char) (reversed : List Json) :
    readElements (fuel + 2) (quoteAscii s ++ ']' :: rest) reversed =
      .ok (.array (.string s :: reversed).reverse, rest) := by
  rw [readElements, readValue_quoteAscii]
  rfl

theorem readElements_further (fuel : Nat) (s s' : String) (rest : List Char) (reversed : List Json) :
    readElements (fuel + 2) (quoteAscii s ++ ',' :: ' ' :: (quoteAscii s' ++ rest)) reversed =
      readElements (fuel + 1) (quoteAscii s' ++ rest) (.string s :: reversed) := by
  rw [readElements, readValue_quoteAscii]
  rfl

/-- An array is read element by element. -/
theorem readElements_texts (fuel : Nat) (s : String) (ss : List String) (reversed : List Json)
    (h : ss.length < fuel) :
    readElements (fuel + 1) (quoteAscii s ++ furtherTexts ss) reversed =
      .ok (.array (reversed.reverse ++ (s :: ss).map .string), []) := by
  obtain ⟨fuel, rfl⟩ := Nat.exists_eq_add_one_of_ne_zero (Nat.ne_of_gt (Nat.zero_lt_of_lt h))
  induction ss generalizing fuel s reversed with
  | nil =>
    have hend : furtherTexts [] = [']'] := rfl
    rw [hend, readElements_last, List.reverse_cons]
    rfl
  | cons s' ss ih =>
    obtain ⟨fuel, rfl⟩ := Nat.exists_eq_add_one_of_ne_zero
      (Nat.ne_of_gt (Nat.zero_lt_of_lt (Nat.lt_of_succ_lt_succ h)))
    have hfurther : furtherTexts (s' :: ss) = ',' :: ' ' :: (quoteAscii s' ++ furtherTexts ss) := by
      simp [furtherTexts]
    rw [hfurther, readElements_further, ih s' _ fuel (Nat.lt_of_succ_lt_succ h), List.reverse_cons,
      List.append_assoc]
    rfl

theorem length_lt_furtherTexts (ss : List String) : ss.length < (furtherTexts ss).length := by
  induction ss with
  | nil => exact Nat.zero_lt_one
  | cons s ss ih =>
    simp only [furtherTexts, List.flatMap_cons, List.length_append, List.length_cons] at ih ⊢
    omega

theorem readAll_writeTexts (ss : List String) : readAll (writeTexts ss) = .ok (strings ss) := by
  cases ss with
  | nil => rfl
  | cons s ss =>
    have hlen := length_lt_furtherTexts ss
    have hfuel : ∃ fuel, ss.length < fuel ∧ 2 * (writeTexts (s :: ss)).length + 2 = fuel + 2 := by
      refine ⟨2 * (writeTexts (s :: ss)).length, ?_, rfl⟩
      rw [writeTexts, List.length_cons, List.length_append]
      omega
    obtain ⟨fuel, hfuel, heq⟩ := hfuel
    have hvalue : readValue (fuel + 2) (writeTexts (s :: ss)) = .ok (strings (s :: ss), []) := by
      rw [writeTexts, readValue]
      exact readElements_texts fuel s ss [] hfuel
    have hstart : skipSpace (writeTexts (s :: ss)) = writeTexts (s :: ss) := rfl
    rw [readAll, heq, hstart, hvalue]
    rfl

example : String.ofList (writeTexts ["a\"b", "\u00e9\u2028", "😀"]) =
    "[\"a\\\"b\", \"\\u00e9\\u2028\", \"\\ud83d\\ude00\"]" := by decide +kernel

end CodeAtlas.Json
