import CodeAtlas.Text.Blank
import CodeAtlas.Text.Quoted
import Mathlib.Algebra.Group.Nat.Defs
import Mathlib.Data.List.DropRight

/-! # Lines and quotes

A quoted text is printable, so it is one line: what ends a line is not printable, and what is not printable is written
in characters of ASCII. Nothing is lost by that, as a quoted text can be read back. What ends a line is white space
too, so the first line of a text that has no white space around it is empty only if the text is. -/

namespace CodeAtlas.Text

/-! ## White space around a text -/

variable {p : Char → Bool} {cs : List Char} {c : Char}

theorem isPrefix_trimChars (p : Char → Bool) (cs : List Char) : trimChars p cs <+: cs.dropWhile p :=
  List.rdropWhile_prefix p _

theorem of_head?_dropWhile (h : (cs.dropWhile p).head? = some c) : p c = false := by
  have hnot := List.head?_dropWhile_not p cs
  rw [h] at hnot
  simpa using hnot

theorem trimChars_eq_nil_iff : trimChars p cs = [] ↔ ∀ c ∈ cs, p c = true := by
  rw [← List.dropWhile_eq_nil_iff]
  constructor
  · intro h
    have hall : ∀ c ∈ cs.dropWhile p, p c = true := List.rdropWhile_eq_nil_iff.mp h
    cases hdrop : cs.dropWhile p with
    | nil => rfl
    | cons c rest =>
      have hfirst : p c = false := of_head?_dropWhile (by rw [hdrop, List.head?_cons])
      rw [hall c (hdrop ▸ List.mem_cons_self)] at hfirst
      cases hfirst
  · intro h
    rw [trimChars, h]
    rfl

/-- What ends a line is white space. -/
theorem isBlank_of_isLineBreak (h : isLineBreak c = true) : isBlank c = true := by
  simp only [isLineBreak, isBlank, Bool.or_eq_true, Bool.and_eq_true, decide_eq_true_eq, beq_iff_eq] at h ⊢
  omega

/-! ## Printable characters -/

/-- Whether all characters are printable. -/
def Printable (cs : List Char) : Prop := ∀ c ∈ cs, isPrintable c = true

theorem isPrintable_of_ascii (hlow : 32 ≤ c.toNat) (hhigh : c.toNat ≤ 126) : isPrintable c = true := by
  have htable : unprintable.toList.all (fun r => r.2 < 32 || 126 < r.1) = true := by decide +kernel
  rw [isPrintable, ← Array.any_toList, Bool.not_eq_true', List.any_eq_false]
  intro r hr
  have hrange := List.all_eq_true.mp htable r hr
  simp only [Bool.or_eq_true, decide_eq_true_eq] at hrange
  simp only [Bool.and_eq_true, decide_eq_true_eq]
  omega

theorem isPrintable_eq_false {r : Nat × Nat} (hr : r ∈ unprintable.toList) (hlow : r.1 ≤ c.toNat)
    (hhigh : c.toNat ≤ r.2) : isPrintable c = false := by
  rw [isPrintable, ← Array.any_toList, Bool.not_eq_false', List.any_eq_true]
  exact ⟨r, hr, by simp [hlow, hhigh]⟩

/-- What ends a line is not printable. -/
theorem isPrintable_of_isLineBreak (h : isLineBreak c = true) : isPrintable c = false := by
  have hcontrols : (0x0, 0x1f) ∈ unprintable.toList := by decide +kernel
  have hlatin : (0x7f, 0xa0) ∈ unprintable.toList := by decide +kernel
  have hseparators : (0x2028, 0x202f) ∈ unprintable.toList := by decide +kernel
  simp only [isLineBreak, Bool.or_eq_true, Bool.and_eq_true, decide_eq_true_eq, beq_iff_eq] at h
  rcases h with (((h | h) | h) | h) | h
  · exact isPrintable_eq_false hcontrols (by omega) (by omega)
  · exact isPrintable_eq_false hcontrols (by omega) (by omega)
  · exact isPrintable_eq_false hlatin (by omega) (by omega)
  · exact isPrintable_eq_false hseparators (by omega) (by omega)
  · exact isPrintable_eq_false hseparators (by omega) (by omega)

namespace Printable

variable {cs' : List Char}

theorem of_ascii (cs : List Char) (h : ∀ c ∈ cs, 32 ≤ c.toNat ∧ c.toNat ≤ 126) : Printable cs :=
  fun c hc => isPrintable_of_ascii (h c hc).1 (h c hc).2

theorem append (h : Printable cs) (h' : Printable cs') : Printable (cs ++ cs') :=
  List.forall_mem_append.mpr ⟨h, h'⟩

theorem cons (h : isPrintable c = true) (h' : Printable cs) : Printable (c :: cs) :=
  List.forall_mem_cons.mpr ⟨h, h'⟩

theorem singleton (h : isPrintable c = true) : Printable [c] := List.forall_mem_singleton.mpr h

theorem text_append {a b : String} (h : Printable a.toList) (h' : Printable b.toList) :
    Printable (a ++ b).toList := by
  rw [String.toList_append]
  exact h.append h'

/-- Printable characters do not end a line. -/
theorem isLineBreak_eq_false (h : Printable cs) (hc : c ∈ cs) : isLineBreak c = false := by
  rw [Bool.eq_false_iff]
  intro hbreak
  have hprintable := h c hc
  rw [isPrintable_of_isLineBreak hbreak] at hprintable
  cases hprintable

end Printable

theorem printable_toString (n : Nat) : Printable (toString n).toList := by
  rw [Nat.toString_eq_ofList_toDigits, String.toList_ofList]
  refine .of_ascii _ fun c hc => ?_
  have hdigit := Nat.isDigit_of_mem_toDigits (by decide) (by decide) hc
  have hbounds : 48 ≤ c.toNat ∧ c.toNat ≤ 57 := Char.isDigit_iff_toNat.mp hdigit
  omega

/-! ## Quoted texts -/

theorem isPrintable_hexDigitOf {n : Nat} (h : n < 16) : isPrintable (hexDigitOf n) = true := by
  have hall : ∀ n : Fin 16, 32 ≤ (hexDigitOf n).toNat ∧ (hexDigitOf n).toNat ≤ 126 := by decide
  exact isPrintable_of_ascii (hall ⟨n, h⟩).1 (hall ⟨n, h⟩).2

theorem printable_hexDigits (width n : Nat) : Printable (hexDigits width n) := by
  induction width generalizing n with
  | zero => exact List.forall_mem_nil _
  | succ width ih =>
    rw [hexDigits]
    exact (ih _).append (.singleton (isPrintable_hexDigitOf (Nat.mod_lt n (by decide))))

theorem printable_escapeCode (n : Nat) : Printable (escapeCode n) := by
  rw [escapeCode]
  split
  · exact (Printable.of_ascii ['\\', 'x'] (by simp)).append (printable_hexDigits 2 n)
  split
  · exact (Printable.of_ascii ['\\', 'u'] (by simp)).append (printable_hexDigits 4 n)
  · exact (Printable.of_ascii ['\\', 'U'] (by simp)).append (printable_hexDigits 8 n)

theorem printable_escapeChar {quote : Char} (hquote : isPrintable quote = true) (c : Char) :
    Printable (escapeChar quote c) := by
  have hbackslash : isPrintable '\\' = true := isPrintable_of_ascii (by decide) (by decide)
  unfold escapeChar
  split
  · next h =>
    refine .cons hbackslash (.singleton ?_)
    rcases (Bool.or_eq_true _ _).mp h with h | h
    · exact eq_of_beq h ▸ hquote
    · exact eq_of_beq h ▸ hbackslash
  split
  · exact .of_ascii _ (by simp)
  split
  · exact .of_ascii _ (by simp)
  split
  · exact .of_ascii _ (by simp)
  split
  · next h => exact .singleton h
  · exact printable_escapeCode _

theorem quoteFor_cases (cs : List Char) : quoteFor cs = '\'' ∨ quoteFor cs = '"' := by
  rw [quoteFor]
  split
  · exact .inr rfl
  · exact .inl rfl

/-- A quoted text is printable, whatever the text. -/
theorem printable_quoted (s : String) : Printable (quoted s).toList := by
  rw [quoted, String.toList_ofList, quoteChars]
  have hquote : isPrintable (quoteFor s.toList) = true := by
    rcases quoteFor_cases s.toList with h | h
    · exact h ▸ isPrintable_of_ascii (by decide) (by decide)
    · exact h ▸ isPrintable_of_ascii (by decide) (by decide)
  refine .append (.cons hquote fun c hc => ?_) (.singleton hquote)
  obtain ⟨c', _, hc⟩ := List.mem_flatMap.mp hc
  exact printable_escapeChar hquote c' c hc

/-! ## Reading a quoted text -/

variable {quote : Char}

/-- The value of a hexadecimal digit. -/
def hexValue (c : Char) : Nat := if c.toNat < 58 then c.toNat - 48 else c.toNat - 87

/-- The number that hexadecimal digits stand for. -/
def hexNumber (digits : List Char) : Nat := digits.foldl (fun n c => n * 16 + hexValue c) 0

/-- How many digits follow the letter of an escape. -/
def escapeWidth? (letter : Char) : Option Nat :=
  if letter = 'x' then some 2 else if letter = 'u' then some 4 else if letter = 'U' then some 8 else none

/-- The character that a letter behind a backslash stands for. -/
def escaped (letter : Char) : Char :=
  if letter = 'n' then '\n' else if letter = 'r' then '\r' else if letter = 't' then '\t' else letter

/-- Reads a text up to the quote that ends it, which nothing may follow. -/
def readQuoted? (quote : Char) : List Char → Option (List Char)
  | [] => none
  | c :: rest =>
    if c = quote then if rest.isEmpty then some [] else none
    else if c = '\\' then
      match rest with
      | [] => none
      | letter :: rest =>
        match escapeWidth? letter with
        | some width =>
          (readQuoted? quote (rest.drop width)).map (Char.ofNat (hexNumber (rest.take width)) :: ·)
        | none => (readQuoted? quote rest).map (escaped letter :: ·)
    else (readQuoted? quote rest).map (c :: ·)
termination_by cs => cs.length
decreasing_by
  all_goals simp only [List.length_cons, List.length_drop]; omega

theorem hexNumber_hexDigits (width n : Nat) : hexNumber (hexDigits width n) = n % 16 ^ width := by
  have hdigit : ∀ d : Fin 16, hexValue (hexDigitOf d) = d := by decide
  induction width generalizing n with
  | zero => rw [Nat.pow_zero, Nat.mod_one]; rfl
  | succ width ih =>
    have hlast : hexValue (hexDigitOf (n % 16)) = n % 16 := hdigit ⟨n % 16, Nat.mod_lt n (by decide)⟩
    have happend : hexNumber (hexDigits (width + 1) n) =
        hexNumber (hexDigits width (n / 16)) * 16 + hexValue (hexDigitOf (n % 16)) := by
      rw [hexDigits, hexNumber, List.foldl_append]
      rfl
    rw [happend, ih, hlast, Nat.pow_succ', Nat.mod_mul]
    omega

theorem length_hexDigits (width n : Nat) : (hexDigits width n).length = width := by
  induction width generalizing n with
  | zero => rfl
  | succ width ih => rw [hexDigits, List.length_append, ih, List.length_singleton]

/-- An escape by a number is read as the character with this number. -/
theorem readQuoted?_code {letter : Char} {width : Nat} (hquote : quote ≠ '\\')
    (hwidth : escapeWidth? letter = some width) (hlt : c.toNat < 16 ^ width) (rest : List Char) :
    readQuoted? quote ('\\' :: letter :: (hexDigits width c.toNat ++ rest)) =
      (readQuoted? quote rest).map (c :: ·) := by
  rw [readQuoted?, if_neg hquote.symm, if_pos rfl]
  simp only [hwidth]
  rw [List.drop_left' (length_hexDigits ..), List.take_left' (length_hexDigits ..), hexNumber_hexDigits,
    Nat.mod_eq_of_lt hlt, Char.ofNat_toNat]

theorem readQuoted?_letter {letter : Char} (hquote : quote ≠ '\\') (hwidth : escapeWidth? letter = none)
    (rest : List Char) : readQuoted? quote ('\\' :: letter :: rest) =
      (readQuoted? quote rest).map (escaped letter :: ·) := by
  rw [readQuoted?, if_neg hquote.symm, if_pos rfl]
  simp only [hwidth]

theorem readQuoted?_plain (hquote : c ≠ quote) (hbackslash : c ≠ '\\') (rest : List Char) :
    readQuoted? quote (c :: rest) = (readQuoted? quote rest).map (c :: ·) := by
  rw [readQuoted?.eq_def]
  exact (if_neg hquote).trans (if_neg hbackslash)

/-- What is written for a character is read as this character, whatever follows. -/
theorem readQuoted?_escapeChar (hquote : quote = '\'' ∨ quote = '"') (c : Char) (rest : List Char) :
    readQuoted? quote (escapeChar quote c ++ rest) = (readQuoted? quote rest).map (c :: ·) := by
  have hne : quote ≠ '\\' := by rcases hquote with rfl | rfl <;> decide
  unfold escapeChar
  split
  · next h =>
    have hc : c = '\'' ∨ c = '"' ∨ c = '\\' := by
      rcases (Bool.or_eq_true _ _).mp h with h | h
      · exact hquote.imp (eq_of_beq h).trans fun hq => .inl ((eq_of_beq h).trans hq)
      · exact .inr (.inr (eq_of_beq h))
    have hwidth : escapeWidth? c = none := by rcases hc with rfl | rfl | rfl <;> rfl
    have hsame : escaped c = c := by rcases hc with rfl | rfl | rfl <;> rfl
    exact (readQuoted?_letter hne hwidth rest).trans (by rw [hsame])
  next hplain =>
  split
  · next h => exact eq_of_beq h ▸ readQuoted?_letter hne rfl rest
  split
  · next h => exact eq_of_beq h ▸ readQuoted?_letter hne rfl rest
  split
  · next h => exact eq_of_beq h ▸ readQuoted?_letter hne rfl rest
  split
  · simp only [Bool.or_eq_true, beq_iff_eq, not_or] at hplain
    exact readQuoted?_plain hplain.1 hplain.2 rest
  · have hvalid : c.toNat < 0x110000 := by
      rcases c.valid with h | h
      · exact Nat.lt_trans h (by decide)
      · exact h.2
    rw [escapeCode]
    split
    · next h => exact readQuoted?_code hne rfl h rest
    split
    · next h => exact readQuoted?_code hne rfl h rest
    · exact readQuoted?_code hne rfl (Nat.lt_trans hvalid (by decide)) rest

/-- Reads a text between single or double quotes. -/
def unquote? : List Char → Option (List Char)
  | [] => none
  | quote :: rest => if quote = '\'' ∨ quote = '"' then readQuoted? quote rest else none

/-- A quoted text can be read back. -/
theorem unquote?_quoted (text : String) : unquote? (quoted text).toList = some text.toList := by
  have hread (quote : Char) (hquote : quote = '\'' ∨ quote = '"') (cs : List Char) :
      readQuoted? quote (cs.flatMap (escapeChar quote) ++ [quote]) = some cs := by
    induction cs with
    | nil =>
      rw [List.flatMap_nil, List.nil_append, readQuoted?, if_pos rfl]
      rfl
    | cons c cs ih =>
      rw [List.flatMap_cons, List.append_assoc, readQuoted?_escapeChar hquote, ih, Option.map_some]
  have hquote := quoteFor_cases text.toList
  rw [quoted, String.toList_ofList, quoteChars, List.cons_append, unquote?, if_pos hquote]
  exact hread _ hquote _

end CodeAtlas.Text
