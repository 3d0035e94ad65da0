import CodeAtlas.Text.Utf8

/-! # Reading what was written

A character that is written out as bytes is read back from them, whatever follows. If the bytes end
within it, what is there of it is read as a single replacement character. So the bytes up to any offset
are read as many characters as begin before it. -/

namespace CodeAtlas.Text

open String (utf8EncodeChar)

/-- Bytes that may come behind a first byte: one of a given range, then any that continue. -/
def Continues (low high : Nat) : List UInt8 → Prop
  | [] => True
  | b :: rest => low ≤ b.toNat ∧ b.toNat ≤ high ∧ Continues 0x80 0xbf rest

/-- The code point that bytes stand for behind a first byte that carries some of its bits. -/
def assemble (bits : Nat) (bytes : List UInt8) : Nat :=
  bytes.foldl (fun n b => n * 64 + (b.toNat - 0x80)) bits

theorem Continues.take {low high : Nat} {bytes : List UInt8} (h : Continues low high bytes) (k : Nat) :
    Continues low high (bytes.take k) := by
  induction bytes generalizing low high k with
  | nil => simp [Continues]
  | cons b rest ih =>
    cases k with
    | zero => trivial
    | succ k => exact ⟨h.1, h.2.1, ih h.2.2 k⟩

theorem Continues.le {low high : Nat} {bytes : List UInt8} (h : Continues low high bytes)
    (hlow : 0x80 ≤ low) : ∀ b ∈ bytes, 0x80 ≤ b.toNat := by
  induction bytes generalizing low high with
  | nil => exact List.forall_mem_nil _
  | cons b rest ih => exact List.forall_mem_cons.mpr ⟨Nat.le_trans hlow h.1, ih h.2.2 (Nat.le_refl _)⟩

theorem assemble_cons (bits : Nat) (b : UInt8) (rest : List UInt8) :
    assemble bits (b :: rest) = assemble (bits * 64 + (b.toNat - 0x80)) rest := by
  rw [assemble, List.foldl_cons, assemble]

theorem follow_of_continues {bits low high : Nat} {bytes : List UInt8} (h : Continues low high bytes)
    (tail : List UInt8) :
    follow bits low high bytes.length (bytes ++ tail) = (some (assemble bits bytes), tail) := by
  induction bytes generalizing bits low high with
  | nil => rfl
  | cons b rest ih =>
    obtain ⟨hlow, hhigh, hrest⟩ := h
    rw [assemble_cons, List.length_cons, List.cons_append, follow, if_pos (by simp [hlow, hhigh])]
    exact ih hrest

theorem follow_of_cut {bits low high more : Nat} {bytes : List UInt8} (h : Continues low high bytes)
    (hlt : bytes.length < more) : follow bits low high more bytes = (none, []) := by
  induction bytes generalizing bits low high more with
  | nil =>
    cases more with
    | zero => cases hlt
    | succ more => rfl
  | cons b rest ih =>
    obtain ⟨hlow, hhigh, hrest⟩ := h
    cases more with
    | zero => cases hlt
    | succ more =>
      rw [follow, if_pos (by simp [hlow, hhigh])]
      exact ih hrest (Nat.lt_of_succ_lt_succ hlt)

/-! ## First bytes -/

theorem lead?_two {b : Nat} (hlow : 0xc2 ≤ b) (hhigh : b ≤ 0xdf) :
    lead? b = some ⟨1, 0x80, 0xbf, b - 0xc0⟩ := by
  simp [lead?, hlow, hhigh]

theorem lead?_three {b : Nat} (hlow : 0xe0 ≤ b) (hhigh : b ≤ 0xef) :
    lead? b = some ⟨2, if b = 0xe0 then 0xa0 else 0x80, if b = 0xed then 0x9f else 0xbf, b - 0xe0⟩ := by
  have hnot : ¬ b ≤ 0xdf := by omega
  by_cases hfirst : b = 0xe0
  · simp [lead?, hfirst]
  by_cases hsurrogate : b = 0xed
  · simp [lead?, hsurrogate]
  have hmore : 0xe1 ≤ b := by omega
  simp [lead?, hnot, hfirst, hsurrogate, hmore, hhigh]

theorem lead?_four {b : Nat} (hlow : 0xf0 ≤ b) (hhigh : b ≤ 0xf4) :
    lead? b = some ⟨3, if b = 0xf0 then 0x90 else 0x80, if b = 0xf4 then 0x8f else 0xbf, b - 0xf0⟩ := by
  by_cases hfirst : b = 0xf0
  · simp [lead?, hfirst]
  by_cases hlast : b = 0xf4
  · simp [lead?, hlast]
  have hmore : 0xf1 ≤ b ∧ b ≤ 0xf3 := by omega
  have hnot : ¬ b ≤ 0xdf ∧ ¬ b ≤ 0xef ∧ b ≠ 0xe0 ∧ b ≠ 0xed := by omega
  simp [lead?, hnot, hfirst, hlast, hmore]

/-! ## Characters -/

theorem toNat_ofNat_of_lt {n : Nat} (h : n < 256) : (UInt8.ofNat n).toNat = n := by
  rw [UInt8.toNat_ofNat', Nat.mod_eq_of_lt h]

theorem utf8EncodeChar_of_lt {c : Char} (h : c.toNat < 0x80) :
    utf8EncodeChar c = [UInt8.ofNat c.toNat] := by
  have hle : c.val.toNat ≤ 0x7f := Nat.le_of_lt_succ h
  unfold utf8EncodeChar
  exact if_pos hle

/-- A character beyond ASCII is written as a first byte that announces the others. -/
theorem exists_lead {c : Char} (h : 0x80 ≤ c.toNat) : ∃ b rest l,
    utf8EncodeChar c = b :: rest ∧ 0x80 ≤ b.toNat ∧ lead? b.toNat = some l ∧ l.more = rest.length ∧
      0x80 ≤ l.low ∧ Continues l.low l.high rest ∧ assemble l.bits rest = c.toNat := by
  have hvalid : c.toNat < 0xd800 ∨ 0xdfff < c.toNat ∧ c.toNat < 0x110000 := c.valid
  have hlast (n : Nat) : (UInt8.ofNat (n % 0x40 + 0x80)).toNat = n % 0x40 + 0x80 :=
    toNat_ofNat_of_lt (by omega)
  unfold utf8EncodeChar
  simp only [show c.val.toNat = c.toNat from rfl]
  rw [if_neg (by omega)]
  split
  · have hfirst : (UInt8.ofNat (c.toNat / 64 % 0x20 + 0xc0)).toNat = c.toNat / 64 + 0xc0 := by
      rw [toNat_ofNat_of_lt (by omega)]
      omega
    refine ⟨_, _, _, rfl, ?_, lead?_two ?_ ?_, rfl, ?_, ⟨?_, ?_, trivial⟩, ?_⟩
    all_goals simp only [assemble, List.foldl_cons, List.foldl_nil, hfirst, hlast]; omega
  split
  · have hfirst : (UInt8.ofNat (c.toNat / 4096 % 0x10 + 0xe0)).toNat = c.toNat / 4096 + 0xe0 := by
      rw [toNat_ofNat_of_lt (by omega)]
      omega
    refine ⟨_, _, _, rfl, ?_, lead?_three ?_ ?_, rfl, ?_, ⟨?_, ?_, ?_, ?_, trivial⟩, ?_⟩
    all_goals simp only [assemble, List.foldl_cons, List.foldl_nil, hfirst, hlast]; try split
    all_goals omega
  · have hfirst : (UInt8.ofNat (c.toNat / 262144 % 0x08 + 0xf0)).toNat = c.toNat / 262144 + 0xf0 := by
      rw [toNat_ofNat_of_lt (by omega)]
      omega
    refine ⟨_, _, _, rfl, ?_, lead?_four ?_ ?_, rfl, ?_, ⟨?_, ?_, ?_, ?_, ?_, ?_, trivial⟩, ?_⟩
    all_goals simp only [assemble, List.foldl_cons, List.foldl_nil, hfirst, hlast]; try split
    all_goals omega

/-- What was written is read, whatever stands behind it. -/
theorem decode_utf8EncodeChar_append (c : Char) (tail : List UInt8) :
    decode (utf8EncodeChar c ++ tail) = c :: decode tail := by
  by_cases hascii : c.toNat < 0x80
  · rw [utf8EncodeChar_of_lt hascii, List.singleton_append, decode, toNat_ofNat_of_lt (by omega),
      if_pos hascii, Char.ofNat_toNat]
  · obtain ⟨b, rest, l, hbytes, hb, hlead, hmore, _, hrest, hvalue⟩ := exists_lead (Nat.le_of_not_lt hascii)
    rw [hbytes, List.cons_append, decode, if_neg (Nat.not_lt.mpr hb), hlead]
    simp only [hmore, follow_of_continues hrest, hvalue, Char.ofNat_toNat]

/-- A character that is cut apart is read as one replacement character. -/
theorem decode_take_utf8EncodeChar (c : Char) {k : Nat} (hpos : 0 < k) (hlt : k < c.utf8Size) :
    decode ((utf8EncodeChar c).take k) = [replacement] := by
  rw [← String.length_utf8EncodeChar] at hlt
  by_cases hascii : c.toNat < 0x80
  · rw [utf8EncodeChar_of_lt hascii, List.length_singleton] at hlt
    omega
  · obtain ⟨b, rest, l, hbytes, hb, hlead, hmore, _, hrest, _⟩ := exists_lead (Nat.le_of_not_lt hascii)
    obtain ⟨k, rfl⟩ := Nat.exists_eq_add_one.mpr hpos
    rw [hbytes, List.length_cons, Nat.add_lt_add_iff_right] at hlt
    have hcut : follow l.bits l.low l.high l.more (rest.take k) = (none, []) :=
      follow_of_cut (hrest.take k) (by rw [hmore, List.length_take]; omega)
    rw [hbytes, List.take_succ_cons, decode, if_neg (Nat.not_lt.mpr hb), hlead]
    simp only [hcut]
    rw [decode]

/-- Only a character of ASCII is written with a byte of ASCII, and with no other byte. -/
theorem eq_of_mem_utf8EncodeChar {c : Char} {b : UInt8} (hb : b ∈ utf8EncodeChar c) (h : b.toNat < 0x80) :
    c.toNat = b.toNat := by
  by_cases hascii : c.toNat < 0x80
  · rw [utf8EncodeChar_of_lt hascii, List.mem_singleton] at hb
    rw [hb, toNat_ofNat_of_lt (by omega)]
  · obtain ⟨first, rest, l, hbytes, hfirst, _, _, hlow, hrest, _⟩ := exists_lead (Nat.le_of_not_lt hascii)
    rw [hbytes] at hb
    have hle : 0x80 ≤ b.toNat := by
      rcases List.mem_cons.mp hb with rfl | hb
      · exact hfirst
      · exact hrest.le hlow b hb
    omega

/-! ## Texts -/

/-- The bytes that a text is written as. -/
def encode (cs : List Char) : List UInt8 := cs.flatMap utf8EncodeChar

@[simp] theorem encode_cons (c : Char) (cs : List Char) : encode (c :: cs) = utf8EncodeChar c ++ encode cs :=
  List.flatMap_cons

theorem encode_append (cs cs' : List Char) : encode (cs ++ cs') = encode cs ++ encode cs' :=
  List.flatMap_append

/-- A text is read back from its bytes. -/
theorem decode_encode (cs : List Char) : decode (encode cs) = cs := by
  induction cs with
  | nil =>
    rw [encode, List.flatMap_nil, decode]
  | cons c cs ih => rw [encode_cons, decode_utf8EncodeChar_append, ih]

/-- The offsets at which the characters of a text begin, the first of them at `o`. -/
def startsFrom (o : Nat) : List Char → List Nat
  | [] => []
  | c :: cs => o :: startsFrom (o + c.utf8Size) cs

theorem le_of_mem_startsFrom {o p : Nat} {cs : List Char} (h : p ∈ startsFrom o cs) : o ≤ p := by
  induction cs generalizing o with
  | nil => cases h
  | cons c cs ih =>
    rcases List.mem_cons.mp h with rfl | h
    · exact Nat.le_refl _
    · have := ih h
      omega

theorem lt_of_mem_startsFrom {o p : Nat} {cs : List Char} (h : p ∈ startsFrom o cs) :
    p < o + (encode cs).length := by
  induction cs generalizing o with
  | nil => cases h
  | cons c cs ih =>
    have hpos := c.utf8Size_pos
    rw [encode_cons, List.length_append, String.length_utf8EncodeChar]
    rcases List.mem_cons.mp h with rfl | h
    · omega
    · have := ih h
      omega

theorem startsFrom_append (o : Nat) (cs cs' : List Char) :
    startsFrom o (cs ++ cs') = startsFrom o cs ++ startsFrom (o + (encode cs).length) cs' := by
  induction cs generalizing o with
  | nil => rfl
  | cons c cs ih =>
    rw [List.cons_append, startsFrom, ih, encode_cons, List.length_append, String.length_utf8EncodeChar,
      startsFrom, List.cons_append, Nat.add_assoc]

theorem length_startsFrom (o : Nat) (cs : List Char) : (startsFrom o cs).length = cs.length := by
  induction cs generalizing o with
  | nil => rfl
  | cons c cs ih => rw [startsFrom, List.length_cons, ih, List.length_cons]

theorem countP_startsFrom_eq_zero {o k : Nat} (h : k ≤ o) (cs : List Char) :
    (startsFrom o cs).countP (· < k) = 0 := by
  refine List.countP_eq_zero.mpr fun p hp => ?_
  have := le_of_mem_startsFrom hp
  simpa using Nat.le_trans h this

/-- The first bytes of a text are read as many characters as begin within them. -/
theorem length_decode_take_encode (cs : List Char) (o k : Nat) :
    (decode ((encode cs).take k)).length = (startsFrom o cs).countP (· < o + k) := by
  induction cs generalizing o k with
  | nil => simp [encode, startsFrom, decode]
  | cons c cs ih =>
    rw [encode_cons, startsFrom, List.take_append, String.length_utf8EncodeChar]
    rcases Nat.lt_or_ge k c.utf8Size with hlt | hge
    · have hrest : (startsFrom (o + c.utf8Size) cs).countP (· < o + k) = 0 :=
        countP_startsFrom_eq_zero (by omega) cs
      rw [Nat.sub_eq_zero_of_le (Nat.le_of_lt hlt), List.take_zero, List.append_nil]
      rcases Nat.eq_zero_or_pos k with rfl | hpos
      · rw [List.take_zero, decode, List.countP_cons_of_neg (by simp), hrest]
        rfl
      · rw [decode_take_utf8EncodeChar c hpos hlt, List.countP_cons_of_pos (by simpa using hpos), hrest]
        rfl
    · have hpos := c.utf8Size_pos
      rw [List.take_of_length_le (by rwa [String.length_utf8EncodeChar]), decode_utf8EncodeChar_append,
        List.length_cons, ih (o + c.utf8Size), List.countP_cons_of_pos (by simp; omega)]
      rw [show o + c.utf8Size + (k - c.utf8Size) = o + k by omega]

end CodeAtlas.Text
