import CodeAtlas.Proofs.Text.Utf8
import CodeAtlas.Tree.Source
import Mathlib.Data.Prod.Lex
import Mathlib.Order.Monotone.Basic

/-! # Rows and columns

A column is found by looking back for the last line break and reading the bytes behind it. No byte of a
longer character is a line break, so a line begins where a character begins, and what is read are the
characters that begin between there and the offset, also where the offset cuts a character apart. One
byte further, the row and the column stay or grow in the order of reading. -/

namespace CodeAtlas.Tree

open CodeAtlas.Text

/-! ## Line breaks in bytes -/

theorem eq_newline_of_mem {c : Char} (h : lineBreak ∈ String.utf8EncodeChar c) : c = '\n' := by
  have hc : c.toNat = 10 := eq_of_mem_utf8EncodeChar h (by decide)
  rw [← Char.ofNat_toNat c, hc]

theorem utf8EncodeChar_newline : String.utf8EncodeChar '\n' = [lineBreak] := by decide

/-- A byte that is a line break stands for a character that is one. -/
theorem exists_of_lineBreak {cs : List Char} {i : Nat} (h : (encode cs)[i]? = some lineBreak) :
    ∃ front back, cs = front ++ '\n' :: back ∧ (encode front).length = i := by
  induction cs generalizing i with
  | nil => cases h
  | cons c cs ih =>
    rw [encode_cons, List.getElem?_append] at h
    split at h
    · next hlt =>
      obtain rfl := eq_newline_of_mem (List.mem_of_getElem? h)
      rw [utf8EncodeChar_newline, List.length_singleton] at hlt
      exact ⟨[], cs, rfl, by simp [encode]; omega⟩
    · next hge =>
      obtain ⟨front, back, rfl, hlength⟩ := ih h
      refine ⟨c :: front, back, rfl, ?_⟩
      rw [encode_cons, List.length_append, hlength]
      omega

theorem count_lineBreak_encode_le (cs : List Char) : (encode cs).count lineBreak ≤ cs.length := by
  induction cs with
  | nil => simp [encode]
  | cons c cs ih =>
    have hone : (String.utf8EncodeChar c).count lineBreak ≤ 1 := by
      by_cases h : lineBreak ∈ String.utf8EncodeChar c
      · rw [eq_newline_of_mem h, utf8EncodeChar_newline]
        decide
      · rw [List.count_eq_zero.mpr h]
        decide
    rw [encode_cons, List.count_append, List.length_cons]
    omega

namespace Source

variable (s : Source) {b : Nat}

/-- The offsets at which the characters of the text begin. -/
def starts : List Nat := startsFrom 0 s.chars

/-- A line begins behind the last line break before an offset, or with the text if there is none. -/
structure IsLineStart (b start : Nat) : Prop where
  begins : start = 0 ∨ ∃ i < b, s.bytes.data[i]? = some lineBreak ∧ start = i + 1
  unbroken : ∀ i, start ≤ i → i < b → s.bytes.data[i]? ≠ some lineBreak

theorem toList_bytes : s.bytes.data.toList = encode s.chars := by
  rw [s.encoded, List.utf8Encode, List.toList_data_toByteArray]
  rfl

theorem row_eq (b : Nat) : s.row b = (s.bytes.data.toList.take b).count lineBreak := by
  rw [row, ByteArray.data_extract, Array.toList_extract, List.extract_eq_take_drop, List.drop_zero,
    Nat.sub_zero]

/-! ## One byte further -/

theorem lineStart_zero : s.lineStart 0 = 0 := by
  rw [lineStart, Nat.zero_min, behindBreak]

theorem lineStart_succ (b : Nat) :
    s.lineStart (b + 1) = if s.bytes.data[b]? = some lineBreak then b + 1 else s.lineStart b := by
  have hsize : s.bytes.size = s.bytes.data.size := rfl
  unfold lineStart
  rcases Nat.lt_or_ge b s.bytes.size with hlt | hge
  · rw [Nat.min_eq_left hlt, Nat.min_eq_left (Nat.le_of_lt hlt), behindBreak]
  · rw [Nat.min_eq_right (Nat.le_succ_of_le hge), Nat.min_eq_right hge,
      Array.getElem?_eq_none (hsize ▸ hge), if_neg (by simp)]

theorem row_succ (b : Nat) :
    s.row (b + 1) = s.row b + if s.bytes.data[b]? = some lineBreak then 1 else 0 := by
  rw [row_eq, row_eq, List.take_add_one, List.count_append, Array.getElem?_toList]
  cases s.bytes.data[b]? with
  | none => simp
  | some x => simp [List.count_singleton]

theorem isLineStart_lineStart (b : Nat) : s.IsLineStart b (s.lineStart b) := by
  induction b with
  | zero =>
    rw [lineStart_zero]
    exact ⟨Or.inl rfl, fun i _ hi => absurd hi (Nat.not_lt_zero i)⟩
  | succ b ih =>
    rw [lineStart_succ]
    split
    · next hbreak =>
      exact ⟨Or.inr ⟨b, Nat.lt_succ_self b, hbreak, rfl⟩, fun i hi hlt => by omega⟩
    · next hno =>
      refine ⟨ih.begins.imp_right fun ⟨i, hi, h⟩ => ⟨i, Nat.lt_succ_of_lt hi, h⟩, fun i hi hlt => ?_⟩
      rcases Nat.lt_succ_iff_lt_or_eq.mp hlt with hlt | rfl
      · exact ih.unbroken i hi hlt
      · exact hno

/-! ## Columns -/

/-- A line begins with a character, or at the end of the text. -/
theorem exists_line {start : Nat} (h : s.IsLineStart b start) :
    start ≤ b ∧ ∃ front back, s.chars = front ++ back ∧ (encode front).length = start := by
  rcases h.begins with rfl | ⟨i, hi, hbreak, rfl⟩
  · exact ⟨Nat.zero_le b, [], s.chars, rfl, rfl⟩
  · rw [← Array.getElem?_toList, toList_bytes] at hbreak
    obtain ⟨front, back, hchars, hlength⟩ := exists_of_lineBreak hbreak
    refine ⟨hi, front ++ ['\n'], back, by rw [hchars, List.append_assoc]; rfl, ?_⟩
    rw [encode_append, List.length_append, hlength]
    rfl

/-- A column is the number of characters that begin on the line before the offset. -/
theorem column_eq (b : Nat) :
    s.column b = s.starts.countP fun o => s.lineStart b ≤ o ∧ o < b := by
  obtain ⟨hle, front, back, hchars, hlength⟩ := s.exists_line (s.isLineStart_lineStart b)
  rw [column, ByteArray.data_extract, Array.toList_extract, List.extract_eq_take_drop, toList_bytes, starts,
    hchars, encode_append, startsFrom_append, Nat.zero_add, List.countP_append]
  rw [← hlength] at hle ⊢
  have hfront : (startsFrom 0 front).countP (fun o => (encode front).length ≤ o ∧ o < b) = 0 := by
    refine List.countP_eq_zero.mpr fun o ho => ?_
    have := lt_of_mem_startsFrom ho
    simp only [decide_eq_true_eq]
    omega
  rw [List.drop_left, length_decode_take_encode back (encode front).length, hfront, Nat.zero_add]
  refine List.countP_congr fun o ho => ?_
  have := le_of_mem_startsFrom ho
  simp only [decide_eq_true_eq]
  omega

theorem countP_between_succ {start b : Nat} (h : start ≤ b) (offsets : List Nat) :
    (offsets.countP fun o => start ≤ o ∧ o < b + 1) =
      (offsets.countP fun o => start ≤ o ∧ o < b) + offsets.count b := by
  induction offsets with
  | nil => rfl
  | cons o rest ih =>
    rw [List.countP_cons, List.countP_cons, List.count_cons, ih]
    simp only [decide_eq_true_eq, beq_iff_eq]
    split_ifs <;> omega

theorem column_succ (b : Nat) :
    s.column (b + 1) =
      if s.bytes.data[b]? = some lineBreak then 0 else s.column b + s.starts.count b := by
  rw [column_eq, column_eq, lineStart_succ]
  split
  · refine List.countP_eq_zero.mpr fun o _ => ?_
    simp only [decide_eq_true_eq]
    omega
  · exact countP_between_succ (s.exists_line (s.isLineStart_lineStart b)).1 s.starts

theorem row_le (b : Nat) : s.row b ≤ s.chars.length := by
  rw [row_eq, toList_bytes]
  exact ((List.take_sublist ..).count_le _).trans (count_lineBreak_encode_le s.chars)

theorem column_le (b : Nat) : s.column b ≤ s.chars.length := by
  rw [column_eq, ← length_startsFrom 0 s.chars]
  exact List.countP_le_length

/-! ## The order of positions -/

/-- The row and the column of an offset, compared in the order of reading. -/
def rank (b : Nat) : Nat ×ₗ Nat := toLex (s.row b, s.column b)

theorem rank_le_succ (b : Nat) : s.rank b ≤ s.rank (b + 1) := by
  rw [rank, rank, Prod.Lex.toLex_le_toLex, row_succ, column_succ]
  split
  · exact Or.inl (Nat.lt_succ_self _)
  · exact Or.inr ⟨rfl, Nat.le_add_right _ _⟩

theorem rank_lt_succ (h : b ∈ s.starts) : s.rank b < s.rank (b + 1) := by
  rw [rank, rank, Prod.Lex.toLex_lt_toLex, row_succ, column_succ]
  split
  · exact Or.inl (Nat.lt_succ_self _)
  · exact Or.inr ⟨rfl, Nat.lt_add_of_pos_right (List.count_pos_iff.mpr h)⟩

theorem monotone_rank : Monotone s.rank := monotone_nat_of_le_succ s.rank_le_succ

theorem starts_ofString (text : String) : (ofString text).starts = startsFrom 0 text.toList := rfl

/-- Wherever a text can be split but at its end, a character begins. -/
theorem mem_starts {text : String} (hb : String.Pos.Raw.IsValid text ⟨b⟩) (hlt : b < text.utf8ByteSize) :
    b ∈ (ofString text).starts := by
  have hsize (cs : List Char) : cs.utf8Encode.size = (encode cs).length := List.size_toByteArray
  obtain ⟨front, back, hfront, rfl⟩ := hb.exists
  have hlength : (encode front).length = b := by
    rw [← hsize, hfront, ByteArray.size_extract, String.size_toByteArray]
    exact Nat.min_eq_left (Nat.le_of_lt hlt)
  cases back with
  | nil =>
    rw [List.append_nil, ← String.size_toByteArray, String.toByteArray_ofList, hsize, hlength] at hlt
    exact absurd hlt (Nat.lt_irrefl b)
  | cons c back =>
    rw [starts_ofString, String.toList_ofList, startsFrom_append, hlength, Nat.zero_add]
    exact List.mem_append_right _ List.mem_cons_self

theorem strictMonoOn_rank (text : String) :
    StrictMonoOn (ofString text).rank {b | String.Pos.Raw.IsValid text ⟨b⟩} := by
  intro b hb b' hb' hlt
  have hstart : b ∈ (ofString text).starts := mem_starts hb (Nat.lt_of_lt_of_le hlt hb'.le_utf8ByteSize)
  calc (ofString text).rank b < (ofString text).rank (b + 1) := (ofString text).rank_lt_succ hstart
    _ ≤ (ofString text).rank b' := (ofString text).monotone_rank hlt

/-- The column of any offset, also of one within a character or past the end, is the number of characters
that begin between the start of its line and the offset. So rows and columns of larger offsets are never
earlier in the order of reading, and between any two places at which the text can be split they are later. -/
theorem columns_count_characters (text : String) :
    let s := ofString text;
    (∀ b, s.IsLineStart b (s.lineStart b) ∧
      s.column b = s.starts.countP fun o => s.lineStart b ≤ o ∧ o < b) ∧
    Monotone s.rank ∧ StrictMonoOn s.rank {b | String.Pos.Raw.IsValid text ⟨b⟩} := by
  intro s
  exact ⟨fun b => ⟨s.isLineStart_lineStart b, s.column_eq b⟩, s.monotone_rank, strictMonoOn_rank text⟩

/-- Offset five lies within the second character of the second line. -/
example : (ofString "a\né😀").position 5 = ⟨1, 2⟩ := by decide +kernel

end Source

end CodeAtlas.Tree
