/-! # The last mark of a text

A text with a mark in it, such as a dot or a backslash, falls apart at the last one: there is no mark behind it. A text
that is read backwards up to a mark is read that far, or to its end if it has none. -/

namespace CodeAtlas.Text

variable {α : Type} [DecidableEq α] {mark : α} {l front back : List α}

/-- Whether a list falls apart at its last mark. -/
structure SplitsLast (mark : α) (l front back : List α) : Prop where
  eq : l = front ++ mark :: back
  unmarked : mark ∉ back

theorem unmarked_or_splitsLast (mark : α) (l : List α) :
    mark ∉ l ∨ ∃ front back, SplitsLast mark l front back := by
  by_cases hmem : mark ∈ l
  · obtain ⟨back, front, hsplit, hback⟩ := List.eq_append_cons_of_mem (List.mem_reverse.mpr hmem)
    refine .inr ⟨front.reverse, back.reverse, ?_, by simpa using hback⟩
    rw [← List.reverse_reverse l, hsplit]
    simp
  · exact .inl hmem

theorem ne_of_unmarked (h : mark ∉ l) : ∀ a ∈ l, (a != mark) = true := by
  intro a ha
  rw [bne_iff_ne]
  rintro rfl
  exact h ha

theorem takeWhile_reverse_of_unmarked (h : mark ∉ l) : l.reverse.takeWhile (· != mark) = l.reverse := by
  have hall := ne_of_unmarked (l := l.reverse) (by simpa using h)
  rw [← List.append_nil l.reverse, List.takeWhile_append_of_pos hall, List.takeWhile_nil]

theorem dropWhile_reverse_of_unmarked (h : mark ∉ l) : l.reverse.dropWhile (· != mark) = [] := by
  have hall := ne_of_unmarked (l := l.reverse) (by simpa using h)
  rw [← List.append_nil l.reverse, List.dropWhile_append_of_pos hall, List.dropWhile_nil]

namespace SplitsLast

theorem takeWhile_reverse (h : SplitsLast mark l front back) :
    l.reverse.takeWhile (· != mark) = back.reverse := by
  have hall := ne_of_unmarked (l := back.reverse) (by simpa using h.unmarked)
  rw [h.eq, List.reverse_append, List.reverse_cons, List.append_assoc, List.takeWhile_append_of_pos hall]
  simp

theorem dropWhile_reverse (h : SplitsLast mark l front back) :
    l.reverse.dropWhile (· != mark) = mark :: front.reverse := by
  have hall := ne_of_unmarked (l := back.reverse) (by simpa using h.unmarked)
  rw [h.eq, List.reverse_append, List.reverse_cons, List.append_assoc, List.dropWhile_append_of_pos hall]
  simp

end SplitsLast

end CodeAtlas.Text
