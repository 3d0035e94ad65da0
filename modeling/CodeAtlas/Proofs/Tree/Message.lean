import CodeAtlas.Proofs.Text.Quoted
import CodeAtlas.Tree.Fault

/-! # What is said of a fault

A message names the type of what is missing, or quotes the text of what was not expected: the beginning of its first
line that is not blank. There is such a line unless the text is blank throughout. Whatever is in the text or the type,
the message is one line of printable characters. -/

namespace CodeAtlas.Tree

open CodeAtlas.Text

variable {s : Source} {n : Node} {text part : String}

/-! ## What is quoted -/

/-- Whether a part of a text is one that a message may quote: it stands on one line, begins with the first character
of the text that is no white space, and has no more than forty characters. -/
structure IsSnippet (text part : List Char) : Prop where
  nonempty : part ≠ []
  short : part.length ≤ 40
  stands : ∃ front back, text = front ++ part ++ back ∧ ∀ c ∈ front, isBlank c = true
  first : ∀ c, part.head? = some c → isBlank c = false
  oneLine : ∀ c ∈ part, isLineBreak c = false

/-- A blank text has nothing to quote. -/
theorem snippet_of_blank (h : ∀ c ∈ text.toList, isBlank c = true) : snippet text = "" := by
  rw [snippet, trimChars_eq_nil_iff.mpr h]
  rfl

theorem isSnippet_snippet {c : Char} (hc : c ∈ text.toList) (hvisible : isBlank c = false) :
    IsSnippet text.toList (snippet text).toList := by
  rw [snippet, String.toList_ofList]
  generalize hline : firstLine (trimChars isBlank text.toList) = line
  obtain ⟨first, rest, htrim⟩ : ∃ first rest, trimChars isBlank text.toList = first :: rest := by
    refine List.exists_cons_of_ne_nil fun hnil => ?_
    rw [trimChars_eq_nil_iff.mp hnil c hc] at hvisible
    cases hvisible
  obtain ⟨behind, hbehind⟩ := isPrefix_trimChars isBlank text.toList
  have hhead : (text.toList.dropWhile isBlank).head? = some first := by
    rw [← hbehind, htrim, List.cons_append, List.head?_cons]
  have hfirst : isBlank first = false := of_head?_dropWhile hhead
  -- the first character is no white space, so it does not end a line
  have hbreak : isLineBreak first = false := by
    rw [Bool.eq_false_iff]
    intro hbreak
    rw [isBlank_of_isLineBreak hbreak] at hfirst
    cases hfirst
  obtain ⟨more, rfl⟩ : ∃ more, line = first :: more := by
    rw [← hline, htrim, firstLine, List.takeWhile_cons_of_pos (by simpa using hbreak)]
    exact ⟨_, rfl⟩
  refine ⟨by simp, List.length_take_le .., ?_, ?_, ?_⟩
  · have hmore : first :: more <+: trimChars isBlank text.toList := hline ▸ List.takeWhile_prefix _
    obtain ⟨back, hback⟩ := ((List.take_prefix 40 _).trans hmore).trans (isPrefix_trimChars ..)
    refine ⟨text.toList.takeWhile isBlank, back, ?_, fun c hc => List.mem_takeWhile_imp hc⟩
    rw [List.append_assoc, hback, List.takeWhile_append_dropWhile]
  · intro c hc
    rw [List.take_succ_cons, List.head?_cons] at hc
    cases hc
    exact hfirst
  · intro c hc
    have hmem : c ∈ firstLine (trimChars isBlank text.toList) := hline ▸ List.mem_of_mem_take hc
    simpa using List.mem_takeWhile_imp hmem

/-! ## The message -/

theorem faultMessage_of_blank (hfound : n.face.isMissing = false)
    (hblank : ∀ text, s.textOf? n = some text → ∀ c ∈ text.toList, isBlank c = true) :
    faultMessage s n = s!"Unexpected end of input {place s n}" := by
  have hnothing : snippet ((s.textOf? n).getD "") = "" := by
    cases htext : s.textOf? n with
    | none => exact snippet_of_blank (List.forall_mem_nil _)
    | some text => exact snippet_of_blank (hblank text htext)
  rw [faultMessage, hfound, hnothing]
  rfl

theorem faultMessage_of_visible {c : Char} (hfound : n.face.isMissing = false)
    (htext : s.textOf? n = some text) (hc : c ∈ text.toList) (hvisible : isBlank c = false) :
    faultMessage s n = s!"Unexpected token {quoted (snippet text)} {place s n}" := by
  have hsome : (snippet text).isEmpty = false := by
    rw [Bool.eq_false_iff, Ne, String.isEmpty_iff]
    intro hempty
    exact (isSnippet_snippet hc hvisible).nonempty (by rw [hempty]; rfl)
  rw [faultMessage, hfound, htext, Option.getD_some]
  simp [hsome]

/-- The two ways to say what was not expected are told apart by their first letters. -/
theorem unexpected_token_ne_end (quoted place other : String) :
    s!"Unexpected token {quoted} {place}" ≠ s!"Unexpected end of input {other}" := by
  intro h
  change "Unexpected token " ++ quoted ++ " " ++ place = "Unexpected end of input " ++ other at h
  have hletters := congrArg (fun m => m.toList.take 12) h
  rw [String.append_assoc, String.append_assoc, String.toList_append, List.take_append_of_le_length (by decide),
    String.toList_append, List.take_append_of_le_length (by decide)] at hletters
  exact absurd hletters (by decide)

theorem printable_place (s : Source) (n : Node) : Printable (place s n).toList := by
  have hline := (Printable.of_ascii "(".toList (by simp)).text_append (printable_toString (s.line n))
  have hcolumn := (hline.text_append (b := ":") (.of_ascii _ (by simp))).text_append
    (printable_toString (s.column n.start))
  exact hcolumn.text_append (b := ")") (.of_ascii _ (by simp))

/-- What is said about the node at a place, after some words. -/
theorem printable_words (words : String) (hwords : ∀ c ∈ words.toList, 32 ≤ c.toNat ∧ c.toNat ≤ 126)
    (text : String) (s : Source) (n : Node) :
    Printable (s!"{words}{quoted text} {place s n}").toList := by
  have htext := (Printable.of_ascii _ hwords).text_append (printable_quoted text)
  exact (htext.text_append (b := " ") (.of_ascii _ (by simp))).text_append (printable_place s n)

theorem printable_faultMessage (s : Source) (n : Node) : Printable (faultMessage s n).toList := by
  rw [faultMessage]
  dsimp only
  split
  · exact printable_words "Missing " (by simp) n.type s n
  split
  · exact (Printable.of_ascii "Unexpected end of input ".toList (by simp)).text_append
      (printable_place s n)
  · exact printable_words "Unexpected token " (by simp) _ s n

/-- A fault that is not a missing node is the end of the input exactly if its text is absent or blank. Otherwise the
message quotes a snippet of the text, in such a way that it can be read back. No message, also none about a missing
node, has a character that is not printable or ends a line. -/
theorem faultMessage_quotes_snippet (s : Source) (n : Node) :
    (n.face.isMissing = false →
      (faultMessage s n = s!"Unexpected end of input {place s n}" ↔
        ∀ text, s.textOf? n = some text → ∀ c ∈ text.toList, isBlank c = true) ∧
      ∀ text, s.textOf? n = some text → (∃ c ∈ text.toList, isBlank c = false) → ∃ part,
        faultMessage s n = s!"Unexpected token {quoted part} {place s n}" ∧
          IsSnippet text.toList part.toList ∧ unquote? (quoted part).toList = some part.toList) ∧
    ∀ c ∈ (faultMessage s n).toList, isPrintable c = true ∧ isLineBreak c = false := by
  refine ⟨fun hfound => ⟨⟨fun hend text htext c hc => ?_, faultMessage_of_blank hfound⟩, ?_⟩, ?_⟩
  · by_contra hvisible
    rw [faultMessage_of_visible hfound htext hc (by simpa using hvisible)] at hend
    exact unexpected_token_ne_end _ _ _ hend
  · rintro text htext ⟨c, hc, hvisible⟩
    exact ⟨snippet text, faultMessage_of_visible hfound htext hc hvisible, isSnippet_snippet hc hvisible,
      unquote?_quoted _⟩
  · have hprintable := printable_faultMessage s n
    exact fun c hc => ⟨hprintable c hc, hprintable.isLineBreak_eq_false hc⟩

/-- An erroneous node whose text begins with a separator of lines and holds a control and a single quote. -/
def noise : Node := .mk ⟨"ERROR", true, none, 0, 14, true, false, false, false⟩ []

def noiseText : String := "\u2028 it's\x07 \u2029x"

/-- What is quoted ends with the line. -/
theorem faultMessage_quotes_snippet_of_noise :
    noise.face.isMissing = false ∧ (Source.ofString noiseText).textOf? noise = some noiseText ∧
    (snippet noiseText).toList = "it's\x07 ".toList ∧
    ∃ part, faultMessage (.ofString noiseText) noise =
        s!"Unexpected token {quoted part} {place (.ofString noiseText) noise}" ∧
      IsSnippet noiseText.toList part.toList := by
  have htext : (Source.ofString noiseText).textOf? noise = some noiseText := by decide +kernel
  have hvisible : ∃ c ∈ noiseText.toList, isBlank c = false := ⟨'i', by decide +kernel⟩
  obtain ⟨part, hmessage, hpart, _⟩ :=
    ((faultMessage_quotes_snippet (.ofString noiseText) noise).1 rfl).2 noiseText htext hvisible
  exact ⟨rfl, htext, by decide +kernel, part, hmessage, hpart⟩

end CodeAtlas.Tree
