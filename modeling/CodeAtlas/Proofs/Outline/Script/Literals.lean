import CodeAtlas.Proofs.Outline.Script.Exports
import CodeAtlas.Proofs.Tree.Columns
import Mathlib.Data.List.Flatten
import Mathlib.Data.String.Basic

/-! # String literals

A literal stands for a quote, its contents and the quote again; the contents are laid out by fragments and escape
sequences. If there are fragments, then the contents are put together from them alone, and escape sequences are lost; if
there are none, then everything between the quotes is kept. So what is kept is what is written exactly if the literal
does not mix the two. -/

namespace CodeAtlas.Tree.Source

open CodeAtlas.Text

variable {s : Source} {n : Node} {cs : List Char}

/-- Whether a node stands for some characters of a text. -/
structure Covers (s : Source) (n : Node) (cs : List Char) : Prop where
  visible : n.face.silent = false
  stands : ∃ front back, s.chars = front ++ cs ++ back ∧ n.start = (encode front).length ∧
    n.stop = n.start + (encode cs).length

theorem Covers.textOf?_eq (h : s.Covers n cs) : s.textOf? n = some (String.ofList cs) := by
  obtain ⟨front, back, hchars, hstart, hstop⟩ := h.stands
  have hbytes : (s.bytes.extract n.start n.stop).data.toList = encode cs := by
    rw [ByteArray.data_extract, Array.toList_extract, List.extract_eq_take_drop, toList_bytes, hchars, encode_append,
      encode_append, hstop, hstart, List.append_assoc, List.drop_left, Nat.add_sub_cancel_left, List.take_left]
  rw [textOf?, h.visible, decodeBytes, hbytes, decode_encode]
  rfl

end CodeAtlas.Tree.Source

namespace CodeAtlas.Outline.Script

open CodeAtlas.Tree CodeAtlas.Text

variable {s : Source} {root n x spec : Node} {t : Trail} {quote : Char} {pieces : List (Node × List Char)}

/-! ## Literals -/

/-- Whether nodes with the characters that they stand for are laid out one behind the other from an offset on. -/
inductive Tiles : Nat → List (Node × List Char) → Prop
  | nil {o : Nat} : Tiles o []
  | cons {o : Nat} {m : Node} {cs : List Char} {rest : List (Node × List Char)} : m.face.silent = false →
      m.start = o → m.stop = m.start + (encode cs).length → Tiles m.stop rest → Tiles o ((m, cs) :: rest)

/-- All characters that some pieces stand for. -/
def content (pieces : List (Node × List Char)) : List Char := pieces.flatMap Prod.snd

/-- Whether a node is a string literal of which the named children are some pieces. -/
structure IsLiteral (s : Source) (n : Node) (quote : Char) (pieces : List (Node × List Char)) : Prop where
  quote_mem : quote ∈ ['\'', '"', '\x60']
  covers : s.Covers n (quote :: (content pieces ++ [quote]))
  children : n.namedChildren = pieces.map Prod.fst
  kinds : ∀ p ∈ pieces, p.1.type = "string_fragment" ∨ p.1.type = "escape_sequence"
  tiles : Tiles (n.start + quote.utf8Size) pieces

/-- The pieces that are no escape sequences. -/
def fragments (pieces : List (Node × List Char)) : List (Node × List Char) :=
  pieces.filter (·.1.type == "string_fragment")

/-- The characters of a literal that are kept. -/
def kept (pieces : List (Node × List Char)) : List Char :=
  if fragments pieces = [] then content pieces else content (fragments pieces)

/-- Whether a literal has both a fragment and an escape sequence. -/
def Mixed (pieces : List (Node × List Char)) : Prop :=
  (∃ p ∈ pieces, p.1.type = "string_fragment") ∧ ∃ p ∈ pieces, p.1.type = "escape_sequence" ∧ p.2 ≠ []

/-! ## What is kept -/

theorem content_cons (p : Node × List Char) (pieces : List (Node × List Char)) :
    content (p :: pieces) = p.2 ++ content pieces := List.flatMap_cons

/-- Pieces that are laid out along some characters stand each for its own. -/
theorem Tiles.covers {o : Nat} {front back : List Char} (h : Tiles o pieces) (hfront : (encode front).length = o)
    (hchars : s.chars = front ++ content pieces ++ back) : ∀ p ∈ pieces, s.Covers p.1 p.2 := by
  -- what stands before the pieces grows along the induction
  induction h generalizing front with
  | nil => exact List.forall_mem_nil _
  | @cons o m cs rest hvisible hstart hstop _ ih =>
    rw [content_cons, ← List.append_assoc] at hchars
    rw [← hstart] at hfront
    refine List.forall_mem_cons.mpr ⟨⟨hvisible, front, content rest ++ back, ?_, hfront.symm, hstop⟩, ?_⟩
    · rw [hchars, List.append_assoc (front ++ cs)]
    · exact ih (by rw [encode_append, List.length_append, hfront, hstop]) hchars

theorem IsLiteral.covers_piece (h : IsLiteral s n quote pieces) : ∀ p ∈ pieces, s.Covers p.1 p.2 := by
  obtain ⟨front, back, hchars, hstart, _⟩ := h.covers.stands
  have hquote : (encode (front ++ [quote])).length = n.start + quote.utf8Size := by
    rw [encode_append, List.length_append, hstart, encode_cons, List.length_append, String.length_utf8EncodeChar]
    rfl
  have hrest : s.chars = front ++ [quote] ++ content pieces ++ quote :: back := by
    rw [hchars]
    simp only [List.append_assoc, List.cons_append, List.nil_append]
  exact h.tiles.covers hquote hrest

/-- Leaving pieces out changes nothing exactly if these stand for nothing. -/
theorem content_filter_eq_iff {keep : Node × List Char → Bool} :
    content (pieces.filter keep) = content pieces ↔ ∀ p ∈ pieces, keep p = false → p.2 = [] := by
  induction pieces with
  | nil => simp [content]
  | cons p pieces ih =>
    rw [List.filter_cons, List.forall_mem_cons, ← ih, content_cons]
    split
    · next hkeep =>
      rw [content_cons, List.append_right_inj, hkeep, iff_and_self]
      exact fun _ => nofun
    · next hkeep =>
      have hkeep : keep p = false := by simpa using hkeep
      have hle : (content (pieces.filter keep)).length ≤ (content pieces).length :=
        (List.filter_sublist.flatMap Prod.snd).length_le
      constructor
      · intro h
        -- what is left of the others is no longer than they are, so nothing remains for this one
        have hlength := congrArg List.length h
        rw [List.length_append] at hlength
        have hnone : p.2 = [] := List.eq_nil_of_length_eq_zero (by omega)
        rw [hnone] at h
        exact ⟨fun _ => hnone, h⟩
      · rintro ⟨hnone, h⟩
        rw [h, hnone hkeep, List.nil_append]

theorem mem_fragments_iff {p : Node × List Char} :
    p ∈ fragments pieces ↔ p ∈ pieces ∧ p.1.type = "string_fragment" := by
  rw [fragments, List.mem_filter, beq_iff_eq]

theorem IsLiteral.kept_eq_content_iff (h : IsLiteral s n quote pieces) :
    kept pieces = content pieces ↔ ¬ Mixed pieces := by
  rw [kept]
  split
  · next hnone =>
    refine iff_of_true rfl fun hmixed => ?_
    obtain ⟨⟨p, hp, htype⟩, _⟩ := hmixed
    exact List.ne_nil_of_mem (mem_fragments_iff.mpr ⟨hp, htype⟩) hnone
  · next hsome =>
    obtain ⟨p, hp⟩ := List.exists_mem_of_ne_nil _ hsome
    rw [fragments, content_filter_eq_iff]
    constructor
    · rintro hempty ⟨_, p, hp, htype, hne⟩
      exact hne (hempty p hp (by simp [htype]))
    · intro hmixed p' hp' hother
      by_contra hne
      refine hmixed ⟨⟨p, mem_fragments_iff.mp hp⟩, p', hp', ?_, hne⟩
      exact (h.kinds p' hp').resolve_left (by simpa using hother)

/-- What a literal is read as. -/
theorem IsLiteral.stringValue_eq (h : IsLiteral s n quote pieces) :
    stringValue s n = String.ofList (kept pieces) := by
  have hfragments : n.namedChildren.filter (·.type == "string_fragment") = (fragments pieces).map Prod.fst := by
    rw [h.children, List.filter_map]
    rfl
  rw [stringValue, hfragments, kept]
  split
  · next hnone =>
    have hquote : ['\'', '"', '\x60'].contains quote = true := List.contains_iff_mem.mpr h.quote_mem
    have hclosed : (content pieces ++ [quote]).getLast? = some quote := List.getLast?_concat
    rw [if_pos (List.map_eq_nil_iff.mp hnone), h.covers.textOf?_eq]
    simp only [Option.getD_some, String.toList_ofList, hclosed, hquote, BEq.rfl, Bool.and_self, if_true,
      List.dropLast_concat]
  · next hsome =>
    have htexts : (fragments pieces).map (fun p => (s.textOf? p.1).getD "") =
        (fragments pieces).map fun p => String.ofList p.2 := by
      refine List.map_congr_left fun p hp => ?_
      rw [(h.covers_piece p (mem_fragments_iff.mp hp).1).textOf?_eq, Option.getD_some]
    rw [if_neg (fun hnone => hsome (by rw [hnone]; rfl)), List.map_map]
    change String.join ((fragments pieces).map fun p => (s.textOf? p.1).getD "") = _
    rw [htexts, String.join_eq, List.map_map, content, List.flatMap_def]
    simp only [Function.comp_def, String.toList_ofList]

/-! ## Where literals are read -/

/-- Whether a node is a specifier of an import statement. -/
def IsImportSpecifier (x spec : Node) : Prop :=
  ∃ clause part, x.firstOfType? ["import_clause"] = some clause ∧ part ∈ clause.namedChildren ∧
    part.type = "named_imports" ∧ spec ∈ part.namedChildren ∧ spec.type = "import_specifier"

/-- Whether a node is a specifier of an export statement. -/
def IsExportSpecifier (x spec : Node) : Prop :=
  ∃ clause, x.firstOfType? ["export_clause"] = some clause ∧ spec ∈ clause.namedChildren ∧
    spec.type = "export_specifier"

/-- Whether a file lists a value for a literal of a statement: as the source of an import, or as the name that an import
or export specifier goes by, unless it is empty in the latter. -/
structure Lists (s : Source) (root : Node) (t : Trail) (x n : Node) (file : ParsedFile) (value : String) : Prop where
  source : x.type = "import_statement" → x.child? "source" = some n →
    ∃ i, AddedAt (imported s) root t x [i] file.imports ∧ i.source = value
  importName : x.type = "import_statement" → (x.child? "source").isSome = true → n.type = "string" →
    ∀ spec, IsImportSpecifier x spec → spec.child? "name" = some n →
      importedName s spec = some value ∧ ∃ i, AddedAt (imported s) root t x [i] file.imports ∧ value ∈ i.names
  exportName : x.type = "export_statement" → x.hasToken "default" = false → n.type = "string" →
    ∀ spec, IsExportSpecifier x spec → (spec.child? "alias" <|> spec.child? "name") = some n →
      exportedName? s n = nonempty? (some value) ∧
        ∃ added, AddedAt (exported s) root t x added file.exports ∧ (value ≠ "" → named s x value ∈ added)

theorem importedName_of_string (hname : spec.child? "name" = some n) (htype : n.type = "string") :
    importedName s spec = some (stringValue s n) := by
  rw [importedName, hname, Option.map_some, if_pos (by simpa using htype)]

theorem exportedName?_of_string (htype : n.type = "string") :
    exportedName? s n = nonempty? (some (stringValue s n)) := by
  rw [exportedName?, if_pos (by simpa using htype)]

/-- An import lists the name of each of its specifiers. -/
theorem mem_names_of_importSpecifier {i : Import} {name : String} (hi : importOf? s x = some i)
    (hspec : IsImportSpecifier x spec) (hname : importedName s spec = some name) : name ∈ i.names := by
  obtain ⟨clause, part, hclause, hpart, hparts, hmem, htype⟩ := hspec
  obtain ⟨source, _, rfl⟩ := Option.map_eq_some_iff.mp hi
  rw [hclause]
  refine List.mem_flatMap.mpr ⟨part, hpart, ?_⟩
  rw [clauseNames, if_neg (by simp [hparts]), if_neg (by simp [hparts]), if_pos (by simp [hparts])]
  exact List.mem_filterMap.mpr ⟨spec, List.mem_filter.mpr ⟨hmem, by simpa using htype⟩, hname⟩

/-- An export lists the name of each of its specifiers. -/
theorem mem_passedOn_of_exportSpecifier {name : String} (hspec : IsExportSpecifier x spec)
    (hread : (spec.child? "alias" <|> spec.child? "name") = some n) (hname : exportedName? s n = some name) :
    name ∈ passedOn s x := by
  obtain ⟨clause, hclause, hmem, htype⟩ := hspec
  refine List.mem_append_right _ ?_
  rw [specifierNames, hclause]
  refine List.mem_filterMap.mpr ⟨spec, List.mem_filter.mpr ⟨hmem, by simpa using htype⟩, ?_⟩
  rw [hread, Option.bind_some, hname]

theorem mem_exportsOf_of_passedOn {name : String} (hnamed : x.hasToken "default" = false)
    (hname : name ∈ passedOn s x) : named s x name ∈ exportsOf s x := by
  rw [exportsOf_of_named hnamed]
  exact List.mem_map_of_mem (List.mem_append_right _ hname)

/-- A script that is not refused lists what a string is read as. -/
theorem lists_stringValue {path language : String} {o : Options} (hx : root.Reaches t x) (n : Node)
    (hclean : (Family.script.read path language s o root).hasErrors = false) :
    Lists s root t x n (Family.script.read path language s o root) (stringValue s n) where
  source himport hsource := by
    have hadded := imports_addedAt himport hx hclean
    obtain ⟨i, hi⟩ : ∃ i, importOf? s x = some i := ⟨_, by rw [importOf?, hsource]; rfl⟩
    rw [hi] at hadded
    refine ⟨i, hadded, ?_⟩
    rw [importOf?, hsource] at hi
    cases hi
    rfl
  importName himport hsource htype spec hspec hname := by
    have hread := importedName_of_string (s := s) hname htype
    have hadded := imports_addedAt himport hx hclean
    obtain ⟨i, hi⟩ : ∃ i, importOf? s x = some i :=
      Option.isSome_iff_exists.mp (Option.isSome_map.trans hsource)
    rw [hi] at hadded
    exact ⟨hread, i, hadded, mem_names_of_importSpecifier hi hspec hread⟩
  exportName hexport hnamed htype spec hspec hname := by
    have hread := exportedName?_of_string (s := s) htype
    refine ⟨hread, exportsOf s x, exports_addedAt hexport hx hclean, fun hne => ?_⟩
    have hsome : exportedName? s n = some (stringValue s n) := by
      rw [hread, nonempty?, Option.filter_some, if_pos (by simpa using hne)]
    exact mem_exportsOf_of_passedOn hnamed (mem_passedOn_of_exportSpecifier hspec hname hsome)

/-- A literal is read as its whole content exactly if it does not have both fragments and escape sequences; otherwise as
the content of its fragments only. What it is read as is what a script lists for it. So two literals that do not mix the
two are told apart by their contents. -/
theorem literal_kept_iff (s : Source) (n : Node) (quote : Char) (pieces : List (Node × List Char))
    (h : IsLiteral s n quote pieces) :
    (stringValue s n = String.ofList (content pieces) ↔ ¬ Mixed pieces) ∧
      (Mixed pieces → stringValue s n = String.ofList (content (fragments pieces))) ∧
      (∀ path language o root t x, root.Reaches t x →
        let file := Family.script.read path language s o root;
        file.hasErrors = false → Lists s root t x n file (stringValue s n)) ∧
      ∀ s' n' pieces', IsLiteral s' n' quote pieces' → ¬ Mixed pieces → ¬ Mixed pieces' →
        content pieces ≠ content pieces' → stringValue s n ≠ stringValue s' n' := by
  have hvalue := h.stringValue_eq
  have hkept := h.kept_eq_content_iff
  refine ⟨?_, fun hmixed => ?_, fun _ _ _ _ _ _ hx => lists_stringValue hx n, ?_⟩
  · rw [hvalue, String.ofList_inj, hkept]
  · obtain ⟨⟨p, hp, htype⟩, _⟩ := hmixed
    rw [hvalue, kept, if_neg (List.ne_nil_of_mem (mem_fragments_iff.mpr ⟨hp, htype⟩))]
  · intro s' n' pieces' h' hunmixed hunmixed' hne hsame
    rw [hvalue, h'.stringValue_eq, String.ofList_inj, hkept.mpr hunmixed, h'.kept_eq_content_iff.mpr hunmixed'] at hsame
    exact hne hsame

def escape (start stop : Nat) : Node := .plain "escape_sequence" none start stop []

def fragment (start stop : Nat) : Node := .plain "string_fragment" none start stop []

/-- A literal behind `from` in an import of one name. -/
def importFrom (start : Nat) (literal : Node) : Node :=
  .plain "import_statement" none start literal.stop
    [.plain "import_clause" none (start + 7) (start + 8) [.plain "identifier" none (start + 7) (start + 8) []], literal]

/-- A literal of two escape sequences. -/
def escapes : Node := .plain "string" (some "source") 14 22 [escape 15 19, escape 19 21]

def escapePieces : List (Node × List Char) :=
  [(escape 15 19, ['\\', 'x', '6', '2']), (escape 19 21, ['\\', 'n'])]

def escapesScript : Node := .plain "program" none 0 22 [importFrom 0 escapes]

def escapesText : Source := .ofString "import w from '\\x62\\n'"

theorem literal_kept_of_escapes :
    let file := Family.script.read "a.js" "javascript" escapesText .default escapesScript;
    IsLiteral escapesText escapes '\'' escapePieces ∧ file.hasErrors = false ∧
      stringValue escapesText escapes = "\\x62\\n" ∧
      ∃ i, AddedAt (imported escapesText) escapesScript [(escapesScript, 0)] (importFrom 0 escapes) [i] file.imports ∧
        i.source = "\\x62\\n" := by
  intro file
  have hliteral : IsLiteral escapesText escapes '\'' escapePieces :=
    { quote_mem := by decide
      covers := ⟨rfl, "import w from ".toList, [], by decide +kernel, by decide +kernel, by decide +kernel⟩
      children := rfl
      kinds := by decide
      tiles := .cons rfl (by decide) (by decide) (.cons rfl rfl (by decide) .nil) }
  have hclean : file.hasErrors = false := by decide +kernel
  have hunmixed : ¬ Mixed escapePieces := fun h => absurd h.1 (by decide)
  obtain ⟨hkept, _, hlists, _⟩ := literal_kept_iff escapesText escapes '\'' escapePieces hliteral
  have hvalue := hkept.mpr hunmixed
  obtain ⟨i, hadded, hsource⟩ := (hlists "a.js" "javascript" .default escapesScript [(escapesScript, 0)]
    (importFrom 0 escapes) (.child .root rfl rfl) hclean).source rfl rfl
  exact ⟨hliteral, hclean, hvalue, i, hadded, hsource.trans hvalue⟩

/-- A literal of a fragment, an escape sequence of four characters and a fragment. -/
def mixed (start : Nat) : Node :=
  .plain "string" (some "source") start (start + 8)
    [fragment (start + 1) (start + 2), escape (start + 2) (start + 6), fragment (start + 6) (start + 7)]

def mixedPieces (start : Nat) (escaped : List Char) : List (Node × List Char) :=
  [(fragment (start + 1) (start + 2), ['a']), (escape (start + 2) (start + 6), escaped),
    (fragment (start + 6) (start + 7), ['c'])]

theorem isLiteral_mixed {start : Nat} {escaped : List Char} (hlength : (encode escaped).length = 4)
    (hcovers : s.Covers (mixed start) ('"' :: (content (mixedPieces start escaped) ++ ['"']))) :
    IsLiteral s (mixed start) '"' (mixedPieces start escaped) where
  quote_mem := by decide
  covers := hcovers
  children := rfl
  kinds := List.forall_mem_cons.mpr ⟨.inl rfl, List.forall_mem_cons.mpr ⟨.inr rfl,
    List.forall_mem_singleton.mpr (.inl rfl)⟩⟩
  tiles := .cons rfl rfl rfl (.cons rfl rfl (congrArg (start + 2 + ·) hlength.symm) (.cons rfl rfl rfl .nil))

def mixedScript : Node :=
  .plain "program" none 0 45 [importFrom 0 (mixed 14), importFrom 23 (mixed 37)]

def mixedText : Source := .ofString "import w from \"a\\x62c\"\nimport v from \"a\\x63c\""

/-- Two literals lose their escape sequences, so that one value is listed for both. -/
theorem not_always_kept :
    let file := Family.script.read "a.js" "javascript" mixedText .default mixedScript;
    let pieces := mixedPieces 14 "\\x62".toList;
    let pieces' := mixedPieces 37 "\\x63".toList;
    IsLiteral mixedText (mixed 14) '"' pieces ∧ IsLiteral mixedText (mixed 37) '"' pieces' ∧
      content pieces = "a\\x62c".toList ∧ content pieces' = "a\\x63c".toList ∧
      stringValue mixedText (mixed 14) = "ac" ∧ stringValue mixedText (mixed 37) = "ac" ∧ file.hasErrors = false ∧
      file.imports = [⟨"ac", ["w"], true, false, 1⟩, ⟨"ac", ["v"], true, false, 2⟩] := by
  intro file pieces pieces'
  have hfirst : mixedText.Covers (mixed 14) ('"' :: (content pieces ++ ['"'])) :=
    ⟨rfl, mixedText.chars.take 14, mixedText.chars.drop 22, by decide +kernel, by decide +kernel, by decide +kernel⟩
  have hsecond : mixedText.Covers (mixed 37) ('"' :: (content pieces' ++ ['"'])) :=
    ⟨rfl, mixedText.chars.take 37, [], by decide +kernel, by decide +kernel, by decide +kernel⟩
  exact ⟨isLiteral_mixed (by decide) hfirst, isLiteral_mixed (by decide) hsecond, by decide +kernel, by decide +kernel,
    by decide +kernel, by decide +kernel, by decide +kernel, by decide +kernel⟩

end CodeAtlas.Outline.Script
