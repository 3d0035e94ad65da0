import CodeAtlas.Keyed
import Mathlib.Data.List.Induction

/-! # Lists without repeated keys

Where no key is repeated, an entry is found by its key wherever it stands, and setting all entries one
after the other only lists them. -/

namespace CodeAtlas

section

variable {α κ : Type} [BEq κ] [LawfulBEq κ] {key : α → κ} {l : List α}

/-- Where a key is not repeated, looking for it finds exactly what has it. -/
theorem find?_key_eq_some (h : (l.map key).Nodup) {k : κ} {a : α} :
    l.find? (key · == k) = some a ↔ a ∈ l ∧ key a = k := by
  constructor
  · intro hf
    exact ⟨List.mem_of_find?_eq_some hf, by simpa using List.find?_some hf⟩
  · rintro ⟨ha, rfl⟩
    induction l with
    | nil => cases ha
    | cons b l ih =>
      obtain ⟨hb, hl⟩ := List.nodup_cons.mp h
      rcases List.mem_cons.mp ha with rfl | ha
      · simp
      · have hne : key b ≠ key a := fun he => hb (he ▸ List.mem_map_of_mem ha)
        rw [List.find?_cons_of_neg (by simpa using hne)]
        exact ih hl ha

theorem filter_key_eq_singleton (h : (l.map key).Nodup) {a : α} (ha : a ∈ l) :
    l.filter (key · == key a) = [a] := by
  induction l with
  | nil => cases ha
  | cons b l ih =>
    obtain ⟨hb, hl⟩ := List.nodup_cons.mp h
    rcases List.mem_cons.mp ha with rfl | ha
    · rw [List.filter_cons_of_pos (by simp), List.filter_eq_nil_iff.mpr]
      intro c hc he
      exact hb ((eq_of_beq he) ▸ List.mem_map_of_mem hc)
    · have hne : key b ≠ key a := fun he => hb (he ▸ List.mem_map_of_mem ha)
      rw [List.filter_cons_of_neg (by simpa using hne), ih hl ha]

theorem eq_of_key_eq (h : (l.map key).Nodup) {a b : α} (ha : a ∈ l) (hb : b ∈ l)
    (he : key a = key b) : a = b := by
  have hfa := (find?_key_eq_some h).mpr ⟨ha, he⟩
  have hfb := (find?_key_eq_some h).mpr ⟨hb, rfl⟩
  exact Option.some.inj (hfa.symm.trans hfb)

end

section

variable {α : Type} [BEq α] [LawfulBEq α]

theorem eraseDups_append_singleton (l : List α) (a : α) :
    (l ++ [a]).eraseDups = if l.contains a then l.eraseDups else l.eraseDups ++ [a] := by
  rw [List.eraseDups_append]
  by_cases h : a ∈ l <;> simp [List.removeAll, List.eraseDups_cons, h]

theorem nodup_eraseDups (l : List α) : l.eraseDups.Nodup := by
  induction l using List.reverseRecOn with
  | nil => exact List.nodup_nil
  | append_singleton l a ih =>
    rw [eraseDups_append_singleton]
    split
    · exact ih
    · next h =>
      refine List.nodup_append.mpr ⟨ih, by simp, ?_⟩
      rintro b hb c hc rfl
      exact h (List.contains_iff_mem.mpr (List.mem_singleton.mp hc ▸ List.mem_eraseDups.mp hb))

theorem perm_eraseDups {l l' : List α} (h : l.Perm l') : l.eraseDups.Perm l'.eraseDups := by
  refine (List.perm_ext_iff_of_nodup (nodup_eraseDups l) (nodup_eraseDups l')).mpr fun a => ?_
  rw [List.mem_eraseDups, List.mem_eraseDups, h.mem_iff]

end

namespace Keyed

variable {β : Type}

theorem contains_iff {m : Keyed β} {key : String} : m.contains key = true ↔ key ∈ m.map Prod.fst := by
  simp [contains]

theorem isSome_get? (m : Keyed β) (key : String) : (m.get? key).isSome = m.contains key := by
  rw [get?, Option.isSome_map, contains, List.isSome_find?]

theorem get?_eq_none_iff {m : Keyed β} {key : String} : m.get? key = none ↔ key ∉ m.map Prod.fst := by
  rw [← contains_iff, ← isSome_get?, Option.not_isSome_iff_eq_none]

theorem get?_append (m m' : Keyed β) (key : String) :
    get? (m ++ m') key = (m.get? key).or (m'.get? key) := by
  rw [get?, List.find?_append, Option.map_or]
  rfl

/-- Where no key is repeated, the order of the entries does not matter. -/
theorem get?_perm {m m' : Keyed β} (hm : (m.map Prod.fst).Nodup) (h : m.Perm m') (key : String) :
    m.get? key = m'.get? key := by
  rw [get?, get?]
  congr 1
  ext e
  rw [find?_key_eq_some hm, find?_key_eq_some ((h.map Prod.fst).nodup hm), h.mem_iff]

theorem map_fst_alter (m : Keyed β) (key : String) (f : Option β → β) :
    (m.alter key f).map Prod.fst =
      if m.contains key then m.map Prod.fst else m.map Prod.fst ++ [key] := by
  induction m with
  | nil => rfl
  | cons e rest ih =>
    obtain ⟨k, v⟩ := e
    by_cases h : k = key
    · simp [alter, contains, h]
    · have hne : (k == key) = false := by simpa using h
      have hrest : contains ((k, v) :: rest) key = contains rest key := by simp [contains, hne]
      rw [alter, if_neg (by simpa using h), List.map_cons, ih, List.map_cons, hrest]
      cases contains rest key <;> rfl

theorem get?_filter_self (m : Keyed β) (k : String) : get? (m.filter (·.1 != k)) k = none := by
  rw [get?, List.find?_filter, List.find?_eq_none.mpr fun e _ => by simp]
  rfl

theorem get?_filter_of_ne (m : Keyed β) {k other : String} (h : other ≠ k) :
    get? (m.filter (·.1 != k)) other = m.get? other := by
  rw [get?, List.find?_filter, get?]
  congr 2
  funext e
  by_cases he : e.1 = other <;> simp [he, h]

theorem set_of_not_mem {m : Keyed β} {k : String} (h : k ∉ m.map Prod.fst) (v : β) :
    m.set k v = m ++ [(k, v)] := by
  induction m with
  | nil => rfl
  | cons e m ih =>
    obtain ⟨hne, hm⟩ : k ≠ e.1 ∧ k ∉ m.map Prod.fst := by
      simpa only [List.map_cons, List.mem_cons, not_or] using h
    have hrest := ih hm
    rw [set] at hrest ⊢
    rw [alter, if_neg (by simpa using Ne.symm hne), hrest]
    rfl

/-- A table made from a list says of a key what stands last in the list. -/
theorem get?_ofList (l : List (String × β)) (k : String) :
    (ofList l).get? k = (l.reverse.find? (·.1 == k)).map Prod.snd := by
  have hgen : ∀ l : List (String × β),
      (ofList l.reverse).get? k = (l.find? (·.1 == k)).map Prod.snd := by
    intro l
    induction l with
    | nil => rfl
    | cons e l ih =>
      have hset : ofList (e :: l).reverse = (ofList l.reverse).set e.1 e.2 := by
        simp only [ofList, List.reverse_cons, List.foldl_append, List.foldl_cons, List.foldl_nil]
      rw [hset, set]
      by_cases hk : e.1 = k
      · rw [hk, get?_alter_self, List.find?_cons_of_pos (by simpa using hk)]
        rfl
      · rw [get?_alter_of_ne _ _ hk, List.find?_cons_of_neg (by simpa using hk), ih]
  simpa using hgen l.reverse

/-- Whatever a table made from a list says of a key stands in the list. -/
theorem mem_of_get?_ofList {l : List (String × β)} {k : String} {v : β}
    (h : (ofList l).get? k = some v) : (k, v) ∈ l := by
  rw [get?_ofList] at h
  obtain ⟨e, he, rfl⟩ := Option.map_eq_some_iff.mp h
  have hkey : e.1 = k := by simpa using List.find?_some he
  subst hkey
  exact List.mem_reverse.mp (List.mem_of_find?_eq_some he)

theorem get?_ofList_map_snd {γ : Type} (k : β → γ) (l : List (String × β)) (key : String) :
    (ofList (l.map fun e => (e.1, k e.2))).get? key = ((ofList l).get? key).map k := by
  rw [get?_ofList, get?_ofList, ← List.map_reverse, List.find?_map, Option.map_map, Option.map_map]
  rfl

/-- Entries without repeated keys stay as they are listed. -/
theorem ofList_of_nodup {l : List (String × β)} (h : (l.map Prod.fst).Nodup) : ofList l = l := by
  have hgen : ∀ (l m : List (String × β)), ((m ++ l).map Prod.fst).Nodup →
      l.foldl (fun m e => Keyed.set m e.1 e.2) m = m ++ l := by
    intro l
    induction l with
    | nil => intro m _; simp
    | cons e l ih =>
      intro m hm
      obtain ⟨k, v⟩ := e
      have hk : k ∉ m.map Prod.fst := by
        rw [List.map_append, List.map_cons] at hm
        exact fun hk => (List.nodup_append.mp hm).2.2 _ hk _ List.mem_cons_self rfl
      rw [List.foldl_cons]
      dsimp only
      rw [set_of_not_mem hk v, ih _ (by simpa using hm)]
      simp
  exact hgen l [] (by simpa using h)

/-- A table made from a list without repeated keys is looked up in that list. -/
theorem get?_ofList_map {α : Type} {key : α → String} {value : α → β} {l : List α}
    (h : (l.map key).Nodup) (k : String) :
    (ofList (l.map fun a => (key a, value a))).get? k = (l.find? (key · == k)).map value := by
  rw [ofList_of_nodup (by simpa [Function.comp_def] using h), get?, List.find?_map]
  cases h : l.find? (key · == k) <;> simp_all [Function.comp_def]

end Keyed

end CodeAtlas
