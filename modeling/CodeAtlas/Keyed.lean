/-! # Keyed lists

A list of entries with distinct keys, in the order in which the keys were first set. -/

namespace CodeAtlas

abbrev Keyed (β : Type) := List (String × β)

namespace Keyed

variable {β : Type}

def get? (m : Keyed β) (key : String) : Option β := (m.find? (·.1 == key)).map Prod.snd

def contains (m : Keyed β) (key : String) : Bool := m.any (·.1 == key)

/-- Changes the value of a key, which takes the last place if it is new. -/
def alter (m : Keyed β) (key : String) (f : Option β → β) : Keyed β :=
  match m with
  | [] => [(key, f none)]
  | (k, v) :: rest => if k == key then (k, f (some v)) :: rest else (k, v) :: alter rest key f

/-- Sets the value of a key, which keeps its place if it has one. -/
def set (m : Keyed β) (key : String) (value : β) : Keyed β := m.alter key fun _ => value

/-- Later entries win over earlier ones of the same key, but not their place. -/
def ofList (entries : List (String × β)) : Keyed β :=
  entries.foldl (fun m (k, v) => m.set k v) []

theorem get?_cons (k : String) (v : β) (rest : Keyed β) (key : String) :
    get? ((k, v) :: rest) key = if k = key then some v else get? rest key := by
  by_cases h : k = key <;> simp [get?, h]

theorem get?_alter_self (m : Keyed β) (key : String) (f : Option β → β) :
    (m.alter key f).get? key = some (f (m.get? key)) := by
  induction m with
  | nil => simp [alter, get?]
  | cons e rest ih =>
    obtain ⟨k, v⟩ := e
    by_cases h : k = key <;> simp [alter, get?_cons, h, ih]

theorem get?_alter_of_ne (m : Keyed β) {key other : String} (f : Option β → β)
    (h : key ≠ other) : (m.alter key f).get? other = m.get? other := by
  induction m with
  | nil => simp [alter, get?, h]
  | cons e rest ih =>
    obtain ⟨k, v⟩ := e
    by_cases hk : k = key
    · simp [alter, get?_cons, hk, h]
    · simp [alter, get?_cons, hk, ih]

end Keyed

end CodeAtlas
