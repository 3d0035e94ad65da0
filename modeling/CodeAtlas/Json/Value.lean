import CodeAtlas.Number.Rounding

/-! # JSON values

Objects keep the order of their members. A number is an integer, a decimal fraction, or a number
that has no finite value. -/

namespace CodeAtlas

/-- The number `mantissa * 10 ^ exponent`. -/
structure Decimal where
  mantissa : Int
  exponent : Int
  deriving Repr, DecidableEq

inductive Json
  | null
  | bool (b : Bool)
  | int (n : Int)
  | decimal (d : Decimal)
  | nonFinite
  | string (s : String)
  | array (elements : List Json)
  | object (members : List (String × Json))
  deriving Repr, Inhabited

namespace Decimal

open Number

/-- The digits before the point, or minus the zeros behind it. -/
def magnitude (d : Decimal) : Int := ((toString d.mantissa.natAbs).length : Int) + d.exponent

/-- Whether a fraction lies beyond the numbers with 53 bits and the usual exponents. -/
def overflows (d : Decimal) : Bool :=
  if d.mantissa == 0 || d.magnitude < 300 then false
  else if 310 < d.magnitude then true
  else (twoTo 1024 - twoTo 970) * tenTo (-d.exponent).toNat ≤
    d.mantissa.natAbs * tenTo d.exponent.toNat

/-- The nearest number of 53 bits. -/
def nearest (d : Decimal) : Number.Binary :=
  if d.mantissa == 0 || d.magnitude < -330 then ⟨0, 0⟩
  else Number.nearest (d.mantissa * tenTo d.exponent.toNat) (tenTo (-d.exponent).toNat)

/-- The integer that a fraction is, once it is rounded to 53 bits. -/
def integer? (d : Decimal) : Option Int :=
  let b := d.nearest
  if b.isInteger then some (Number.truncate b.num b.den) else none

end Decimal

namespace Json

def strings (ss : List String) : Json := .array (ss.map .string)

def nat (n : Nat) : Json := .int n

def orNull (j? : Option Json) : Json := j?.getD .null

/-- An object without the members that have no value. -/
def compact (members : List (String × Option Json)) : Json :=
  .object (members.filterMap fun (key, value?) => value?.map (key, ·))

def member? (members : List (String × Json)) (key : String) : Option Json :=
  (members.find? (·.1 == key)).map Prod.snd

mutual

/-- Whether a value holds a number without a finite value. -/
def hasNonFinite : Json → Bool
  | .nonFinite => true
  | .array elements => anyNonFinite elements
  | .object members => anyMemberNonFinite members
  | _ => false

def anyNonFinite : List Json → Bool
  | [] => false
  | j :: rest => hasNonFinite j || anyNonFinite rest

def anyMemberNonFinite : List (String × Json) → Bool
  | [] => false
  | (_, j) :: rest => hasNonFinite j || anyMemberNonFinite rest

end

end Json

end CodeAtlas
