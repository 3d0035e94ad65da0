/-! # Rounding

The nearest integer to a fraction, and the nearest number of 53 significant bits. A half goes to
the even neighbour. -/

namespace CodeAtlas.Number

/-- The integer nearest to `num / den`. -/
def roundHalfEven (num : Int) (den : Nat) : Int :=
  let below := num / (den : Int)
  let rest := num % (den : Int)
  if 2 * rest < den then below
  else if 2 * rest == den && below % 2 == 0 then below
  else below + 1

/-- The integer without the fraction behind it. -/
def truncate (num : Int) (den : Nat) : Int := num.tdiv den

def twoTo (n : Nat) : Nat := Nat.pow 2 n

def tenTo (n : Nat) : Nat := Nat.pow 10 n

/-- The number `mantissa * 2 ^ exponent`. -/
structure Binary where
  mantissa : Int
  exponent : Int
  deriving Repr, DecidableEq

namespace Binary

def num (b : Binary) : Int := b.mantissa * twoTo b.exponent.toNat

def den (b : Binary) : Nat := twoTo (-b.exponent).toNat

def isInteger (b : Binary) : Bool := b.num % (b.den : Int) == 0

end Binary

/-- Whether `n / d` reaches a power of two. -/
def reaches (n d : Nat) (power : Int) : Bool :=
  d * twoTo power.toNat ≤ n * twoTo (-power).toNat

/-- The largest power of two that a positive fraction reaches. -/
def floorLog2 (n d : Nat) : Int :=
  let guess := (n.log2 : Int) - (d.log2 : Int)
  if reaches n d guess then guess else guess - 1

/-- The nearest number of 53 significant bits, for fractions that are neither too large nor too
small for the usual exponents. -/
def nearest (num : Int) (den : Nat) : Binary :=
  if num == 0 then ⟨0, 0⟩
  else
    let exponent := floorLog2 num.natAbs den - 52
    ⟨roundHalfEven (num * twoTo (-exponent).toNat) (den * twoTo exponent.toNat), exponent⟩

end CodeAtlas.Number
