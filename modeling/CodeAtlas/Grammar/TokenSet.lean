/-! Sets of token numbers below 256, four machine words wide. -/

namespace CodeAtlas.Grammar

structure TokenSet where
  w0 : UInt64
  w1 : UInt64
  w2 : UInt64
  w3 : UInt64
  deriving BEq, Hashable, Inhabited, DecidableEq

namespace TokenSet

def empty : TokenSet := ⟨0, 0, 0, 0⟩

def isEmpty (s : TokenSet) : Bool := s == empty

@[inline] def union (s t : TokenSet) : TokenSet :=
  ⟨s.w0 ||| t.w0, s.w1 ||| t.w1, s.w2 ||| t.w2, s.w3 ||| t.w3⟩

def bit (i : Nat) : UInt64 := 1 <<< (i % 64).toUInt64

def singleton (i : Nat) : TokenSet :=
  if i < 64 then ⟨bit i, 0, 0, 0⟩
  else if i < 128 then ⟨0, bit i, 0, 0⟩
  else if i < 192 then ⟨0, 0, bit i, 0⟩
  else ⟨0, 0, 0, bit i⟩

@[inline] def contains (s : TokenSet) (i : Nat) : Bool :=
  let w := if i < 64 then s.w0 else if i < 128 then s.w1 else if i < 192 then s.w2 else s.w3
  w &&& bit i != 0

def insert (s : TokenSet) (i : Nat) : TokenSet := s.union (singleton i)

@[inline] def meets (s t : TokenSet) : Bool :=
  s.w0 &&& t.w0 != 0 || s.w1 &&& t.w1 != 0 || s.w2 &&& t.w2 != 0 || s.w3 &&& t.w3 != 0

def ofList (is : List Nat) : TokenSet := is.foldl insert empty

end TokenSet

end CodeAtlas.Grammar
