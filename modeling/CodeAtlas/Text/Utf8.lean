/-! # Bytes as UTF-8

Reading bytes as characters never fails: the longest part that could begin a character but
does not make one becomes a single replacement character. -/

namespace CodeAtlas.Text

/-- What a first byte announces: how many more bytes follow, the range of the next one, and
the bits that the first byte itself carries. -/
structure Lead where
  more : Nat
  low : Nat
  high : Nat
  bits : Nat

/-- A byte that begins a character of several bytes. The range of the second byte leaves out
overlong forms, surrogates and what lies past the last code point. -/
def lead? (b : Nat) : Option Lead :=
  if 0xc2 ≤ b && b ≤ 0xdf then some ⟨1, 0x80, 0xbf, b - 0xc0⟩
  else if b == 0xe0 then some ⟨2, 0xa0, 0xbf, 0⟩
  else if b == 0xed then some ⟨2, 0x80, 0x9f, 0xd⟩
  else if 0xe1 ≤ b && b ≤ 0xef then some ⟨2, 0x80, 0xbf, b - 0xe0⟩
  else if b == 0xf0 then some ⟨3, 0x90, 0xbf, 0⟩
  else if 0xf1 ≤ b && b ≤ 0xf3 then some ⟨3, 0x80, 0xbf, b - 0xf0⟩
  else if b == 0xf4 then some ⟨3, 0x80, 0x8f, 4⟩
  else none

/-- Reads the bytes that a first byte announced. Yields the code point, unless they end early,
and the bytes that are left. -/
def follow (bits low high : Nat) : Nat → List UInt8 → Option Nat × List UInt8
  | 0, bytes => (some bits, bytes)
  | _ + 1, [] => (none, [])
  | more + 1, b :: rest =>
    if low ≤ b.toNat && b.toNat ≤ high then
      follow (bits * 64 + (b.toNat - 0x80)) 0x80 0xbf more rest
    else (none, b :: rest)

theorem length_follow_le (bits low high more : Nat) (bytes : List UInt8) :
    (follow bits low high more bytes).2.length ≤ bytes.length := by
  fun_induction follow bits low high more bytes with
  | case1 => simp
  | case2 => simp
  | case3 _ _ _ _ _ _ _ ih => simp only [List.length_cons]; omega
  | case4 => simp

def replacement : Char := '\ufffd'

/-- The characters that bytes stand for. -/
def decode : List UInt8 → List Char
  | [] => []
  | b :: rest =>
    if b.toNat < 0x80 then Char.ofNat b.toNat :: decode rest
    else match lead? b.toNat with
      | none => replacement :: decode rest
      | some l =>
        let read := follow l.bits l.low l.high l.more rest
        (match read.1 with
          | some n => Char.ofNat n
          | none => replacement) :: decode read.2
termination_by bytes => bytes.length
decreasing_by
  · simp
  · simp
  · have := length_follow_le l.bits l.low l.high l.more rest
    simp only [List.length_cons]
    omega

def decodeBytes (bytes : ByteArray) : String := String.ofList (decode bytes.data.toList)

end CodeAtlas.Text
