import FaultDrill.Power
/-!
# The key stream behind the draws

Random words come from the ChaCha cipher with twelve rounds: a key, a counter of blocks and a fixed
stream number of zero give sixteen words a block. `Key.word` is the endless sequence of words.
-/
namespace FaultDrill.Draw

/-- A key of 256 bits, eight words with the least significant byte of each word first. -/
structure Key where
  words : List UInt32
  deriving DecidableEq, Repr, Inhabited

/-- The sixteen words that a block is made of. -/
structure Block where
  (a0 a1 a2 a3 b0 b1 b2 b3 c0 c1 c2 c3 d0 d1 d2 d3 : UInt32)
  deriving DecidableEq, Repr, Inhabited

/-- The words turned left by `n` places, `n` between 1 and 31. -/
def rotate (x : UInt32) (n : UInt32) : UInt32 := (x <<< n) ||| (x >>> (32 - n))

/-- The cipher's step on four words. -/
def quarter (a b c d : UInt32) : UInt32 × UInt32 × UInt32 × UInt32 :=
  let a := a + b
  let d := rotate (d ^^^ a) 16
  let c := c + d
  let b := rotate (b ^^^ c) 12
  let a := a + b
  let d := rotate (d ^^^ a) 8
  let c := c + d
  let b := rotate (b ^^^ c) 7
  (a, b, c, d)

namespace Block

/-- Two rounds: the columns, then the diagonals. -/
def doubleRound (x : Block) : Block :=
  let (a0, b0, c0, d0) := quarter x.a0 x.b0 x.c0 x.d0
  let (a1, b1, c1, d1) := quarter x.a1 x.b1 x.c1 x.d1
  let (a2, b2, c2, d2) := quarter x.a2 x.b2 x.c2 x.d2
  let (a3, b3, c3, d3) := quarter x.a3 x.b3 x.c3 x.d3
  let (a0, b1, c2, d3) := quarter a0 b1 c2 d3
  let (a1, b2, c3, d0) := quarter a1 b2 c3 d0
  let (a2, b3, c0, d1) := quarter a2 b3 c0 d1
  let (a3, b0, c1, d2) := quarter a3 b0 c1 d2
  ⟨a0, a1, a2, a3, b0, b1, b2, b3, c0, c1, c2, c3, d0, d1, d2, d3⟩

/-- The words in order. -/
def toList (x : Block) : List UInt32 :=
  [x.a0, x.a1, x.a2, x.a3, x.b0, x.b1, x.b2, x.b3, x.c0, x.c1, x.c2, x.c3, x.d0, x.d1, x.d2, x.d3]

end Block

namespace Key

/-- The word `i` of the key. -/
def get (k : Key) (i : Nat) : UInt32 := k.words.getD i 0

/-- The block with the given number before the rounds. -/
def start (k : Key) (number : Nat) : Block where
  a0 := 0x61707865
  a1 := 0x3320646e
  a2 := 0x79622d32
  a3 := 0x6b206574
  b0 := k.get 0
  b1 := k.get 1
  b2 := k.get 2
  b3 := k.get 3
  c0 := k.get 4
  c1 := k.get 5
  c2 := k.get 6
  c3 := k.get 7
  d0 := number.toUInt32
  d1 := (number / twoPow 32).toUInt32
  d2 := 0
  d3 := 0

/-- The words of a block: those before the rounds added to those after twelve of them. -/
def block (k : Key) (number : Nat) : List UInt32 :=
  let s := k.start number
  let t := s.doubleRound.doubleRound.doubleRound.doubleRound.doubleRound.doubleRound
  List.zipWith (· + ·) s.toList t.toList

/-- The word at a place in the key stream. -/
def word (k : Key) (place : Nat) : UInt32 := (k.block (place / 16)).getD (place % 16) 0

end Key
end FaultDrill.Draw
