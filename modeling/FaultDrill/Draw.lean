import FaultDrill.Binary64.Basic
import FaultDrill.Draw.Cipher
/-!
# Random draws

A source of draws is a key and a place in its key stream, so that the same seed always gives the
same draws. A source is made from a 64-bit seed by a small generator that fills the key.
-/
namespace FaultDrill.Draw

/-- A source of random draws. -/
structure Source where
  key : Key
  /-- How many words have been drawn. -/
  place : Nat
  deriving DecidableEq, Repr, Inhabited

namespace Source

/-- One step of the generator that fills a key: its next state and the word it gives, a part of the
state turned right by its upper five bits. -/
def fill (state : UInt64) : UInt64 × UInt32 :=
  let s := state * 6364136223846793005 + 11634580027462260723
  let x := (((s >>> 18) ^^^ s) >>> 27).toUInt32
  let turn := (s >>> 59).toUInt32
  (s, if turn = 0 then x else rotate x (32 - turn))

/-- The first `n` words of the generator. -/
def fillWords : Nat → UInt64 → List UInt32
  | 0, _ => []
  | n + 1, state =>
    let (state, w) := fill state
    w :: fillWords n state

/-- The source with a given seed. -/
def seeded (seed : UInt64) : Source := ⟨⟨fillWords 8 seed⟩, 0⟩

/-- Draws a word of 32 bits. -/
def word32 (s : Source) : UInt32 × Source := (s.key.word s.place, { s with place := s.place + 1 })

/-- Draws a word of 64 bits: two words, the less significant one first. -/
def word64 (s : Source) : UInt64 × Source :=
  let (low, s) := s.word32
  let (high, s) := s.word32
  (low.toUInt64 ||| (high.toUInt64 <<< 32), s)

/-- Draws `n` words of 64 bits. -/
def words64 : Nat → Source → List UInt64 × Source
  | 0, s => ([], s)
  | n + 1, s =>
    let (w, s) := s.word64
    let (ws, s) := words64 n s
    (w :: ws, s)

@[simp]
theorem length_words64 (n : Nat) (s : Source) : (s.words64 n).1.length = n := by
  induction n generalizing s with
  | zero => rfl
  | succ n ih => exact congrArg (· + 1) (ih s.word64.2)

/-- Draws a number in [0, 1): a multiple of 2^-53, all equally likely. -/
def roll (s : Source) : Binary64 × Source :=
  let (w, s) := s.word64
  (.ofFraction53 (w >>> 11).toNat, s)

/-- The product of a drawn word and a count: its high half is an index below the count, and its low
half says whether the draw is accepted. -/
def product (v : UInt32) (n : Nat) : Nat × Nat := (v.toNat * n / twoPow 32, v.toNat * n % twoPow 32)

/-- The largest accepted low half for a count below 2^32: one less than the largest multiple of the
count by a power of two that fits 32 bits. -/
def zone (n : Nat) : Nat := n * twoPow (31 - n.log2) - 1

/-- Whether a drawn word gives an index. -/
def accepted (v : UInt32) (n : Nat) : Bool := decide ((product v n).2 ≤ zone n)

/-- Draws an index below `n`, drawing again as long as the draw is not accepted; nothing if that
takes too many draws. -/
def indexWithin : (draws : Nat) → Nat → Source → Option Nat × Source
  | 0, _, s => (none, s)
  | draws + 1, n, s =>
    let (v, s) := s.word32
    if accepted v n then (some (product v n).1, s) else indexWithin draws n s

/-- Draws an index below `n`. A draw is accepted at least every other time, so more than `2^32` of
them are not needed; if they were, the index 0 would stand for the one that is missing. -/
def index (n : Nat) (s : Source) : Nat × Source :=
  let (drawn, s) := indexWithin (twoPow 32 + 1) n s
  (drawn.getD 0, s)

/-- Draws an element of a list; nothing from an empty one. -/
def choose (xs : List α) (s : Source) : Option α × Source :=
  if xs.isEmpty then (none, s)
  else
    let (i, s) := s.index xs.length
    (xs[i]?, s)

end Source
end FaultDrill.Draw
