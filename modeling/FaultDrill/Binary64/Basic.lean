import FaultDrill.Power
/-!
# Binary floating point, 64 bits wide

A finite number is a sign, a mantissa below 2^53 and a scale: its magnitude is
`mantissa * 2^scale` units, where one unit is 2^-1074. In canonical form the mantissa is at least
2^52 unless the scale is zero, so each number has one form. All arithmetic here is exact on natural
numbers and rounds once, to the nearest number and on a tie to the even mantissa.
-/
namespace FaultDrill

/-- A 64-bit binary floating-point number. -/
inductive Binary64 where
  /-- Not a number. -/
  | nan
  /-- Above every finite number, or below when `negative`. -/
  | infinite (negative : Bool)
  /-- The finite number of magnitude `mantissa * 2^scale` units of 2^-1074. -/
  | finite (negative : Bool) (mantissa scale : Nat)
  deriving DecidableEq, Repr, Inhabited

namespace Binary64

/-- Units in the number one. -/
def one : Nat := twoPow 1074

/-- The largest scale of a finite number. -/
def maxScale : Nat := 2045

/-- The number zero. -/
def zero : Binary64 := .finite false 0 0

/-- The quotient rounded to the nearest natural number, a tie to the even one. -/
def divNearest (num den : Nat) : Nat :=
  let q := num / den
  let r := num % den
  if 2 * r < den then q
  else if den < 2 * r then q + 1
  else q + q % 2

/-- The number nearest to `num / den` units. -/
def ofUnits (negative : Bool) (num den : Nat) : Binary64 :=
  let scale := (num / den).log2 - 52
  let m := divNearest num (den * twoPow scale)
  if m < twoPow 53 then
    if scale ≤ maxScale then .finite negative m scale else .infinite negative
  else
    if scale + 1 ≤ maxScale then .finite negative (twoPow 52) (scale + 1) else .infinite negative

/-- The number nearest to the quotient `num / den`. -/
def ofRatio (negative : Bool) (num den : Nat) : Binary64 := ofUnits negative (num * one) den

/-- The number nearest to a natural number. -/
def ofNat (n : Nat) : Binary64 := ofRatio false n 1

/-- The magnitude of a finite number in units. -/
def magnitude : Binary64 → Nat
  | .finite _ m s => m * twoPow s
  | _ => 0

/-- The value of a finite number in units. -/
def units : Binary64 → Int
  | .finite true m s => -((m * twoPow s : Nat) : Int)
  | .finite false m s => ((m * twoPow s : Nat) : Int)
  | _ => 0

/-- Whether the sign bit is set. -/
def isNegative : Binary64 → Bool
  | .nan => false
  | .infinite n => n
  | .finite n _ _ => n

/-- Whether the number is finite. -/
def isFinite : Binary64 → Bool
  | .finite .. => true
  | _ => false

/-- The number with the other sign. -/
def neg : Binary64 → Binary64
  | .nan => .nan
  | .infinite n => .infinite (!n)
  | .finite n m s => .finite (!n) m s

/-- The strict order of numbers; nothing is below or above `nan`, and the two zeros are equal. -/
def lt : Binary64 → Binary64 → Bool
  | .nan, _ => false
  | _, .nan => false
  | .infinite a, .infinite b => a && !b
  | .infinite a, .finite .. => a
  | .finite .., .infinite b => !b
  | .finite a m s, .finite b n t =>
    decide ((Binary64.finite a m s).units < (Binary64.finite b n t).units)

/-- The order of numbers; false where either is `nan`. -/
def le : Binary64 → Binary64 → Bool
  | .nan, _ => false
  | _, .nan => false
  | x, y => !(lt y x)

/-- The product of two numbers. -/
def mul : Binary64 → Binary64 → Binary64
  | .nan, _ => .nan
  | _, .nan => .nan
  | .infinite a, .infinite b => .infinite (a != b)
  | .infinite a, .finite b n _ => if n = 0 then .nan else .infinite (a != b)
  | .finite a m _, .infinite b => if m = 0 then .nan else .infinite (a != b)
  | .finite a m s, .finite b n t => ofUnits (a != b) ((m * twoPow s) * (n * twoPow t)) one

/-- The quotient of two numbers. -/
def div : Binary64 → Binary64 → Binary64
  | .nan, _ => .nan
  | _, .nan => .nan
  | .infinite _, .infinite _ => .nan
  | .infinite a, .finite b _ _ => .infinite (a != b)
  | .finite a _ _, .infinite b => .finite (a != b) 0 0
  | .finite a m s, .finite b n t =>
    if n = 0 then (if m = 0 then .nan else .infinite (a != b))
    else ofUnits (a != b) (m * twoPow s * one) (n * twoPow t)

/-- The interchange form: sign bit, eleven exponent bits, 52 fraction bits. -/
def toBits : Binary64 → Nat
  | .nan => 0x7FF8000000000000
  | .infinite n => (if n then twoPow 63 else 0) + 0x7FF0000000000000
  | .finite n m s => (if n then twoPow 63 else 0) + s * twoPow 52 + m

/-- The magnitude rounded to a natural number, a tie away from zero. -/
def roundNat (x : Binary64) : Nat := (2 * x.magnitude + one) / (2 * one)

/-- `k` places of 53 random bits: the number `n * 2^-53` for `n` below 2^53. -/
def ofFraction53 (n : Nat) : Binary64 := ofRatio false n (twoPow 53)

end Binary64
end FaultDrill
