import FaultDrill.Binary64.Basic
/-!
# Writing numbers in decimal

`shortest` gives the fewest digits that read back as the number, and of those the nearest to it;
`fixed` rounds the exact value to a number of places, a tie to the even last digit. The three
notations of the program differ only in where the point and the exponent go.
-/
namespace FaultDrill.Binary64

/-- A positive decimal value: `digits * 10^exponent`. -/
structure Decimal where
  digits : Nat
  exponent : Int
  deriving DecidableEq, Repr

/-- Ten to a power that may be negative, as numerator and denominator. -/
def tenPower (e : Int) : Nat × Nat :=
  if 0 ≤ e then (tenPow e.toNat, 1) else (1, tenPow (-e).toNat)

/-- The interval of values that round to a number, in quarter units: its two ends, and whether the
ends belong to it. Below a power of two the neighbours stand half as far apart. -/
def roundingInterval (m s : Nat) : Nat × Nat × Bool :=
  let v := 4 * m * twoPow s
  let below := if m = twoPow 52 && s != 0 then twoPow s else 2 * twoPow s
  (v - below, v + 2 * twoPow s, m % 2 == 0)

/-- The decimal on the grid of multiples of `10^e` that reads back as the number and is nearest to
it, if there is one: only the two grid points around the value can be. -/
def onGrid? (m s : Nat) (e : Int) : Option Decimal :=
  let (num, den) := tenPower e
  -- A grid step in quarter units is `step / den`; values are compared after multiplying by `den`.
  let step := 4 * one * num
  let v := 4 * m * twoPow s * den
  let (lo, hi, closed) := roundingInterval m s
  let inside (d : Nat) : Bool :=
    let x := d * step
    if closed then decide (lo * den ≤ x) && decide (x ≤ hi * den)
    else decide (lo * den < x) && decide (x < hi * den)
  let low := v / step
  let gapLow := v - low * step
  let gapHigh := (low + 1) * step - v
  match inside low && low != 0, inside (low + 1) with
  | true, true => some ⟨if gapHigh < gapLow then low + 1 else low, e⟩
  | true, false => some ⟨low, e⟩
  | false, true => some ⟨low + 1, e⟩
  | false, false => none

/-- The exponent of the leading decimal digit of `num / den`, found between two bounds. -/
def leadingExponent (num den : Nat) : Int :=
  if den ≤ num then ((Nat.toDigits 10 (num / den)).length : Int) - 1
  else
    -- `10^k * num ≥ den` first holds for the number of the leading place behind the point.
    let k := (Nat.toDigits 10 (den / num)).length
    if den ≤ num * tenPow (k - 1) then -((k - 1 : Nat) : Int) else -(k : Int)

/-- The first decimal found on the grids with 1, 2, 3, … digits. -/
def firstGrid (m s : Nat) (lead : Int) : (count used : Nat) → Decimal
  | 0, _ => ⟨m, 0⟩
  | count + 1, used =>
    match onGrid? m s (lead - used) with
    | some d => d
    | none => firstGrid m s lead count (used + 1)

/-- The trailing zeros of a decimal moved into its exponent. -/
def Decimal.trimZeros (fuel : Nat) (d : Decimal) : Decimal :=
  match fuel with
  | 0 => d
  | fuel + 1 =>
    if d.digits != 0 && d.digits % 10 == 0 then
      Decimal.trimZeros fuel ⟨d.digits / 10, d.exponent + 1⟩
    else d

/-- The shortest decimal that reads back as the number `m * 2^s` units, `m` positive. Seventeen
digits always suffice. -/
def shortest (m s : Nat) : Decimal :=
  (firstGrid m s (leadingExponent (m * twoPow s) one) 18 0).trimZeros 400

/-- `n` zeros. -/
def zeros (n : Nat) : List Char := List.replicate n '0'

/-- A decimal without an exponent mark, and with `.0` behind a whole number when `pointed`. -/
def positional (pointed : Bool) (d : Decimal) : List Char :=
  let ds := Nat.toDigits 10 d.digits
  let whole : Int := ds.length + d.exponent
  if 0 ≤ d.exponent then ds ++ zeros d.exponent.toNat ++ (if pointed then ['.', '0'] else [])
  else if 0 < whole then ds.take whole.toNat ++ ['.'] ++ ds.drop whole.toNat
  else ['0', '.'] ++ zeros (-whole).toNat ++ ds

/-- A decimal with one digit before the point and an exponent mark. An exponent that is not negative
has a plus sign when `plus`. -/
def scientific (plus : Bool) (d : Decimal) : List Char :=
  let ds := Nat.toDigits 10 d.digits
  let e : Int := ds.length + d.exponent - 1
  let mark := 'e' :: (if plus && 0 ≤ e then "+" ++ toString e else toString e).toList
  match ds with
  | [c] => c :: mark
  | c :: rest => c :: '.' :: rest ++ mark
  | [] => mark

/-- A sign in front of a text. -/
def signed (negative : Bool) (cs : List Char) : String :=
  String.ofList (if negative then '-' :: cs else cs)

/-- The number in a message: its shortest digits, always positional, without a point behind a whole
number. -/
def message : Binary64 → String
  | .nan => "NaN"
  | .infinite n => signed n "inf".toList
  | .finite n 0 _ => signed n ['0']
  | .finite n m s => signed n (positional false (shortest m s))

/-- The number in a document: its shortest digits, positional when the leading digit stands between
the fifth place behind the point and the sixteenth before it, and with an exponent mark otherwise.
A whole number keeps `.0`; whether exponents have a plus sign is up to the format. -/
def document (plus : Bool) : Binary64 → String
  | .nan => ".nan"
  | .infinite n => signed n ".inf".toList
  | .finite n 0 _ => signed n ['0', '.', '0']
  | .finite n m s =>
    let d := shortest m s
    let whole : Int := (Nat.toDigits 10 d.digits).length + d.exponent
    signed n (if -5 < whole && whole ≤ 16 then positional true d else scientific plus d)

/-- The number with a fixed count of places behind the point, at least one, rounded from its exact
value; a tie goes to the even digit. The sign of zero is kept. -/
def fixed (places : Nat) : Binary64 → String
  | .nan => "NaN"
  | .infinite n => signed n "inf".toList
  | .finite n m s =>
    let scaled := divNearest (m * twoPow s * tenPow places) one
    let ds := Nat.toDigits 10 scaled
    let ds := zeros (places + 1 - ds.length) ++ ds
    let whole := ds.length - places
    signed n (ds.take whole ++ ['.'] ++ ds.drop whole)

end FaultDrill.Binary64
