import FaultDrill.Binary64.Basic
/-!
# Reading decimal numerals

A numeral is an optional sign and either a name (`inf`, `infinity`, `nan`, in any case) or digits
with an optional point and an optional exponent. At least one digit stands beside the point and at
least one follows the exponent mark. The value is the number nearest to the numeral's exact value.
-/
namespace FaultDrill.Binary64

/-- Why a text is no numeral. -/
inductive NumeralFault where
  /-- There is no text at all. -/
  | empty
  /-- The text does not have the form of a numeral. -/
  | invalid
  deriving DecidableEq, Repr

/-- The wording of a numeral fault. -/
def NumeralFault.message : NumeralFault → String
  | .empty => "cannot parse float from empty string"
  | .invalid => "invalid float literal"

/-- The value of decimal digits, most significant first. -/
def digitsValue (ds : List Char) : Nat :=
  ds.foldl (fun n d => 10 * n + (d.toNat - '0'.toNat)) 0

/-- The longest run of digits in front, and the rest. -/
def spanDigits (cs : List Char) : List Char × List Char :=
  (cs.takeWhile Char.isDigit, cs.dropWhile Char.isDigit)

/-- The number nearest to `n * 10^e`. Far outside the range of finite numbers the powers are not
worked out: with `n` positive the value is at least `10^e` and below `10^(digits of n + e)`. -/
def ofDecimal (negative : Bool) (n : Nat) (e : Int) : Binary64 :=
  if n = 0 then .finite negative 0 0
  else if 400 < e then .infinite negative
  else if ((Nat.toDigits 10 n).length : Int) + e < -400 then .finite negative 0 0
  else if 0 ≤ e then ofRatio negative (n * tenPow e.toNat) 1
  else ofRatio negative n (tenPow (-e).toNat)

/-- Whether a minus stands in front, and what follows the sign if there is one. -/
def spanSign : List Char → Bool × List Char
  | '-' :: r => (true, r)
  | '+' :: r => (false, r)
  | r => (false, r)

/-- The exponent written after the digits of a numeral: nothing when there is none, a fault when its
digits are missing or something follows them. -/
def exponent? : List Char → Option Int
  | [] => some 0
  | c :: cs =>
    if c = 'e' || c = 'E' then
      let (negative, cs) := spanSign cs
      match spanDigits cs with
      | ([], _) => none
      | (ds, []) => some (if negative then -(digitsValue ds : Int) else digitsValue ds)
      | (_, _ :: _) => none
    else none

/-- The value of a name in lower case. -/
def named? (negative : Bool) (word : List Char) : Option Binary64 :=
  if word = "inf".toList || word = "infinity".toList then some (.infinite negative)
  else if word = "nan".toList then some .nan
  else none

/-- The digits behind a point, and the rest; no digits where there is no point. -/
def spanFraction : List Char → List Char × List Char
  | '.' :: r => spanDigits r
  | r => ([], r)

/-- The value of an unsigned numeral in digits. -/
def figures? (negative : Bool) (cs : List Char) : Option Binary64 :=
  let (whole, rest) := spanDigits cs
  let (fraction, rest) := spanFraction rest
  if whole.isEmpty && fraction.isEmpty then none
  else (exponent? rest).map fun e =>
    ofDecimal negative (digitsValue (whole ++ fraction)) (e - (fraction.length : Int))

/-- The value of an unsigned numeral. -/
def unsigned? (negative : Bool) (cs : List Char) : Option Binary64 :=
  (named? negative (cs.map Char.toLower)).or (figures? negative cs)

/-- The value of a numeral. -/
def ofNumeral (s : String) : Except NumeralFault Binary64 :=
  match s.toList with
  | [] => .error .empty
  | cs =>
    let (negative, cs) := spanSign cs
    match unsigned? negative cs with
    | some x => .ok x
    | none => .error .invalid

end FaultDrill.Binary64
