import FaultDrill.Text.Blank
import FaultDrill.Binary64.Numeral
/-!
# Spans of time

A span is a count of milliseconds below 2^64. It is written as a numeral with a unit (`ms`, `s`,
`m`, `h`, `d`); without a unit it counts seconds.
-/
namespace FaultDrill

/-- A length of time. -/
structure Span where
  millis : Nat
  deriving DecidableEq, Repr, Inhabited

namespace Span

/-- The longest span. -/
def limit : Nat := twoPow 64 - 1

/-- A span of whole seconds. -/
def seconds (n : Nat) : Span := ⟨n * 1000⟩

/-- Why a text is no span. -/
inductive Fault where
  /-- The text is blank. -/
  | empty
  /-- What precedes the unit is no numeral. -/
  | numeral (raw : String) (why : Binary64.NumeralFault)
  /-- The numeral is negative (a negative zero included), infinite or not a number. -/
  | notPositive (raw : String)
  deriving DecidableEq, Repr

/-- What went wrong, the outermost description first. -/
def Fault.chain : Fault → List String
  | .empty => ["duration cannot be empty"]
  | .numeral raw why => ["invalid duration '" ++ raw ++ "'", why.message]
  | .notPositive raw => ["duration must be a positive number: " ++ raw]

/-- A unit of time. -/
inductive Unit where
  | milli
  | second
  | minute
  | hour
  | day
  deriving DecidableEq, Repr

/-- Milliseconds in a unit. -/
def Unit.millis : Unit → Nat
  | .milli => 1
  | .second => 1000
  | .minute => 60000
  | .hour => 3600000
  | .day => 86400000

/-- The ending that names a unit. -/
def Unit.ending : Unit → List Char
  | .milli => ['m', 's']
  | .second => ['s']
  | .minute => ['m']
  | .hour => ['h']
  | .day => ['d']

/-- The first unit of the list whose ending the text has, with what precedes the ending. `ms` stands
before `s`, so that milliseconds are not taken for seconds. -/
def splitUnitAmong : List Unit → List Char → List Char × Unit
  | [], cs => (cs, .second)
  | u :: us, cs =>
    match Text.before? u.ending cs with
    | some value => (value, u)
    | none => splitUnitAmong us cs

/-- The numeral and the unit of a text in lower case; seconds when it names none. -/
def splitUnit (cs : List Char) : List Char × Unit :=
  splitUnitAmong [.milli, .second, .minute, .hour, .day] cs

/-- A count of a unit in whole milliseconds: the product rounded as a number, then to the nearest
millisecond with a half going up, and cut off at the longest span. -/
def scale (x : Binary64) (u : Unit) : Span :=
  let ms := if u = .milli then x else x.mul (.ofNat u.millis)
  match ms with
  | .finite .. => ⟨min ms.roundNat limit⟩
  | _ => ⟨limit⟩

/-- Reads a span. Blanks around the text and before the unit, and the case of letters, do not
matter. -/
def parse (raw : String) : Except Fault Span :=
  let text := (Text.lowerAscii (Text.trim raw)).toList
  if text.isEmpty then .error .empty
  else
    let (value, u) := splitUnit text
    match Binary64.ofNumeral (String.ofList (Text.trimChars value)) with
    | .error why => .error (.numeral raw why)
    | .ok x =>
      if x.isNegative || !x.isFinite then .error (.notPositive raw)
      else .ok (scale x u)

/-- A fraction of thousandths without trailing zeros, with its point; nothing for zero. -/
def fraction (thousandths : Nat) : String :=
  if thousandths = 0 then ""
  else
    let ds := Nat.toDigits 10 (thousandths + 1000)
    let ds := (ds.drop 1).reverse.dropWhile (· == '0')
    "." ++ String.ofList ds.reverse

/-- The span in a message: in seconds from one second on, in milliseconds below. -/
def message (d : Span) : String :=
  if 1000 ≤ d.millis then toString (d.millis / 1000) ++ fraction (d.millis % 1000) ++ "s"
  else if 0 < d.millis then toString d.millis ++ "ms"
  else "0ns"

/-- The span as a count of milliseconds that fits 32 bits, cut off at the largest. -/
def millis32 (d : Span) : Nat := min d.millis (twoPow 32 - 1)

end Span
end FaultDrill
