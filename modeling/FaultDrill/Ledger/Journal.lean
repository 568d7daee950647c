import FaultDrill.Event
import FaultDrill.Text.Utf8
/-!
# Journals

A journal is a file of events, one JSON document a line, that only grows. A line that holds no event
is passed over, so that the torn last line of a crash does no harm; the next event then begins on a
line of its own.
-/
namespace FaultDrill.Journal

/-- The line end. -/
def newline : UInt8 := 0x0A

/-- The bytes before and after each line end: one more piece than line ends. -/
def pieces : List UInt8 → List (List UInt8)
  | [] => [[]]
  | b :: bs =>
    if b = newline then [] :: pieces bs
    else match pieces bs with
      | [] => [[b]]
      | piece :: rest => (b :: piece) :: rest

/-- A line without the carriage return right before its end. -/
def stripReturn (line : List UInt8) : List UInt8 :=
  if line.getLast? = some 0x0D then line.dropLast else line

/-- The lines of given pieces: all but the last are complete, and the last is a line unless it is
empty. -/
def linesOf : List (List UInt8) → List (List UInt8)
  | [] => []
  | [last] => if last.isEmpty then [] else [last]
  | piece :: more => stripReturn piece :: linesOf more

/-- The lines of a file. -/
def lines (bytes : List UInt8) : List (List UInt8) := linesOf (pieces bytes)

/-- The event on a line, if it holds one. -/
def eventOf (line : String) : Option Event :=
  if Text.allBlank line then none else (Event.ofLine line).toOption

/-- The events of a file; nothing when a line is no text at all. -/
def events (bytes : List UInt8) : Option (List Event) := do
  let texts ← (lines bytes).mapM Text.Utf8.string?
  return texts.filterMap eventOf

/-- Whether the last line is not ended. -/
def isTorn (bytes : List UInt8) : Bool := bytes.getLast?.any (· != newline)

/-- The line of an event, with its end. -/
def entry (e : Event) : List UInt8 := Text.Utf8.bytes e.line ++ [newline]

/-- What is added to a file to record an event. -/
def addition (bytes : List UInt8) (e : Event) : List UInt8 :=
  if isTorn bytes then newline :: entry e else entry e

end FaultDrill.Journal
