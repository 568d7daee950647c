import FaultDrill.Instant.Basic
import FaultDrill.Text.Blank
import FaultDrill.Binary64.Numeral
/-!
# Timestamps

An instant is written as `YYYY-MM-DDThh:mm:ss`, a fraction of no, three, six or nine digits, and the
offset. Years from 0 to 9999 have four digits, others a sign and at least four digits. Reading
accepts more: blanks around the text and between its parts, parts of one digit, `t` or a blank
between date and time, fractions of any length, and offsets up to 23:59.
-/
namespace FaultDrill.Instant

/-- A number with at least `width` digits. -/
def padded (width n : Nat) : List Char :=
  let ds := Nat.toDigits 10 n
  List.replicate (width - ds.length) '0' ++ ds

/-- The year of a timestamp. -/
def yearText (y : Int) : List Char :=
  if 0 ≤ y ∧ y ≤ 9999 then padded 4 y.toNat
  else (if y < 0 then '-' else '+') :: padded 4 y.natAbs

/-- The date of an instant. -/
def date (t : Instant) : Calendar.Date := Calendar.dateOf (t.seconds / 86400)

/-- The date part of a timestamp. -/
def dateText (t : Instant) : List Char :=
  let d := t.date
  yearText d.year ++ ['-'] ++ padded 2 d.month ++ ['-'] ++ padded 2 d.day

/-- The time of day of a timestamp, to the second; a leap second is the sixtieth. -/
def timeText (t : Instant) : List Char :=
  let s := t.secondOfDay
  padded 2 (s / 3600) ++ [':'] ++ padded 2 (s / 60 % 60) ++ [':'] ++
    padded 2 (s % 60 + t.nanos / second)

/-- The fraction of a timestamp, as short as groups of three digits allow. -/
def fractionText (t : Instant) : List Char :=
  let n := t.nanos % second
  if n = 0 then []
  else if n % 1000000 = 0 then '.' :: padded 3 (n / 1000000)
  else if n % 1000 = 0 then '.' :: padded 6 (n / 1000)
  else '.' :: padded 9 n

/-- The timestamp with a given mark for the offset. -/
def stamp (mark : List Char) (t : Instant) : String :=
  String.ofList (t.dateText ++ ['T'] ++ t.timeText ++ t.fractionText ++ mark)

/-- The timestamp in a document. -/
def document (t : Instant) : String := stamp ['Z'] t

/-- The timestamp in a report for people. -/
def message (t : Instant) : String := stamp "+00:00".toList t

/-- Date and time to the second, a blank between them and no offset. -/
def plain (t : Instant) : String := String.ofList (t.dateText ++ [' '] ++ t.timeText)

/-- From one to `most` digits in front, blanks before them ignored, and the rest. -/
def number? (most : Nat) (cs : List Char) : Option (Nat × List Char) :=
  let cs := Text.trimLeft cs
  let ds := (cs.take most).takeWhile Char.isDigit
  if ds.isEmpty then none else some (Binary64.digitsValue ds, cs.drop ds.length)

/-- What follows a given character, blanks before it ignored. -/
def skip? (c : Char) (cs : List Char) : Option (List Char) :=
  match Text.trimLeft cs with
  | d :: rest => if d = c then some rest else none
  | [] => none

/-- The year in front: up to four digits, or a sign and any number of digits. -/
def year? (cs : List Char) : Option (Int × List Char) :=
  match Text.trimLeft cs with
  | '+' :: r => (digits? r).map fun (n, r) => ((n : Int), r)
  | '-' :: r => (digits? r).map fun (n, r) => (-(n : Int), r)
  | r => (number? 4 r).map fun (n, r) => ((n : Int), r)
where
  /-- At least one digit, and all that follow it. -/
  digits? (cs : List Char) : Option (Nat × List Char) :=
    let ds := cs.takeWhile Char.isDigit
    if ds.isEmpty then none else some (Binary64.digitsValue ds, cs.drop ds.length)

/-- The fraction in front, in nanoseconds; digits after the ninth are dropped. Without a point there
is none; a point needs a digit. -/
def fraction? (cs : List Char) : Option (Nat × List Char) :=
  match cs with
  | '.' :: r =>
    let ds := r.takeWhile Char.isDigit
    if ds.isEmpty then none
    else
      let kept := ds.take 9
      some (Binary64.digitsValue kept * tenPow (9 - kept.length), r.drop ds.length)
  | r => some (0, r)

/-- Two digits in front and the rest. -/
def twoDigits? : List Char → Option (Nat × List Char)
  | a :: b :: r => if a.isDigit && b.isDigit then some (Binary64.digitsValue [a, b], r) else none
  | _ => none

/-- The offset in front, in seconds east. -/
def offset? (cs : List Char) : Option (Int × List Char) :=
  match cs with
  | 'Z' :: r => some (0, r)
  | 'z' :: r => some (0, r)
  | '+' :: r => amount 1 r
  | '-' :: r => amount (-1) r
  | '\u2212' :: r => amount (-1) r
  | a :: b :: c :: r => if [a, b, c].map Char.toLower = ['u', 't', 'c'] then some (0, r) else none
  | _ => none
where
  /-- Two digits of hours, colons or blanks or neither, two digits of minutes; less than a day. -/
  amount (sign : Int) (cs : List Char) : Option (Int × List Char) := do
    let (h, r) ← twoDigits? cs
    let (m, r) ← twoDigits? (r.dropWhile fun c => c == ':' || Text.isBlank c)
    if 60 ≤ m || 24 ≤ h then none else some (sign * ((h * 3600 + m * 60 : Nat) : Int), r)

/-- A date and a time of day make an instant, given the offset, when all parts are in range: the
local date must be in the range of dates, and so must the date in UTC. -/
def assemble (d : Calendar.Date) (h m s nanos : Nat) (offset : Int) : Option Instant :=
  if d.valid && h ≤ 23 && m ≤ 59 && s ≤ 60 then
    let local_ := Calendar.dayNumber d * 86400 + ((h * 3600 + m * 60 + min s 59 : Nat) : Int)
    let utc := local_ - offset
    if inRange local_ && inRange utc then
      some ⟨utc, if s = 60 then nanos + second else nanos⟩
    else none
  else none

/-- Reads a timestamp. -/
def parse? (text : String) : Option Instant := do
  let (y, r) ← year? text.toList
  let r ← skip? '-' r
  let (mo, r) ← number? 2 r
  let r ← skip? '-' r
  let (d, r) ← number? 2 r
  let r ← match r with
    | [] => none
    | c :: r => if c = 'T' || c = 't' || Text.isBlank c then some r else none
  let (h, r) ← number? 2 r
  let r ← skip? ':' r
  let (mi, r) ← number? 2 r
  let r ← skip? ':' r
  let (s, r) ← number? 2 r
  let (n, r) ← fraction? r
  let (off, r) ← offset? (Text.trimLeft r)
  if (Text.trimLeft r).isEmpty then assemble ⟨y, mo, d⟩ h mi s n off else none

end FaultDrill.Instant
