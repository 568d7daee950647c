import FaultDrill.Yaml.Event
import FaultDrill.Binary64.Numeral
import FaultDrill.Document.Reader
/-!
# Reading YAML

The first document of a YAML text, references replaced by the values they name. The kind of a plain
text is left to the reader; a quoted one is always a text. What cannot be read any more stands as a
breach behind what could be.
-/
namespace FaultDrill.Yaml
open FaultDrill.Document

/-! ## Plain texts as values -/

/-- Whether a text stands for no value. -/
def isNullWord (s : String) : Bool := ["~", "null", "Null", "NULL"].contains s

/-- The flag that a text names. -/
def flag? (s : String) : Option Bool :=
  if ["true", "True", "TRUE"].contains s then some true
  else if ["false", "False", "FALSE"].contains s then some false
  else none

/-- Whether a text is a zero with further digits behind it, which is no number. -/
def isZeroLed (s : String) : Bool :=
  match s.toList with
  | '+' :: cs => zeroLed cs
  | '-' :: cs => zeroLed cs
  | cs => zeroLed cs
where
  zeroLed : List Char → Bool
    | '0' :: c :: cs => (c :: cs).all Char.isDigit
    | _ => false

/-- The value of a digit in any base up to 36. -/
def digitValue (c : Char) : Nat :=
  let c := c.toLower
  if c.isDigit then c.toNat - '0'.toNat
  else if 'a' ≤ c && c ≤ 'z' then c.toNat - 'a'.toNat + 10
  else 36

/-- The number below `limit` that digits of a base stand for. A plus may stand in front. -/
def inBase? (limit base : Nat) (cs : List Char) : Option Nat :=
  let cs := match cs with
    | '+' :: r => r
    | r => r
  if cs.isEmpty || !cs.all (digitValue · < base) then none
  else
    let n := cs.foldl (fun n c => base * n + digitValue c) 0
    if n < limit then some n else none

/-- The whole number below `limit` that a text stands for: decimal, or with `0x`, `0o` or `0b` in
front. -/
def wholeBelow? (limit : Nat) (s : String) : Option Nat :=
  let cs := match s.toList with
    | '+' :: r => r
    | r => r
  let signed := match cs with
    | '+' :: _ | '-' :: _ => true
    | _ => false
  let based := match cs with
    | '0' :: 'x' :: '+' :: _ | '0' :: 'o' :: '+' :: _ | '0' :: 'b' :: '+' :: _ => none
    | '0' :: 'x' :: r => inBase? limit 16 r
    | '0' :: 'o' :: r => inBase? limit 8 r
    | '0' :: 'b' :: r => inBase? limit 2 r
    | _ => none
  match based with
  | some n => some n
  | none => if signed || isZeroLed s then none else inBase? limit 10 cs

/-- The whole number of 64 bits that a text stands for. -/
def natural? (s : String) : Option Nat := wholeBelow? (twoPow 64) s

/-- The number that a text stands for. Names of infinity and of no number begin with a point. -/
def real? (s : String) : Option Binary64 :=
  let unsigned := match s.toList with
    | '+' :: r => r
    | r => r
  let twice := s.toList.head? == some '+' &&
    (unsigned.head? == some '+' || unsigned.head? == some '-')
  let word := String.ofList unsigned
  if twice then none
  else if [".inf", ".Inf", ".INF"].contains word then some (.infinite false)
  else if ["-.inf", "-.Inf", "-.INF"].contains s then some (.infinite true)
  else if [".nan", ".NaN", ".NAN"].contains s then some .nan
  else match Binary64.ofNumeral word with
    | .ok x => if x.isFinite then some x else none
    | .error _ => none

/-- Whether a text stands for a whole number of 128 bits, a negative one included. -/
def isInteger (s : String) : Bool :=
  match s.toList with
  | '-' :: r =>
    (wholeBelow? (twoPow 127 + 1) (String.ofList r)).isSome && !isZeroLed s && r.head? != some '+'
  | _ => (wholeBelow? (twoPow 128) s).isSome

/-- The tag of a kind of value. -/
def kindTag (kind : String) : String := "tag:yaml.org,2002:" ++ kind

/-- A text as a value whose kind is left to the reader. -/
def scalar (tag : Option String) (value : String) (style : Style) : Scalar :=
  let isPlain := style == .plain
  let unfit (kind : String) (fits : Bool) : Bool := tag == some (kindTag kind) && !fits
  let mismatch : Document.Fault :=
    if unfit "bool" (flag? value).isSome || unfit "int" (isInteger value) ||
        unfit "float" (real? value).isSome || unfit "null" (isNullWord value) then .wrongValue
    else .wrongType
  let asked {α : Type} (kind : String) (v : Option α) : Except Document.Fault α :=
    match v with
    | some a =>
      if isPlain || (style == .literal && tag == some (kindTag kind)) then .ok a
      else .error mismatch
    | none => .error mismatch
  .written {
    text := value
    absent :=
      if !isPlain then .ok false
      else if tag == some (kindTag "null") then
        if isNullWord value then .ok true else .error .wrongValue
      else if tag.isSome then .ok false
      else .ok (value.isEmpty || isNullWord value)
    isEmpty := isPlain && value.isEmpty
    mismatch
    flag := asked "bool" (flag? value)
    natural := asked "int" (natural? value)
    real := asked "float" (real? value) }

/-- The value of a text without any document. -/
def nothing : Scalar := .written {
  text := ""
  absent := .ok true
  isEmpty := true
  mismatch := .malformed
  flag := .error .malformed
  natural := .error .malformed
  real := .error .malformed }

/-! ## The first document -/

/-- A step through a document, a reference by the number of its anchor. -/
inductive Entry where
  | item (i : Item)
  | reference (anchor : Nat)

/-- The first document of a text. -/
structure Source where
  entries : Array Entry
  /-- Where the value of each numbered anchor begins, the latest first. -/
  anchors : List (Nat × Nat)
  /-- Whether the document is followed by the end of the text. -/
  sound : Bool
  /-- Whether the text has a document at all. -/
  present : Bool

/-- The number of a name, and the names with their numbers. A new name is numbered by how many there
are; a name that comes again takes that number too. -/
def numberAnchor (names : List (String × Nat)) (name : String) : Nat × List (String × Nat) :=
  let n := names.length
  (n, (name, n) :: names.filter (·.1 != name))

/-- The first document in a list of events, given what was gathered of it. -/
def gather : (names : List (String × Nat)) → Source → List Event → Source
  | _, src, [] => { src with sound := false }
  | names, src, e :: es =>
    let anchored (anchor : Option String) (i : Item) : Source :=
      let names' := anchor.map (numberAnchor names)
      let anchors := match names' with
        | some (n, _) => (n, src.entries.size) :: src.anchors
        | none => src.anchors
      gather ((names'.map (·.2)).getD names)
        { src with entries := src.entries.push (.item i), anchors } es
    match e with
    | .documentStart => gather names { src with present := true } es
    | .documentEnd => { src with sound := es == [.streamEnd] }
    | .streamEnd => { src with sound := true }
    | .alias name =>
      match names.lookup name with
      | some n => gather names { src with entries := src.entries.push (.reference n) } es
      | none => { src with sound := false }
    | .text anchor tag v style => anchored anchor (.scalar (scalar tag v style))
    | .openList anchor => anchored anchor .openList
    | .openRecord anchor => anchored anchor .openRecord
    | .closeList => gather names { src with entries := src.entries.push (.item .closeList) } es
    | .closeRecord => gather names { src with entries := src.entries.push (.item .closeRecord) } es

/-- How far a walk has come: the place in the document and how many collections are open there. -/
structure Stand where
  place : Nat
  depth : Nat

/-- The stand behind a value, and the stands to go back to. A reference that is a whole value is
itself behind its value. -/
def Stand.leave (s : Stand) : List Stand → Option (Stand × List Stand)
  | [] => if s.depth = 0 then none else some (s, [])
  | outer :: more => if s.depth = 0 then outer.leave more else some (s, outer :: more)

/-- The items of the value at a place, references replaced. References within references and
references altogether are limited, as a value may refer to a collection that it is part of. -/
def follow (src : Source) : (fuel jumps : Nat) → Stand → List Stand → List Item
  | 0, _, _, _ => [.broken]
  | fuel + 1, jumps, s, outer =>
    let onward (i : Item) (depth : Nat) : List Item :=
      i :: match (Stand.mk (s.place + 1) depth).leave outer with
        | some (s, outer) => follow src fuel jumps s outer
        | none => []
    match src.entries[s.place]? with
    | none => [.broken]
    | some (.item (.scalar x)) => onward (.scalar x) s.depth
    | some (.item .openList) => onward .openList (s.depth + 1)
    | some (.item .openRecord) => onward .openRecord (s.depth + 1)
    | some (.item i) => onward i (s.depth - 1)
    | some (.reference n) =>
      match jumps, src.anchors.lookup n with
      | jumps + 1, some place =>
        if 128 < outer.length then [.broken]
        else follow src fuel jumps ⟨place, 0⟩ (⟨s.place + 1, s.depth⟩ :: outer)
      | _, _ => [.broken]

/-- The items of a text. -/
def items (cs : List Char) : List Item :=
  let src := gather [] ⟨#[], [], true, false⟩ (events cs)
  let size := src.entries.size
  let value :=
    if size = 0 then (if src.sound && !src.present then [.scalar nothing] else [])
    else follow src ((100 * size + 1) * (size + 1)) (100 * size) ⟨0, 0⟩ []
  if src.sound then value else value ++ [.broken]

/-- The tree of a YAML text. Its lists stand for nothing but lists. -/
def tree (cs : List Char) : Tree := Tree.ofItems false (items cs)

/-- Reads a YAML text. -/
def read (r : Reader α) (text : String) : Except Document.Fault α := r.document (tree text.toList)

end FaultDrill.Yaml
