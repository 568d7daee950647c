import FaultDrill.Document.Node
/-!
# Reading documents into values

A reader takes the value of a document to a value of the program or finds the first fault on the
way. Records are read by a `Form`: the names of the fields in the order of their declaration, and
how each is read. Of several faults in a record the first in document order counts; a missing field
is noticed where the record ends.
-/
namespace FaultDrill.Document

/-- Reads a value of a document. -/
abbrev Reader (α : Type) := Node → Except Fault α

namespace Reader

/-- Reads a single value by one of the questions of `Scalar`. -/
def ofScalar (ask : Scalar → Except Fault α) : Reader α
  | .scalar s => ask s
  | _ => .error .wrongType

/-- Reads a text. -/
def text : Reader String := ofScalar Scalar.text
/-- Reads a flag. -/
def flag : Reader Bool := ofScalar Scalar.flag
/-- Reads a floating-point number. -/
def real : Reader Binary64 := ofScalar Scalar.real

/-- Reads a whole number from zero to `most`. -/
def natural (most : Nat) : Reader Nat := ofScalar fun s => do
  let n ← s.natural
  if n ≤ most then .ok n else .error .wrongValue

/-- Reads a value that may be absent. -/
def optional (r : Reader α) : Reader (Option α)
  | .scalar s => do
    if ← s.absent then return none else some <$> r (.scalar s)
  | n => some <$> r n

/-- Reads a list. -/
def list (r : Reader α) : Reader (List α)
  | .scalar s => if s.isEmpty then .ok [] else .error s.mismatch
  | .list elements whole _ => do
    let xs ← elements.mapM r
    if whole then .ok xs else .error .malformed
  | .record .. => .error .wrongType

/-- Reads a member of an enumeration, given by its word or by a record with the word as only key and
no value. -/
def oneOf (ofWord : String → Option α) : Reader α
  | .scalar s => do
    let w ← s.word
    look w
  | .record [] whole => .error (if whole then .notOneField else .malformed)
  | .record ((key, value) :: more) whole => do
    let w ← text key
    let a ← look w
    match value with
    | some (.scalar s) => if ← s.absent then .ok () else .error s.mismatch
    | some _ => .error .wrongType
    | none => .error .malformed
    if !more.isEmpty then .error .notOneField
    else if !whole then .error .malformed
    else .ok a
  | .list .. => .error .notAWord
where
  look (w : String) : Except Fault α :=
    match ofWord w with
    | some a => .ok a
    | none => .error (.unknownVariant w)

/-- Reads a record whose keys are free; the keys with their values, in order. -/
def table (r : Reader α) : Reader (List (String × α))
  | .scalar s => if s.isEmpty then .ok [] else .error s.mismatch
  | .record members whole => do
    let xs ← members.mapM fun (key, value) => do
      let k ← text key
      match value with
      | some v => return (k, ← r v)
      | none => throw .malformed
    if whole then .ok xs else .error .malformed
  | .list .. => .error .wrongType

/-- Reads the whole document. -/
def document (r : Reader α) (t : Tree) : Except Fault α :=
  match t.root with
  | none => .error .malformed
  | some n => do
    let a ← r n
    if t.sound then .ok a else .error .malformed

end Reader

/-! ## Records -/

/-- What a record gives for its fields: a value, or a fault with its place. -/
abbrev Outcome (α : Type) := Except (Nat × Fault) α

namespace Outcome

/-- Two outcomes together. Of two faults the one in front counts, and at one place the first. -/
def both (f : Outcome (α → β)) (x : Outcome α) : Outcome β :=
  match f, x with
  | .ok f, .ok a => .ok (f a)
  | .ok _, .error e => .error e
  | .error e, .ok _ => .error e
  | .error e, .error e' => .error (if e'.1 < e.1 then e' else e)

end Outcome

/-- Where the fields of a record are found. -/
structure Fields where
  /-- The place and the value of a field, by the field's number and name. -/
  get? : Nat → String → Option (Nat × Node)
  /-- The place behind all fields. -/
  stop : Nat
  /-- Whether the fields are given by their order. -/
  positional : Bool

/-- How a record is read. -/
structure Form (α : Type) where
  /-- The names of its fields in the order of their declaration. -/
  names : List String
  /-- Reads the fields, numbered from the given number on. -/
  read : Nat → Fields → Outcome α

namespace Form

/-- A field that must be there. -/
def required (name : String) (r : Reader α) : Form α where
  names := [name]
  read i fields := match fields.get? i name with
    | some (place, n) => (r n).mapError ((place, ·))
    | none => .error (fields.stop, if fields.positional then .wrongLength else .missingField name)

/-- A field that may be absent or empty. Where fields are given by their order it must be there. -/
def optional (name : String) (r : Reader α) : Form (Option α) where
  names := [name]
  read i fields := match fields.get? i name with
    | some (place, n) => (Reader.optional r n).mapError ((place, ·))
    | none => if fields.positional then .error (fields.stop, .wrongLength) else .ok none

/-- A field that may be missing in either way of writing and then has a standard value. -/
def defaulting (name : String) (standard : α) (r : Reader α) : Form α where
  names := [name]
  read i fields := match fields.get? i name with
    | some (place, n) => (r n).mapError ((place, ·))
    | none => .ok standard

instance : Applicative Form where
  pure a := ⟨[], fun _ _ => .ok a⟩
  seq f x :=
    let x := x ()
    ⟨f.names ++ x.names, fun i fields =>
      (f.read i fields).both (x.read (i + f.names.length) fields)⟩

/-- What becomes of the keys that name no field. -/
inductive Unknown where
  | ignored
  | refused
  deriving DecidableEq, Repr

/-- The faults of the keys themselves: a key that is no text, names no field though it must, or
comes twice, and a record that breaks off. -/
def keyFault? (names : List String) (unknown : Unknown) (whole : Bool) :
    (place : Nat) → (seen : List String) → List (Node × Option Node) → Option (Nat × Fault)
  | place, _, [] => if whole then none else some (place, .malformed)
  | place, seen, (key, value) :: more =>
    match Reader.text key with
    | .error e => some (place, e)
    | .ok k =>
      if !names.contains k && unknown = .refused then some (place, .unknownField k)
      else if names.contains k && seen.contains k then some (place, .duplicateField k)
      else if value.isNone then some (place, .malformed)
      else keyFault? names unknown whole (place + 1) (k :: seen) more

/-- The first member with a given key. -/
def find? (name : String) : (place : Nat) → List (Node × Option Node) → Option (Nat × Node)
  | _, [] => none
  | place, (key, value) :: more =>
    match Reader.text key, value with
    | .ok k, some v => if k = name then some (place, v) else find? name (place + 1) more
    | _, _ => find? name (place + 1) more

/-- A fault of the keys takes part in the order of faults. -/
def guarded (fault : Option (Nat × Fault)) (x : Outcome α) : Outcome α :=
  match fault with
  | none => x
  | some e => Outcome.both (.error e : Outcome (α → α)) x

/-- The reader of a record. -/
def reader (unknown : Unknown) (form : Form α) : Reader α
  | .scalar s => if s.isEmpty then finish (record [] true) else .error s.mismatch
  | .record members whole => finish (record members whole)
  | .list elements whole positional =>
    if positional then
      finish <| guarded (listFault elements whole) <|
        form.read 0 ⟨fun i _ => (elements[i]?).map (i, ·), elements.length, true⟩
    else .error .wrongType
where
  finish (x : Outcome α) : Except Fault α := x.mapError (·.2)
  record (members : List (Node × Option Node)) (whole : Bool) : Outcome α :=
    guarded (keyFault? form.names unknown whole 0 [] members) <|
      form.read 0 ⟨fun _ name => find? name 0 members, members.length, false⟩
  listFault (elements : List Node) (whole : Bool) : Option (Nat × Fault) :=
    if form.names.length < elements.length then some (form.names.length, .leftOver)
    else if whole then none
    else some (elements.length, .malformed)

end Form
end FaultDrill.Document
