import FaultDrill.Document.Value
/-!
# Groups of instances

A group is a named failure domain with its current members. Members are kept in the order in which
they were added, each once.
-/
namespace FaultDrill
open Document

/-- Where a group comes from. -/
inductive GroupKind where
  /-- Machines described in a catalog. -/
  | localMachines
  /-- Machines that their provider can terminate. -/
  | cloud
  deriving DecidableEq, Repr, Inhabited

namespace GroupKind

/-- The kind in a document. -/
def word : GroupKind → String
  | localMachines => "local"
  | cloud => "cloud"

/-- The kind that a word of a document names. -/
def ofWord : String → Option GroupKind
  | "local" => some localMachines
  | "cloud" => some cloud
  | _ => none

/-- The kind in a report for people. -/
def display : GroupKind → String
  | localMachines => "LOCAL"
  | cloud => "CLOUD"

/-- Reads a kind. -/
def reader : Reader GroupKind := Reader.oneOf ofWord

@[simp]
theorem ofWord_word (k : GroupKind) : ofWord k.word = some k := by cases k <;> rfl

end GroupKind

/-- A named group of instances. -/
structure Group where
  name : String
  kind : GroupKind
  members : List String
  deriving DecidableEq, Repr, Inhabited

namespace Group

/-- The group without members. -/
def empty (name : String) (kind : GroupKind) : Group := ⟨name, kind, []⟩

/-- The group with one more member, unless it is one already. -/
def add (g : Group) (id : String) : Group :=
  if id ∈ g.members then g else { g with members := g.members ++ [id] }

/-- Whether nobody is in the group. -/
def isEmpty (g : Group) : Bool := g.members.isEmpty

/-- The same group under another kind; its members are added anew. -/
def retag (g : Group) (kind : GroupKind) : Group :=
  if g.kind = kind then g else g.members.foldl add (empty g.name kind)

/-- The groups with one of the given names, in their own order; all of them when none is given. -/
def named (names : List String) (groups : List Group) : List Group :=
  groups.filter fun g => names.isEmpty || g.name ∈ names

/-- How a group is read. Repeated members stay. -/
def form : Form Group :=
  Group.mk <$> Form.required "name" Reader.text <*> Form.required "group_type" GroupKind.reader <*>
    Form.required "instances" (Reader.list Reader.text)

/-- Reads a group. -/
def reader : Reader Group := form.reader .ignored

/-- The group as a document. -/
def document (g : Group) : Value :=
  .record [("name", .text g.name), ("group_type", .text g.kind.word),
    ("instances", .list (g.members.map .text))]

end Group
end FaultDrill
