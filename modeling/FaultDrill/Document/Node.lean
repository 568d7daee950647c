import FaultDrill.Document.Atom
/-!
# Documents as trees

A document is read as a stream of items and may break off where its text stops making sense. Its
tree keeps what came before: a list or record that was broken off is marked as not whole, so that a
reader who walks the tree in order meets the faults of the document in order, and the breach last.
-/
namespace FaultDrill.Document

/-- A value of a document. -/
inductive Node where
  | scalar (s : Scalar)
  /-- A list. Where its format allows that, the elements may stand for the fields of a record, in
  order (`positional`). -/
  | list (elements : List Node) (whole positional : Bool)
  /-- A record: its keys with their values, in order. Only the last key of a record that broke off
  has no value. -/
  | record (members : List (Node × Option Node)) (whole : Bool)

/-- A step through a document. -/
inductive Item where
  | scalar (s : Scalar)
  | openList
  | closeList
  | openRecord
  | closeRecord
  /-- The text makes no sense from here on. -/
  | broken

/-- A list or record that is not closed yet, its parts in reverse. -/
inductive Frame where
  | list (elements : List Node)
  | record (members : List (Node × Option Node)) (key : Option Node)

/-- A document: its value, and whether its text makes sense to the end. -/
structure Tree where
  root : Option Node
  sound : Bool

/-- A value put into a frame: the next element, the next key, or the value of the last key. -/
def Frame.put (n : Node) : Frame → Frame
  | .list es => .list (n :: es)
  | .record ms none => .record ms (some n)
  | .record ms (some k) => .record ((k, some n) :: ms) none

/-- The value of a frame when it is closed, or broken off when not `whole`. -/
def Frame.close (positional whole : Bool) : Frame → Node
  | .list es => .list es.reverse whole positional
  | .record ms none => .record ms.reverse whole
  | .record ms (some k) => .record ((k, none) :: ms).reverse whole

/-- The value of the outermost frame when the document breaks off within the given frames. -/
def breakOff (positional : Bool) (inner : Node) : List Frame → Node
  | [] => inner
  | f :: fs => breakOff positional ((f.put inner).close positional false) fs

/-- What remains of a document that ends within the given frames. -/
def abandon (positional : Bool) (root : Option Node) : List Frame → Tree
  | [] => ⟨root, false⟩
  | f :: fs => ⟨some (breakOff positional (f.close positional false) fs), false⟩

/-- The tree of the items that follow, given the value that is complete and the open frames. -/
def build (positional : Bool) : (root : Option Node) → List Frame → List Item → Tree
  | root, [], [] => ⟨root, root.isSome⟩
  | root, fs, [] => abandon positional root fs
  | root, fs, .broken :: _ => abandon positional root fs
  | some root, [], _ :: _ => ⟨some root, false⟩
  | root, fs, .openList :: is => build positional root (.list [] :: fs) is
  | root, fs, .openRecord :: is => build positional root (.record [] none :: fs) is
  | _, [], .scalar s :: is => build positional (some (.scalar s)) [] is
  | root, f :: fs, .scalar s :: is => build positional root (f.put (.scalar s) :: fs) is
  | root, [], _ :: _ => abandon positional root []
  | _, [f], _ :: is => build positional (some (f.close positional true)) [] is
  | root, f :: g :: fs, _ :: is => build positional root (g.put (f.close positional true) :: fs) is

/-- The tree of a document. -/
def Tree.ofItems (positional : Bool) (items : List Item) : Tree := build positional none [] items

end FaultDrill.Document
