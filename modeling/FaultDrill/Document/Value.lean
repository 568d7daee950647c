import FaultDrill.Document.Reader
/-!
# Values to be written

A document before it is written: a tree of atoms, lists and records, the members of a record in the
order in which they are to appear. A value that was read is such a tree again (`ofNode`), and can be
read into a type of the program like any document (`node`).
-/
namespace FaultDrill.Document

/-- A value of a document. -/
inductive Value where
  | atom (a : Atom)
  | list (elements : List Value)
  | record (members : List (String × Value))
  deriving Repr, Inhabited

namespace Value

/-- No value. -/
def null : Value := .atom .null
/-- A text. -/
def text (s : String) : Value := .atom (.text s)
/-- A flag. -/
def flag (b : Bool) : Value := .atom (.flag b)
/-- A whole number. -/
def nat (n : Nat) : Value := .atom (.number (.nat n))
/-- A floating-point number. -/
def real (x : Binary64) : Value := .atom (.number (.real x))

mutual

/-- The value as a document that was read. Its lists may stand for records. -/
def node : Value → Node
  | atom a => .scalar (.atom a)
  | list vs => .list (nodes vs) true true
  | record ms => .record (memberNodes ms) true

/-- The elements of a list as nodes. -/
def nodes : List Value → List Node
  | [] => []
  | v :: vs => v.node :: nodes vs

/-- The members of a record as nodes. -/
def memberNodes : List (String × Value) → List (Node × Option Node)
  | [] => []
  | (k, v) :: ms => (.scalar (.atom (.text k)), some v.node) :: memberNodes ms

end

mutual

/-- The value of a document, its members in order and with repeated keys. -/
def ofNode : Node → Except Fault Value
  | .scalar (.atom a) => .ok (.atom a)
  | .scalar .damaged => .error .malformed
  | .scalar (.written w) => .ok (.text w.text)
  | .list es whole _ => do
    let vs ← ofNodes es
    if whole then .ok (.list vs) else .error .malformed
  | .record ms whole => do
    let ms ← ofMembers ms
    if whole then .ok (.record ms) else .error .malformed

/-- The values of the elements of a list. -/
def ofNodes : List Node → Except Fault (List Value)
  | [] => .ok []
  | n :: ns => do
    let v ← ofNode n
    let vs ← ofNodes ns
    return v :: vs

/-- The members of a record. -/
def ofMembers : List (Node × Option Node) → Except Fault (List (String × Value))
  | [] => .ok []
  | (k, some n) :: ms => do
    let k ← Reader.text k
    let v ← ofNode n
    let ms ← ofMembers ms
    return (k, v) :: ms
  | (_, none) :: _ => .error .malformed

end

/-- The value of the last member with a key. -/
def get? (v : Value) (key : String) : Option Value :=
  match v with
  | record ms => (ms.reverse.find? (·.1 == key)).map (·.2)
  | _ => none

end Value
end FaultDrill.Document
