import FaultDrill.Binary64.Basic
import FaultDrill.Document.Fault
/-!
# Single values of documents

The values of a document that hold no others. Some formats fix the kind of such a value by the way
it is written (`Atom`); others leave it to the reader, who asks for a text, a number or a flag and
gets an answer (`Written`). `Scalar` is either, and the functions on it are the questions that a
reader can ask.
-/
namespace FaultDrill.Document

/-- A number as documents write it. -/
inductive Number where
  /-- A whole number that is not negative and fits 64 bits. -/
  | nat (n : Nat)
  /-- The negative whole number `-n`; `n` is positive and at most 2^63. -/
  | negative (n : Nat)
  /-- Any other number; `-0` too. -/
  | real (x : Binary64)
  deriving DecidableEq, Repr, Inhabited

/-- The number as a floating-point number. -/
def Number.toReal : Number → Binary64
  | .nat n => .ofNat n
  | .negative n => (Binary64.ofNat n).neg
  | .real x => x

/-- A value whose kind is fixed by how it is written. -/
inductive Atom where
  | null
  | flag (b : Bool)
  | number (n : Number)
  | text (s : String)
  deriving DecidableEq, Repr, Inhabited

/-- A value whose kind is left to the reader: its answers to the questions of `Scalar`. -/
structure Written where
  text : String
  /-- Whether it stands for no value where a value may be absent. -/
  absent : Except Fault Bool
  /-- Whether it stands for an empty list or an empty record. -/
  isEmpty : Bool
  /-- The fault of asking for a list or a record. -/
  mismatch : Fault
  flag : Except Fault Bool
  natural : Except Fault Nat
  real : Except Fault Binary64

/-- A single value. -/
inductive Scalar where
  | atom (a : Atom)
  /-- A number or text in good form that has no value: the number is too large, or the text holds
  half a character. -/
  | damaged
  | written (w : Written)

namespace Scalar

/-- The fault of asking for another kind of value. -/
def mismatch : Scalar → Fault
  | damaged => .malformed
  | written w => w.mismatch
  | atom _ => .wrongType

/-- Whether the value stands for an absent one. -/
def absent : Scalar → Except Fault Bool
  | atom .null => .ok true
  | written w => w.absent
  | _ => .ok false

/-- Whether the value may stand for an empty list or record. -/
def isEmpty : Scalar → Bool
  | written w => w.isEmpty
  | _ => false

/-- The value as a text. -/
def text : Scalar → Except Fault String
  | atom (.text s) => .ok s
  | written w => .ok w.text
  | s => .error s.mismatch

/-- The value as a flag. -/
def flag : Scalar → Except Fault Bool
  | atom (.flag b) => .ok b
  | written w => w.flag
  | s => .error s.mismatch

/-- The value as a floating-point number; whole numbers are taken too. -/
def real : Scalar → Except Fault Binary64
  | atom (.number n) => .ok n.toReal
  | written w => w.real
  | s => .error s.mismatch

/-- The value as a whole number that is not negative. -/
def natural : Scalar → Except Fault Nat
  | atom (.number (.nat n)) => .ok n
  | atom (.number (.negative _)) => .error .wrongValue
  | written w => w.natural
  | s => .error s.mismatch

/-- The value as one of a list of words. -/
def word : Scalar → Except Fault String
  | atom (.text s) => .ok s
  | written w => .ok w.text
  | damaged => .error .malformed
  | atom _ => .error .notAWord

end Scalar
end FaultDrill.Document
