import FaultDrill.Json.Token
import FaultDrill.Document.Value
/-!
# Reading JSON

The tokens of a JSON text are checked against the grammar one by one and become the items of a
document, up to the first token that is out of place. Its lists may stand for records.
-/
namespace FaultDrill.Json
open FaultDrill.Document

/-- What may come next. -/
inductive Expect where
  | value
  | valueOrClose
  | key
  | keyOrClose
  | colon
  /-- A comma or the end of the list or record, or outside of all the end of the text. -/
  | next
  deriving DecidableEq, Repr

/-- The scalar of a token, if it is one. -/
def scalar? : Token → Option Scalar
  | .null => some (.atom .null)
  | .bool b => some (.atom (.flag b))
  | .number (some n) => some (.atom (.number n))
  | .string (some s) => some (.atom (.text s))
  | .number none => some .damaged
  | .string none => some .damaged
  | _ => none

/-- Whether a token is a string. -/
def Token.isString : Token → Bool
  | .string _ => true
  | _ => false

/-- The items of a text, given what may come next and, innermost first, whether each open container
is a record. -/
def items : Expect → (records : List Bool) → List Token → List Item
  | .next, [], [] => []
  | _, _, [] => [.broken]
  | .next, true :: open_, .comma :: ts => items .key (true :: open_) ts
  | .next, false :: open_, .comma :: ts => items .value (false :: open_) ts
  | .next, true :: open_, .closeObject :: ts => .closeRecord :: items .next open_ ts
  | .next, false :: open_, .closeArray :: ts => .closeList :: items .next open_ ts
  | .next, _, _ :: _ => [.broken]
  | .colon, open_, .colon :: ts => items .value open_ ts
  | .colon, _, _ :: _ => [.broken]
  | .keyOrClose, _ :: open_, .closeObject :: ts => .closeRecord :: items .next open_ ts
  | .valueOrClose, _ :: open_, .closeArray :: ts => .closeList :: items .next open_ ts
  | expect, open_, t :: ts =>
    match scalar? t, t with
    | some s, _ =>
      if expect = .key || expect = .keyOrClose then
        if t.isString then .scalar s :: items .colon open_ ts else [.broken]
      else .scalar s :: items .next open_ ts
    | none, .openArray =>
      if expect = .key || expect = .keyOrClose then [.broken]
      else .openList :: items .valueOrClose (false :: open_) ts
    | none, .openObject =>
      if expect = .key || expect = .keyOrClose then [.broken]
      else .openRecord :: items .keyOrClose (true :: open_) ts
    | none, _ => [.broken]

theorem items_closeArray {expect : Expect} (he : expect = .next ∨ expect = .valueOrClose)
    (open_ : List Bool) (ts : List Token) :
    items expect (false :: open_) (.closeArray :: ts) = .closeList :: items .next open_ ts := by
  rcases he with rfl | rfl <;> simp [items]

theorem items_closeObject {expect : Expect} (he : expect = .next ∨ expect = .keyOrClose)
    (open_ : List Bool) (ts : List Token) :
    items expect (true :: open_) (.closeObject :: ts) = .closeRecord :: items .next open_ ts := by
  rcases he with rfl | rfl <;> simp [items]

/-- The tree of a JSON text. -/
def tree (cs : List Char) : Tree := Tree.ofItems true (items .value [] (lex cs))

/-- Reads a JSON text. -/
def read (r : Reader α) (text : String) : Except Fault α := r.document (tree text.toList)

/-- The value of a JSON text. -/
def value? (text : String) : Option Value := (read Value.ofNode text).toOption

end FaultDrill.Json
