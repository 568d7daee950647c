/-!
# Places in a YAML text

A cursor is what is left of the text and how far it is into the text and its line. Lines end at a
line feed, a carriage return, both, or one of three further characters of Unicode.
-/
namespace FaultDrill.Yaml

/-- A place in a text. -/
structure Cursor where
  rest : List Char
  index : Nat
  line : Nat
  column : Nat
  deriving Repr

/-- A space or a tab. -/
def isBlank (c : Char) : Bool := c == ' ' || c == '\t'

/-- A character that ends a line. -/
def isBreak (c : Char) : Bool :=
  c == '\n' || c == '\r' || c == '\x85' || c == '\u2028' || c == '\u2029'

/-- A letter, a digit, `_` or `-`. -/
def isWordChar (c : Char) : Bool := c.isAlphanum || c == '_' || c == '-'

/-- The characters a text may hold. -/
def isAllowed (c : Char) : Bool :=
  let n := c.toNat
  n == 0x09 || n == 0x0A || n == 0x0D || (0x20 ≤ n && n ≤ 0x7E) || n == 0x85 ||
    (0xA0 ≤ n && n ≤ 0xD7FF) || (0xE000 ≤ n && n ≤ 0xFFFD) || 0x10000 ≤ n

namespace Cursor

/-- The start of a text. -/
def start (cs : List Char) : Cursor := ⟨cs, 0, 0, 0⟩

/-- The character `k` places on, if the text is that long. -/
def peek? (c : Cursor) (k : Nat) : Option Char := c.rest[k]?

/-- Whether a given character stands `k` places on. -/
def sees (c : Cursor) (k : Nat) (x : Char) : Bool := c.peek? k == some x

/-- Whether a blank, the end of a line or the end of the text stands `k` places on. -/
def blankOrEnd (c : Cursor) (k : Nat) : Bool :=
  match c.peek? k with
  | none => true
  | some x => isBlank x || isBreak x

/-- Whether a line ends here. -/
def atBreak (c : Cursor) : Bool :=
  match c.rest with
  | x :: _ => isBreak x
  | [] => false

/-- Whether a line or the text ends here. -/
def atLineEnd (c : Cursor) : Bool :=
  match c.rest with
  | x :: _ => isBreak x
  | [] => true

/-- `k` characters on within a line. -/
def skip (c : Cursor) (k : Nat) : Cursor :=
  ⟨c.rest.drop k, c.index + k, c.line, c.column + k⟩

/-- The characters in front with a property, none of them a line end, and the place behind them. -/
def span (c : Cursor) (p : Char → Bool) : List Char × Cursor :=
  let xs := c.rest.takeWhile p
  (xs, c.skip xs.length)

/-- Past the characters in front with a property, none of them a line end. -/
def skipWhile (c : Cursor) (p : Char → Bool) : Cursor := (c.span p).2

/-- Past a line end, if there is one, with the characters that stand for it in a text value. -/
def readBreak (c : Cursor) : List Char × Cursor :=
  match c.rest with
  | '\r' :: '\n' :: r => (['\n'], ⟨r, c.index + 2, c.line + 1, 0⟩)
  | x :: r =>
    if x == '\u2028' || x == '\u2029' then ([x], ⟨r, c.index + 1, c.line + 1, 0⟩)
    else if isBreak x then (['\n'], ⟨r, c.index + 1, c.line + 1, 0⟩)
    else ([], c)
  | [] => ([], c)

/-- Past a line end, if there is one. -/
def skipBreak (c : Cursor) : Cursor := c.readBreak.2

/-- Past a comment, up to the end of its line. -/
def skipComment (c : Cursor) : Cursor :=
  if c.sees 0 '#' then c.skipWhile (!isBreak ·) else c

/-- Whether a line of three dots or three dashes stands here, or one that begins so. -/
def atMarker (c : Cursor) : Bool :=
  c.column == 0 &&
    ((c.rest.take 3 == ['-', '-', '-'] || c.rest.take 3 == ['.', '.', '.']) && c.blankOrEnd 3)

end Cursor
end FaultDrill.Yaml
