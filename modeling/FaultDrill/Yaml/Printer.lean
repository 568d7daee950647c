import FaultDrill.Yaml.Reader
import FaultDrill.Document.Value
import FaultDrill.Binary64.Text
/-!
# Writing YAML

A value is written as one document in block form. A text is plain where it would be read back as the
same text; a text of several lines is a literal block; what neither can hold goes between quotes.
Lines are never folded. The output is gathered in reverse.
-/
namespace FaultDrill.Yaml
open FaultDrill.Document

/-- The output so far, in reverse. -/
abbrev Output := List Char

/-- Whether a character may be written as it is. -/
def isPrintable (c : Char) : Bool :=
  let n := c.toNat
  n == 0x0A || (0x20 ≤ n && n ≤ 0x7E) || (0xA0 ≤ n && n ≤ 0xD7FF) ||
    (0xE000 ≤ n && n ≤ 0xFFFD && n != 0xFEFF)

/-! ## Which forms a text allows -/

/-- What matters of a text for the way to write it. -/
structure Shape where
  /-- Something in it would read as a mark. -/
  marks : Bool
  breaks : Bool
  unprintable : Bool
  leadingGap : Bool
  trailingSpace : Bool
  trailingBreak : Bool
  /-- A space stands right behind a line end. -/
  breakSpace : Bool
  /-- A line end stands right behind a space. -/
  spaceBreak : Bool
  deriving Repr

/-- Whether a character is a blank or a line end; the end of the text counts as one. -/
def isGapOrEnd : Option Char → Bool
  | none => true
  | some c => isBlank c || isBreak c

/-- Characters that cannot begin a plain text. -/
def isLeadingMark (c : Char) : Bool := "#,[]\x7b\x7d&*!|>'\"%@\x60".toList.contains c

/-- Whether a character reads as a mark, given the ones around it. -/
def isMark (before : Option Char) (c : Char) (after : Option Char) : Bool :=
  match before with
  | none => isLeadingMark c || ((c == '?' || c == ':' || c == '-') && isGapOrEnd after)
  | some b => (c == ':' && isGapOrEnd after) || (c == '#' && isGapOrEnd (some b))

/-- Whether a property holds of some character of a text with its neighbours. -/
def anyInContext (p : Option Char → Char → Option Char → Bool) :
    (before : Option Char) → List Char → Bool
  | _, [] => false
  | b, c :: cs => p b c cs.head? || anyInContext p (some c) cs

/-- The shape of a text. -/
def Shape.of (cs : List Char) : Shape where
  marks := cs.take 3 == ['-', '-', '-'] || cs.take 3 == ['.', '.', '.'] ||
    anyInContext isMark none cs
  breaks := cs.any isBreak
  unprintable := cs.any (!isPrintable ·)
  leadingGap := cs.head?.any fun c => c == ' ' || isBreak c
  trailingSpace := cs.getLast?.any (· == ' ')
  trailingBreak := cs.getLast?.any isBreak
  breakSpace := anyInContext (fun b c _ => b.any isBreak && c == ' ') none cs
  spaceBreak := anyInContext (fun b c _ => b == some ' ' && isBreak c) none cs

/-- Whether a text may be plain. -/
def Shape.allowsPlain (s : Shape) : Bool :=
  !(s.marks || s.breaks || s.unprintable || s.leadingGap || s.trailingSpace || s.trailingBreak ||
    s.breakSpace || s.spaceBreak)

/-- Whether a text may stand between single quotes. -/
def Shape.allowsSingle (s : Shape) : Bool := !(s.unprintable || s.breakSpace || s.spaceBreak)

/-- Whether a text may be a literal block. -/
def Shape.allowsBlock (s : Shape) : Bool := !(s.unprintable || s.trailingSpace || s.spaceBreak)

/-- Whether a plain text would be read as something else than a text. -/
def readsOtherwise (s : String) : Bool :=
  s.isEmpty || isNullWord s || (flag? s).isSome || isInteger s || (real? s).isSome || isZeroLed s

/-! ## Texts -/

/-- The start of a line at a column, where the output is not there already. -/
def breakTo (column : Nat) (out : Output) : Output :=
  let out := if out.head?.any (!isBreak ·) then '\n' :: out else out
  List.replicate column ' ' ++ out

/-- Characters with the lines they make indented. `fresh` says whether a line has just begun. -/
def indented (column : Nat) (escape : Char → List Char) :
    (fresh : Bool) → List Char → Output → Output
  | _, [], out => out
  | fresh, c :: cs, out =>
    if isBreak c then indented column escape true cs (c :: out)
    else
      let out := if fresh then List.replicate column ' ' ++ out else out
      indented column escape false cs ((escape c).reverse ++ out)

/-- A text without line feeds between single quotes, quotes in it doubled. -/
def singleQuoted (column : Nat) (cs : List Char) (out : Output) : Output :=
  let doubled (c : Char) : List Char := if c = '\'' then ['\'', '\''] else [c]
  let out := indented column doubled false cs ('\'' :: out)
  let out := if cs.getLast?.any isBreak then List.replicate column ' ' ++ out else out
  '\'' :: out

/-- The upper-case hexadecimal digits of a number, `width` of them. -/
def hex (width n : Nat) : List Char :=
  let ds := (Nat.toDigits 16 n).map Char.toUpper
  List.replicate (width - ds.length) '0' ++ ds

/-- A character between double quotes. -/
def doubleEscape (c : Char) : List Char :=
  let n := c.toNat
  if isPrintable c && !isBreak c && c != '"' && c != '\\' then [c]
  else if n = 0x00 then ['\\', '0']
  else if n = 0x07 then ['\\', 'a']
  else if n = 0x08 then ['\\', 'b']
  else if n = 0x09 then ['\\', 't']
  else if n = 0x0A then ['\\', 'n']
  else if n = 0x0B then ['\\', 'v']
  else if n = 0x0C then ['\\', 'f']
  else if n = 0x0D then ['\\', 'r']
  else if n = 0x1B then ['\\', 'e']
  else if n = 0x22 then ['\\', '"']
  else if n = 0x5C then ['\\', '\\']
  else if n = 0x85 then ['\\', 'N']
  else if n = 0xA0 then ['\\', '_']
  else if n = 0x2028 then ['\\', 'L']
  else if n = 0x2029 then ['\\', 'P']
  else if n ≤ 0xFF then '\\' :: 'x' :: hex 2 n
  else if n ≤ 0xFFFF then '\\' :: 'u' :: hex 4 n
  else '\\' :: 'U' :: hex 8 n

/-- A text between double quotes. -/
def doubleQuoted (cs : List Char) (out : Output) : Output :=
  '"' :: ((cs.flatMap doubleEscape).reverse ++ ('"' :: out))

/-- The marks behind the sign of a block: its indentation where it begins with a gap, `-` where it
does not end with a line end, and `+` where it ends with several or is nothing else. -/
def blockHints (cs : List Char) : List Char :=
  let indent := if cs.head?.any fun c => c == ' ' || isBreak c then ['2'] else []
  let chomp := match cs.reverse with
    | [] => ['-']
    | last :: more =>
      if !isBreak last then ['-']
      else match more with
        | [] => ['+']
        | c :: _ => if isBreak c then ['+'] else []
  indent ++ chomp

/-- A literal block. -/
def literal (column : Nat) (cs : List Char) (out : Output) : Output :=
  indented column (fun c => [c]) true cs ('\n' :: ((blockHints cs).reverse ++ ('|' :: out)))

/-- A text. -/
def text (column : Nat) (s : String) (out : Output) : Output :=
  let cs := s.toList
  let shape := Shape.of cs
  if cs.contains '\n' then
    if shape.allowsBlock then literal column cs out else doubleQuoted cs out
  else if shape.allowsPlain && !readsOtherwise s then cs.reverse ++ out
  else if shape.allowsSingle then singleQuoted column cs out
  else doubleQuoted cs out

/-- An atom. -/
def atom (column : Nat) (a : Atom) (out : Output) : Output :=
  match a with
  | .null => "null".toList.reverse ++ out
  | .flag b => (toString b).toList.reverse ++ out
  | .number (.nat n) => (Nat.toDigits 10 n).reverse ++ out
  | .number (.negative n) => ('-' :: Nat.toDigits 10 n).reverse ++ out
  | .number (.real x) => (x.document false).toList.reverse ++ out
  | .text s => text column s out

/-! ## Collections -/

mutual

/-- A value behind the colon of a key in a record at a column. -/
def behindKey (column : Nat) (v : Value) (out : Output) : Output :=
  match v with
  | .atom a => atom (column + 2) a (' ' :: out)
  | .list [] => ']' :: '[' :: ' ' :: out
  | .list (v :: vs) => elements column vs (behindDash column v ('-' :: breakTo column out))
  | .record [] => '\x7d' :: '\x7b' :: ' ' :: out
  | .record ((k, v) :: ms) =>
    members (column + 2) ms
      (behindKey (column + 2) v (':' :: text (column + 4) k (breakTo (column + 2) out)))

/-- A value behind the dash of an element in a list at a column. -/
def behindDash (column : Nat) (v : Value) (out : Output) : Output :=
  match v with
  | .atom a => atom (column + 2) a (' ' :: out)
  | .list [] => ']' :: '[' :: ' ' :: out
  | .list (v :: vs) => elements (column + 2) vs (behindDash (column + 2) v ('-' :: ' ' :: out))
  | .record [] => '\x7d' :: '\x7b' :: ' ' :: out
  | .record ((k, v) :: ms) =>
    members (column + 2) ms (behindKey (column + 2) v (':' :: text (column + 4) k (' ' :: out)))

/-- Further elements of a list at a column. -/
def elements (column : Nat) (vs : List Value) (out : Output) : Output :=
  match vs with
  | [] => out
  | v :: vs => elements column vs (behindDash column v ('-' :: breakTo column out))

/-- Further members of a record at a column. -/
def members (column : Nat) (ms : List (String × Value)) (out : Output) : Output :=
  match ms with
  | [] => out
  | (k, v) :: ms =>
    members column ms (behindKey column v (':' :: text (column + 2) k (breakTo column out)))

end

/-- A value as the outermost one. -/
def outermost : Value → Output
  | .atom a => atom 2 a []
  | .list [] => [']', '[']
  | .list vs => elements 0 vs []
  | .record [] => ['\x7d', '\x7b']
  | .record ms => members 0 ms []

/-- A value as a document. -/
def print (v : Value) : String := String.ofList (breakTo 0 (outermost v)).reverse

end FaultDrill.Yaml
