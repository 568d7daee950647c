/-!
# Blank characters and trimming

A character is blank when Unicode gives it the property White_Space. Trimming removes blanks from
both ends; a text is blank when nothing is left.
-/
namespace FaultDrill.Text

/-- The characters with the Unicode property White_Space. -/
def isBlank (c : Char) : Bool :=
  let n := c.toNat
  (9 ≤ n && n ≤ 13) || n == 0x20 || n == 0x85 || n == 0xA0 || n == 0x1680 ||
    (0x2000 ≤ n && n ≤ 0x200A) || n == 0x2028 || n == 0x2029 || n == 0x202F || n == 0x205F ||
    n == 0x3000

/-- The text without its leading blanks. -/
def trimLeft (cs : List Char) : List Char := cs.dropWhile isBlank

/-- The text without its trailing blanks. -/
def trimRight (cs : List Char) : List Char := (cs.reverse.dropWhile isBlank).reverse

/-- The text without blanks at either end. -/
def trimChars (cs : List Char) : List Char := trimRight (trimLeft cs)

/-- `trimChars` on strings. -/
def trim (s : String) : String := String.ofList (trimChars s.toList)

/-- Whether nothing but blanks is in the text. -/
def allBlank (s : String) : Bool := s.toList.all isBlank

/-- The ASCII capital letters in lower case; every other character unchanged. -/
def lowerAscii (s : String) : String := String.ofList (s.toList.map Char.toLower)

/-- What follows `start` in the text, when the text begins with it. -/
def after? : (start text : List Char) → Option (List Char)
  | [], cs => some cs
  | _ :: _, [] => none
  | p :: ps, c :: cs => if p = c then after? ps cs else none

/-- What precedes `stop` in the text, when the text ends with it. -/
def before? (stop text : List Char) : Option (List Char) :=
  (after? stop.reverse text.reverse).map List.reverse

/-- The pieces between the occurrences of a separator; one more piece than separators. -/
def splitAtChar (sep : Char) : List Char → List (List Char)
  | [] => [[]]
  | c :: cs =>
    if c = sep then [] :: splitAtChar sep cs
    else match splitAtChar sep cs with
      | [] => [[c]]
      | piece :: rest => (c :: piece) :: rest

/-- The lines of a text: a line ends at a newline, and a carriage return right before it belongs to
the line end. What follows the last newline is a line unless it is empty. -/
def lines (cs : List Char) : List (List Char) :=
  let pieces := splitAtChar '\n' cs
  let strip (piece : List Char) : List Char := (before? ['\r'] piece).getD piece
  match pieces.reverse with
  | [] => []
  | last :: full => (full.reverse.map strip) ++ (if last.isEmpty then [] else [last])

/-- Every occurrence of `mark` replaced, leftmost first and without overlap. -/
def replaceAll (mark new : List Char) (cs : List Char) : List Char :=
  go cs.length cs
where
  /-- One replacement or one kept character at a time; a replacement consumes the mark. -/
  go : Nat → List Char → List Char
    | 0, cs => cs
    | _, [] => []
    | n + 1, c :: cs =>
      match after? mark (c :: cs) with
      | some rest => if mark.isEmpty then c :: go n cs else new ++ go n rest
      | none => c :: go n cs

/-- Whether `mark` occurs in the text. -/
def occurs (mark : List Char) : List Char → Bool
  | [] => mark.isEmpty
  | c :: cs => (after? mark (c :: cs)).isSome || occurs mark cs

end FaultDrill.Text
