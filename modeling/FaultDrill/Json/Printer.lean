import FaultDrill.Document.Value
import FaultDrill.Binary64.Text
/-!
# Writing JSON

A value is written on one line without spaces (`compact`) or with one element or member a line, two
columns deeper than its container (`pretty`). Numbers that are not finite have no JSON form and are
written as `null`.
-/
namespace FaultDrill.Json
open FaultDrill.Document

/-- The lower-case hexadecimal digit of a number below sixteen. -/
def hexDigit (n : Nat) : Char := Nat.digitChar n

/-- A character inside a string. -/
def escape (c : Char) : List Char :=
  if c = '"' then ['\\', '"']
  else if c = '\\' then ['\\', '\\']
  else if c = '\x08' then ['\\', 'b']
  else if c = '\x0c' then ['\\', 'f']
  else if c = '\n' then ['\\', 'n']
  else if c = '\r' then ['\\', 'r']
  else if c = '\t' then ['\\', 't']
  else if c.toNat < 0x20 then
    ['\\', 'u', '0', '0', hexDigit (c.toNat / 16), hexDigit (c.toNat % 16)]
  else [c]

/-- A string. -/
def string (s : String) : List Char := '"' :: s.toList.flatMap escape ++ ['"']

/-- A number. -/
def number : Number → List Char
  | .nat n => Nat.toDigits 10 n
  | .negative n => '-' :: Nat.toDigits 10 n
  | .real x => if x.isFinite then (x.document true).toList else ['n', 'u', 'l', 'l']

/-- An atom. -/
def atom : Atom → List Char
  | .null => ['n', 'u', 'l', 'l']
  | .flag true => ['t', 'r', 'u', 'e']
  | .flag false => ['f', 'a', 'l', 's', 'e']
  | .number n => number n
  | .text s => string s

mutual

/-- A value on one line. -/
def compactChars : Value → List Char
  | .atom a => atom a
  | .list vs => '[' :: (compactElements vs ++ [']'])
  | .record ms => '\x7b' :: (compactMembers ms ++ ['\x7d'])

/-- Elements with commas between them. -/
def compactElements : List Value → List Char
  | [] => []
  | [v] => compactChars v
  | v :: vs => compactChars v ++ ',' :: compactElements vs

/-- Members with commas between them. -/
def compactMembers : List (String × Value) → List Char
  | [] => []
  | [(k, v)] => string k ++ ':' :: compactChars v
  | (k, v) :: ms => string k ++ ':' :: (compactChars v ++ ',' :: compactMembers ms)

end

/-- A value on one line. -/
def compact (v : Value) : String := String.ofList (compactChars v)

/-- A line end and the columns in front of the next line. -/
def newline (depth : Nat) : List Char := '\n' :: List.replicate (2 * depth) ' '

mutual

/-- A value over several lines, its first line already indented. -/
def prettyChars (depth : Nat) : Value → List Char
  | .atom a => atom a
  | .list [] => ['[', ']']
  | .list vs => '[' :: (prettyElements (depth + 1) vs ++ newline depth ++ [']'])
  | .record [] => ['\x7b', '\x7d']
  | .record ms => '\x7b' :: (prettyMembers (depth + 1) ms ++ newline depth ++ ['\x7d'])

/-- Elements, each on lines of its own. -/
def prettyElements (depth : Nat) : List Value → List Char
  | [] => []
  | [v] => newline depth ++ prettyChars depth v
  | v :: vs => newline depth ++ prettyChars depth v ++ ',' :: prettyElements depth vs

/-- Members, each on lines of its own. -/
def prettyMembers (depth : Nat) : List (String × Value) → List Char
  | [] => []
  | [(k, v)] => newline depth ++ string k ++ ':' :: ' ' :: prettyChars depth v
  | (k, v) :: ms =>
    newline depth ++ string k ++ ':' :: ' ' :: prettyChars depth v ++ ',' :: prettyMembers depth ms

end

/-- A value over several lines. -/
def pretty (v : Value) : String := String.ofList (prettyChars 0 v)

end FaultDrill.Json
