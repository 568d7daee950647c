import FaultDrill.Text.Utf8
/-!
# Escapes in printed text

In a text that a program prints, a backslash and what follows it stand for one byte. A backslash
that begins no escape stands for itself.
-/
namespace FaultDrill.Shell

/-- The byte that a character stands for behind a backslash. -/
def escapeOf : Char → Option UInt8
  | '\\' => some 0x5C
  | 'a' => some 0x07
  | 'b' => some 0x08
  | 'f' => some 0x0C
  | 'n' => some 0x0A
  | 'r' => some 0x0D
  | 't' => some 0x09
  | 'v' => some 0x0B
  | _ => none

/-- Whether a character is an octal digit. -/
def isOctal (c : Char) : Bool := '0' ≤ c && c ≤ '7'

/-- A number continued by at most `n` octal digits, and what follows them. -/
def octal : (n value : Nat) → List Char → Nat × List Char
  | 0, value, cs => (value, cs)
  | _, value, [] => (value, [])
  | n + 1, value, c :: cs =>
    if isOctal c then octal n (value * 8 + (c.toNat - '0'.toNat)) cs else (value, c :: cs)

/-- The byte for what stands behind a backslash, and what follows it. -/
def escape : List Char → UInt8 × List Char
  | [] => (0x5C, [])
  | c :: cs =>
    if isOctal c then
      let (value, rest) := octal 3 0 (c :: cs)
      (UInt8.ofNat value, rest)
    else match escapeOf c with
      | some b => (b, cs)
      | none => (0x5C, c :: cs)

/-- The bytes of a text whose escapes are replaced, and whether anything may follow: a backslash
with a `c` ends all printing. Behind a zero there may be three digits more. The bound is the length
of the text. -/
def unescape : (bound : Nat) → List Char → List UInt8 × Bool
  | 0, _ => ([], true)
  | _, [] => ([], true)
  | n + 1, c :: cs =>
    if c = '\\' then
      match cs with
      | 'c' :: _ => ([], false)
      | '0' :: rest =>
        let (value, rest) := octal 3 0 rest
        let (bytes, goesOn) := unescape n rest
        (UInt8.ofNat value :: bytes, goesOn)
      | cs =>
        let (b, rest) := escape cs
        let (bytes, goesOn) := unescape n rest
        (b :: bytes, goesOn)
    else
      let (bytes, goesOn) := unescape n cs
      (Text.Utf8.encode [c] ++ bytes, goesOn)

/-- What `echo` prints of its arguments: each but the last is followed by a space, the last by a
line end if there is to be one. -/
def echoed (lineEnd : Bool) : List String → List UInt8
  | [] => if lineEnd then [0x0A] else []
  | arg :: args =>
    let (bytes, goesOn) := unescape arg.length arg.toList
    if !goesOn then bytes
    else match args with
      | [] => bytes ++ if lineEnd then [0x0A] else []
      | _ => bytes ++ 0x20 :: echoed lineEnd args

/-- What a format prints, and the arguments that are left. The bound is the length of the format. -/
def formatted : (bound : Nat) → List Char → List String → List UInt8 × List String
  | 0, _, args => ([], args)
  | _, [], args => ([], args)
  | n + 1, c :: cs, args =>
    match c, cs with
    | '\\', cs =>
      let (b, rest) := escape cs
      let (bytes, left) := formatted n rest args
      (b :: bytes, left)
    | '%', 's' :: rest =>
      let (bytes, left) := formatted n rest args.tail
      (Text.Utf8.bytes (args.headD "") ++ bytes, left)
    | '%', '%' :: rest =>
      let (bytes, left) := formatted n rest args
      (0x25 :: bytes, left)
    | c, cs =>
      let (bytes, left) := formatted n cs args
      (Text.Utf8.encode [c] ++ bytes, left)

/-- What `printf` prints: the format is used again while there are arguments left and it takes some
of them. The bound is the number of arguments. -/
def printed : (bound : Nat) → (format : List Char) → (args : List String) → List UInt8
  | 0, format, args => (formatted format.length format args).1
  | n + 1, format, args =>
    let (bytes, left) := formatted format.length format args
    if left.isEmpty || left.length = args.length then bytes else bytes ++ printed n format left

end FaultDrill.Shell
