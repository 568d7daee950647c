import FaultDrill.Yaml.Cursor
/-!
# Text values in YAML

The five ways to write a text: plain, between single or double quotes, and as an indented block,
literal or folded. Each function reads one such text at a cursor and gives its value and the place
behind it, or nothing where the text is not well formed. Values are gathered in reverse.
-/
namespace FaultDrill.Yaml

/-- How a text is written. -/
inductive Style where
  | plain
  | single
  | double
  | literal
  | folded
  deriving DecidableEq, Repr

/-- Line ends between two parts of a text: a single one is a space, of several the first is dropped.
A first line end of a kind that is kept stays with the others. -/
def foldBreaks (first others : List Char) : List Char :=
  if first.head? == some '\n' then (if others.isEmpty then [' '] else others)
  else first ++ others

/-! ## Quoted texts -/

/-- The value of a hexadecimal digit. -/
def hexValue? (c : Char) : Option Nat :=
  if c.isDigit then some (c.toNat - '0'.toNat)
  else if 'a' ≤ c && c ≤ 'f' then some (c.toNat - 'a'.toNat + 10)
  else if 'A' ≤ c && c ≤ 'F' then some (c.toNat - 'A'.toNat + 10)
  else none

/-- The character with the hexadecimal number of `width` digits in front. -/
def hexChar? (width : Nat) (c : Cursor) : Option Char := do
  let ds ← (c.rest.take width).mapM hexValue?
  if ds.length < width then none
  else
    let n := ds.foldl (fun n d => 16 * n + d) 0
    if (0xD800 ≤ n && n ≤ 0xDFFF) || 0x10FFFF < n then none else some (Char.ofNat n)

/-- The character of an escape with one letter. -/
def escaped? (c : Char) : Option Char :=
  match c with
  | '0' => some '\x00'
  | 'a' => some '\x07'
  | 'b' => some '\x08'
  | 't' => some '\t'
  | '\t' => some '\t'
  | 'n' => some '\n'
  | 'v' => some '\x0b'
  | 'f' => some '\x0c'
  | 'r' => some '\r'
  | 'e' => some '\x1b'
  | ' ' => some ' '
  | '"' => some '"'
  | '/' => some '/'
  | '\\' => some '\\'
  | 'N' => some '\x85'
  | '_' => some '\xa0'
  | 'L' => some '\u2028'
  | 'P' => some '\u2029'
  | _ => none

/-- How many hexadecimal digits follow the letter of an escape. -/
def hexWidth? (c : Char) : Option Nat :=
  match c with
  | 'x' => some 2
  | 'u' => some 4
  | 'U' => some 8
  | _ => none

/-- Reads on without blanks and line ends, up to the quote, a blank or a line end. The flag says
whether an escaped line end was the last thing read. -/
def quotedRun (single : Bool) : (fuel : Nat) → Cursor → (acc : List Char) →
    Option (List Char × Cursor × Bool)
  | 0, _, _ => none
  | fuel + 1, c, acc =>
    match c.rest with
    | [] => some (acc, c, false)
    | x :: _ =>
      if isBlank x || isBreak x then some (acc, c, false)
      else if single then
        if x = '\'' then
          if c.sees 1 '\'' then quotedRun single fuel (c.skip 2) ('\'' :: acc)
          else some (acc, c, false)
        else quotedRun single fuel (c.skip 1) (x :: acc)
      else if x = '"' then some (acc, c, false)
      else if x = '\\' then
        match c.peek? 1 with
        | none => none
        | some e =>
          if isBreak e then some (acc, (c.skip 1).skipBreak, true)
          else match escaped? e, hexWidth? e with
            | some y, _ => quotedRun single fuel (c.skip 2) (y :: acc)
            | none, some width =>
              match hexChar? width (c.skip 2) with
              | some y => quotedRun single fuel (c.skip (2 + width)) (y :: acc)
              | none => none
            | none, none => none
      else quotedRun single fuel (c.skip 1) (x :: acc)

/-- What stands between two runs of a text: blanks before any line end, the first line end, and the
others. -/
structure Gap where
  blanks : List Char
  first : List Char
  others : List Char
  /-- Whether a line end was passed. -/
  broken : Bool

/-- The value of a gap. -/
def Gap.value (g : Gap) : List Char :=
  if g.broken then foldBreaks g.first g.others else g.blanks

/-- Reads blanks and line ends. Behind a line end a tab left of `indent` is refused if `strict`. -/
def readGap (strict : Bool) (indent : Int) : (fuel : Nat) → Cursor → Gap → Option (Gap × Cursor)
  | 0, c, g => some (g, c)
  | fuel + 1, c, g =>
    match c.rest with
    | [] => some (g, c)
    | x :: _ =>
      if isBlank x then
        if strict && g.broken && decide ((c.column : Int) < indent) && x == '\t' then none
        else if g.broken then readGap strict indent fuel (c.skip 1) g
        else readGap strict indent fuel (c.skip 1) { g with blanks := g.blanks ++ [x] }
      else if isBreak x then
        let (b, c) := c.readBreak
        if g.broken then readGap strict indent fuel c { g with others := g.others ++ b }
        else readGap strict indent fuel c { g with blanks := [], first := b, broken := true }
      else some (g, c)

/-- Reads a quoted text behind its opening quote. -/
def quotedBody (single : Bool) : (fuel : Nat) → Cursor → (acc : List Char) →
    Option (List Char × Cursor)
  | 0, _, _ => none
  | fuel + 1, c, acc =>
    if c.atMarker || c.rest.isEmpty then none
    else do
      let (acc, c, broken) ← quotedRun single (c.rest.length + 1) c acc
      if c.sees 0 (if single then '\'' else '"') then return (acc.reverse, c.skip 1)
      else
        let (g, c) ← readGap false 0 c.rest.length c ⟨[], [], [], broken⟩
        quotedBody single fuel c (g.value.reverse ++ acc)

/-- Reads a quoted text. -/
def quoted (single : Bool) (c : Cursor) : Option (String × Cursor) :=
  (quotedBody single (c.rest.length + 1) (c.skip 1) []).map fun (cs, c) => (String.ofList cs, c)

/-! ## Plain texts -/

/-- Whether a character ends a plain text inside brackets. -/
def isFlowMark (c : Char) : Bool := c == ',' || c == '[' || c == ']' || c == '\x7b' || c == '\x7d'

/-- Reads on without blanks and line ends. Inside brackets a colon right before a bracket, a comma
or a question mark is refused. -/
def plainRun (flow : Bool) : (fuel : Nat) → Cursor → (acc : List Char) → Option (List Char × Cursor)
  | 0, c, acc => some (acc, c)
  | fuel + 1, c, acc =>
    match c.rest with
    | [] => some (acc, c)
    | x :: _ =>
      if isBlank x || isBreak x then some (acc, c)
      else if flow && x == ':' &&
          (match c.peek? 1 with | some y => isFlowMark y || y == '?' | none => false) then none
      else if (x == ':' && c.blankOrEnd 1) || (flow && isFlowMark x) then some (acc, c)
      else plainRun flow fuel (c.skip 1) (x :: acc)

/-- Reads a plain text on from a place, given the gap in front of that place. The flag says whether
the last thing read was a gap with a line end. -/
def plainBody (flow : Bool) (indent : Int) : (fuel : Nat) → Cursor → Gap → (acc : List Char) →
    Option (List Char × Cursor × Bool)
  | 0, c, g, acc => some (acc.reverse, c, g.broken)
  | fuel + 1, c, g, acc =>
    if c.atMarker || c.sees 0 '#' then some (acc.reverse, c, g.broken)
    else do
      let (run, c) ← plainRun flow c.rest.length c []
      let acc := if run.isEmpty then acc else run ++ (g.value.reverse ++ acc)
      let g := if run.isEmpty then g else ⟨[], [], [], false⟩
      match c.rest with
      | [] => return (acc.reverse, c, g.broken)
      | x :: _ =>
        if !(isBlank x || isBreak x) then return (acc.reverse, c, g.broken)
        else
          let (g, c) ← readGap true indent c.rest.length c g
          if !flow && decide ((c.column : Int) < indent) then return (acc.reverse, c, g.broken)
          else plainBody flow indent fuel c g acc

/-- Reads a plain text; the flag says whether line ends follow it. -/
def plain (flow : Bool) (indent : Int) (c : Cursor) : Option (String × Cursor × Bool) :=
  (plainBody flow (indent + 1) (c.rest.length + 1) c ⟨[], [], [], false⟩ []).map
    fun (cs, c, broken) => (String.ofList cs, c, broken)

/-! ## Blocks -/

/-- What becomes of the line ends behind a block. -/
inductive Chomp where
  | strip
  | clip
  | keep
  deriving DecidableEq, Repr

/-- The marks behind the sign of a block: what becomes of its last line ends, and how far it is
indented. They may stand in either order. -/
def blockMarks (c : Cursor) : Option (Chomp × Option Nat × Cursor) :=
  let chomp? (c : Cursor) : Option Chomp :=
    if c.sees 0 '+' then some .keep else if c.sees 0 '-' then some .strip else none
  let digit? (c : Cursor) : Option Char := (c.peek? 0).filter Char.isDigit
  let value (d : Char) : Option Nat := if d = '0' then none else some (d.toNat - '0'.toNat)
  match chomp? c with
  | some chomp =>
    match digit? (c.skip 1) with
    | some d => (value d).map fun n => (chomp, some n, c.skip 2)
    | none => some (chomp, none, c.skip 1)
  | none =>
    match digit? c with
    | some d =>
      (value d).map fun n =>
        match chomp? (c.skip 1) with
        | some chomp => (chomp, some n, c.skip 2)
        | none => (.clip, some n, c.skip 1)
    | none => some (.clip, none, c)

/-- Reads empty lines and the spaces in front of the next line, up to the block's indentation when
it is known. Gives the line ends and the widest indentation seen. -/
def blockBreaks (indent : Option Nat) : (fuel : Nat) → Cursor → (widest : Nat) → (acc : List Char) →
    Option (List Char × Nat × Cursor)
  | 0, _, _, _ => none
  | fuel + 1, c, widest, acc =>
    let room := match indent with
      | some n => n - c.column
      | none => c.rest.length
    let c := c.skip ((c.rest.take room).takeWhile (· == ' ')).length
    let widest := max widest c.column
    let inside := match indent with
      | some n => decide (c.column < n)
      | none => true
    if inside && c.sees 0 '\t' then none
    else if c.atBreak then
      let (b, c) := c.readBreak
      blockBreaks indent fuel c widest (acc ++ b)
    else some (acc, widest, c)

/-- Reads the lines of a block. `first` is the line end before the current line, `others` are those
of the empty lines behind it, and `blank` says whether the last line began with a blank. -/
def blockLines (literal : Bool) (indent : Nat) : (fuel : Nat) → Cursor →
    (first others : List Char) → (blank : Bool) → (acc : List Char) →
    Option (List Char × List Char × List Char × Cursor)
  | 0, _, _, _, _, _ => none
  | fuel + 1, c, first, others, blank, acc =>
    if c.column == indent && !c.rest.isEmpty then do
      let blankHere := match c.rest with
        | x :: _ => isBlank x
        | [] => false
      let joined :=
        if !literal && first.head? == some '\n' && !blank && !blankHere then
          (if others.isEmpty then [' '] else others)
        else first ++ others
      let (line, c) := c.span (!isBreak ·)
      let (first, c) := c.readBreak
      let (others, _, c) ← blockBreaks (some indent) (c.rest.length + 1) c 0 []
      blockLines literal indent fuel c first others blankHere
        (line.reverse ++ (joined.reverse ++ acc))
    else some (acc, first, others, c)

/-- Reads a block, given how far the surrounding block is indented (-1 outside of all). -/
def block (literal : Bool) (around : Int) (c : Cursor) : Option (String × Cursor) := do
  let (chomp, increment, c) ← blockMarks (c.skip 1)
  let c := (c.skipWhile isBlank).skipComment
  if !c.atLineEnd then none
  else
    let c := c.skipBreak
    let known := increment.map fun n => (if 0 ≤ around then around + n else n).toNat
    let (others, widest, c) ← blockBreaks known (c.rest.length + 1) c 0 []
    let indent := known.getD (max widest (max (around + 1).toNat 1))
    let (acc, first, others, c) ← blockLines literal indent (c.rest.length + 1) c [] others false []
    let tail := match chomp with
      | .strip => []
      | .clip => first
      | .keep => first ++ others
    return (String.ofList (acc.reverse ++ tail), c)

end FaultDrill.Yaml
