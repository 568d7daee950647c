import FaultDrill.Power
import FaultDrill.Yaml.Text
/-!
# Tokens of YAML

The marks, names and texts of a YAML text, with marks for the blocks that indentation alone shows.
Whether a text is a key is known only at the colon behind it, so each open collection remembers the
place of the last token that may still become a key. Where the text stops making sense, only the
tokens before the first such place count as read.
-/
namespace FaultDrill.Yaml

/-- A token. -/
inductive Token where
  | streamStart
  | streamEnd
  | version (major minor : Nat)
  | tagRule (handle expansion : String)
  | documentStart
  | documentEnd
  | openBlockList
  | openBlockRecord
  | closeBlock
  | openFlowList
  | closeFlowList
  | openFlowRecord
  | closeFlowRecord
  | blockEntry
  | flowEntry
  | key
  | value
  | alias (name : String)
  | anchor (name : String)
  | tag (handle suffix : String)
  | text (value : String) (style : Style)
  deriving DecidableEq, Repr, Inhabited

/-- A token that may become a key. -/
structure PendingKey where
  /-- Whether it may become one; the other fields only count if it may. -/
  possible : Bool
  /-- Whether it has to become one. -/
  required : Bool
  /-- The number of tokens before it. -/
  place : Nat
  index : Nat
  line : Nat
  column : Nat
  deriving Repr

/-- No key is pending. -/
def PendingKey.none : PendingKey := ⟨false, false, 0, 0, 0, 0⟩

/-- The state of reading tokens. -/
structure Scan where
  cursor : Cursor
  tokens : Array Token
  /-- The pending key of each open bracket, innermost first, and last that of the blocks. -/
  keys : List PendingKey
  /-- The column of the innermost block, -1 outside of all. -/
  indent : Int
  /-- The columns of the blocks around it. -/
  around : List Int
  /-- Whether a key may begin here. -/
  keyAllowed : Bool

namespace Scan

/-- Whether a bracket is open. -/
def inFlow (s : Scan) : Bool := 1 < s.keys.length

/-- The state with one more token. -/
def push (s : Scan) (t : Token) : Scan := { s with tokens := s.tokens.push t }

/-- The state with one more token at a place. -/
def insert (s : Scan) (place : Nat) (t : Token) : Scan :=
  { s with tokens := (s.tokens.extract 0 place).push t ++ s.tokens.extract place s.tokens.size }

/-- `k` characters on. -/
def skip (s : Scan) (k : Nat) : Scan := { s with cursor := s.cursor.skip k }

/-! ## Pending keys -/

/-- Gives up the pending keys that lie on another line or too far back. -/
def dropStale (s : Scan) : Option Scan := do
  let keys ← s.keys.mapM fun k =>
    if k.possible && (k.line < s.cursor.line || k.index + 1024 < s.cursor.index) then
      if k.required then Option.none else some { k with possible := false }
    else some k
  return { s with keys }

/-- Gives up the innermost pending key. -/
def dropKey (s : Scan) : Option Scan :=
  match s.keys with
  | k :: more =>
    if k.possible && k.required then none
    else some { s with keys := { k with possible := false } :: more }
  | [] => some s

/-- Remembers that the next token may become a key. -/
def saveKey (s : Scan) : Option Scan :=
  if s.keyAllowed then do
    let s ← s.dropKey
    let required := !s.inFlow && s.indent == (s.cursor.column : Int)
    let key : PendingKey :=
      ⟨true, required, s.tokens.size, s.cursor.index, s.cursor.line, s.cursor.column⟩
    return { s with keys := key :: s.keys.tail }
  else some s

/-- The tokens that count as read: those before the first one that may become a key. -/
def settled (s : Scan) : Nat :=
  s.keys.foldl (fun n k => if k.possible then min n k.place else n) s.tokens.size

/-! ## Indentation -/

/-- Opens a block at a column that is deeper than the current one; its mark goes to `place`. -/
def openBlock (s : Scan) (column place : Nat) (mark : Token) : Scan :=
  if s.inFlow || decide ((column : Int) ≤ s.indent) then s
  else { s.insert place mark with indent := column, around := s.indent :: s.around }

/-- Closes the blocks that are deeper than a column. -/
def closeBlocksFrom (column : Int) : List Int → Scan → Scan
  | [], s => s
  | outer :: more, s =>
    if column < s.indent then
      closeBlocksFrom column more { s.push .closeBlock with indent := outer, around := more }
    else s

/-- Closes the blocks that are deeper than a column; inside brackets there are none. -/
def closeBlocks (s : Scan) (column : Int) : Scan :=
  if s.inFlow then s else closeBlocksFrom column s.around s

/-! ## Tokens one by one -/

/-- Past blanks, comments and line ends. Tabs count as blanks where no key may begin. -/
def skipIdle : (fuel : Nat) → Scan → Scan
  | 0, s => s
  | fuel + 1, s =>
    let c := if s.cursor.column == 0 && s.cursor.sees 0 '\uFEFF' then s.cursor.skip 1 else s.cursor
    let tabs := s.inFlow || !s.keyAllowed
    let c := (c.skipWhile fun x => x == ' ' || (tabs && x == '\t')).skipComment
    if c.atBreak then
      skipIdle fuel { s with cursor := c.skipBreak, keyAllowed := s.keyAllowed || !s.inFlow }
    else { s with cursor := c }

/-- Ends all blocks, as a directive or a document mark does. -/
def leaveBlocks (s : Scan) : Option Scan := do
  let s ← (s.closeBlocks (-1)).dropKey
  return { s with keyAllowed := false }

/-- The end of the text. -/
def finish (s : Scan) : Option Scan := do
  let c := s.cursor
  let c := if c.column == 0 then c else { c with column := 0, line := c.line + 1 }
  let s ← ({ s with cursor := c }).leaveBlocks
  return s.push .streamEnd

/-- A mark of three characters. -/
def documentMark (s : Scan) (t : Token) : Option Scan := do
  let s ← s.leaveBlocks
  return (s.skip 3).push t

/-- An opening bracket. -/
def openFlow (s : Scan) (t : Token) : Option Scan := do
  let s ← s.saveKey
  return ({ s with keys := .none :: s.keys, keyAllowed := true }.skip 1).push t

/-- A closing bracket. -/
def closeFlow (s : Scan) (t : Token) : Option Scan := do
  let s ← s.dropKey
  let keys := match s.keys with
    | _ :: k :: more => k :: more
    | keys => keys
  return ({ s with keys, keyAllowed := false }.skip 1).push t

/-- A comma. -/
def flowEntry (s : Scan) : Option Scan := do
  let s ← s.dropKey
  return ({ s with keyAllowed := true }.skip 1).push .flowEntry

/-- A dash in front of an element. -/
def blockEntry (s : Scan) : Option Scan := do
  if !s.inFlow && !s.keyAllowed then none
  else
    let s ← (s.openBlock s.cursor.column s.tokens.size .openBlockList).dropKey
    return ({ s with keyAllowed := true }.skip 1).push .blockEntry

/-- A question mark in front of a key. -/
def key (s : Scan) : Option Scan := do
  if !s.inFlow && !s.keyAllowed then none
  else
    let s ← (s.openBlock s.cursor.column s.tokens.size .openBlockRecord).dropKey
    return ({ s with keyAllowed := !s.inFlow }.skip 1).push .key

/-- A colon: what was pending becomes a key. -/
def value (s : Scan) : Option Scan :=
  match s.keys with
  | [] => none
  | k :: more =>
    if k.possible then
      let s := (s.insert k.place .key).openBlock k.column k.place .openBlockRecord
      let s := { s with keys := { k with possible := false } :: more, keyAllowed := false }
      some ((s.skip 1).push .value)
    else if !s.inFlow && !s.keyAllowed then none
    else
      let s := s.openBlock s.cursor.column s.tokens.size .openBlockRecord
      some (({ s with keyAllowed := !s.inFlow }.skip 1).push .value)

/-- The name behind `*` or `&`: word characters, up to a blank or one of a few marks. -/
def named (s : Scan) (t : String → Token) : Option Scan := do
  let s ← s.saveKey
  let (name, c) := (s.cursor.skip 1).span isWordChar
  let ends := match c.peek? 0 with
    | some x => isBlank x || isBreak x || "?:,]\x7d%@\x60".toList.contains x
    | none => true
  if name.isEmpty || !ends then none
  else return ({ s with cursor := c, keyAllowed := false }).push (t (String.ofList name))

/-! ## Tags and directives -/

/-- The octets of a run of `%` escapes in front, `count` at most. -/
def octets : (count : Nat) → Cursor → Option (List Nat × Cursor)
  | 0, c => some ([], c)
  | count + 1, c =>
    if c.sees 0 '%' then do
      let a ← (c.peek? 1).bind hexValue?
      let b ← (c.peek? 2).bind hexValue?
      let (more, c) ← octets count (c.skip 3)
      return ((16 * a + b) :: more, c)
    else none

/-- The character that escapes in front stand for. -/
def escapedChar (c : Cursor) : Option (Char × Cursor) := do
  let (lead, _) ← octets 1 c
  let lead := lead.headD 0
  let width := if lead < 0x80 then 1 else if lead / 32 == 6 then 2 else if lead / 16 == 14 then 3
    else if lead / 8 == 30 then 4 else 0
  if width = 0 then none
  else
    let (os, c) ← octets width c
    if (os.drop 1).all fun o => o / 64 == 2 then
      let first := if width = 1 then lead else lead % twoPow (7 - width)
      return (Char.ofNat ((os.drop 1).foldl (fun n o => 64 * n + o % 64) first), c)
    else none

/-- The characters of a tag. -/
def isTagChar (verbatim : Bool) (c : Char) : Bool :=
  isWordChar c || ";/?:@&=+$.%!~*'()".toList.contains c ||
    (verbatim && (c == ',' || c == '[' || c == ']'))

/-- The tag characters in front, escapes read. -/
def tagChars (verbatim : Bool) : (fuel : Nat) → Cursor → List Char → Option (List Char × Cursor)
  | 0, c, acc => some (acc.reverse, c)
  | fuel + 1, c, acc =>
    match c.peek? 0 with
    | none => some (acc.reverse, c)
    | some x =>
      if !isTagChar verbatim x then some (acc.reverse, c)
      else if x = '%' then
        match escapedChar c with
        | some (y, c) => tagChars verbatim fuel c (y :: acc)
        | none => none
      else tagChars verbatim fuel (c.skip 1) (x :: acc)

/-- The rest of a tag behind what was already read of it; something must be there. -/
def tagRest (verbatim : Bool) (head : List Char) (c : Cursor) : Option (List Char × Cursor) := do
  let (cs, c) ← tagChars verbatim c.rest.length c []
  if head.isEmpty && cs.isEmpty then none else return (head.drop 1 ++ cs, c)

/-- The handle of a tag: `!`, word characters, and a second `!` if it follows. -/
def tagHandle (c : Cursor) : Option (List Char × Cursor) :=
  if c.sees 0 '!' then
    let (cs, c) := (c.skip 1).span isWordChar
    if c.sees 0 '!' then some ('!' :: cs ++ ['!'], c.skip 1) else some ('!' :: cs, c)
  else none

/-- A tag's handle and suffix. -/
def tagParts (c : Cursor) : Option (List Char × List Char × Cursor) := do
  if c.sees 1 '<' then
    let (suffix, c) ← tagRest true [] (c.skip 2)
    if c.sees 0 '>' then return ([], suffix, c.skip 1) else none
  else
    let (handle, c) ← tagHandle c
    if 1 < handle.length && handle.getLast? == some '!' then
      let (suffix, c) ← tagRest false [] c
      return (handle, suffix, c)
    else
      let (suffix, c) ← tagRest false handle c
      if suffix.isEmpty then return ([], ['!'], c) else return (['!'], suffix, c)

/-- A tag. -/
def tag (s : Scan) : Option Scan := do
  let s ← s.saveKey
  let (handle, suffix, c) ← tagParts s.cursor
  if c.blankOrEnd 0 || (s.inFlow && c.sees 0 ',') then
    return ({ s with cursor := c, keyAllowed := false }).push
      (.tag (String.ofList handle) (String.ofList suffix))
  else none

/-- The number in front, of one to nine digits. -/
def versionNumber (c : Cursor) : Option (Nat × Cursor) :=
  let (ds, c) := c.span Char.isDigit
  if ds.isEmpty || 9 < ds.length then none
  else some (ds.foldl (fun n d => 10 * n + (d.toNat - '0'.toNat)) 0, c)

/-- What a directive says. -/
def directiveBody (name : List Char) (c : Cursor) : Option (Token × Cursor) := do
  let c := c.skipWhile isBlank
  if name = ['Y', 'A', 'M', 'L'] then
    let (major, c) ← versionNumber c
    if c.sees 0 '.' then
      let (minor, c) ← versionNumber (c.skip 1)
      return (.version major minor, c)
    else none
  else if name = ['T', 'A', 'G'] then
    let (handle, c) ← tagHandle c
    if handle != ['!'] && (handle.length < 2 || handle.getLast? != some '!') then none
    else if !(match c.peek? 0 with | some x => isBlank x | none => false) then none
    else
      let (expansion, c) ← tagRest true [] (c.skipWhile isBlank)
      if c.blankOrEnd 0 then
        return (.tagRule (String.ofList handle) (String.ofList expansion), c)
      else none
  else none

/-- A directive, to the end of its line. -/
def directive (s : Scan) : Option Scan := do
  let s ← s.leaveBlocks
  let (name, c) := (s.cursor.skip 1).span isWordChar
  if name.isEmpty || !c.blankOrEnd 0 then none
  else
    let (t, c) ← directiveBody name c
    let c := (c.skipWhile isBlank).skipComment
    if c.atLineEnd then return ({ s with cursor := c.skipBreak }).push t else none

/-! ## Texts -/

/-- A block text. -/
def blockText (s : Scan) (style : Style) : Option Scan := do
  let s ← s.dropKey
  let (v, c) ← block (style = .literal) s.indent s.cursor
  return ({ s with cursor := c, keyAllowed := true }).push (.text v style)

/-- A quoted text. -/
def quotedText (s : Scan) (style : Style) : Option Scan := do
  let s ← s.saveKey
  let (v, c) ← quoted (style = .single) s.cursor
  return ({ s with cursor := c, keyAllowed := false }).push (.text v style)

/-- A plain text. -/
def plainText (s : Scan) : Option Scan := do
  let s ← s.saveKey
  let (v, c, broken) ← plain s.inFlow s.indent s.cursor
  return ({ s with cursor := c, keyAllowed := broken }).push (.text v .plain)

/-- Whether a plain text may begin with a character. -/
def beginsPlain (s : Scan) (x : Char) : Bool :=
  if x = '-' then !(match s.cursor.peek? 1 with | some y => isBlank y | none => false)
  else if x = '?' || x = ':' then !s.inFlow && !s.cursor.blankOrEnd 1
  else !(",[]\x7b\x7d#&*!|>'\"%@\x60".toList.contains x || isBlank x || isBreak x)

/-- The next token, or the next few. Nothing where the text makes no sense. -/
def next (s : Scan) : Option Scan := do
  let s ← (skipIdle (s.cursor.rest.length + 1) s).dropStale
  let s := s.closeBlocks s.cursor.column
  let c := s.cursor
  match c.peek? 0 with
  | none => s.finish
  | some x =>
    let opensBlock := c.blankOrEnd 1
    if c.column == 0 && x = '%' then s.directive
    else if c.atMarker then s.documentMark (if x = '-' then .documentStart else .documentEnd)
    else if x = '[' then s.openFlow .openFlowList
    else if x = '\x7b' then s.openFlow .openFlowRecord
    else if x = ']' then s.closeFlow .closeFlowList
    else if x = '\x7d' then s.closeFlow .closeFlowRecord
    else if x = ',' then s.flowEntry
    else if x = '-' && opensBlock then s.blockEntry
    else if x = '?' && (s.inFlow || opensBlock) then s.key
    else if x = ':' && (s.inFlow || opensBlock) then s.value
    else if x = '*' then s.named .alias
    else if x = '&' then s.named .anchor
    else if x = '!' then s.tag
    else if x = '|' && !s.inFlow then s.blockText .literal
    else if x = '>' && !s.inFlow then s.blockText .folded
    else if x = '\'' then s.quotedText .single
    else if x = '"' then s.quotedText .double
    else if s.beginsPlain x then s.plainText
    else none

/-- Reads tokens to the end. `count` of the tokens were read for certain before the last step. -/
def run : (fuel : Nat) → (count : Nat) → Scan → List Token × Bool
  | 0, count, s => ((s.tokens.extract 0 count).toList, false)
  | fuel + 1, count, s =>
    match s.dropStale with
    | none => ((s.tokens.extract 0 count).toList, false)
    | some s =>
      let count := s.settled
      match s.next with
      | none => ((s.tokens.extract 0 count).toList, false)
      | some s =>
        if s.tokens.back? == some .streamEnd then (s.tokens.toList, true) else run fuel count s

end Scan

/-- The tokens of a text up to where it stops making sense, and whether it makes sense to the end. A
character that no YAML text may hold makes nonsense of all of it; a byte order mark in front does
not count. -/
def tokens (cs : List Char) : List Token × Bool :=
  let cs := match cs with
    | '\uFEFF' :: r => r
    | r => r
  if cs.all isAllowed then
    Scan.run (cs.length + 2) 1 ⟨.start cs, #[.streamStart], [.none], -1, [], true⟩
  else ([.streamStart], false)

end FaultDrill.Yaml
