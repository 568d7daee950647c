import FaultDrill.Yaml.Token
/-!
# Events of YAML

The structure of a YAML text: its documents and in them lists, records, texts and references to
anchored values. Each event needs the tokens up to its own end and no more, so the events before a
fault do not depend on what follows.
-/
namespace FaultDrill.Yaml

/-- A step through the structure of a text. -/
inductive Event where
  | documentStart
  | documentEnd
  | streamEnd
  | alias (name : String)
  | text (anchor tag : Option String) (value : String) (style : Style)
  | openList (anchor : Option String)
  | closeList
  | openRecord (anchor : Option String)
  | closeRecord
  deriving DecidableEq, Repr, Inhabited

/-- What is expected next. -/
inductive Expect where
  | streamStart
  | documentStart (implicit : Bool)
  | documentContent
  | documentEnd
  | blockNode
  | blockListEntry (first : Bool)
  | bareListEntry
  | blockRecordKey (first : Bool)
  | blockRecordValue
  | flowListEntry (first : Bool)
  | flowPairKey
  | flowPairValue
  | flowPairEnd
  | flowRecordKey (first : Bool)
  | flowRecordValue (absent : Bool)
  | nothing
  deriving DecidableEq, Repr

/-- The state of reading events. -/
structure Parse where
  tokens : List Token
  expect : Expect
  /-- What is expected behind the collections that are open, innermost first. -/
  later : List Expect
  /-- The handles of tags and what they stand for. -/
  rules : List (String × String)

namespace Parse

/-- A step: an event and the state behind it. Nothing at a fault or where the tokens end. -/
abbrev Step := Option (Event × Parse)

/-- The state with the next thing expected taken from those set aside. -/
def back (p : Parse) : Parse := { p with expect := p.later.headD .nothing, later := p.later.tail }

/-- The state that expects something else. -/
def expecting (p : Parse) (e : Expect) : Parse := { p with expect := e }

/-- The state with something set aside for later. -/
def setAside (p : Parse) (e : Expect) : Parse := { p with later := e :: p.later }

/-- The state behind the next token. -/
def skip (p : Parse) : Parse := { p with tokens := p.tokens.tail }

/-- A value that is not written at all. -/
def emptyText : Event := .text none none "" .plain

/-- The tag that a handle and a suffix make; nothing for a handle that is not declared. -/
def tagOf (p : Parse) (handle suffix : String) : Option String :=
  if handle = "" then some suffix else (p.rules.lookup handle).map (· ++ suffix)

/-- The anchor and tag in front of a value, in either order, each at most once. Nothing when a tag's
handle is not declared or the tokens end. -/
def properties (p : Parse) : Option (Option String × Option String × Parse) :=
  match p.tokens with
  | .anchor a :: .tag h s :: ts =>
    (p.tagOf h s).map fun t => (some a, some t, { p with tokens := ts })
  | .anchor _ :: [] => none
  | .anchor a :: ts => some (some a, none, { p with tokens := ts })
  | .tag h s :: .anchor a :: ts =>
    (p.tagOf h s).map fun t => (some a, some t, { p with tokens := ts })
  | .tag _ _ :: [] => none
  | .tag h s :: ts => (p.tagOf h s).map fun t => (none, some t, { p with tokens := ts })
  | _ => some (none, none, p)

/-- A value. In a block (`inBlock`) it may be a block; a list of a record's block may stand without
indentation of its own (`bare`). -/
def node (p : Parse) (inBlock bare : Bool) : Step :=
  match p.tokens with
  | [] => none
  | .alias a :: _ => some (.alias a, p.back.skip)
  | _ => do
    let (anchor, tag, p) ← p.properties
    match p.tokens with
    | [] => none
    | .blockEntry :: _ =>
      if bare then return (.openList anchor, p.expecting .bareListEntry) else missing p anchor tag
    | .text v style :: _ =>
      return (.text anchor (if tag = some "!" then none else tag) v style, p.back.skip)
    | .openFlowList :: _ => return (.openList anchor, p.expecting (.flowListEntry true))
    | .openFlowRecord :: _ => return (.openRecord anchor, p.expecting (.flowRecordKey true))
    | .openBlockList :: _ =>
      if inBlock then return (.openList anchor, p.expecting (.blockListEntry true))
      else missing p anchor tag
    | .openBlockRecord :: _ =>
      if inBlock then return (.openRecord anchor, p.expecting (.blockRecordKey true))
      else missing p anchor tag
    | _ => missing p anchor tag
where
  /-- Where no value follows, its anchor or tag stands for an empty one. -/
  missing (p : Parse) (anchor tag : Option String) : Step :=
    if anchor.isSome || tag.isSome then some (.text anchor tag "" .plain, p.back) else none

/-- A value behind its mark, or an empty one where one of the given tokens follows. -/
def nodeUnless (p : Parse) (stop : Token → Bool) (next : Expect) (inBlock bare : Bool) : Step :=
  match p.tokens with
  | [] => none
  | t :: _ =>
    if stop t then some (emptyText, p.expecting next) else (p.setAside next).node inBlock bare

/-- The handles that need no declaration. -/
def standardRules : List (String × String) := [("!", "!"), ("!!", "tag:yaml.org,2002:")]

/-- Reads the directives in front of a document. Nothing when a version comes twice or is unknown,
when a handle is declared twice, or when the tokens end. -/
def directives : (versionSeen : Bool) → List (String × String) → List Token →
    Option (List (String × String) × List Token)
  | _, _, [] => none
  | seen, rules, .version major minor :: ts =>
    if seen || major != 1 || (minor != 1 && minor != 2) then none else directives true rules ts
  | seen, rules, .tagRule handle expansion :: ts =>
    if rules.any (·.1 == handle) then none else directives seen (rules ++ [(handle, expansion)]) ts
  | _, rules, ts => some (rules ++ standardRules, ts)

/-- The start of a document, or the end of the text. -/
def startDocument (p : Parse) (implicit : Bool) : Step :=
  let ts := if implicit then p.tokens else p.tokens.dropWhile (· == .documentEnd)
  match ts with
  | [] => none
  | .streamEnd :: _ => some (.streamEnd, { p with tokens := ts.tail, expect := .nothing })
  | t :: _ =>
    let explicit := match t with
      | .version .. | .tagRule .. | .documentStart => true
      | _ => false
    if implicit && !explicit then
      let p := { p with tokens := ts, rules := standardRules }
      some (.documentStart, (p.setAside .documentEnd).expecting .blockNode)
    else do
      let (rules, ts) ← directives false [] ts
      match ts with
      | .documentStart :: ts =>
        return (.documentStart,
          ({ p with tokens := ts, rules }.setAside .documentEnd).expecting .documentContent)
      | _ => none

/-- The next event. -/
def step (p : Parse) : Step :=
  match p.expect with
  | .nothing => none
  | .streamStart => startDocument (p.skip.expecting (.documentStart true)) true
  | .documentStart implicit => p.startDocument implicit
  | .documentContent =>
    match p.tokens with
    | [] => none
    | .version .. :: _ | .tagRule .. :: _ | .documentStart :: _ | .documentEnd :: _ |
      .streamEnd :: _ => some (emptyText, p.back)
    | _ => p.node true false
  | .documentEnd =>
    match p.tokens with
    | [] => none
    | .documentEnd :: _ => some (.documentEnd, p.skip.expecting (.documentStart false))
    | _ => some (.documentEnd, p.expecting (.documentStart false))
  | .blockNode => p.node true false
  | .blockListEntry first =>
    let p := if first then p.skip else p
    match p.tokens with
    | .blockEntry :: _ =>
      p.skip.nodeUnless (fun t => t == .blockEntry || t == .closeBlock) (.blockListEntry false) true
        false
    | .closeBlock :: _ => some (.closeList, p.back.skip)
    | _ => none
  | .bareListEntry =>
    match p.tokens with
    | [] => none
    | .blockEntry :: _ =>
      p.skip.nodeUnless
        (fun t => t == .blockEntry || t == .key || t == .value || t == .closeBlock) .bareListEntry
        true false
    | _ => some (.closeList, p.back)
  | .blockRecordKey first =>
    let p := if first then p.skip else p
    match p.tokens with
    | .key :: _ =>
      p.skip.nodeUnless (fun t => t == .key || t == .value || t == .closeBlock) .blockRecordValue
        true true
    | .closeBlock :: _ => some (.closeRecord, p.back.skip)
    | _ => none
  | .blockRecordValue =>
    match p.tokens with
    | [] => none
    | .value :: _ =>
      p.skip.nodeUnless (fun t => t == .key || t == .value || t == .closeBlock)
        (.blockRecordKey false) true true
    | _ => some (emptyText, p.expecting (.blockRecordKey false))
  | .flowListEntry first =>
    let p := if first then p.skip else p
    match p.tokens with
    | [] => none
    | .closeFlowList :: _ => some (.closeList, p.back.skip)
    | t :: _ =>
      if !first && t != .flowEntry then none
      else
        let p := if first then p else p.skip
        match p.tokens with
        | [] => none
        | .key :: _ => some (.openRecord none, p.skip.expecting .flowPairKey)
        | .closeFlowList :: _ => some (.closeList, p.back.skip)
        | _ => (p.setAside (.flowListEntry false)).node false false
  | .flowPairKey =>
    match p.tokens with
    | [] => none
    | .value :: _ | .flowEntry :: _ | .closeFlowList :: _ =>
      some (emptyText, p.skip.expecting .flowPairValue)
    | _ => (p.setAside .flowPairValue).node false false
  | .flowPairValue =>
    match p.tokens with
    | [] => none
    | .value :: _ =>
      p.skip.nodeUnless (fun t => t == .flowEntry || t == .closeFlowList) .flowPairEnd false false
    | _ => some (emptyText, p.expecting .flowPairEnd)
  | .flowPairEnd =>
    if p.tokens.isEmpty then none else some (.closeRecord, p.expecting (.flowListEntry false))
  | .flowRecordKey first =>
    let p := if first then p.skip else p
    match p.tokens with
    | [] => none
    | .closeFlowRecord :: _ => some (.closeRecord, p.back.skip)
    | t :: _ =>
      if !first && t != .flowEntry then none
      else
        let p := if first then p else p.skip
        match p.tokens with
        | [] => none
        | .key :: _ =>
          p.skip.nodeUnless
            (fun t => t == .value || t == .flowEntry || t == .closeFlowRecord)
            (.flowRecordValue false) false false
        | .closeFlowRecord :: _ => some (.closeRecord, p.back.skip)
        | _ => (p.setAside (.flowRecordValue true)).node false false
  | .flowRecordValue absent =>
    match p.tokens with
    | [] => none
    | t :: _ =>
      if absent then some (emptyText, p.expecting (.flowRecordKey false))
      else if t == .value then
        p.skip.nodeUnless (fun t => t == .flowEntry || t == .closeFlowRecord) (.flowRecordKey false)
          false false
      else some (emptyText, p.expecting (.flowRecordKey false))

/-- The events of a text, as far as it makes sense. A text that makes sense to the end has the end
of the text as its last event. -/
def run : (fuel : Nat) → Parse → List Event
  | 0, _ => []
  | fuel + 1, p =>
    match p.step with
    | none => []
    | some (.streamEnd, _) => [.streamEnd]
    | some (e, p) => e :: run fuel p

end Parse

/-- The events of a text. An event takes at least a token, or stands for a value that is not written
between two tokens. -/
def events (cs : List Char) : List Event :=
  let ts := (tokens cs).1
  Parse.run (4 * ts.length + 4) ⟨ts, .streamStart, [], []⟩

end FaultDrill.Yaml
