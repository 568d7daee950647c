import FaultDrill.Text.Blank
/-!
# Shell scripts

A shell script is a sequence of simple commands joined by `;`, line ends, `&&` and `||`. A command
is a list of words with redirections of its outputs. Words may be quoted and may hold parameters.
Other constructs of the shell language are not known here.
-/
namespace FaultDrill.Shell

/-- A part of a word. -/
inductive Part where
  | plain (text : List Char)
  /-- The value of a parameter; unquoted it is split at blanks. -/
  | parameter (quoted : Bool) (name : Char)
  deriving DecidableEq, Repr

/-- Where an output goes. -/
inductive Target where
  | output
  | diagnostics
  | nowhere
  deriving DecidableEq, Repr

/-- When a command runs, given the status before it. -/
inductive Link where
  | always
  | ifSucceeded
  | ifFailed
  deriving DecidableEq, Repr

/-- What a script is made of. -/
inductive Token where
  | word (parts : List Part)
  /-- An output, by its number, goes elsewhere. -/
  | redirect (output : Nat) (target : Target)
  | link (l : Link)
  deriving DecidableEq, Repr

/-- A command: when it runs, its words, and the redirections in their order. -/
structure Command where
  link : Link
  words : List (List Part)
  redirects : List (Nat × Target)
  deriving DecidableEq, Repr

/-- Whether a character ends a word. -/
def endsWord (c : Char) : Bool := " \t\n;&|<>".toList.contains c

/-- The parameters that a script knows: `$0` and so on, `$$`, `$?`, `$#`, `$@` and `$*`. -/
def isParameter (c : Char) : Bool := c.isDigit || "$?#@*".toList.contains c

/-- Text put in front of the parts of a word. -/
def addPlain (cs : List Char) : List Part → List Part
  | .plain ds :: more => .plain (cs ++ ds) :: more
  | parts => .plain cs :: parts

/-- The word in front and what follows it. The state is the quote that is open. -/
def readWord : (quote : Option Char) → List Char → List Part × List Char
  | _, [] => ([], [])
  | some '\'', c :: cs =>
    if c = '\'' then
      let (parts, rest) := readWord none cs
      (addPlain [] parts, rest)
    else
      let (parts, rest) := readWord (some '\'') cs
      (addPlain [c] parts, rest)
  | quote, '$' :: c :: cs =>
    if isParameter c then
      let (parts, rest) := readWord quote cs
      (.parameter quote.isSome c :: parts, rest)
    else
      let (parts, rest) := readWord quote (c :: cs)
      (addPlain ['$'] parts, rest)
  | quote, '\\' :: c :: cs =>
    let (parts, rest) := readWord quote cs
    let kept := quote.isSome && !"$\x60\"\\\n".toList.contains c
    (addPlain (if kept then ['\\', c] else [c]) parts, rest)
  | some q, c :: cs =>
    if c = '"' then
      let (parts, rest) := readWord none cs
      (addPlain [] parts, rest)
    else
      let (parts, rest) := readWord (some q) cs
      (addPlain [c] parts, rest)
  | none, c :: cs =>
    if endsWord c then ([], c :: cs)
    else if c = '\'' || c = '"' then
      let (parts, rest) := readWord (some c) cs
      (addPlain [] parts, rest)
    else
      let (parts, rest) := readWord none cs
      (addPlain [c] parts, rest)

/-- The output that a redirection names with a digit. -/
def targetOf (digit : Char) : Target := if digit = '2' then .diagnostics else .output

/-- The target of a redirection behind its `>`, and what follows it. Files are not written. -/
def readTarget (cs : List Char) : Target × List Char :=
  match cs with
  | '&' :: d :: rest => (targetOf d, rest)
  | '>' :: rest => (.nowhere, (readWord none (Text.trimLeft rest)).2)
  | rest => (.nowhere, (readWord none (Text.trimLeft rest)).2)

/-- The tokens of a script, as many as the bound allows. -/
def tokens : (bound : Nat) → List Char → List Token
  | 0, _ => []
  | _, [] => []
  | n + 1, c :: cs =>
    match c, cs with
    | ' ', _ => tokens n cs
    | '\t', _ => tokens n cs
    | '#', _ => tokens n (cs.dropWhile (· != '\n'))
    | '&', '&' :: rest => .link .ifSucceeded :: tokens n rest
    | '|', '|' :: rest => .link .ifFailed :: tokens n rest
    | '>', rest =>
      let (target, rest) := readTarget rest
      .redirect 1 target :: tokens n rest
    | '1', '>' :: rest =>
      let (target, rest) := readTarget rest
      .redirect 1 target :: tokens n rest
    | '2', '>' :: rest =>
      let (target, rest) := readTarget rest
      .redirect 2 target :: tokens n rest
    | _, _ =>
      if endsWord c then .link .always :: tokens n cs
      else
        let (parts, rest) := readWord none (c :: cs)
        .word parts :: tokens n rest

/-- The commands of a script, those without words left out. -/
def commandsOf : (current : Command) → List Token → List Command
  | current, [] => finish current
  | current, .word parts :: more =>
    commandsOf { current with words := current.words ++ [parts] } more
  | current, .redirect n target :: more =>
    commandsOf { current with redirects := current.redirects ++ [(n, target)] } more
  | current, .link l :: more => finish current ++ commandsOf ⟨l, [], []⟩ more
where
  /-- A command that has words. -/
  finish (c : Command) : List Command := if c.words.isEmpty then [] else [c]

/-- The commands of a script. -/
def commands (script : String) : List Command :=
  commandsOf ⟨.always, [], []⟩ (tokens (script.length + 1) script.toList)

end FaultDrill.Shell
