import FaultDrill.Report.Format
/-!
# Words of a command line

A command line is a list of words. Words in front of `--` that begin with a dash name settings:
`--name value`, `--name=value`, `-n value`, `-nvalue`, `-n=value`, and several letters behind one
dash. All other words stand for themselves.
-/
namespace FaultDrill.CommandLine

/-- Why a command line is not carried out as a command. -/
inductive Stop where
  /-- The words make no command. -/
  | usage
  | help
  | version
  deriving DecidableEq, Repr

/-- What a setting takes. -/
inductive Takes where
  | nothing
  | text
  /-- A text that is not empty. -/
  | path
  /-- A numeral below 2^64. -/
  | number
  /-- The name of a document format. -/
  | format
  /-- The setting ends the reading of the words. -/
  | stops (why : Stop)
  deriving DecidableEq, Repr

/-- A setting of a command line. -/
structure Setting where
  name : String
  letter : Option Char
  takes : Takes
  /-- Whether it may be given more than once. -/
  repeats : Bool
  deriving DecidableEq, Repr

/-- Reads a numeral below 2^64; a plus sign may stand in front. -/
def number? (s : String) : Option Nat :=
  let cs := match s.toList with
    | '+' :: cs => cs
    | cs => cs
  if cs.isEmpty || !cs.all Char.isDigit then none
  else
    let n := Binary64.digitsValue cs
    if n < twoPow 64 then some n else none

/-- Reads the name of a document format, as it is written. -/
def format? (s : String) : Option Report.Format :=
  [Report.Format.json, Report.Format.yaml].find? (·.name == s)

/-- Whether a setting can take a value. -/
def Takes.accepts (value : String) : Takes → Bool
  | text => true
  | path => value != ""
  | number => (number? value).isSome
  | format => (format? value).isSome
  | _ => false

/-- What was found among the words, in order. -/
structure Found where
  settings : List (String × String)
  words : List String
  deriving DecidableEq, Repr, Inhabited

namespace Found

/-- Whether a setting was given. -/
def has (f : Found) (name : String) : Bool := f.settings.any (·.1 == name)

/-- The values of a setting. -/
def values (f : Found) (name : String) : List String :=
  (f.settings.filter (·.1 == name)).map (·.2)

/-- The value of a setting. -/
def value? (f : Found) (name : String) : Option String := (f.values name).head?

/-- Adds a setting with its value. -/
def add (f : Found) (s : Setting) (value : String) : Except Stop Found :=
  if (f.has s.name && !s.repeats) || (s.takes != .nothing && !s.takes.accepts value) then
    .error .usage
  else .ok { f with settings := f.settings ++ [(s.name, value)] }

end Found

/-- Reads the letters behind one dash. The setting whose value is still to come is returned. -/
def letters (known : List Setting) : List Char → Found → Except Stop (Found × Option Setting)
  | [], f => .ok (f, none)
  | c :: cs, f =>
    match known.find? (·.letter == some c) with
    | none => .error .usage
    | some s =>
      match s.takes, cs with
      | .stops why, _ => .error why
      | .nothing, cs => do letters known cs (← f.add s "")
      | _, [] => if f.has s.name && !s.repeats then .error .usage else .ok (f, some s)
      | _, '=' :: value => do return (← f.add s (String.ofList value), none)
      | _, value => do return (← f.add s (String.ofList value), none)

/-- A name and what follows the first `=`. -/
def splitName (cs : List Char) : String × Option String :=
  let name := cs.takeWhile (· != '=')
  match cs.drop name.length with
  | [] => (String.ofList name, none)
  | _ :: value => (String.ofList name, some (String.ofList value))

/-- Reads a name behind two dashes. The setting whose value is still to come is returned. -/
def long (known : List Setting) (cs : List Char) (f : Found) :
    Except Stop (Found × Option Setting) :=
  let (name, value) := splitName cs
  match known.find? (·.name == name) with
  | none => .error .usage
  | some s =>
    match s.takes, value with
    | .stops why, none => .error why
    | .stops _, some _ => .error .usage
    | .nothing, none => do return (← f.add s "", none)
    | .nothing, some _ => .error .usage
    | _, none => if f.has s.name && !s.repeats then .error .usage else .ok (f, some s)
    | _, some value => do return (← f.add s value, none)

/-- Adds words that stand for themselves, if there is room for them. -/
def addWords (room : Nat) (f : Found) (words : List String) : Except Stop Found :=
  let words := f.words ++ words
  if words.length ≤ room then .ok { f with words } else .error .usage

/-- Reads words up to the end, or up to the first word that stands for itself where there is no room
for any: that word and those behind it are left. `pending` is a setting whose value comes next. -/
def scan (known : List Setting) (room : Nat) :
    (pending : Option Setting) → Found → List String → Except Stop (Found × List String)
  | none, f, [] => .ok (f, [])
  | some _, _, [] => .error .usage
  | some s, f, word :: more =>
    match word.toList with
    | '-' :: _ :: _ => .error .usage
    | _ => do scan known room none (← f.add s word) more
  | none, f, word :: more =>
    match word.toList with
    | ['-', '-'] => do return (← addWords room f more, [])
    | '-' :: '-' :: cs => do
      let (f, pending) ← long known cs f
      scan known room pending f more
    | '-' :: c :: cs => do
      let (f, pending) ← letters known (c :: cs) f
      scan known room pending f more
    | _ =>
      if room = 0 then .ok (f, word :: more)
      else do scan known room none (← addWords room f [word]) more

end FaultDrill.CommandLine
