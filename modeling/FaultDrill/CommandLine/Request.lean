import FaultDrill.CommandLine.Words
/-!
# Requests

What a command line asks for: one cycle, a schedule of cycles, or a look at a catalog, a ledger or
an instance's credentials. The configuration file may be named before or behind the command; the
later one counts.
-/
namespace FaultDrill.CommandLine

/-- Settings that come before those of the configuration. -/
structure Overrides where
  backend : Option String
  catalog : Option String
  ledger : Option String
  leashed : Bool
  groups : List String
  seed : Option Nat
  deriving DecidableEq, Repr, Inhabited

/-- A command. -/
inductive Command where
  /-- Runs one cycle. -/
  | once (overrides : Overrides) (output : Option String) (format : Option Report.Format)
  /-- Runs cycles. -/
  | run (overrides : Overrides) (cycles : Option Nat) (interval : Option String)
  /-- Lists a catalog. -/
  | catalog (location : String)
  /-- Lists the events of a ledger. -/
  | history (ledger : Option String) (format : Option Report.Format)
  /-- Shows how the credentials for an instance are found. -/
  | credentials (location id : String)
  deriving DecidableEq, Repr

/-- A command with the configuration file that it uses. -/
structure Request where
  config : Option String
  command : Command
  deriving DecidableEq, Repr

/-! ## Settings -/

/-- Settings that every command has. -/
def everywhere : List Setting := [
  ⟨"config", some 'c', .path, false⟩,
  ⟨"verbose", some 'v', .nothing, true⟩,
  ⟨"help", some 'h', .stops .help, false⟩]

/-- Settings in front of the command. -/
def inFront : List Setting := ⟨"version", some 'V', .stops .version, false⟩ :: everywhere

/-- Settings that come before those of the configuration. -/
def overriding : List Setting := [
  ⟨"backend", none, .text, false⟩,
  ⟨"catalog", none, .text, false⟩,
  ⟨"ledger", none, .text, false⟩,
  ⟨"leashed", none, .nothing, false⟩,
  ⟨"group", none, .text, true⟩,
  ⟨"seed", none, .number, false⟩]

/-- The format of what is printed. -/
def formatSetting : Setting := ⟨"format", some 'f', .format, false⟩

/-- What was found of the settings that come before those of the configuration. -/
def Found.overrides (f : Found) : Overrides where
  backend := f.value? "backend"
  catalog := f.value? "catalog"
  ledger := f.value? "ledger"
  leashed := f.has "leashed"
  groups := f.values "group"
  seed := (f.value? "seed").bind number?

/-- The format that was found. -/
def Found.format (f : Found) : Option Report.Format := (f.value? "format").bind format?

/-! ## Commands -/

/-- How a command is written: its settings, how many words it takes, and what it then is. -/
structure Grammar where
  settings : List Setting
  room : Nat
  build : Found → Option Command

/-- How a command of the given name is written. -/
def grammar : String → Option Grammar
  | "once" => some {
      settings := overriding ++ [⟨"output", some 'o', .path, false⟩, formatSetting]
      room := 0
      build := fun f => some (.once f.overrides (f.value? "output") f.format) }
  | "run" => some {
      settings := overriding ++ [⟨"cycles", none, .number, false⟩, ⟨"interval", none, .text, false⟩]
      room := 0
      build := fun f =>
        some (.run f.overrides ((f.value? "cycles").bind number?) (f.value? "interval")) }
  | "catalog" => some {
      settings := []
      room := 1
      build := fun f => match f.words with
        | [location] => some (.catalog location)
        | _ => none }
  | "history" => some {
      settings := [⟨"ledger", none, .text, false⟩, formatSetting]
      room := 0
      build := fun f => some (.history (f.value? "ledger") f.format) }
  | "credentials" => some {
      settings := []
      room := 2
      build := fun f => match f.words with
        | [location, id] => some (.credentials location id)
        | _ => none }
  | _ => none

/-- Reads a command from its name and the words behind it. -/
def readCommand (name : String) (words : List String) : Except Stop (Found × Command) := do
  if name = "help" then
    throw <| match words with
      | [] => .help
      | ["help"] => .help
      | [word] => if (grammar word).isSome then .help else .usage
      | _ => .usage
  match grammar name with
  | none => throw .usage
  | some g =>
    let (found, left) ← scan (g.settings ++ everywhere) g.room none ⟨[], []⟩ words
    if !left.isEmpty then throw .usage
    match g.build found with
    | some command => return (found, command)
    | none => throw .usage

/-- Reads a request. -/
def Request.read (words : List String) : Except Stop Request := do
  let (front, left) ← scan inFront 0 none ⟨[], []⟩ words
  match left with
  | [] => throw .usage
  | name :: words =>
    let (found, command) ← readCommand name words
    return ⟨(found.value? "config").or (front.value? "config"), command⟩

end FaultDrill.CommandLine
