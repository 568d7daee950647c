import FaultDrill.CommandLine.Outside
import FaultDrill.CommandLine.Request
import FaultDrill.Report.Save
import FaultDrill.Report.Text
import FaultDrill.Schedule
/-!
# Carrying out requests

A request reads and writes files, prints, and may fail. What a failure says is a list of
descriptions, the outermost first. What is not in files is outside.
-/
namespace FaultDrill.CommandLine

/-- The name and the version of the program. -/
def versionText : String := "chaos-warden 0.3.0"

/-- Descriptions of a failure, the outermost first. -/
abbrev Chain := List String

/-- What surrounds a run of the program. -/
structure World where
  files : FileTree
  web : Catalog.Web
  home : Option String
  /-- The seed of runs that name none. -/
  entropy : UInt64
  /-- Whether to print in colour. -/
  color : Bool

/-- What a run of the program leaves. -/
structure Answer where
  files : FileTree
  /-- The parts of what was printed. -/
  printed : List String
  failure : Option Chain

/-! ## Configuration -/

/-- The configuration with the settings of a command line in front. -/
def Overrides.apply (o : Overrides) (c : Config) : Config where
  backend := o.backend.getD c.backend
  catalog := o.catalog.getD c.catalog
  enabled := c.enabled
  leashed := o.leashed || c.leashed
  window := c.window
  allow := if o.groups.isEmpty then c.allow else o.groups
  deny := c.deny
  groupDefaults := c.groupDefaults
  groups := c.groups
  ssh := c.ssh
  maxConcurrency := c.maxConcurrency
  cycleDeadline := c.cycleDeadline
  interval := c.interval
  ledger := (o.ledger.map LedgerMode.parse).getD c.ledger
  terminateCommand := c.terminateCommand
  terminateTimeout := c.terminateTimeout
  fallbackScript := c.fallbackScript

/-- No settings in front. -/
def Overrides.none : Overrides := ⟨.none, .none, .none, false, [], .none⟩

/-- Loads the configuration of a command. -/
def loadConfig (w : World) (path : Option String) (o : Overrides) : Except Chain Config :=
  match path with
  | some path =>
    match Config.load w.files w.home path with
    | .ok c => .ok (o.apply c)
    | .error why => .error why.chain
  | .none => .ok (o.apply .standard)

/-! ## Engines -/

/-- An engine that is ready to run, and what it runs on. -/
structure Drill (κ : Type) where
  engine : Engine (Site κ)
  running : Engine.Running (Site κ)

/-- Makes an engine ready: the backend first, then the ledger. -/
def start (out : Outside κ) (w : World) (config : Config) (o : Overrides) :
    Except Chain (Drill κ) := do
  let (backend, catalog) ←
    (Backend.build w.files w.web w.home config.backend config out.connector
      out.runner).mapError fun why => ["starting " ++ config.backend ++ " backend", why.message]
  let (ledger, files) ←
    (Ledger.open w.files config.ledger).mapError fun why => ["opening event ledger", why.message]
  let seed := (o.seed.map UInt64.ofNat).getD w.entropy
  return ⟨Engine.ofBackend config backend out.elapsed,
    Draw.Source.seeded seed, ⟨files, w.web, w.home, catalog, ledger, out.connections⟩⟩

/-- The answer of a command that failed before it did anything. -/
def failed (w : World) (chain : Chain) : Answer := ⟨w.files, [], some chain⟩

/-- A text on a line of its own. -/
def line (s : String) : String := s ++ "\n"

/-- What saving a report adds to what was printed. -/
def saveTo (files : FileTree) (printed : List String) (report : CycleReport) :
    Option String → Answer
  | none => ⟨files, printed, none⟩
  | some path =>
    match Report.save files report path with
    | .ok (path, files) => ⟨files, printed ++ [line ("Report saved to: " ++ path)], none⟩
    | .error why => ⟨files, printed, some (Report.saveFaultChain why)⟩

/-- Runs one cycle, prints its report and saves it. -/
def once (out : Outside κ) (w : World) (config : Option String) (o : Overrides)
    (output : Option String) (format : Option Report.Format) : Answer :=
  let ready : Except Chain (Drill κ) := do start out w (← loadConfig w config o) o
  match ready with
  | .error chain => failed w chain
  | .ok drill =>
    let (result, running) := out.cycle drill.engine drill.running
    let files := running.world.files
    match result with
    | .error why => ⟨files, [], some ["chaos cycle failed", why.message]⟩
    | .ok report =>
      let text := match format with
        | some f => line (f.render report.document)
        | none => Report.cycle w.color report
      saveTo files [text] report output

/-! ## Schedules -/

/-- An engine ready for a schedule, and the time from one cycle to the next. -/
def startSchedule (out : Outside κ) (w : World) (config : Option String) (o : Overrides)
    (interval : Option String) : Except Chain (Drill κ × Span) := do
  let config ← loadConfig w config o
  let every ← match interval with
    | some raw => (Span.parse raw).mapError fun why => "--interval" :: why.chain
    | none => pure config.interval
  let drill ← start out w { config with interval := every } o
  return (drill, every)

/-- The last words of a schedule. -/
def lastWords : Schedule.Ending → Except Chain String
  | .completed n => .ok (line ("\nCompleted " ++ toString n ++ " cycle(s)"))
  | .unfinished n => .ok (line ("\nCompleted " ++ toString n ++ " cycle(s)"))
  | .fault why => .error ["chaos scheduler stopped", why.message]

/-- An action beside what was printed so far. -/
def besidePrinted (act : StateM σ α) : StateM (σ × List String) α := fun (s, printed) =>
  let (a, s) := act s
  (a, s, printed)

/-- The schedule of an engine; what is printed is kept. -/
def schedule (out : Outside κ) (w : World) (engine : Engine (Site κ)) :
    Schedule (StateM (Engine.Running (Site κ) × List String)) where
  cycle := besidePrinted (out.cycle engine)
  report r := modify fun (running, printed) => (running, printed ++ [Report.cycle w.color r])
  isStopped := besidePrinted (Engine.Running.onWorld out.isStopped)
  wait := besidePrinted (Engine.Running.onWorld out.wait)

/-- Cycles that a schedule without end is followed for. -/
def endless : Nat := twoPow 64

/-- Runs cycles and prints their reports. -/
def run (out : Outside κ) (w : World) (config : Option String) (o : Overrides)
    (cycles : Option Nat) (interval : Option String) : Answer :=
  match startSchedule out w config o interval with
  | .error chain => failed w chain
  | .ok (drill, _) =>
    let (ending, running, printed) :=
      (schedule out w drill.engine).run cycles endless (drill.running, [])
    let files := running.world.files
    match lastWords ending with
    | .ok text => ⟨files, printed ++ [text], none⟩
    | .error chain => ⟨files, printed, some chain⟩

/-! ## Looks at catalogs, ledgers and credentials -/

/-- Lists a catalog. -/
def listCatalog (w : World) (location : String) : Except Chain String := do
  let catalog ← (Catalog.open w.files w.web w.home location).mapError fun why =>
    ["bundled catalogs: " ++ ", ".intercalate Catalog.embeddedNames, why.message]
  let snapshot ← (catalog.refresh w.files w.web w.home).1.mapError fun why => [why.message]
  return Report.catalog w.color catalog.source snapshot

/-- Lists the events of a ledger. -/
def history (w : World) (config : Option String) (ledger : Option String)
    (format : Option Report.Format) : Except Chain (String × FileTree) := do
  let config ← loadConfig w config { Overrides.none with ledger }
  if config.ledger = .memory then
    throw ["the in-memory ledger keeps no history; pass --ledger <file>"]
  let (ledger, files) ← (Ledger.open w.files config.ledger).mapError fun why => [why.message]
  let events ← (ledger.events files).mapError fun why => [why.message]
  let text := match format with
    | some f => line (f.render (.list (events.map (·.document))))
    | none => Report.history w.color events
  return (text, files)

/-- Shows how the credentials for an instance are found. -/
def credentials (w : World) (config : Option String) (location id : String) :
    Except Chain String := do
  let config ← loadConfig w config .none
  let catalog ← (Catalog.open w.files w.web w.home location).mapError fun why => [why.message]
  let snapshot ← (catalog.refresh w.files w.web w.home).1.mapError fun why => [why.message]
  match snapshot.machine? id with
  | none => throw ["instance " ++ id ++ " not found in " ++ catalog.source.display]
  | some m =>
    return Report.credentials w.color id (Credentials.resolve m.login config.loginDefaults)

/-! ## All commands -/

/-- The answer of a command that only prints. -/
def answerOf (w : World) : Except Chain String → Answer
  | .ok text => ⟨w.files, [text], none⟩
  | .error chain => failed w chain

/-- Carries out a request. -/
def Request.perform (out : Outside κ) (w : World) (r : Request) : Answer :=
  match r.command with
  | .once o output format => once out w r.config o output format
  | .run o cycles interval => run out w r.config o cycles interval
  | .catalog location => answerOf w (listCatalog w location)
  | .history ledger format =>
    match history w r.config ledger format with
    | .ok (text, files) => ⟨files, [text], none⟩
    | .error chain => failed w chain
  | .credentials location id => answerOf w (credentials w r.config location id)

/-! ## Messages -/

/-- The lines of a text with something in front of the first and of the others. -/
def indentedLines (first others : String) (text : String) : String :=
  match (Text.splitAtChar '\n' text.toList).map String.ofList with
  | [] => first
  | l :: ls => "\n".intercalate ((first ++ l) :: ls.map (others ++ ·))

/-- The descriptions below the outermost one, numbered where there are several. -/
def causes : Chain → List String
  | [] => []
  | [cause] => [indentedLines "    " "    " cause]
  | many => many.zipIdx.map fun (cause, i) =>
    indentedLines ("    " ++ toString i ++ ": ") "       " cause

/-- The message about a failure. -/
def failureText : Chain → String
  | [] => ""
  | outermost :: inner =>
    line ("Error: " ++ outermost ++
      if inner.isEmpty then "" else "\n\nCaused by:\n" ++ "\n".intercalate (causes inner))

/-- The exit code of a run. -/
def Answer.code (a : Answer) : Nat := if a.failure.isSome then 1 else 0

/-- The exit code of a command line that is not carried out as a command. -/
def Stop.code : Stop → Nat
  | usage => 2
  | help => 0
  | version => 0

/-- What is printed about a command line that is not carried out as a command. -/
def Stop.printed : Stop → String
  | version => line versionText
  | _ => ""

end FaultDrill.CommandLine
