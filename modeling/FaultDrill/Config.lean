import FaultDrill.Config.Document
import FaultDrill.Credentials
import FaultDrill.Ledger
/-!
# Configuration

What is drilled and how: which groups, how likely, by what disruption, and where catalog, ledger and
logins come from. Settings that a document leaves out have standard values; the settings of a group
come before those for all groups. A configuration that loads is sound: its window is not empty, all
probabilities lie in [0, 1], and at least one worker is allowed.
-/
namespace FaultDrill

/-- The settings that a group has of its own. -/
structure GroupPolicy where
  enabled : Option Bool
  probability : Option Binary64
  disruption : Option Disruption
  deriving DecidableEq, Repr, Inhabited

/-- The settings of groups that have none of their own. -/
structure GroupDefaults where
  enabled : Bool
  probability : Binary64
  disruption : Disruption
  deriving DecidableEq, Repr, Inhabited

/-- How to log in, and how long to wait. -/
structure SshSettings where
  user : Option String
  key : Option (List UInt8)
  keyPassphrase : Option String
  connectTimeout : Span
  scriptTimeout : Span
  deriving DecidableEq, Repr, Inhabited

/-- The diagnostic form, without secrets. -/
def SshSettings.diagnostic (s : SshSettings) : String :=
  Text.Quoted.record "SshSettings" [
    ("user", Text.Quoted.option Text.Quoted.quote s.user),
    ("key", Credentials.redacted s.key),
    ("key_passphrase", Credentials.redacted s.keyPassphrase),
    ("connect_timeout", s.connectTimeout.message),
    ("script_timeout", s.scriptTimeout.message)]

/-- A configuration. -/
structure Config where
  backend : String
  catalog : String
  /-- Off for all groups when false. -/
  enabled : Bool
  /-- Decide, but neither disrupt nor record. -/
  leashed : Bool
  window : Span
  /-- The groups to look at; all of them when empty. -/
  allow : List String
  /-- The groups to leave alone. -/
  deny : List String
  groupDefaults : GroupDefaults
  /-- The groups with settings of their own, each once. -/
  groups : List (String × GroupPolicy)
  ssh : SshSettings
  maxConcurrency : Nat
  cycleDeadline : Span
  interval : Span
  ledger : LedgerMode
  terminateCommand : List String
  terminateTimeout : Span
  /-- The script to run where the backend cannot terminate. -/
  fallbackScript : Option Script
  deriving Repr, Inhabited

namespace Config

/-- The configuration of an empty document. -/
def standard : Config where
  backend := "local"
  catalog := "./instance_catalog.json"
  enabled := true
  leashed := false
  window := .seconds (24 * 60 * 60)
  allow := []
  deny := []
  groupDefaults := ⟨false, .ofNat 1, .script Script.shutdown⟩
  groups := []
  ssh := ⟨none, none, none, .seconds 3, .seconds 60⟩
  maxConcurrency := 4
  cycleDeadline := .seconds (10 * 60)
  interval := .seconds (60 * 60)
  ledger := .memory
  terminateCommand := []
  terminateTimeout := .seconds 30
  fallbackScript := none

/-! ## Policy -/

/-- The settings of a group's own. -/
def policy? (c : Config) (group : String) : Option GroupPolicy := c.groups.lookup group

/-- Whether a group may be disrupted. -/
def groupEnabled (c : Config) (group : String) : Bool :=
  c.enabled && ((c.policy? group).bind (·.enabled)).getD c.groupDefaults.enabled

/-- How likely a group is to be disrupted. -/
def probability (c : Config) (group : String) : Binary64 :=
  ((c.policy? group).bind (·.probability)).getD c.groupDefaults.probability

/-- How a group is disrupted. -/
def disruption (c : Config) (group : String) : Disruption :=
  ((c.policy? group).bind (·.disruption)).getD c.groupDefaults.disruption

/-- Whether the lists let a group through. -/
def isListed (c : Config) (group : String) : Bool :=
  (c.allow.isEmpty || c.allow.contains group) && !c.deny.contains group

/-- The login settings that apply to all instances. -/
def loginDefaults (c : Config) : Credentials.Defaults :=
  ⟨c.ssh.user, c.ssh.key, c.ssh.keyPassphrase⟩

/-! ## Loading -/

/-- Why a configuration does not load. -/
inductive Fault where
  | unreadable (path : String) (why : FileTree.Fault)
  | extension (path : String)
  | document (format : Format) (path : String) (why : Document.Fault)
  | span (setting : String) (why : Span.Fault)
  | zeroWindow
  | probability (scope : String) (p : Binary64)
  | disruption (group : Option String) (why : Disruption.Fault)
  | key (why : String × FileTree.Fault)
  | zeroConcurrency
  | terminateFallback
  deriving DecidableEq, Repr

/-- What went wrong, the outermost description first. -/
def Fault.chain : Fault → List String
  | unreadable path why => ["reading config " ++ path, why.message]
  | extension path => ["unsupported config extension for " ++ path]
  | document format path why =>
    ["parsing " ++ format.name ++ " config " ++ path, why.message]
  | span setting why => setting :: why.chain
  | zeroWindow => ["window must be longer than zero"]
  | probability scope p =>
    ["probability for " ++ scope ++ " must be within [0, 1], got " ++ p.message]
  | disruption (some group) why => ("group '" ++ group ++ "'") :: why.chain
  | disruption none why => why.chain
  | key why => keyFaultChain why
  | zeroConcurrency => ["max_concurrency must be at least 1"]
  | terminateFallback => ["fallback_script cannot be terminate"]

/-- Reads a span where one is set. -/
def spanOr (setting : String) (standard : Span) : Option String → Except Fault Span
  | none => .ok standard
  | some raw => (Span.parse raw).mapError (.span setting)

/-- Checks that a number lies in [0, 1]. -/
def checkProbability (scope : String) (p : Binary64) : Except Fault Binary64 :=
  if Binary64.zero.le p && p.le (.ofNat 1) then .ok p else .error (.probability scope p)

/-- The names with the values they have last, in the order of their last mention. -/
def lastByName : List (String × α) → List (String × α)
  | [] => []
  | (name, a) :: more =>
    if more.any (·.1 == name) then lastByName more else (name, a) :: lastByName more

/-- What surrounds a configuration while it loads: the files, the home directory and the directory
that scripts are looked up from. -/
structure Surroundings where
  files : FileTree
  home : Option String
  base : String

/-- Reads a disruption. -/
def disruptionOf (around : Surroundings) (group : Option String) (raw : String) :
    Except Fault Disruption :=
  (Disruption.parse around.files around.home around.base raw).mapError (.disruption group)

/-- The settings of a group. -/
def groupPolicy (around : Surroundings) (name : String) (d : GroupDocument) :
    Except Fault GroupPolicy := do
  let probability ← d.probability.mapM (checkProbability name)
  let disruption ← d.disruption.mapM (disruptionOf around (some name))
  return ⟨d.enabled, probability, disruption⟩

/-- The settings of groups without any of their own. -/
def groupDefaultsOf (around : Surroundings) (d : GroupDocument) : Except Fault GroupDefaults := do
  let s := standard.groupDefaults
  let probability ← match d.probability with
    | some p => checkProbability "group_defaults" p
    | none => pure s.probability
  let disruption ← match d.disruption with
    | some raw => disruptionOf around none raw
    | none => pure s.disruption
  return ⟨d.enabled.getD s.enabled, probability, disruption⟩

/-- The settings for logins. -/
def sshSettings (around : Surroundings) (d : SshDocument) : Except Fault SshSettings := do
  let key ← match d.key with
    | some path =>
      if Text.allBlank path then pure none
      else some <$> (readKeyFile around.files around.home path).mapError Fault.key
    | none => pure none
  let connectTimeout ← spanOr "ssh.connect_timeout" standard.ssh.connectTimeout d.connectTimeout
  let scriptTimeout ← spanOr "ssh.script_timeout" standard.ssh.scriptTimeout d.scriptTimeout
  return ⟨d.user, key, d.keyPassphrase, connectTimeout, scriptTimeout⟩

/-- The number of workers. -/
def workers : Option Nat → Except Fault Nat
  | none => .ok standard.maxConcurrency
  | some 0 => .error .zeroConcurrency
  | some n => .ok n

/-- The script to fall back on. -/
def fallback (around : Surroundings) : Option String → Except Fault (Option Script)
  | none => .ok none
  | some raw => do
    match ← disruptionOf around none raw with
    | .script s => return some s
    | .terminate => throw .terminateFallback

/-- The configuration of a document. -/
def ofDocument (around : Surroundings) (d : ConfigDocument) : Except Fault Config := do
  let window ← spanOr "window" standard.window d.window
  if window.millis = 0 then throw .zeroWindow
  let groupDefaults ← groupDefaultsOf around d.groupDefaults
  let groups ← (lastByName d.groups).mapM fun (name, g) => do
    return (name, ← groupPolicy around name g)
  let ssh ← sshSettings around d.ssh
  let maxConcurrency ← workers d.maxConcurrency
  let cycleDeadline ← spanOr "cycle_deadline" standard.cycleDeadline d.cycleDeadline
  let interval ← spanOr "interval" standard.interval d.interval
  let terminateTimeout ← spanOr "terminate_timeout" standard.terminateTimeout d.terminateTimeout
  let fallbackScript ← fallback around d.fallbackScript
  return {
    backend := d.backend.getD standard.backend
    catalog := d.catalog.getD standard.catalog
    enabled := d.enabled.getD standard.enabled
    leashed := d.leashed.getD standard.leashed
    window
    allow := d.allow
    deny := d.deny
    groupDefaults
    groups
    ssh
    maxConcurrency
    cycleDeadline
    interval
    ledger := (d.ledger.map LedgerMode.parse).getD standard.ledger
    terminateCommand := d.terminateCommand
    terminateTimeout
    fallbackScript }

/-- Loads a configuration file. Scripts that it names by relative paths are looked up from its
directory. -/
def load (files : FileTree) (home : Option String) (path : String) : Except Fault Config := do
  let content ← (files.readText path).mapError (.unreadable path)
  match Format.ofExtension (Path.extension? path) with
  | none => throw (.extension path)
  | some format =>
    let d ← (format.read ConfigDocument.reader content).mapError (.document format path)
    ofDocument ⟨files, home, (Path.parent? path).getD "."⟩ d

end Config
end FaultDrill
