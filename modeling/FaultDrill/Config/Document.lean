import FaultDrill.Json.Reader
import FaultDrill.Yaml.Reader
/-!
# Configuration documents

A configuration document is a record of settings, each of which may be missing. Keys it does not
know are refused on every level. The format goes by the extension of the file.
-/
namespace FaultDrill.Config
open Document

/-- The settings of a group. -/
structure GroupDocument where
  enabled : Option Bool
  probability : Option Binary64
  disruption : Option String
  deriving DecidableEq, Repr, Inhabited

/-- The settings for logins. -/
structure SshDocument where
  user : Option String
  key : Option String
  keyPassphrase : Option String
  connectTimeout : Option String
  scriptTimeout : Option String
  deriving DecidableEq, Repr, Inhabited

/-- All settings. -/
structure ConfigDocument where
  backend : Option String
  catalog : Option String
  enabled : Option Bool
  leashed : Option Bool
  window : Option String
  allow : List String
  deny : List String
  groupDefaults : GroupDocument
  groups : List (String × GroupDocument)
  ssh : SshDocument
  maxConcurrency : Option Nat
  cycleDeadline : Option String
  interval : Option String
  ledger : Option String
  terminateCommand : List String
  terminateTimeout : Option String
  fallbackScript : Option String
  deriving DecidableEq, Repr, Inhabited

/-- A setting that may be missing or empty. -/
def setting (name : String) (r : Reader α) : Form (Option α) :=
  Form.defaulting name none (Reader.optional r)

/-- A list of texts that may be missing. -/
def texts (name : String) : Form (List String) := Form.defaulting name [] (Reader.list Reader.text)

/-- Reads the settings of a group. -/
def GroupDocument.reader : Reader GroupDocument :=
  (GroupDocument.mk <$> setting "enabled" Reader.flag <*> setting "probability" Reader.real <*>
    setting "disruption" Reader.text).reader .refused

/-- Reads the settings for logins. -/
def SshDocument.reader : Reader SshDocument :=
  (SshDocument.mk <$> setting "user" Reader.text <*> setting "key" Reader.text <*>
    setting "key_passphrase" Reader.text <*> setting "connect_timeout" Reader.text <*>
    setting "script_timeout" Reader.text).reader .refused

/-- Reads all settings. -/
def ConfigDocument.reader : Reader ConfigDocument :=
  (ConfigDocument.mk <$> setting "backend" Reader.text <*> setting "catalog" Reader.text <*>
    setting "enabled" Reader.flag <*> setting "leashed" Reader.flag <*>
    setting "window" Reader.text <*> texts "allow" <*> texts "deny" <*>
    Form.defaulting "group_defaults" default GroupDocument.reader <*>
    Form.defaulting "groups" [] (Reader.table GroupDocument.reader) <*>
    Form.defaulting "ssh" default SshDocument.reader <*>
    setting "max_concurrency" (Reader.natural (twoPow 64 - 1)) <*>
    setting "cycle_deadline" Reader.text <*> setting "interval" Reader.text <*>
    setting "ledger" Reader.text <*> texts "terminate_command" <*>
    setting "terminate_timeout" Reader.text <*>
    setting "fallback_script" Reader.text).reader .refused

/-- The format of a configuration file. -/
inductive Format where
  | json
  | yaml
  deriving DecidableEq, Repr

namespace Format

/-- The format's name in messages. -/
def name : Format → String
  | json => "json"
  | yaml => "yaml"

/-- The format that goes with an extension. -/
def ofExtension : Option String → Option Format
  | some "json" => some json
  | some "yaml" => some yaml
  | some "yml" => some yaml
  | _ => none

/-- Reads a text of the format. -/
def read (r : Reader α) (text : String) : Format → Except Document.Fault α
  | json => Json.read r text
  | yaml => Yaml.read r text

end Format
end FaultDrill.Config
