import FaultDrill.Client.Command
import FaultDrill.Config
import FaultDrill.Site
/-!
# Backends

A backend is a client together with the kind of the groups that it works on. The configuration picks
one by name: `local` for the machines of a catalog, `command` for instances that a command
terminates. Both take their groups and logins from the catalog.
-/
namespace FaultDrill

/-- A client and what it works on. -/
structure Backend (κ : Type) where
  name : String
  kind : GroupKind
  client : Client (Site κ)

namespace Backend

/-- The backends there are. -/
inductive Choice where
  | machines
  | command
  deriving DecidableEq, Repr

/-- The name that picks a backend. -/
def Choice.name : Choice → String
  | machines => "local"
  | command => "command"

/-- All backends. -/
def choices : List Choice := [.machines, .command]

/-- The backend of a name; case and blanks around it do not matter. -/
def Choice.ofName? (name : String) : Option Choice :=
  choices.find? fun c => c.name == Text.lowerAscii (Text.trim name)

/-- The client for the machines of a site's catalog. -/
def localClient (config : Config) (connector : Connector (Site κ)) : LocalClient (Site κ) where
  machine? := Site.machine?
  connector
  defaults := config.loginDefaults
  scriptTimeout := config.ssh.scriptTimeout

/-- A backend over a configuration. -/
def ofChoice (config : Config) (connector : Connector (Site κ)) (runner : CommandRunner (Site κ)) :
    Choice → Except Fault (Backend κ)
  | .machines => .ok ⟨"local", .localMachines, (localClient config connector).client⟩
  | .command => do
    CommandClient.check config.terminateCommand
    let client : CommandClient (Site κ) :=
      ⟨config.terminateCommand, config.terminateTimeout, runner, localClient config connector⟩
    return ⟨"command", .cloud, client.client⟩

/-- The backend of a name and the catalog that it works on. -/
def build (files : FileTree) (web : Catalog.Web) (home : Option String) (name : String)
    (config : Config) (connector : Connector (Site κ)) (runner : CommandRunner (Site κ)) :
    Except Fault (Backend κ × Catalog) := do
  match Choice.ofName? name with
  | none =>
    throw <| .config <| "unknown backend '" ++ name ++ "' (expected one of: " ++
      ", ".intercalate (choices.map Choice.name) ++ ")"
  | some choice =>
    let catalog ← Catalog.open files web home config.catalog
    let backend ← ofChoice config connector runner choice
    return (backend, catalog)

end Backend
end FaultDrill
