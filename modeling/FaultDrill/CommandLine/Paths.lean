import FaultDrill.CommandLine.Run
/-!
# The files of a request

Which paths a request may look at or write to, as far as the files known so far tell. A
configuration names a catalog, a ledger, a key and scripts; a catalog names keys. Asking again when
those files are known gives the paths that they name.
-/
namespace FaultDrill.CommandLine

/-- The path of a ledger that is a file. -/
def ledgerPaths (raw : String) : List String :=
  match LedgerMode.parse raw with
  | .file path => [path]
  | .memory => []

/-- The paths of the script files that disruptions name. -/
def scriptPaths (home : Option String) (base : String) (raw : String) : List String :=
  match Text.after? "script:".toList (Text.trim raw).toList with
  | some path => [Disruption.scriptPath home base (String.ofList path)]
  | none => []

/-- The paths that a configuration names. -/
def configPaths (home : Option String) (base : String) (d : Config.ConfigDocument) : List String :=
  let disruptions := (d.groupDefaults.disruption :: d.groups.map (·.2.disruption)) ++
    [d.fallbackScript]
  d.catalog.toList ++ (d.ledger.map ledgerPaths).getD [] ++
    (d.ssh.key.map (Path.expandHome home)).toList ++
    disruptions.flatMap fun raw => (raw.map (scriptPaths home base)).getD []

/-- The configuration document at a path, if there is one. -/
def configDocument? (files : FileTree) (path : String) : Option Config.ConfigDocument := do
  let format ← Config.Format.ofExtension (Path.extension? path)
  (format.read Config.ConfigDocument.reader (← (files.readText path).toOption)).toOption

/-- The paths of the keys that a catalog names. -/
def keyPaths (files : FileTree) (home : Option String) (location : String) : List String :=
  match files.readText location with
  | .error _ => []
  | .ok content =>
    match Json.read (Document.Reader.list Catalog.GroupEntry.reader) content with
    | .error _ => []
    | .ok groups =>
      (groups.flatMap (·.instances)).filterMap fun e => e.keyPath.map (Path.expandHome home)

/-- The paths that a command names itself. -/
def Command.paths : Command → List String
  | .once o output _ =>
    o.catalog.toList ++ (o.ledger.map ledgerPaths).getD [] ++
      (output.map fun path => (Report.destination path).2).toList
  | .run o _ _ => o.catalog.toList ++ (o.ledger.map ledgerPaths).getD []
  | .catalog location => [location]
  | .history ledger _ => (ledger.map ledgerPaths).getD []
  | .credentials location _ => [location]

/-- The paths that a request names, those in its configuration and in its catalogs included. -/
def Request.paths (files : FileTree) (home : Option String) (r : Request) : List String :=
  let configured := match r.config with
    | none => []
    | some path =>
      match configDocument? files path with
      | some d => path :: configPaths home ((Path.parent? path).getD ".") d
      | none => [path]
  let named := Config.standard.catalog :: r.command.paths ++ configured
  named ++ named.flatMap (keyPaths files home)

end FaultDrill.CommandLine
