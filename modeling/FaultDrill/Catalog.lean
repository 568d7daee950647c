import FaultDrill.Catalog.Snapshot
import FaultDrill.Catalog.Source
/-!
# Catalogs

A catalog reads its source again for every crawl and serves the last snapshot that loaded. A source
that cannot be read or is not sound changes nothing and gives no groups.
-/
namespace FaultDrill

/-- A catalog: its source and the last good load. -/
structure Catalog where
  source : Catalog.Source
  current : Catalog.Snapshot
  deriving Repr, Inhabited

namespace Catalog

/-- The key files as a catalog sees them. -/
def keyStore (files : FileTree) (home : Option String) : KeyStore := fun path =>
  (readKeyFile files home path).mapError fun fault => String.intercalate ": " (keyFaultChain fault)

/-- What the source says now. -/
def load (files : FileTree) (web : Web) (home : Option String) (source : Source) :
    Except FaultDrill.Fault Snapshot :=
  let parsed : Except (List String) Snapshot := do
    let content ← source.read files web
    (Snapshot.parse (keyStore files home) content).mapError Catalog.Fault.chain
  parsed.mapError fun chain =>
    FaultDrill.Fault.catalogUnusable source.display (String.intercalate ": " chain)

theorem load_of_unread {files : FileTree} {web : Web} {source : Source} {chain : List String}
    (h : source.read files web = .error chain) (home : Option String) :
    load files web home source =
      .error (.catalogUnusable source.display (String.intercalate ": " chain)) := by
  rw [load, h]
  rfl

theorem load_of_read {files : FileTree} {web : Web} {source : Source} {content : String}
    (h : source.read files web = .ok content) (home : Option String) :
    load files web home source = (Snapshot.parse (keyStore files home) content).mapError fun why =>
      .catalogUnusable source.display (String.intercalate ": " why.chain) := by
  rw [load, h]
  show Except.mapError _ (Except.mapError _ (Snapshot.parse (keyStore files home) content)) = _
  cases Snapshot.parse (keyStore files home) content <;> rfl

/-- Reads the source again; a good load becomes the current one. -/
def refresh (files : FileTree) (web : Web) (home : Option String) (c : Catalog) :
    Except FaultDrill.Fault Snapshot × Catalog :=
  match load files web home c.source with
  | .ok s => (.ok s, { c with current := s })
  | .error e => (.error e, c)

/-- The catalog at a location, loaded once. Only a location that names nothing is a fault. -/
def «open» (files : FileTree) (web : Web) (home : Option String) (location : String) :
    Except FaultDrill.Fault Catalog := do
  let source ← Source.resolve files web location
  return (refresh files web home ⟨source, .empty⟩).2

/-- The groups that the source has now; none when it cannot be loaded. -/
def groups (files : FileTree) (web : Web) (home : Option String) (c : Catalog) :
    List Group × Catalog :=
  match refresh files web home c with
  | (.ok s, c) => (s.groups, c)
  | (.error _, c) => ([], c)

/-- The machine with an id in the last good load. -/
def machine? (c : Catalog) (id : String) : Option Machine := c.current.machine? id

/-- The groups with one of the names, or all of them where no name is given, as groups of a kind. -/
def crawl (files : FileTree) (web : Web) (home : Option String) (kind : GroupKind)
    (names : List String) (c : Catalog) : List Group × Catalog :=
  let (groups, c) := c.groups files web home
  ((Group.named names groups).map (·.retag kind), c)

end Catalog
end FaultDrill
