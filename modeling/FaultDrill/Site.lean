import FaultDrill.Catalog
import FaultDrill.Ledger
/-!
# Sites

A site is what a drill works on and changes: the files, the network around, the catalog, the ledger,
and the state of the connections to machines, whose type is `κ`.
-/
namespace FaultDrill

/-- What a drill works on. -/
structure Site (κ : Type) where
  files : FileTree
  web : Catalog.Web
  home : Option String
  catalog : Catalog
  ledger : Ledger
  connections : κ
  deriving Inhabited

/-- Where events are recorded. What a log changes is a state of type `σ`. -/
structure EventLog (σ : Type) where
  /-- Whether an event spends the window of a group that begins at an instant. -/
  hasRecent : (group : String) → (start : Instant) → StateM σ (Except Fault Bool)
  /-- Adds an event at the end. -/
  append : Event → StateM σ (Except Fault Unit)

namespace Site

/-- The machine of an id in the last good load of the catalog. -/
def machine? (s : Site κ) (id : String) : Option Machine := s.catalog.machine? id

/-- The groups of the catalog as groups of a kind; those with one of the names, if any is given. -/
def crawl (kind : GroupKind) (names : List String) : StateM (Site κ) (Except Fault (List Group)) :=
  fun s =>
    let (groups, catalog) := s.catalog.crawl s.files s.web s.home kind names
    (.ok groups, { s with catalog })

/-- Adds an event to the ledger of a site. -/
def append (e : Event) : StateM (Site κ) (Except Fault Unit) := fun s =>
  match s.ledger.append s.files e with
  | .ok (ledger, files) => (.ok (), { s with ledger, files })
  | .error why => (.error why, s)

/-- The ledger of a site as a log. -/
def log : EventLog (Site κ) where
  hasRecent group start := fun s => (s.ledger.hasRecent s.files group start, s)
  append := append

end Site
end FaultDrill
