import FaultDrill.Attempt
import FaultDrill.Backend
import FaultDrill.Draw.Selection
import FaultDrill.Verdict
/-!
# Cycles

In a cycle every listed group is looked at once, in the order of the crawl. A group that is enabled,
has members and has not spent its window draws whether one of its members is disrupted, and which.
What was tried is recorded before the next group is looked at. This is how one worker goes through
the groups; `FaultDrill.Engine.Workers` has cycles with more workers.
-/
namespace FaultDrill

/-- What a cycle works with. What it changes is a state of type `σ`. -/
structure Engine (σ : Type) where
  config : Config
  /-- The groups there are now; those with one of the names, if any is given. -/
  crawl : (names : List String) → StateM σ (Except Fault (List Group))
  client : Client σ
  log : EventLog σ
  /-- The nanoseconds since the cycle began. -/
  elapsed : StateM σ Nat

namespace Engine

/-- The instant now, in a cycle that began at `now`. -/
def clock (e : Engine σ) (now : Instant) : StateM σ Instant := do
  return now.after (← e.elapsed)

/-- Whether the cycle's time is up. -/
def isLate (e : Engine σ) : StateM σ Bool := do
  return decide (e.config.cycleDeadline.millis * 1000000 ≤ (← e.elapsed))

/-- Disrupts a member of a group and records the attempt. -/
def disrupt (e : Engine σ) (now : Instant) (g : Group) (id : String) :
    StateM σ (Except Fault Verdict) := do
  let attempt ← Attempt.perform e.client e.config.fallbackScript id (e.config.disruption g.name)
  let event : Event :=
    ⟨g.name, g.kind, id, attempt.disruption, ← e.clock now, attempt.outcome, attempt.detail⟩
  match ← e.log.append event with
  | .ok () => return .ok (.disrupted id attempt.outcome)
  | .error why => return .error why

/-- Acts on what the draws of a group come to. -/
def actOn (e : Engine σ) (now : Instant) (g : Group) :
    Draw.Selection → StateM σ (Except Fault Verdict)
  | .passed roll => return .ok (.notSelected roll (e.config.probability g.name))
  | .nobody => return .ok .emptyGroup
  | .member id => if e.config.leashed then return .ok (.leashed id) else e.disrupt now g id

/-- The eligibility of a group that is enabled and has not spent its window. -/
def eligibility (e : Engine σ) (g : Group) : Eligibility :=
  { enabled := true, alreadyHit := false, probability := e.config.probability g.name }

/-- The verdict on a group. -/
def judge (e : Engine σ) (now : Instant) (g : Group) (seed : UInt64) :
    StateM σ (Except Fault Verdict) := do
  if ← e.isLate then return .ok .deadlineExceeded
  if !e.config.groupEnabled g.name then return .ok .disabled
  if g.isEmpty then return .ok .emptyGroup
  match ← e.log.hasRecent g.name (windowStart now e.config.window) with
  | .error why => return .error why
  | .ok true => return .ok .alreadyHit
  | .ok false => e.actOn now g (Draw.select (e.eligibility g) g.members seed)

/-- The report on a group. -/
def evaluate (e : Engine σ) (now : Instant) (g : Group) (seed : UInt64) :
    StateM σ (Except Fault GroupReport) := do
  match ← e.judge now g seed with
  | .ok verdict => return .ok ⟨g.name, g.kind, g.members.length, verdict⟩
  | .error why => return .error why

/-- The reports on groups, each with its seed. A fault with one group does not keep the others from
being looked at. -/
def evaluateAll (e : Engine σ) (now : Instant) :
    List (Group × UInt64) → StateM σ (List (Except Fault GroupReport))
  | [] => return []
  | (g, seed) :: more => do
    let report ← e.evaluate now g seed
    return report :: (← evaluateAll e now more)

/-- All the values, or the first fault. -/
def allOrFirst : List (Except Fault α) → Except Fault (List α)
  | [] => .ok []
  | .error why :: _ => .error why
  | .ok a :: more => (allOrFirst more).map (a :: ·)

/-- The groups that a cycle looks at. -/
def listed (e : Engine σ) (groups : List Group) : List Group :=
  groups.filter fun g => e.config.isListed g.name

/-- What goes on from cycle to cycle: the source of the groups' seeds, and the state that cycles
work on. -/
structure Running (σ : Type) where
  draws : Draw.Source
  world : σ

/-- The state of a running engine with only the world changed. -/
def Running.onWorld (act : StateM σ α) : StateM (Running σ) α := fun r =>
  let (a, world) := act r.world
  (a, { r with world })

/-- Seeds for a number of groups. -/
def seeds (n : Nat) : StateM (Running σ) (List UInt64) := fun r =>
  let (ws, draws) := r.draws.words64 n
  (ws, { r with draws })

/-- The crawl of a cycle: the groups that the cycle looks at, each with its seed. -/
def opening (e : Engine σ) : StateM (Running σ) (Except Fault (List (Group × UInt64))) := do
  match ← Running.onWorld (e.crawl e.config.allow) with
  | .error why => return .error why
  | .ok groups =>
    let groups := e.listed groups
    return .ok (groups.zip (← seeds groups.length))

/-- The end of a cycle: its report, if no group met a fault. -/
def closing (e : Engine σ) (now : Instant) (results : List (Except Fault GroupReport)) :
    StateM (Running σ) (Except Fault CycleReport) := do
  match allOrFirst results with
  | .error why => return .error why
  | .ok reports =>
    let finished ← Running.onWorld (e.clock now)
    return .ok ⟨now, finished, windowStart now e.config.window, reports⟩

/-- One cycle, as of `now`, in which the groups take their turns one after the other. -/
def cycle (e : Engine σ) (now : Instant) : StateM (Running σ) (Except Fault CycleReport) := do
  match ← e.opening with
  | .error why => return .error why
  | .ok seeded => e.closing now (← Running.onWorld (e.evaluateAll now seeded))

/-- The engine of a backend on its site. -/
def ofBackend (config : Config) (backend : Backend κ) (elapsed : StateM (Site κ) Nat) :
    Engine (Site κ) where
  config
  crawl := Site.crawl backend.kind
  client := backend.client
  log := Site.log
  elapsed

end Engine
end FaultDrill
