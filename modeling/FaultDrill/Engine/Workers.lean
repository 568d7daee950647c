import FaultDrill.Engine
import FaultDrill.Pool
/-!
# Cycles with several workers

The groups of a cycle are the tasks of a pool of workers. Here the turn of a group is written as
work, deed by deed, with its locks: that of the group from the look into the log until the event is
added, and that of the member during the attempt. Two turns may go on at the same time, and events
come to stand in the log in the order in which they are added. The reports are in the order of the
groups whatever the workers do.
-/
namespace FaultDrill

namespace Attempt

/-- The work of trying to run a script on an instance. -/
def scriptWork (id : String) (s : Script) : Work Attempt := do
  match ← Work.credentials id with
  | .error why => return ofFault s.label why
  | .ok credentials =>
    if !credentials.isEnabled then return ofFault s.label (.credentialsDisabled id)
    return ofResult s.label (← Work.runScript id credentials s)

/-- The work of trying to terminate an instance. -/
def terminateWork (fallback : Option Script) (id : String) : Work Attempt := do
  match ← Work.terminate id with
  | .ok () => return ⟨Disruption.terminate.label, .succeeded, none⟩
  | .error why =>
    match why, fallback with
    | .unsupported .., some s => scriptWork id s
    | _, _ => return ofFault Disruption.terminate.label why

/-- The work of trying to disrupt an instance. -/
def work (fallback : Option Script) (id : String) : Disruption → Work Attempt
  | .terminate => terminateWork fallback id
  | .script s => scriptWork id s

end Attempt

namespace Engine

/-- What the engine's world answers to a deed. -/
def does (e : Engine σ) : (d : Deed) → StateM σ d.Answer
  | .clock => e.elapsed
  | .ask group start => e.log.hasRecent group start
  | .append ev => e.log.append ev
  | .terminate id => e.client.terminate id
  | .credentials id => e.client.credentials id
  | .runScript id c s => e.client.runScript id c s

/-- The work of disrupting a member of a group and recording the attempt. -/
def disruptWork (e : Engine σ) (now : Instant) (g : Group) (id : String) :
    Work (Except Fault Verdict) := do
  let attempt ← Work.holding (.member id)
    (Attempt.work e.config.fallbackScript id (e.config.disruption g.name))
  let time := now.after (← Work.clock)
  let answer ← Work.append
    ⟨g.name, g.kind, id, attempt.disruption, time, attempt.outcome, attempt.detail⟩
  return answer.map fun _ => .disrupted id attempt.outcome

/-- The work that the draws of a group lead to. -/
def actWork (e : Engine σ) (now : Instant) (g : Group) :
    Draw.Selection → Work (Except Fault Verdict)
  | .passed roll => return .ok (.notSelected roll (e.config.probability g.name))
  | .nobody => return .ok .emptyGroup
  | .member id => if e.config.leashed then return .ok (.leashed id) else e.disruptWork now g id

/-- The work for the verdict on a group of which the log is asked. -/
def askWork (e : Engine σ) (now : Instant) (g : Group) (seed : UInt64) :
    Work (Except Fault Verdict) := do
  match ← Work.ask g.name (windowStart now e.config.window) with
  | .error why => return .error why
  | .ok true => return .ok .alreadyHit
  | .ok false => e.actWork now g (Draw.select (e.eligibility g) g.members seed)

/-- The work for the verdict on a group. -/
def judgeWork (e : Engine σ) (now : Instant) (g : Group) (seed : UInt64) :
    Work (Except Fault Verdict) := do
  if e.config.cycleDeadline.millis * 1000000 ≤ (← Work.clock) then return .ok .deadlineExceeded
  if !e.config.groupEnabled g.name then return .ok .disabled
  if g.isEmpty then return .ok .emptyGroup
  Work.holding (.group g.name) (e.askWork now g seed)

/-- The work for the report on a group. -/
def work (e : Engine σ) (now : Instant) (turn : Group × UInt64) :
    Work (Except Fault GroupReport) := do
  match ← e.judgeWork now turn.1 turn.2 with
  | .ok verdict => return .ok ⟨turn.1.name, turn.1.kind, turn.1.members.length, verdict⟩
  | .error why => return .error why

/-- The number of workers. -/
def workers (e : Engine σ) : Nat := max 1 e.config.maxConcurrency

/-- The pool with the turns of groups as its tasks. -/
def pool (e : Engine σ) (now : Instant) (seeded : List (Group × UInt64)) (s : σ) :
    Pool σ (Except Fault GroupReport) := .start (seeded.map (e.work now)) s

/-- The reports on groups in their order, with the workers moving as given; none if the moves end
before all turns are over. -/
def evaluateBy (e : Engine σ) (moves : List Nat) (now : Instant)
    (seeded : List (Group × UInt64)) : StateM σ (Option (List (Except Fault GroupReport))) :=
  fun s =>
    let pool := (e.pool now seeded s).run e.does e.workers moves
    (pool.results?, pool.world)

/-- One cycle, as of `now`, with the workers moving as given; none if the moves end before all turns
are over. -/
def cycleBy (e : Engine σ) (moves : List Nat) (now : Instant) :
    StateM (Running σ) (Option (Except Fault CycleReport)) := do
  match ← e.opening with
  | .error why => return some (.error why)
  | .ok seeded =>
    match ← Running.onWorld (e.evaluateBy moves now seeded) with
    | none => return none
    | some results => return some (← e.closing now results)

/-- One cycle, as of `now`. The workers move as given, if these moves come to an end; else the groups
take their turns one after the other, which is a way to move, too. -/
def cycleAs (e : Engine σ) (moves : List Nat) (now : Instant) :
    StateM (Running σ) (Except Fault CycleReport) := fun r =>
  match e.cycleBy moves now r with
  | (some result, r) => (result, r)
  | (none, _) => e.cycle now r

end Engine
end FaultDrill
