import FaultDrill.Work
/-!
# Pools

A pool has a number of workers for the tasks of a list. A worker takes a task and goes on with it to
its end. Which worker moves next is not up to the pool: the moves are given as a list of the tasks
that go one step further. A task that has to wait stays as it is.
-/
namespace FaultDrill

/-- A task: whether a worker has taken it, and what is left of it. -/
structure Task (α : Type) where
  taken : Bool
  rest : Work α

/-- Whether a worker is at a task. -/
def Task.isBusy (t : Task α) : Bool := t.taken && t.rest.result?.isNone

/-- The tasks of a pool, the locks that are taken, and the world that all tasks share. -/
structure Pool (σ α : Type) where
  tasks : List (Task α)
  held : List Lock
  world : σ

namespace Pool

/-- A pool whose tasks are all still to be taken. -/
def start (work : List (Work α)) (s : σ) : Pool σ α := ⟨work.map (⟨false, ·⟩), [], s⟩

/-- The pool with a task brought to where it has this left to do. -/
def put (i : Nat) (rest : Work α) (p : Pool σ α) : Pool σ α :=
  { p with tasks := p.tasks.set i ⟨true, rest⟩ }

/-- Whether one of so many workers is free to take a task. A worker that is alone takes the tasks in
their order. -/
def canTake (workers i : Nat) (p : Pool σ α) : Bool :=
  decide (p.tasks.countP Task.isBusy < workers) &&
    (decide (1 < workers) || (p.tasks.take i).all (·.taken))

/-- One step of a task that a worker is at. -/
def advance (does : (d : Deed) → StateM σ d.Answer) (i : Nat) (p : Pool σ α) :
    Work α → Pool σ α
  | .done _ => p
  | .deed d next =>
    let (answer, world) := does d p.world
    { p.put i (next answer) with world }
  | .lock l rest => if p.held.contains l then p else { p.put i rest with held := l :: p.held }
  | .unlock l rest => { p.put i rest with held := p.held.erase l }

/-- One step of a task. -/
def move (does : (d : Deed) → StateM σ d.Answer) (workers : Nat) (p : Pool σ α) (i : Nat) :
    Pool σ α :=
  match p.tasks[i]? with
  | none => p
  | some t =>
    if t.taken then p.advance does i t.rest
    else if p.canTake workers i then p.put i t.rest
    else p

/-- The pool after some moves. -/
def run (does : (d : Deed) → StateM σ d.Answer) (workers : Nat) (moves : List Nat)
    (p : Pool σ α) : Pool σ α := moves.foldl (move does workers) p

/-- The results in the order of the tasks, if all tasks are over. -/
def results? (p : Pool σ α) : Option (List α) := p.tasks.mapM (·.rest.result?)

end Pool
end FaultDrill
