import FaultDrill.Proofs.Schedule.Turn
import FaultDrill.Schedule.Pace
/-!
# The steps of a schedule

A watched schedule is the same schedule on worlds that also hold its steps: every look at whether it
was asked to stop, the looks of its waits among them, every cycle with its result, and every report
that it hands on. `TurnSteps` lists the steps that a turn may take, and `Course` those of a whole
run. A watched schedule goes such a course, and comes to the same end in the same world as without
being watched (`follow_watched`).
-/
namespace FaultDrill.Pace
open Schedule

/-- A step of a schedule. -/
inductive Step where
  /-- It looked whether it was asked to stop. -/
  | looked (stopped : Bool)
  /-- It ran a cycle. -/
  | ran (result : Except Fault CycleReport)
  /-- It handed on a report. -/
  | reported (report : CycleReport)

/-- A world and the steps of a schedule so far, the latest last. -/
structure Stepped (σ : Type) where
  world : σ
  steps : List Step

namespace Stepped

/-- An action that is no step. -/
def silent (m : StateM σ α) : StateM (Stepped σ) α := fun w =>
  ((m w.world).1, ⟨(m w.world).2, w.steps⟩)

/-- An action that is a step, noted with its answer. -/
def noted (step : α → Step) (m : StateM σ α) : StateM (Stepped σ) α := fun w =>
  ((m w.world).1, ⟨(m w.world).2, w.steps ++ [step (m w.world).1]⟩)

end Stepped

/-- The pace with the looks at the stop noted. -/
def watched (p : Pace (StateM σ)) : Pace (StateM (Stepped σ)) where
  isStopped := Stepped.noted .looked p.isStopped
  isDue := Stepped.silent p.isDue
  nap := Stepped.silent p.nap

/-- The schedule at a pace with its steps noted. -/
def watchedSchedule (p : Pace (StateM σ)) (naps : Nat) (cycle : StateM σ (Except Fault CycleReport))
    (report : CycleReport → StateM σ Unit) : Schedule (StateM (Stepped σ)) :=
  p.watched.schedule naps (Stepped.noted .ran cycle) fun r =>
    Stepped.noted (fun _ => .reported r) (report r)

/-! ## Courses -/

/-- The fault by which a cycle ends its schedule. -/
def fatal? : Except Fault CycleReport → Option Fault
  | .ok _ => none
  | .error why => if why.isFatal then some why else none

/-- The steps of a cycle: it is run, and its report is handed on if it has one. -/
def cycleSteps : Except Fault CycleReport → List Step
  | .ok report => [.ran (.ok report), .reported report]
  | .error why => [.ran (.error why)]

/-- The steps of a wait: looks that find no stop, and one behind them whose answer is that of the
wait. -/
def waitSteps (looks : Nat) (stopped : Bool) : List Step :=
  List.replicate looks (.looked false) ++ [.looked stopped]

/-- The steps of a turn, and how the schedule ends with it, if it does. -/
inductive TurnSteps (most : Option Nat) (completed : Nat) : List Step → Option Ending → Prop where
  | stopped : TurnSteps most completed [.looked true] (some (.completed completed))
  | fault (result : Except Fault CycleReport) (why : Fault) (h : fatal? result = some why) :
    TurnSteps most completed (.looked false :: cycleSteps result) (some (.fault why))
  | enough (result : Except Fault CycleReport) (h : fatal? result = none)
    (hmost : isEnough most (completed + 1) = true) :
    TurnSteps most completed (.looked false :: cycleSteps result)
      (some (.completed (completed + 1)))
  | stoppedWaiting (result : Except Fault CycleReport) (looks : Nat) (h : fatal? result = none)
    (hmost : isEnough most (completed + 1) = false) :
    TurnSteps most completed (.looked false :: cycleSteps result ++ waitSteps looks true)
      (some (.completed (completed + 1)))
  | goesOn (result : Except Fault CycleReport) (looks : Nat) (h : fatal? result = none)
    (hmost : isEnough most (completed + 1) = false) :
    TurnSteps most completed (.looked false :: cycleSteps result ++ waitSteps looks false) none

/-- The steps of a run that may take so many turns, and how it ends. -/
inductive Course (most : Option Nat) : (rounds completed : Nat) → List Step → Ending → Prop where
  | unfinished (completed : Nat) : Course most 0 completed [] (.unfinished completed)
  | ends {rounds completed : Nat} {steps : List Step} {ending : Ending}
    (h : TurnSteps most completed steps (some ending)) :
    Course most (rounds + 1) completed steps ending
  | goesOn {rounds completed : Nat} {steps rest : List Step} {ending : Ending}
    (h : TurnSteps most completed steps none)
    (hrest : Course most rounds (completed + 1) rest ending) :
    Course most (rounds + 1) completed (steps ++ rest) ending

/-! ## Watched schedules -/

section Watching

variable (p : Pace (StateM σ)) (naps : Nat) (cycle : StateM σ (Except Fault CycleReport))
  (report : CycleReport → StateM σ Unit)

theorem wait_watched (w : σ) (before : List Step) :
    ∃ looks, p.watched.wait naps ⟨w, before⟩ = ((p.wait naps w).1, ⟨(p.wait naps w).2,
      before ++ waitSteps looks (p.wait naps w).1⟩) := by
  induction naps generalizing w before with
  | zero => exact ⟨0, rfl⟩
  | succ naps ih =>
    simp only [wait, bind_run]
    change ∃ looks, (if (p.isDue w).1 = true then _ else _ : StateM (Stepped σ) Bool)
      ⟨(p.isDue w).2, before⟩ = _
    cases hdue : (p.isDue w).1 with
    | true => exact ⟨0, rfl⟩
    | false =>
      rw [if_neg Bool.false_ne_true, if_neg Bool.false_ne_true, bind_run, bind_run]
      change ∃ looks, (if (p.isStopped (p.isDue w).2).1 = true then _ else _ :
        StateM (Stepped σ) Bool)
        ⟨(p.isStopped (p.isDue w).2).2, before ++ [.looked (p.isStopped (p.isDue w).2).1]⟩ = _
      cases hstopped : (p.isStopped (p.isDue w).2).1 with
      | true => exact ⟨0, rfl⟩
      | false =>
        rw [if_neg Bool.false_ne_true, if_neg Bool.false_ne_true, bind_run, bind_run]
        obtain ⟨looks, hlooks⟩ := ih (p.nap (p.isStopped (p.isDue w).2).2).2
          (before ++ [.looked false])
        refine ⟨looks + 1, hlooks.trans ?_⟩
        rw [List.append_assoc, waitSteps, waitSteps, List.replicate_succ]
        rfl

theorem take_run (s : Schedule (StateM σ)) (result : Except Fault CycleReport) (w : σ) :
    s.take result w = (fatal? result, match result with
      | .ok r => (s.report r w).2
      | .error _ => w) := by
  cases result <;> rfl

/-- A cycle comes to its fault, if that ends the schedule, and its steps are noted behind the look
that found no stop. -/
theorem took_watched (w : σ) (before : List Step) :
    ∃ result, ((p.schedule naps cycle report).took w).1 = fatal? result ∧
      (p.watchedSchedule naps cycle report).took ⟨w, before⟩ =
        (fatal? result, ⟨((p.schedule naps cycle report).took w).2,
          before ++ .looked (p.isStopped w).1 :: cycleSteps result⟩) := by
  have hcycle : (p.watchedSchedule naps cycle report).cycle
      ((p.watchedSchedule naps cycle report).isStopped ⟨w, before⟩).2 =
        ((cycle (p.isStopped w).2).1, ⟨(cycle (p.isStopped w).2).2,
          before ++ [.looked (p.isStopped w).1] ++ [.ran (cycle (p.isStopped w).2).1]⟩) := rfl
  refine ⟨(cycle (p.isStopped w).2).1, ?_, ?_⟩
  · rw [took, take_run]
    rfl
  · rw [took, took, take_run, take_run, hcycle, List.append_assoc]
    change _ = (_, Stepped.mk (match (cycle (p.isStopped w).2).1 with
      | .ok r => (report r (cycle (p.isStopped w).2).2).2
      | .error _ => (cycle (p.isStopped w).2).2) _)
    cases (cycle (p.isStopped w).2).1 with
    | ok r =>
      change (_, Stepped.mk _ (before ++ [.looked _, .ran _] ++ [.reported r])) = _
      rw [List.append_assoc]
      rfl
    | error why => rfl

/-- A watched turn ends as the turn does, in the same world, and its steps are those of a turn. -/
theorem turn_watched (most : Option Nat) (completed : Nat) (w : σ) (before : List Step) :
    ∃ steps, TurnSteps most completed steps
        ((p.schedule naps cycle report).turn most completed w).1 ∧
      (p.watchedSchedule naps cycle report).turn most completed ⟨w, before⟩ =
        (((p.schedule naps cycle report).turn most completed w).1,
          ⟨((p.schedule naps cycle report).turn most completed w).2, before ++ steps⟩) := by
  cases h : (p.isStopped w).1 with
  | true =>
    have hwatched : ((p.watchedSchedule naps cycle report).isStopped ⟨w, before⟩).1 = true := h
    rw [turn_of_stopped hwatched, turn_of_stopped h]
    refine ⟨[.looked true], .stopped, ?_⟩
    rw [← h]
    rfl
  | false =>
    have hwatched : ((p.watchedSchedule naps cycle report).isStopped ⟨w, before⟩).1 = false := h
    obtain ⟨result, htook, hsteps⟩ := p.took_watched naps cycle report w before
    rw [turn_of_took hwatched, turn_of_took h, htook, hsteps, h]
    cases hfatal : fatal? result with
    | some why => exact ⟨_, .fault result why hfatal, rfl⟩
    | none =>
      dsimp only
      cases hmost : isEnough most (completed + 1) with
      | true => exact ⟨_, .enough result hfatal hmost, rfl⟩
      | false =>
        rw [if_neg Bool.false_ne_true, if_neg Bool.false_ne_true, bind_run, bind_run]
        obtain ⟨looks, hlooks⟩ := p.wait_watched naps ((p.schedule naps cycle report).took w).2
          (before ++ .looked false :: cycleSteps result)
        have hwait : (p.watchedSchedule naps cycle report).wait
            ⟨((p.schedule naps cycle report).took w).2,
              before ++ .looked false :: cycleSteps result⟩ = _ := hlooks
        have hplain : (p.schedule naps cycle report).wait = p.wait naps := rfl
        rw [hwait, hplain, List.append_assoc]
        cases hstopped : (p.wait naps ((p.schedule naps cycle report).took w).2).1 with
        | true => exact ⟨_, .stoppedWaiting result looks hfatal hmost, rfl⟩
        | false => exact ⟨_, .goesOn result looks hfatal hmost, rfl⟩

/-- A watched schedule ends as the schedule does, in the same world, and goes a course. -/
theorem follow_watched (most : Option Nat) (rounds completed : Nat) (w : σ) (before : List Step) :
    ∃ steps, Course most rounds completed steps
        ((p.schedule naps cycle report).follow most rounds completed w).1 ∧
      (p.watchedSchedule naps cycle report).follow most rounds completed ⟨w, before⟩ =
        (((p.schedule naps cycle report).follow most rounds completed w).1,
          ⟨((p.schedule naps cycle report).follow most rounds completed w).2,
            before ++ steps⟩) := by
  -- for any steps before: those of a turn stand before the steps of the turns behind it
  induction rounds generalizing completed w before with
  | zero =>
    refine ⟨[], .unfinished completed, ?_⟩
    rw [List.append_nil]
    rfl
  | succ rounds ih =>
    obtain ⟨steps, hsteps, hturn⟩ := p.turn_watched naps cycle report most completed w before
    rw [follow_succ, follow_succ, hturn]
    generalize (p.schedule naps cycle report).turn most completed w = r at hsteps ⊢
    obtain ⟨ending, w'⟩ := r
    cases ending with
    | some ending => exact ⟨steps, .ends hsteps, rfl⟩
    | none =>
      obtain ⟨rest, hrest, hfollow⟩ := ih (completed + 1) w' (before ++ steps)
      refine ⟨steps ++ rest, .goesOn hsteps hrest, ?_⟩
      rw [← List.append_assoc]
      exact hfollow

end Watching
end FaultDrill.Pace
