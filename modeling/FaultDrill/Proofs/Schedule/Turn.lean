import FaultDrill.Proofs.Engine.Turn
import FaultDrill.Schedule
/-!
# The turns of a schedule

A schedule is followed turn by turn, and a turn starts one cycle unless the schedule was asked to
stop before. `Turned` lists the ways in which a turn may go; `turned` says that there are no others.
With a number of cycles the turns come to an end of their own (`follow_ne_unfinished`), and turns
that could be made behind that end make no difference (`follow_add`).
-/
namespace FaultDrill.Schedule

variable {s : Schedule (StateM σ)} {most : Option Nat} {n rounds completed : Nat} {w : σ}

/-- What a cycle comes to that is started behind the look at the stop: the fault that ends the
schedule, if there is one. -/
def took (s : Schedule (StateM σ)) (w : σ) : Option Fault × σ :=
  s.take (s.cycle (s.isStopped w).2).1 (s.cycle (s.isStopped w).2).2

/-- One turn of a schedule, and how the schedule ends with it, if it does. -/
def turn (s : Schedule (StateM σ)) (most : Option Nat) (completed : Nat) :
    StateM σ (Option Ending) := do
  if ← s.isStopped then return some (.completed completed)
  match ← s.take (← s.cycle) with
  | some why => return some (.fault why)
  | none =>
    if isEnough most (completed + 1) then return some (.completed (completed + 1))
    if ← s.wait then return some (.completed (completed + 1))
    return none

/-- How a turn goes, and the world after it. -/
inductive Turned (s : Schedule (StateM σ)) (most : Option Nat) (completed : Nat) (w : σ) :
    Option Ending × σ → Prop where
  | stopped (h : (s.isStopped w).1 = true) :
    Turned s most completed w (some (.completed completed), (s.isStopped w).2)
  | fault (h : (s.isStopped w).1 = false) (why : Fault) (hfault : (s.took w).1 = some why) :
    Turned s most completed w (some (.fault why), (s.took w).2)
  | enough (h : (s.isStopped w).1 = false) (hfault : (s.took w).1 = none)
    (hmost : isEnough most (completed + 1) = true) :
    Turned s most completed w (some (.completed (completed + 1)), (s.took w).2)
  | stoppedWaiting (h : (s.isStopped w).1 = false) (hfault : (s.took w).1 = none)
    (hmost : isEnough most (completed + 1) = false) (hwait : (s.wait (s.took w).2).1 = true) :
    Turned s most completed w (some (.completed (completed + 1)), (s.wait (s.took w).2).2)
  | goesOn (h : (s.isStopped w).1 = false) (hfault : (s.took w).1 = none)
    (hmost : isEnough most (completed + 1) = false) (hwait : (s.wait (s.took w).2).1 = false) :
    Turned s most completed w (none, (s.wait (s.took w).2).2)

theorem turn_of_stopped (h : (s.isStopped w).1 = true) (most : Option Nat) (completed : Nat) :
    s.turn most completed w = (some (.completed completed), (s.isStopped w).2) := by
  rw [turn, bind_run, if_pos h, pure_run]

theorem turn_of_took (h : (s.isStopped w).1 = false) (most : Option Nat) (completed : Nat) :
    s.turn most completed w = (match (s.took w).1 with
      | some why => pure (some (.fault why))
      | none => do
        if isEnough most (completed + 1) then return some (.completed (completed + 1))
        if ← s.wait then return some (.completed (completed + 1))
        return none : StateM σ (Option Ending)) (s.took w).2 := by
  rw [turn, bind_run, if_neg (by rw [h]; decide)]
  rfl

/-- A turn goes in one of the listed ways. -/
theorem turned (s : Schedule (StateM σ)) (most : Option Nat) (completed : Nat) (w : σ) :
    s.Turned most completed w (s.turn most completed w) := by
  cases h : (s.isStopped w).1 with
  | true =>
    rw [turn_of_stopped h]
    exact .stopped h
  | false =>
    rw [turn_of_took h]
    cases hfault : (s.took w).1 with
    | some why => exact .fault h why hfault
    | none =>
      dsimp only
      cases hmost : isEnough most (completed + 1) with
      | true =>
        rw [if_pos rfl]
        exact .enough h hfault hmost
      | false =>
        rw [if_neg Bool.false_ne_true, bind_run]
        cases hwait : (s.wait (s.took w).2).1 with
        | true =>
          rw [if_pos rfl]
          exact .stoppedWaiting h hfault hmost hwait
        | false =>
          rw [if_neg Bool.false_ne_true]
          exact .goesOn h hfault hmost hwait

/-- A schedule that is followed for one turn more makes a turn and goes on unless it ended. -/
theorem follow_eq_turn (s : Schedule (StateM σ)) (most : Option Nat) (rounds completed : Nat) :
    s.follow most (rounds + 1) completed = s.turn most completed >>= fun
      | some ending => pure ending
      | none => s.follow most rounds (completed + 1) := by
  rw [follow, turn, bind_assoc]
  refine bind_congr fun stopped => ?_
  cases stopped with
  | true => rfl
  | false =>
    rw [if_neg Bool.false_ne_true, if_neg Bool.false_ne_true, bind_assoc]
    refine bind_congr fun result => ?_
    rw [bind_assoc]
    refine bind_congr fun fault => ?_
    cases fault with
    | some why => rfl
    | none =>
      dsimp only
      cases isEnough most (completed + 1) with
      | true => rfl
      | false =>
        rw [if_neg Bool.false_ne_true, if_neg Bool.false_ne_true, bind_assoc]
        refine bind_congr fun stopped => ?_
        cases stopped <;> rfl

theorem follow_succ (s : Schedule (StateM σ)) (most : Option Nat) (rounds completed : Nat) (w : σ) :
    s.follow most (rounds + 1) completed w = match s.turn most completed w with
      | (some ending, w') => (ending, w')
      | (none, w') => s.follow most rounds (completed + 1) w' := by
  rw [follow_eq_turn, bind_run]
  obtain ⟨_ | ending, w'⟩ := s.turn most completed w <;> rfl

/-! ## Schedules with a number of cycles -/

/-- A turn after which a schedule with a number of cycles goes on leaves more cycles to start. -/
theorem lt_of_goesOn (h : (s.turn (some n) completed w).1 = none) : completed + 1 < n := by
  have hturned := s.turned (some n) completed w
  generalize s.turn (some n) completed w = r at h hturned
  cases hturned with
  | goesOn _ _ hmost _ => exact Nat.lt_of_not_le (of_decide_eq_false hmost)
  | _ => cases h

/-- Turns beyond the number of cycles make no difference. -/
theorem follow_add (s : Schedule (StateM σ)) (more : Nat) (w : σ)
    (h : max n (completed + 1) ≤ completed + rounds) :
    s.follow (some n) (rounds + more) completed w = s.follow (some n) rounds completed w := by
  induction rounds generalizing completed w with
  | zero => omega
  | succ rounds ih =>
    rw [Nat.add_right_comm, follow_succ, follow_succ]
    split
    case h_1 => rfl
    case h_2 w' hturn =>
      have hless := lt_of_goesOn (congrArg Prod.fst hturn)
      exact ih w' (by omega)

/-- A schedule with a number of cycles is not left before its end. -/
theorem follow_ne_unfinished (s : Schedule (StateM σ)) (w : σ)
    (h : max n (completed + 1) ≤ completed + rounds) (cycles : Nat) :
    (s.follow (some n) rounds completed w).1 ≠ .unfinished cycles := by
  induction rounds generalizing completed w with
  | zero => omega
  | succ rounds ih =>
    rw [follow_succ]
    split
    case h_1 ending w' hturn =>
      have hturned := s.turned (some n) completed w
      rw [hturn] at hturned
      cases hturned <;> nofun
    case h_2 w' hturn =>
      have hless := lt_of_goesOn (congrArg Prod.fst hturn)
      exact ih w' (by omega)

end FaultDrill.Schedule
