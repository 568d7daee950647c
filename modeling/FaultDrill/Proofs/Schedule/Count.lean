import FaultDrill.Proofs.Engine.Clearance
import FaultDrill.Proofs.Schedule.Turn
/-!
# How many cycles a schedule starts

The number of cycles is looked at behind each cycle and not before the first. So a schedule starts
no more cycles than it was asked for where that is one or more (`started_le_iff`). Asked for none it
starts one, unless it was asked to stop before; and that cycle disrupts what its engine finds.
-/
namespace FaultDrill.Schedule

/-! ## Counting -/

/-- An action of a schedule, beside a number that it leaves as it is. -/
def beside (act : StateM σ α) : StateM (σ × Nat) α := fun (w, count) =>
  let (a, w) := act w
  (a, w, count)

/-- The same schedule with a count of the cycles that were started. -/
def counted (s : Schedule (StateM σ)) : Schedule (StateM (σ × Nat)) where
  cycle := fun (w, count) =>
    let (result, w) := s.cycle w
    (result, w, count + 1)
  report r := beside (s.report r)
  isStopped := beside s.isStopped
  wait := beside s.wait

/-- The cycles that a run of a schedule starts. -/
def started (s : Schedule (StateM σ)) (most : Option Nat) (rounds : Nat) (w : σ) : Nat :=
  (s.counted.run most rounds (w, 0)).2.2

variable {s : Schedule (StateM σ)} {most : Option Nat} {n rounds completed count : Nat} {w : σ}

theorem took_counted (s : Schedule (StateM σ)) (w : σ) (count : Nat) :
    s.counted.took (w, count) = ((s.took w).1, (s.took w).2, count + 1) := by
  rw [took, took]
  change s.counted.take (s.cycle (s.isStopped w).2).1 (_, count + 1) = _
  cases (s.cycle (s.isStopped w).2).1 <;> rfl

/-- A turn starts one cycle unless the schedule was asked to stop. -/
theorem turn_counted (s : Schedule (StateM σ)) (most : Option Nat) (completed count : Nat) (w : σ) :
    s.counted.turn most completed (w, count) = ((s.turn most completed w).1,
      (s.turn most completed w).2, if (s.isStopped w).1 then count else count + 1) := by
  cases h : (s.isStopped w).1 with
  | true =>
    have hcounted : (s.counted.isStopped (w, count)).1 = true := h
    rw [turn_of_stopped hcounted, turn_of_stopped h]
    rfl
  | false =>
    have hcounted : (s.counted.isStopped (w, count)).1 = false := h
    rw [turn_of_took hcounted, turn_of_took h, took_counted]
    cases (s.took w).1 with
    | some why => rfl
    | none =>
      dsimp only
      cases isEnough most (completed + 1) with
      | true => rfl
      | false =>
        rw [if_neg Bool.false_ne_true, if_neg Bool.false_ne_true, bind_run, bind_run]
        change (if (s.wait (s.took w).2).1 = true then _ else _ : StateM (σ × Nat) _) _ = _
        cases (s.wait (s.took w).2).1 <;> rfl

/-- Counting does not change how a schedule is followed. -/
theorem follow_counted (s : Schedule (StateM σ)) (most : Option Nat) (rounds completed count : Nat)
    (w : σ) : s.counted.follow most rounds completed (w, count) =
      ((s.follow most rounds completed w).1, (s.follow most rounds completed w).2,
        (s.counted.follow most rounds completed (w, count)).2.2) := by
  induction rounds generalizing completed count w with
  | zero => rfl
  | succ rounds ih =>
    rw [follow_succ, follow_succ, turn_counted]
    obtain ⟨ending, w'⟩ := s.turn most completed w
    cases ending with
    | some ending => rfl
    | none => exact ih (completed + 1) _ w'

/-- A schedule with a number of cycles starts no more than those, apart from the first one. -/
theorem count_follow_le (s : Schedule (StateM σ)) (n rounds completed count : Nat) (w : σ) :
    (s.counted.follow (some n) rounds completed (w, count)).2.2 + completed ≤
      count + max n (completed + 1) := by
  induction rounds generalizing completed count w with
  | zero =>
    change count + completed ≤ _
    omega
  | succ rounds ih =>
    rw [follow_succ, turn_counted]
    have hcount : (if (s.isStopped w).1 then count else count + 1) ≤ count + 1 := by
      split <;> omega
    generalize (if (s.isStopped w).1 then count else count + 1) = count' at hcount ⊢
    cases hturn : (s.turn (some n) completed w).1 with
    | some ending =>
      change count' + completed ≤ _
      omega
    | none =>
      have hless := lt_of_goesOn hturn
      have hrest := ih (completed + 1) count' (s.turn (some n) completed w).2
      dsimp only
      omega

/-- A schedule that was asked for no cycles ends with its first turn. -/
theorem started_none (s : Schedule (StateM σ)) (rounds : Nat) (w : σ) :
    s.started (some 0) rounds w = if (s.isStopped w).1 then 0 else 1 := by
  rw [started, run]
  change (s.counted.follow (some 0) (0 + 1) 0 (w, 0)).2.2 = _
  rw [follow_succ, turn_counted]
  cases hturn : (s.turn (some 0) 0 w).1 with
  | some ending => rfl
  | none => exact absurd (lt_of_goesOn hturn) (by omega)

theorem started_le (s : Schedule (StateM σ)) (hn : n ≠ 0) (rounds : Nat) (w : σ) :
    s.started (some n) rounds w ≤ n := by
  have hcount := count_follow_le s n (max n 1) 0 0 w
  rw [started, run]
  change (s.counted.follow (some n) (max n 1) 0 (w, 0)).2.2 ≤ n
  omega

theorem run_counted (s : Schedule (StateM σ)) (most : Option Nat) (rounds : Nat) (w : σ) :
    s.counted.run most rounds (w, 0) =
      ((s.run most rounds w).1, (s.run most rounds w).2, s.started most rounds w) :=
  s.follow_counted most _ 0 0 w

/-- A run starts no more cycles than it was asked for exactly where it was asked for one at least,
or to stop before the first. Asked for none it starts one. The run comes to an end of its own: turns
that it does not make would start no more cycles, and counting the cycles does not change it. -/
theorem started_le_iff (s : Schedule (StateM σ)) (n rounds : Nat) (w : σ) :
    (s.started (some n) rounds w ≤ n ↔ n ≠ 0 ∨ (s.isStopped w).1 = true) ∧
      ((s.isStopped w).1 = false → s.started (some 0) rounds w = 1) ∧
      (∀ more, s.counted.follow (some n) (max n 1 + more) 0 (w, 0) =
        ((s.run (some n) rounds w).1, (s.run (some n) rounds w).2,
          s.started (some n) rounds w)) ∧
      ∀ cycles, (s.run (some n) rounds w).1 ≠ .unfinished cycles := by
  have henough : max n (0 + 1) ≤ 0 + max n 1 := by omega
  refine ⟨?_, ?_, ?_, fun cycles => s.follow_ne_unfinished w henough cycles⟩
  · by_cases hn : n = 0
    · subst hn
      rw [started_none]
      cases (s.isStopped w).1 <;> simp
    · exact iff_of_true (s.started_le hn rounds w) (.inl hn)
  · intro hstop
    rw [started_none, hstop]
    rfl
  · intro more
    rw [← run_counted]
    exact s.counted.follow_add more (w, 0) henough

/-! ## A schedule that nobody asks to stop -/

/-- The cycles of an engine at one time, one after the other. -/
def unstopped (e : Engine σ) : Schedule (StateM (Engine.Running σ)) where
  cycle := e.cycle ⟨0, 0⟩
  report _ := pure ()
  isStopped := pure false
  wait := pure false

/-- Asked for two cycles, the schedule of the drill that falls back starts two. -/
theorem fallingBack_started :
    (unstopped Engine.fallingBack).started (some 2) 0 ⟨.seeded 7, [], ()⟩ = 2 ∧
      (unstopped Engine.fallingBack).started (some 2) 0 ⟨.seeded 7, [], ()⟩ ≤ 2 ∧
      (unstopped Engine.fallingBack).started (some 0) 0 ⟨.seeded 7, [], ()⟩ = 1 :=
  ⟨by decide +kernel, (started_le_iff _ 2 0 _).1.mpr (.inl (by decide)),
    (started_le_iff _ 0 0 _).2.1 rfl⟩

/-- Asked for no cycles, the schedule starts one, which disrupts an instance and records it. -/
theorem noCycles_disrupt :
    ¬ (unstopped Engine.fallingBack).started (some 0) 0 ⟨.seeded 7, [], ()⟩ ≤ 0 ∧
      ((unstopped Engine.fallingBack).run (some 0) 0 ⟨.seeded 7, [], ()⟩).1 = .completed 1 ∧
      ((unstopped Engine.fallingBack).run (some 0) 0 ⟨.seeded 7, [], ()⟩).2.world.1.map
        (fun ev => (ev.group, ev.instanceId, ev.outcome)) = [("web", "i-2", .succeeded)] := by
  decide +kernel

end FaultDrill.Schedule
