import FaultDrill.Proofs.Except
import FaultDrill.Proofs.Schedule.Steps
/-!
# What a schedule accounts for

A run of a schedule is told by its steps. `Accounts` says what they and the end of the run have to
do with each other: which report is handed on when, what a look that finds the stop does, and that
the count of cycles at the end is the count of cycles that were run. Each part is shown for the
steps of a turn, and from there for courses of any length; `run_accounts` puts the parts together.
-/
namespace FaultDrill.Pace
open Schedule

/-- Whether a step is a look at the stop. -/
def Step.isLook : Step → Bool
  | .looked _ => true
  | _ => false

/-- The result of a step that is a cycle. -/
def Step.result? : Step → Option (Except Fault CycleReport)
  | .ran result => some result
  | _ => none

/-- The results of the cycles that were run. -/
def results (steps : List Step) : List (Except Fault CycleReport) := steps.filterMap Step.result?

/-- The steps of a run and its end, where it was to take so many cycles at most. -/
structure Accounts (most : Option Nat) (rounds : Nat) (steps : List Step) (ending : Ending) :
    Prop where
  /-- Apart from the looks there are the cycles, one after the other. The report of a cycle is
  handed on right behind it, once; nothing is handed on for a cycle without one. -/
  cycles : steps.filter (!·.isLook) = (results steps).flatMap cycleSteps
  /-- A cycle is run right behind a look that found no stop. -/
  unstopped : ∀ before result after, steps = before ++ .ran result :: after →
    before.getLast? = some (.looked false)
  /-- Nothing comes behind a look that found the stop. -/
  stops : ∀ before after, steps = before ++ .looked true :: after → after = []
  /-- A run that completes counts the cycles that were run, and none of them had a fault that ends a
  schedule. It was stopped, or there were enough cycles. -/
  completed : ∀ count, ending = .completed count → count = (results steps).length ∧
    (∀ result ∈ results steps, fatal? result = none) ∧
    (steps.getLast? = some (.looked true) ∨ most = some count)
  /-- A run ends with the first fault that ends a schedule, as its last step. -/
  fault : ∀ why, ending = .fault why → why.isFatal = true ∧
    steps.getLast? = some (.ran (.error why)) ∧
    ∃ front, results steps = front ++ [.error why] ∧ ∀ result ∈ front, fatal? result = none
  /-- A run without a number of cycles is left unfinished only when it took all its turns. -/
  unfinished : ∀ count, ending = .unfinished count → most = none ∧ count = rounds ∧
    count = (results steps).length ∧ (∀ result ∈ results steps, fatal? result = none) ∧
    .looked true ∉ steps

variable {most : Option Nat} {rounds completed count : Nat} {a b steps : List Step}
  {end? : Option Ending} {ending : Ending}

/-! ## Cycles and their reports -/

theorem results_append (a b : List Step) : results (a ++ b) = results a ++ results b :=
  List.filterMap_append

theorem results_cycle (stopped : Bool) (result : Except Fault CycleReport) :
    results (.looked stopped :: cycleSteps result) = [result] := by
  cases result <;> rfl

theorem results_wait (looks : Nat) (stopped : Bool) : results (waitSteps looks stopped) = [] := by
  simp [results, waitSteps, Step.result?]

theorem cycles_cycle (stopped : Bool) (result : Except Fault CycleReport) :
    (Step.looked stopped :: cycleSteps result).filter (!·.isLook) = cycleSteps result := by
  cases result <;> rfl

theorem cycles_wait (looks : Nat) (stopped : Bool) :
    (waitSteps looks stopped).filter (!·.isLook) = [] := by
  simp [waitSteps, Step.isLook]

theorem TurnSteps.cycles (h : TurnSteps most completed steps end?) :
    steps.filter (!·.isLook) = (results steps).flatMap cycleSteps := by
  cases h with
  | stopped => rfl
  | fault result | enough result =>
    rw [results_cycle, cycles_cycle, List.flatMap_singleton]
  | stoppedWaiting result looks | goesOn result looks =>
    rw [results_append, results_cycle, results_wait, List.filter_append, cycles_cycle, cycles_wait,
      List.append_nil, List.append_nil, List.flatMap_singleton]

theorem Course.cycles (h : Course most rounds completed steps ending) :
    steps.filter (!·.isLook) = (results steps).flatMap cycleSteps := by
  induction h with
  | unfinished completed => rfl
  | ends hturn => exact hturn.cycles
  | goesOn hturn _ ih =>
    rw [results_append, List.filter_append, List.flatMap_append, hturn.cycles, ih]

/-! ## Looks at the stop -/

/-- Cycles are run right behind looks that found no stop. -/
def RunsUnstopped (steps : List Step) : Prop :=
  ∀ before result after, steps = before ++ .ran result :: after →
    before.getLast? = some (.looked false)

/-- Nothing comes behind a look that found the stop. -/
def StopsLast (steps : List Step) : Prop :=
  ∀ before after, steps = before ++ .looked true :: after → after = []

theorem split_cons {a b before after : List α} {x : α} (h : a ++ b = before ++ x :: after) :
    (∃ c, a = before ++ x :: c ∧ after = c ++ b) ∨ ∃ c, before = a ++ c ∧ b = c ++ x :: after := by
  rcases List.append_eq_append_iff.mp h with ⟨c, rfl, hb⟩ | ⟨c, rfl, hc⟩
  · exact .inr ⟨c, rfl, hb⟩
  · cases c with
    | nil => exact .inr ⟨[], by simp, hc.symm⟩
    | cons y c =>
      obtain ⟨rfl, hafter⟩ := List.cons_eq_cons.mp hc
      exact .inl ⟨c, rfl, hafter⟩

theorem RunsUnstopped.append (ha : RunsUnstopped a) (hb : RunsUnstopped b) :
    RunsUnstopped (a ++ b) := by
  intro before result after h
  rcases split_cons h with ⟨c, hc, -⟩ | ⟨c, rfl, hc⟩
  · exact ha before result c hc
  · rw [List.getLast?_append, hb c result after hc]
    rfl

theorem runsUnstopped_cycle (result : Except Fault CycleReport) :
    RunsUnstopped (.looked false :: cycleSteps result) := by
  intro before result' after h
  rcases before with _ | ⟨x, _ | ⟨y, _ | ⟨z, before⟩⟩⟩ <;> cases result <;> simp_all [cycleSteps]

theorem runsUnstopped_wait (looks : Nat) (stopped : Bool) :
    RunsUnstopped (waitSteps looks stopped) := by
  intro before result after h
  have hmem : Step.ran result ∈ waitSteps looks stopped := by simp [h]
  simp [waitSteps] at hmem

theorem TurnSteps.runsUnstopped (h : TurnSteps most completed steps end?) :
    RunsUnstopped steps := by
  cases h with
  | stopped => exact runsUnstopped_wait 0 true
  | fault result | enough result => exact runsUnstopped_cycle result
  | stoppedWaiting result looks | goesOn result looks =>
    exact (runsUnstopped_cycle result).append (runsUnstopped_wait looks _)

theorem Course.runsUnstopped (h : Course most rounds completed steps ending) :
    RunsUnstopped steps := by
  induction h with
  | unfinished completed => intro before result after h; simp at h
  | ends hturn => exact hturn.runsUnstopped
  | goesOn hturn _ ih => exact hturn.runsUnstopped.append ih

/-- A stop comes last if it is not in the steps before those in which it comes last. -/
theorem StopsLast.append (ha : .looked true ∉ a) (hb : StopsLast b) : StopsLast (a ++ b) := by
  intro before after h
  rcases split_cons h with ⟨c, rfl, -⟩ | ⟨c, rfl, hc⟩
  · simp at ha
  · exact hb c after hc

theorem stop_not_mem_cycle (result : Except Fault CycleReport) :
    .looked true ∉ Step.looked false :: cycleSteps result := by
  cases result <;> simp [cycleSteps]

theorem stop_not_mem_replicate (looks : Nat) :
    .looked true ∉ List.replicate looks (Step.looked false) := by
  simp

theorem stopsLast_of_not_mem (h : .looked true ∉ steps) : StopsLast steps := by
  intro before after hsteps
  simp [hsteps] at h

theorem stopsLast_single : StopsLast [.looked true] := by
  intro before after h
  cases before with
  | nil => exact (List.cons_eq_cons.mp h).2.symm
  | cons x before => simp at h

theorem TurnSteps.stop_not_mem (h : TurnSteps most completed steps none) :
    .looked true ∉ steps := by
  cases h with
  | goesOn result looks =>
    rw [List.mem_append, not_or]
    exact ⟨stop_not_mem_cycle result, by simp [waitSteps]⟩

theorem TurnSteps.stopsLast (h : TurnSteps most completed steps end?) : StopsLast steps := by
  cases h with
  | stopped => exact stopsLast_single
  | fault result | enough result => exact stopsLast_of_not_mem (stop_not_mem_cycle result)
  | stoppedWaiting result looks =>
    exact .append (stop_not_mem_cycle result)
      (.append (stop_not_mem_replicate looks) stopsLast_single)
  | goesOn result looks h hmost =>
    exact stopsLast_of_not_mem (TurnSteps.goesOn result looks h hmost).stop_not_mem

theorem Course.stopsLast (h : Course most rounds completed steps ending) : StopsLast steps := by
  -- only the turn that ends a course can find the stop
  induction h with
  | unfinished completed => exact stopsLast_of_not_mem List.not_mem_nil
  | ends hturn => exact hturn.stopsLast
  | goesOn hturn _ ih => exact .append hturn.stop_not_mem ih

/-! ## Ends -/

theorem lt_of_not_enough (h : isEnough most count = false) {n : Nat} (hn : most = some n) :
    count < n := by
  subst hn
  exact Nat.lt_of_not_le (of_decide_eq_false h)

theorem eq_of_enough (h : isEnough most (count + 1) = true)
    (hmost : ∀ n, most = some n → count < n) : most = some (count + 1) := by
  cases most with
  | none => cases h
  | some n =>
    have henough : n ≤ count + 1 := of_decide_eq_true h
    have hless := hmost n rfl
    rw [Nat.le_antisymm henough hless]

/-- A turn after which the schedule goes on is a cycle more, without a fault that would end it. -/
theorem TurnSteps.goesOn_results (h : TurnSteps most completed steps none) :
    isEnough most (completed + 1) = false ∧
      ∃ result, fatal? result = none ∧ results steps = [result] := by
  cases h with
  | goesOn result looks hfatal hmost =>
    refine ⟨hmost, result, hfatal, ?_⟩
    rw [results_append, results_cycle, results_wait, List.append_nil]

/-- The results of a turn's cycles and of the cycles behind it. -/
theorem fatal_results_append {result : Except Fault CycleReport} {rest : List Step}
    (hsteps : results steps = [result]) (hresult : fatal? result = none)
    (hrest : ∀ r ∈ results rest, fatal? r = none) :
    ∀ r ∈ results (steps ++ rest), fatal? r = none := by
  rw [results_append, hsteps]
  intro r hr
  rcases List.mem_cons.mp hr with rfl | hr
  · exact hresult
  · exact hrest r hr

theorem getLast?_append_of_eq_some {l l' : List α} {x : α} (h : l'.getLast? = some x) :
    (l ++ l').getLast? = some x := by
  rw [List.getLast?_append, h]
  rfl

theorem TurnSteps.completed_eq (h : TurnSteps most completed steps (some (.completed count)))
    (hmost : ∀ n, most = some n → completed < n) :
    count = completed + (results steps).length ∧ (∀ r ∈ results steps, fatal? r = none) ∧
      (steps.getLast? = some (.looked true) ∨ most = some count) := by
  cases h with
  | stopped => exact ⟨rfl, nofun, .inl rfl⟩
  | enough result hfatal henough =>
    rw [results_cycle]
    exact ⟨rfl, by simpa using hfatal, .inr (eq_of_enough henough hmost)⟩
  | stoppedWaiting result looks hfatal =>
    rw [results_append, results_cycle, results_wait]
    exact ⟨rfl, by simpa using hfatal,
      .inl (getLast?_append_of_eq_some (getLast?_append_of_eq_some rfl))⟩

theorem Course.completed_eq (h : Course most rounds completed steps ending)
    (hmost : ∀ n, most = some n → completed < n) (hending : ending = .completed count) :
    count = completed + (results steps).length ∧ (∀ r ∈ results steps, fatal? r = none) ∧
      (steps.getLast? = some (.looked true) ∨ most = some count) := by
  induction h with
  | unfinished completed => cases hending
  | ends hturn =>
    subst hending
    exact hturn.completed_eq hmost
  | goesOn hturn _ ih =>
    -- the turn was not enough, so the next one starts below the number asked for, too
    obtain ⟨hless, result, hresult, hresults⟩ := hturn.goesOn_results
    obtain ⟨hcount, hfatal, hwhy⟩ := ih (fun n hn => lt_of_not_enough hless hn) hending
    refine ⟨?_, fatal_results_append hresults hresult hfatal,
      hwhy.imp_left getLast?_append_of_eq_some⟩
    rw [results_append, hresults, List.length_append, List.length_singleton, hcount, Nat.add_assoc]

theorem fatal?_eq_some {result : Except Fault CycleReport} {why : Fault}
    (h : fatal? result = some why) : result = .error why ∧ why.isFatal = true := by
  cases result with
  | ok report => cases h
  | error why' =>
    rw [fatal?] at h
    split at h
    · rename_i hfatal
      cases h
      exact ⟨rfl, hfatal⟩
    · cases h

theorem Course.fault_eq (h : Course most rounds completed steps ending) {why : Fault}
    (hending : ending = .fault why) : why.isFatal = true ∧
      steps.getLast? = some (.ran (.error why)) ∧
      ∃ front, results steps = front ++ [.error why] ∧ ∀ r ∈ front, fatal? r = none := by
  induction h with
  | unfinished completed => cases hending
  | ends hturn =>
    subst hending
    cases hturn with
    | fault result _ hfatal =>
      obtain ⟨rfl, hwhy⟩ := fatal?_eq_some hfatal
      exact ⟨hwhy, rfl, [], rfl, nofun⟩
  | goesOn hturn _ ih =>
    obtain ⟨-, result, hresult, hresults⟩ := hturn.goesOn_results
    obtain ⟨hwhy, hlast, front, hfront, hfatal⟩ := ih hending
    refine ⟨hwhy, getLast?_append_of_eq_some hlast, result :: front, ?_, ?_⟩
    · rw [results_append, hresults, hfront]
      rfl
    · exact List.forall_mem_cons.mpr ⟨hresult, hfatal⟩

theorem Course.unfinished_eq (h : Course most rounds completed steps ending)
    (hending : ending = .unfinished count) :
    count = completed + rounds ∧ count = completed + (results steps).length ∧
      (∀ r ∈ results steps, fatal? r = none) ∧ .looked true ∉ steps := by
  induction h with
  | unfinished completed =>
    cases hending
    exact ⟨rfl, rfl, nofun, List.not_mem_nil⟩
  | ends hturn =>
    subst hending
    cases hturn
  | goesOn hturn _ ih =>
    obtain ⟨-, result, hresult, hresults⟩ := hturn.goesOn_results
    obtain ⟨hrounds, hcount, hfatal, hstop⟩ := ih hending
    refine ⟨by omega, ?_, fatal_results_append hresults hresult hfatal, ?_⟩
    · rw [results_append, hresults, List.length_append, List.length_singleton, hcount,
        Nat.add_assoc]
    · rw [List.mem_append, not_or]
      exact ⟨hturn.stop_not_mem, hstop⟩

/-! ## Runs -/

/-- The turns that a run may take. -/
def turnsOf (most : Option Nat) (rounds : Nat) : Nat :=
  match most with
  | some n => max n 1
  | none => rounds

theorem run_eq_follow (s : Schedule (StateM σ)) (most : Option Nat) (rounds : Nat) :
    s.run most rounds = s.follow most (turnsOf most rounds) 0 := rfl

/-- A run without a number of cycles is the only one that may be left before its end. -/
theorem turnsOf_of_unfinished (s : Schedule (StateM σ)) {w : σ}
    (h : (s.follow most (turnsOf most rounds) 0 w).1 = .unfinished count) :
    most = none ∧ turnsOf most rounds = rounds := by
  cases most with
  | none => exact ⟨rfl, rfl⟩
  | some n =>
    have hturns : max n (0 + 1) ≤ 0 + turnsOf (some n) rounds := by
      rw [turnsOf]
      omega
    exact absurd h (s.follow_ne_unfinished w hturns count)

/-- A run ends in the same way in the same world whether it is watched or not, and its steps account
for it. -/
theorem run_accounts (p : Pace (StateM σ)) (naps : Nat)
    (cycle : StateM σ (Except Fault CycleReport)) (report : CycleReport → StateM σ Unit)
    (hmost : ∀ n, most = some n → 1 ≤ n) (rounds : Nat) (w : σ) :
    ∃ steps, (p.watchedSchedule naps cycle report).run most rounds ⟨w, []⟩ =
        (((p.schedule naps cycle report).run most rounds w).1,
          ⟨((p.schedule naps cycle report).run most rounds w).2, steps⟩) ∧
      Accounts most rounds steps ((p.schedule naps cycle report).run most rounds w).1 := by
  rw [run_eq_follow, run_eq_follow]
  obtain ⟨steps, hcourse, hwatched⟩ :=
    p.follow_watched naps cycle report most (turnsOf most rounds) 0 w []
  refine ⟨steps, hwatched, hcourse.cycles, hcourse.runsUnstopped, hcourse.stopsLast, ?_,
    fun why hending => hcourse.fault_eq hending, ?_⟩
  · intro count hending
    rw [← Nat.zero_add (results steps).length]
    exact hcourse.completed_eq hmost hending
  · intro count hending
    obtain ⟨hturns, hcount, hfatal, hstop⟩ := hcourse.unfinished_eq hending
    obtain ⟨hnone, hrounds⟩ := turnsOf_of_unfinished _ hending
    rw [Nat.zero_add] at hturns hcount
    exact ⟨hnone, hturns.trans hrounds, hcount, hfatal, hstop⟩

/-! ## A run that is stopped in a wait -/

/-- The results that cycles will have, and the answers that looks at the stop will get. -/
structure Script where
  cycles : List (Except Fault CycleReport)
  looks : List Bool
  deriving DecidableEq

/-- A pace by the script, at which a wait takes all its naps. -/
def scripted : Pace (StateM Script) where
  isStopped s := (s.looks.headD true, { s with looks := s.looks.tail })
  isDue := return false
  nap := return ()

/-- The cycle that comes next in the script. -/
def Script.cycle : StateM Script (Except Fault CycleReport) := fun s =>
  (s.cycles.headD (.error (.config "the script is over")), { s with cycles := s.cycles.tail })

/-- The report of a cycle without groups that was started at a second. -/
def reportAt (second : Int) : CycleReport := ⟨⟨second, 0⟩, ⟨second, 0⟩, ⟨0, 0⟩, []⟩

/-- Four cycles, the second with a fault that does not end a schedule. The ninth look finds the
stop. -/
def Script.short : Script where
  cycles := [.ok (reportAt 1), .error (.catalogUnusable "fleet" "syntax error"), .ok (reportAt 3),
    .ok (reportAt 4)]
  looks := List.replicate 8 false

/-- Asked for ten cycles, the schedule runs three and is stopped in the third wait. -/
theorem short_accounts :
    ∃ steps,
      (scripted.watchedSchedule 1 Script.cycle fun _ => pure ()).run (some 10) 0 ⟨.short, []⟩ =
        (.completed 3, ⟨⟨[.ok (reportAt 4)], []⟩, steps⟩) ∧
      results steps = [.ok (reportAt 1), .error (.catalogUnusable "fleet" "syntax error"),
        .ok (reportAt 3)] ∧
      Accounts (some 10) 0 steps (.completed 3) := by
  have hrun : (scripted.schedule 1 Script.cycle fun _ => pure ()).run (some 10) 0 .short =
      (.completed 3, ⟨[.ok (reportAt 4)], []⟩) := by
    change @Eq (Ending × Script) _ _
    decide +kernel
  have hresults : results
      ((scripted.watchedSchedule 1 Script.cycle fun _ => pure ()).run (some 10) 0
        ⟨.short, []⟩).2.steps = [.ok (reportAt 1), .error (.catalogUnusable "fleet" "syntax error"),
        .ok (reportAt 3)] := by decide +kernel
  obtain ⟨steps, hwatched, haccounts⟩ :=
    run_accounts scripted 1 Script.cycle (fun _ => pure ())
      (show ∀ n, some 10 = some n → 1 ≤ n by simp) 0 .short
  rw [hrun] at hwatched haccounts
  rw [hwatched] at hresults
  exact ⟨steps, hwatched, hresults, haccounts⟩

end FaultDrill.Pace
