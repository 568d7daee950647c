import Mathlib.Data.List.Nodup
import Mathlib.Data.List.Perm.Basic
import FaultDrill.Pool
import FaultDrill.Proofs.Work
/-!
# Runs of pools

A move of a pool does at most one deed, and of one task. Seen from a task, its own deeds bring its
work to the result, whatever is done for the others in between (`comes_of_run`). What grows in the
world with the deeds is at the end what it was, and then what came with each deed in the order of
the deeds (`view_of_run`); up to this order it is what came with the deeds of each task.
-/
namespace FaultDrill.Pool

variable {does : (d : Deed) → StateM σ d.Answer} {workers i j : Nat} {p p' : Pool σ α}

/-! ## Moves -/

/-- The deed that a move does, if it does one. -/
def step? (p : Pool σ α) (i : Nat) : Option (Work.Step σ) :=
  match p.tasks[i]? with
  | some ⟨true, .deed d _⟩ => some ⟨d, p.world⟩
  | _ => none

/-- What a move may come to: the deed that it does, if any, and the pool after it. -/
inductive Moved (does : (d : Deed) → StateM σ d.Answer) (workers : Nat) (p : Pool σ α) (i : Nat) :
    Option (Work.Step σ) → Pool σ α → Prop where
  | stays : Moved does workers p i none p
  | takes {rest : Work α} (h : p.tasks[i]? = some ⟨false, rest⟩)
    (hcan : p.canTake workers i = true) : Moved does workers p i none (p.put i rest)
  | deed {d : Deed} {next : d.Answer → Work α} (h : p.tasks[i]? = some ⟨true, .deed d next⟩) :
    Moved does workers p i (some ⟨d, p.world⟩)
      { p.put i (next (does d p.world).1) with world := (does d p.world).2 }
  | lock {l : Lock} {rest : Work α} (h : p.tasks[i]? = some ⟨true, .lock l rest⟩)
    (hfree : l ∉ p.held) : Moved does workers p i none { p.put i rest with held := l :: p.held }
  | unlock {l : Lock} {rest : Work α} (h : p.tasks[i]? = some ⟨true, .unlock l rest⟩) :
    Moved does workers p i none { p.put i rest with held := p.held.erase l }

theorem moved (does : (d : Deed) → StateM σ d.Answer) (workers : Nat) (p : Pool σ α) (i : Nat) :
    Moved does workers p i (p.step? i) (p.move does workers i) := by
  rw [step?, move]
  cases h : p.tasks[i]? with
  | none => exact .stays
  | some t =>
    obtain ⟨taken, rest⟩ := t
    cases taken with
    | false =>
      by_cases hcan : p.canTake workers i = true
      · simpa [hcan] using Moved.takes h hcan
      · simpa [hcan] using Moved.stays
    | true =>
      cases rest with
      | done a => exact .stays
      | deed d next => exact .deed h
      | lock l rest =>
        by_cases hheld : l ∈ p.held
        · simpa [advance, hheld] using Moved.stays
        · simpa [advance, hheld] using Moved.lock h hheld
      | unlock l rest => exact .unlock h

@[simp] theorem put_world (i : Nat) (rest : Work α) (p : Pool σ α) :
    (p.put i rest).world = p.world := rfl

theorem put_tasks (i : Nat) (rest : Work α) (p : Pool σ α) :
    (p.put i rest).tasks = p.tasks.set i ⟨true, rest⟩ := rfl

theorem put_self {t : Task α} (h : p.tasks[i]? = some t) (rest : Work α) :
    (p.put i rest).tasks[i]? = some ⟨true, rest⟩ := by
  obtain ⟨hlt, -⟩ := List.getElem?_eq_some_iff.mp h
  rw [put_tasks, List.getElem?_set_self hlt]

theorem put_other (hij : i ≠ j) (rest : Work α) (p : Pool σ α) :
    (p.put i rest).tasks[j]? = p.tasks[j]? := by
  rw [put_tasks, List.getElem?_set_ne hij]

namespace Moved

variable {step : Option (Work.Step σ)}

theorem length_eq (h : Moved does workers p i step p') : p'.tasks.length = p.tasks.length := by
  cases h with
  | stays => rfl
  | _ => exact List.length_set

/-- A move leaves the other tasks as they are. -/
theorem other (h : Moved does workers p i step p') (hij : i ≠ j) :
    p'.tasks[j]? = p.tasks[j]? := by
  cases h with
  | stays => rfl
  | _ => exact put_other hij _ p

/-- The world grows with the deed only. -/
theorem view_eq (h : Moved does workers p i step p') {view : σ → List β}
    {gain : Work.Step σ → Option β}
    (hgain : ∀ st ∈ step, view (does st.deed st.world).2 = view st.world ++ (gain st).toList) :
    view p'.world = view p.world ++ (step.bind gain).toList := by
  cases h with
  | deed => exact hgain _ rfl
  | _ => exact (List.append_nil _).symm

/-- A part of the world changes with the deed only. -/
theorem view_rel (h : Moved does workers p i step p') {view : σ → γ} {R : γ → γ → Prop}
    (hrefl : ∀ a, R a a)
    (hdeed : ∀ st ∈ step, R (view st.world) (view (does st.deed st.world).2)) :
    R (view p.world) (view p'.world) := by
  cases h with
  | deed => exact hdeed _ rfl
  | _ => exact hrefl _

/-- Only a task of the pool does a deed. -/
theorem lt_of_step {st : Work.Step σ} (h : Moved does workers p i (some st) p') :
    i < p.tasks.length := by
  cases h with
  | deed h => exact (List.getElem?_eq_some_iff.mp h).1

/-- What is left of a task comes to a result by the deed of its move and what comes after it. -/
theorem comes (h : Moved does workers p i step p') {t t' : Task α} (ht : p.tasks[i]? = some t)
    (ht' : p'.tasks[i]? = some t') {more : List (Work.Step σ)} {a : α}
    (hmore : t'.rest.Comes does more a) : t.rest.Comes does (step.toList ++ more) a := by
  cases h with
  | stays =>
    obtain rfl : t = t' := Option.some.inj (ht.symm.trans ht')
    exact hmore
  | takes hi =>
    obtain rfl := Option.some.inj (hi.symm.trans ht)
    obtain rfl := Option.some.inj ((put_self hi _).symm.trans ht')
    exact hmore
  | deed hi =>
    obtain rfl := Option.some.inj (hi.symm.trans ht)
    obtain rfl := Option.some.inj ((put_self hi _).symm.trans ht')
    exact hmore.deed
  | lock hi =>
    obtain rfl := Option.some.inj (hi.symm.trans ht)
    obtain rfl := Option.some.inj ((put_self hi _).symm.trans ht')
    exact hmore.lock
  | unlock hi =>
    obtain rfl := Option.some.inj (hi.symm.trans ht)
    obtain rfl := Option.some.inj ((put_self hi _).symm.trans ht')
    exact hmore.unlock

/-- A task whose work has certain deeds only goes on to do such deeds. -/
theorem only (h : Moved does workers p i step p') {P : Deed → Prop} {t : Task α}
    (ht : p.tasks[i]? = some t) (hP : t.rest.Only P) :
    (∀ st ∈ step, P st.deed) ∧ ∀ t', p'.tasks[i]? = some t' → t'.rest.Only P := by
  cases h with
  | stays =>
    refine ⟨nofun, fun t' ht' => ?_⟩
    rwa [← Option.some.inj (ht.symm.trans ht')]
  | takes hi | lock hi | unlock hi =>
    obtain rfl := Option.some.inj (hi.symm.trans ht)
    refine ⟨nofun, fun t' ht' => ?_⟩
    obtain rfl := Option.some.inj ((put_self hi _).symm.trans ht')
    exact hP
  | deed hi =>
    obtain rfl := Option.some.inj (hi.symm.trans ht)
    refine ⟨fun st hst => ?_, fun t' ht' => ?_⟩
    · obtain rfl := Option.some.inj hst
      exact hP.1
    · obtain rfl := Option.some.inj ((put_self hi _).symm.trans ht')
      exact hP.2 _

end Moved

/-! ## Runs -/

/-- The deeds of a run in their order, each with the task that it is done for. -/
def steps (does : (d : Deed) → StateM σ d.Answer) (workers : Nat) :
    List Nat → Pool σ α → List (Nat × Work.Step σ)
  | [], _ => []
  | i :: more, p =>
    ((p.step? i).map (i, ·)).toList ++ steps does workers more (p.move does workers i)

/-- The deeds that are done for one task. -/
def own (j : Nat) (steps : List (Nat × Work.Step σ)) : List (Work.Step σ) :=
  (steps.filter (·.1 == j)).map (·.2)

/-- What comes with the deeds of a run, each with its task. -/
def gains (gain : Work.Step σ → Option β) (steps : List (Nat × Work.Step σ)) : List (Nat × β) :=
  steps.filterMap fun entry => (gain entry.2).map (entry.1, ·)

theorem run_cons (i : Nat) (moves : List Nat) (p : Pool σ α) :
    p.run does workers (i :: moves) = (p.move does workers i).run does workers moves := rfl

theorem run_append (moves moves' : List Nat) (p : Pool σ α) :
    p.run does workers (moves ++ moves') =
      (p.run does workers moves).run does workers moves' := List.foldl_append

theorem own_append (j : Nat) (first more : List (Nat × Work.Step σ)) :
    own j (first ++ more) = own j first ++ own j more := by
  rw [own, List.filter_append, List.map_append]
  rfl

theorem own_self (i : Nat) (step : Option (Work.Step σ)) :
    own i (step.map (i, ·)).toList = step.toList := by
  cases step <;> simp [own]

theorem own_other (hij : i ≠ j) (step : Option (Work.Step σ)) :
    own j (step.map (i, ·)).toList = [] := by
  cases step <;> simp [own, hij]

theorem gains_append (gain : Work.Step σ → Option β) (first more : List (Nat × Work.Step σ)) :
    gains gain (first ++ more) = gains gain first ++ gains gain more := List.filterMap_append

theorem gains_step (i : Nat) (step : Option (Work.Step σ)) (gain : Work.Step σ → Option β) :
    gains gain (step.map (i, ·)).toList = ((step.bind gain).map (i, ·)).toList := by
  cases step with
  | none => rfl
  | some st => cases h : gain st <;> simp [gains, h]

theorem gains_values (gain : Work.Step σ → Option β) (steps : List (Nat × Work.Step σ)) :
    (gains gain steps).map (·.2) = steps.filterMap fun entry => gain entry.2 := by
  rw [gains, List.map_filterMap]
  refine List.filterMap_congr fun entry _ => ?_
  rw [Option.map_map]
  exact Option.map_id'

theorem length_run (does : (d : Deed) → StateM σ d.Answer) (workers : Nat) (moves : List Nat)
    (p : Pool σ α) :
    (p.run does workers moves).tasks.length = p.tasks.length := by
  induction moves generalizing p with
  | nil => rfl
  | cons i more ih => rw [run_cons, ih, (moved does workers p i).length_eq]

theorem lt_of_mem_steps {moves : List Nat} {entry : Nat × Work.Step σ}
    (h : entry ∈ p.steps does workers moves) : entry.1 < p.tasks.length := by
  induction moves generalizing p with
  | nil => cases h
  | cons i more ih =>
    have hmoved := moved does workers p i
    rcases List.mem_append.mp h with hfirst | hmore
    · obtain ⟨st, hst, rfl⟩ := Option.map_eq_some_iff.mp (Option.mem_toList.mp hfirst)
      rw [hst] at hmoved
      exact hmoved.lt_of_step
    · rw [← hmoved.length_eq]
      exact ih hmore

/-- A task's own deeds and what comes after the run bring its work to the result. -/
theorem comes_of_run {moves : List Nat} {t t' : Task α} (ht : p.tasks[j]? = some t)
    (ht' : (p.run does workers moves).tasks[j]? = some t') {more : List (Work.Step σ)} {a : α}
    (hmore : t'.rest.Comes does more a) :
    t.rest.Comes does (own j (p.steps does workers moves) ++ more) a := by
  induction moves generalizing p t with
  | nil =>
    obtain rfl : t = t' := Option.some.inj (ht.symm.trans ht')
    exact hmore
  | cons i rest ih =>
    have hmoved := moved does workers p i
    rw [steps, own_append, List.append_assoc]
    by_cases hij : i = j
    · subst hij
      obtain ⟨hlt, -⟩ := List.getElem?_eq_some_iff.mp ht
      have hnext := List.getElem?_eq_getElem (hmoved.length_eq.symm ▸ hlt)
      rw [own_self]
      exact hmoved.comes ht hnext (ih hnext ht')
    · rw [own_other hij, List.nil_append]
      exact ih ((hmoved.other hij).trans ht) ht'

/-- A task whose work has certain deeds only does no others in a run, whether or not it comes to its
end. -/
theorem own_only {P : Deed → Prop} {moves : List Nat} {t : Task α} (ht : p.tasks[j]? = some t)
    (hP : t.rest.Only P) : ∀ st ∈ own j (p.steps does workers moves), P st.deed := by
  induction moves generalizing p t with
  | nil => exact fun _ h => nomatch h
  | cons i more ih =>
    have hmoved := moved does workers p i
    rw [steps, own_append, List.forall_mem_append]
    obtain ⟨hlt, -⟩ := List.getElem?_eq_some_iff.mp ht
    have hnext := List.getElem?_eq_getElem (hmoved.length_eq.symm ▸ hlt)
    by_cases hij : i = j
    · subst hij
      obtain ⟨hstep, hrest⟩ := hmoved.only ht hP
      rw [own_self]
      exact ⟨fun st hst => hstep st (Option.mem_toList.mp hst), ih hnext (hrest _ hnext)⟩
    · rw [own_other hij]
      exact ⟨nofun, ih ((hmoved.other hij).trans ht) hP⟩

/-- What each deed does to a part of the world, all together do. -/
theorem rel_of_run {view : σ → γ} {R : γ → γ → Prop} (hrefl : ∀ a, R a a)
    (htrans : ∀ {a b c}, R a b → R b c → R a c) {moves : List Nat}
    (h : ∀ entry ∈ p.steps does workers moves,
      R (view entry.2.world) (view (does entry.2.deed entry.2.world).2)) :
    R (view p.world) (view (p.run does workers moves).world) := by
  induction moves generalizing p with
  | nil => exact hrefl _
  | cons i more ih =>
    rw [steps, List.forall_mem_append] at h
    refine htrans ((moved does workers p i).view_rel hrefl fun st hst => ?_) (ih h.2)
    exact h.1 (i, st) (by simp [Option.mem_def.mp hst])

/-- A part of the world that grows with deeds grows in their order. -/
theorem view_of_run {view : σ → List β} {gain : Work.Step σ → Option β} {moves : List Nat}
    (h : ∀ entry ∈ p.steps does workers moves,
      view (does entry.2.deed entry.2.world).2 = view entry.2.world ++ (gain entry.2).toList) :
    view (p.run does workers moves).world =
      view p.world ++ (gains gain (p.steps does workers moves)).map (·.2) := by
  induction moves generalizing p with
  | nil => exact (List.append_nil _).symm
  | cons i more ih =>
    rw [steps, List.forall_mem_append] at h
    have hfirst : ∀ st ∈ p.step? i,
        view (does st.deed st.world).2 = view st.world ++ (gain st).toList :=
      fun st hst => h.1 (i, st) (by simp [Option.mem_def.mp hst])
    rw [run_cons, ih h.2, (moved does workers p i).view_eq hfirst, steps, gains_append, gains_step,
      List.map_append, List.append_assoc]
    cases (p.step? i).bind gain <;> rfl

/-! ## Results -/

theorem result?_eq_some_iff {w : Work α} {a : α} : w.result? = some a ↔ w = .done a := by
  cases w <;> simp [Work.result?]

theorem results?_eq_some_iff {results : List α} :
    p.results? = some results ↔ p.tasks.map (·.rest) = results.map .done := by
  rw [results?]
  induction p.tasks generalizing results with
  | nil => cases results <;> simp
  | cons t more ih =>
    cases results with
    | nil => simp [List.mapM_cons, Option.bind_eq_some_iff]
    | cons a rest => simp [List.mapM_cons, Option.bind_eq_some_iff, result?_eq_some_iff, ih]

theorem start_tasks (work : List (Work α)) (s : σ) :
    (start work s).tasks.map (·.rest) = work := by
  rw [start, List.map_map]
  exact List.map_id _

/-- Each task's own deeds bring its work to its result. -/
theorem comes_of_results {work : List (Work α)} {s : σ} {moves : List Nat} {results : List α}
    (h : ((start work s).run does workers moves).results? = some results) {w : Work α}
    (hw : work[j]? = some w) :
    ∃ a, results[j]? = some a ∧
      w.Comes does (own j ((start work s).steps does workers moves)) a := by
  have hrests := results?_eq_some_iff.mp h
  obtain ⟨t, ht, rfl⟩ : ∃ t, (start work s).tasks[j]? = some t ∧ t.rest = w := by
    rw [← start_tasks work s, List.getElem?_map, Option.map_eq_some_iff] at hw
    exact hw
  obtain ⟨hlt, -⟩ := List.getElem?_eq_some_iff.mp ht
  rw [← length_run does workers moves] at hlt
  have hend := List.getElem?_eq_getElem hlt
  obtain ⟨a, ha, hrest⟩ : ∃ a, results[j]? = some a ∧
      (((start work s).run does workers moves).tasks[j]).rest = .done a := by
    have hj := congrArg (·[j]?) hrests
    simp only [List.getElem?_map, hend] at hj
    cases ha : results[j]? with
    | none => simp [ha] at hj
    | some a => exact ⟨a, rfl, by simpa [ha] using hj⟩
  refine ⟨a, ha, ?_⟩
  have hover : Work.Comes does (((start work s).run does workers moves).tasks[j]).rest [] a := by
    rw [hrest]
    exact .done a
  have hcomes := comes_of_run ht hend hover
  rwa [List.append_nil] at hcomes

/-! ## Order -/

theorem flatMap_singleton_range {n : Nat} (hi : i < n) (st : Work.Step σ) :
    ((List.range n).flatMap fun j => [(i, st)].filter (·.1 == j)) = [(i, st)] := by
  induction n with
  | zero => cases hi
  | succ n ih =>
    rw [List.range_succ, List.flatMap_append]
    rcases Nat.lt_succ_iff_lt_or_eq.mp hi with hlt | rfl
    · rw [ih hlt]
      simp [Nat.ne_of_lt hlt]
    · have hnone : ∀ j ∈ List.range i, [(i, st)].filter (·.1 == j) = [] := by
        intro j hj
        simp [Nat.ne_of_gt (List.mem_range.mp hj)]
      rw [List.flatMap_congr hnone]
      simp

/-- The deeds of a run are those of the tasks, one task after the other, in another order. -/
theorem perm_own {n : Nat} {steps : List (Nat × Work.Step σ)} (h : ∀ entry ∈ steps, entry.1 < n) :
    steps.Perm ((List.range n).flatMap fun j => steps.filter (·.1 == j)) := by
  induction steps with
  | nil => simp
  | cons entry more ih =>
    obtain ⟨hfirst, hmore⟩ := List.forall_mem_cons.mp h
    have hsplit : ∀ j ∈ List.range n, (entry :: more).filter (·.1 == j) =
        [entry].filter (·.1 == j) ++ more.filter (·.1 == j) :=
      fun j _ => List.filter_append [entry] more
    rw [List.flatMap_congr hsplit]
    refine List.Perm.trans ?_ (List.flatMap_append_perm ..)
    rw [flatMap_singleton_range hfirst]
    exact (ih hmore).cons entry

theorem mem_gains {gain : Work.Step σ → Option β} {steps : List (Nat × Work.Step σ)} {b : β} :
    (i, b) ∈ gains gain steps ↔ ∃ st, (i, st) ∈ steps ∧ gain st = some b := by
  simp only [gains, List.mem_filterMap, Option.map_eq_some_iff, Prod.mk.injEq, Prod.exists]
  constructor
  · rintro ⟨j, st, hst, b', hgain, rfl, rfl⟩
    exact ⟨st, hst, hgain⟩
  · rintro ⟨st, hst, hgain⟩
    exact ⟨i, st, hst, b, hgain, rfl, rfl⟩

theorem mem_own {steps : List (Nat × Work.Step σ)} {st : Work.Step σ} :
    st ∈ own j steps ↔ (j, st) ∈ steps := by
  simp [own]

/-- The tasks' own gains, one task after the other, are all gains in another order. -/
theorem gains_perm {n : Nat} {steps : List (Nat × Work.Step σ)} (h : ∀ entry ∈ steps, entry.1 < n)
    (gain : Work.Step σ → Option β) :
    ((gains gain steps).map (·.2)).Perm
      ((List.range n).flatMap fun j => (own j steps).filterMap gain) := by
  rw [gains_values]
  refine ((perm_own h).filterMap _).trans (List.Perm.of_eq ?_)
  rw [List.filterMap_flatMap]
  refine List.flatMap_congr fun j _ => ?_
  rw [own, List.filterMap_map]
  rfl

/-- The gains of one task. -/
theorem gains_own (j : Nat) (gain : Work.Step σ → Option β) (steps : List (Nat × Work.Step σ)) :
    ((gains gain steps).filter (·.1 == j)).map (·.2) = (own j steps).filterMap gain := by
  induction steps with
  | nil => rfl
  | cons entry more ih =>
    obtain ⟨i, st⟩ := entry
    cases hgain : gain st <;> by_cases hij : i = j <;>
      simpa [gains, own, hgain, hij] using ih

theorem nodup_gains {gain : Work.Step σ → Option β} {steps : List (Nat × Work.Step σ)}
    (h : ∀ j, ((own j steps).filterMap gain).length ≤ 1) :
    ((gains gain steps).map (·.1)).Nodup := by
  rw [List.nodup_iff_count_le_one]
  intro j
  have hlength := h j
  rw [← gains_own, List.length_map] at hlength
  rw [List.count, List.countP_map, List.countP_eq_length_filter]
  exact hlength

end FaultDrill.Pool
