import FaultDrill.Proofs.Pool
/-!
# Pools whose tasks take turns

Tasks take turns if each is done to its end before the next one begins (`Pool.runAll`). A worker that
is alone has no other way to move (`runAll_of_alone`). With any number of workers it is one of the
ways to move, if all work gives its locks back (`exists_moves_runAll`).
-/
namespace FaultDrill.Pool

variable {does : (d : Deed) → StateM σ d.Answer} {workers i : Nat} {p p' : Pool σ α} {s : σ}

/-- Work done piece after piece, each to its end. -/
def runAll (does : (d : Deed) → StateM σ d.Answer) : List (Work α) → StateM σ (List α)
  | [] => return []
  | w :: more => do
    let a ← w.run does
    return a :: (← runAll does more)

theorem runAll_cons (w : Work α) (more : List (Work α)) (s : σ) :
    runAll does (w :: more) s =
      ((w.run does s).1 :: (runAll does more (w.run does s).2).1,
        (runAll does more (w.run does s).2).2) := rfl

theorem runAll_append (first more : List (Work α)) (s : σ) :
    runAll does (first ++ more) s =
      ((runAll does first s).1 ++ (runAll does more (runAll does first s).2).1,
        (runAll does more (runAll does first s).2).2) := by
  induction first generalizing s with
  | nil => rfl
  | cons w first ih => rw [List.cons_append, runAll_cons, ih, runAll_cons]; rfl

theorem runAll_done (results : List α) (s : σ) :
    runAll does (results.map .done) s = (results, s) := by
  induction results with
  | nil => rfl
  | cons a more ih => rw [List.map_cons, runAll_cons]; exact congrArg (fun r => (a :: r.1, r.2)) ih

/-- Work that runs alike can stand for each other. -/
theorem runAll_congr {first more : List (Work α)} {w w' : Work α} {s' : σ}
    (hfirst : ∀ v ∈ first, v.result?.isSome) (h : w.run does s = w'.run does s') :
    runAll does (first ++ w :: more) s = runAll does (first ++ w' :: more) s' := by
  obtain ⟨results, rfl⟩ : ∃ results : List α, first = results.map .done := by
    induction first with
    | nil => exact ⟨[], rfl⟩
    | cons v first ih =>
      obtain ⟨hv, hfirst⟩ := List.forall_mem_cons.mp hfirst
      obtain ⟨results, rfl⟩ := ih hfirst
      obtain ⟨a, ha⟩ := Option.isSome_iff_exists.mp hv
      exact ⟨a :: results, by rw [result?_eq_some_iff.mp ha, List.map_cons]⟩
  rw [runAll_append, runAll_append, runAll_done, runAll_done, runAll_cons, runAll_cons, h]

/-! ## A worker that is alone -/

/-- What comes before a task that is taken is over. -/
def Settled (p : Pool σ α) : Prop :=
  p.tasks.Pairwise fun t t' => t'.taken = true → t.rest.result?.isSome

/-- What is to come of a pool if its tasks go on one after the other. -/
def outlook (does : (d : Deed) → StateM σ d.Answer) (p : Pool σ α) : List α × σ :=
  runAll does (p.tasks.map (·.rest)) p.world

theorem settled_start (work : List (Work α)) (s : σ) : (start work s).Settled := by
  rw [Settled, start, List.pairwise_map]
  exact List.pairwise_of_forall fun _ _ h => absurd h Bool.false_ne_true

/-- The tasks before and after one. -/
theorem exists_split {t : Task α} (ht : p.tasks[i]? = some t) (rest : Work α) :
    ∃ first more, p.tasks = first ++ t :: more ∧ first = p.tasks.take i ∧
      (p.put i rest).tasks = first ++ ⟨true, rest⟩ :: more := by
  obtain ⟨hlt, rfl⟩ := List.getElem?_eq_some_iff.mp ht
  obtain ⟨first, more, htasks, hlength, hset⟩ :=
    @List.exists_of_set _ i ⟨true, rest⟩ p.tasks hlt
  refine ⟨first, more, htasks, ?_, hset⟩
  rw [htasks, List.take_left' hlength]

theorem Settled.first_over (h : p.Settled) {t : Task α} (ht : p.tasks[i]? = some t)
    (htaken : t.taken = true) : ∀ v ∈ p.tasks.take i, v.rest.result?.isSome := by
  obtain ⟨first, more, htasks, hfirst, -⟩ := exists_split ht t.rest
  rw [Settled, htasks, List.pairwise_append] at h
  rw [← hfirst]
  exact fun v hv => h.2.2 v hv t List.mem_cons_self htaken

theorem first_over_of_canTake (h : p.canTake 1 i = true) :
    ∀ v ∈ p.tasks.take i, v.rest.result?.isSome := by
  intro v hv
  simp only [canTake, Bool.and_eq_true, Bool.or_eq_true, decide_eq_true_eq, Nat.lt_irrefl,
    false_or, List.all_eq_true, Nat.lt_one_iff, List.countP_eq_zero] at h
  have htaken := h.2 v hv
  have hidle := h.1 v (List.mem_of_mem_take hv)
  simpa [Task.isBusy, htaken, Option.isSome_iff_ne_none] using hidle

theorem Settled.put (h : p.Settled) {t : Task α} (ht : p.tasks[i]? = some t) {rest : Work α}
    (hfirst : ∀ v ∈ p.tasks.take i, v.rest.result?.isSome)
    (hrest : t.rest.result?.isSome → rest.result?.isSome) : (p.put i rest).Settled := by
  obtain ⟨first, more, htasks, htake, hput⟩ := exists_split ht rest
  rw [Settled, htasks, List.pairwise_append, List.pairwise_cons] at h
  rw [Settled, hput, List.pairwise_append, List.pairwise_cons]
  obtain ⟨hpre, ⟨hafter, hmore⟩, hacross⟩ := h
  refine ⟨hpre, ⟨fun v hv htaken => hrest (hafter v hv htaken), hmore⟩, ?_⟩
  intro v hv v' hv' htaken
  exact hfirst v (htake ▸ hv)

theorem outlook_put {t : Task α} (ht : p.tasks[i]? = some t) {rest : Work α}
    (hfirst : ∀ v ∈ p.tasks.take i, v.rest.result?.isSome)
    (htasks : p'.tasks = (p.put i rest).tasks)
    (hrun : rest.run does p'.world = t.rest.run does p.world) :
    p'.outlook does = p.outlook does := by
  obtain ⟨first, more, hsplit, htake, hput⟩ := exists_split ht rest
  rw [outlook, outlook, htasks, hput, hsplit, List.map_append, List.map_append, List.map_cons,
    List.map_cons]
  refine runAll_congr ?_ hrun
  rw [List.forall_mem_map, htake]
  exact hfirst

/-- A worker that is alone keeps to the order, and what is to come of the pool stays the same. -/
theorem Moved.settled {step : Option (Work.Step σ)} (h : Moved does 1 p i step p')
    (hp : p.Settled) : p'.Settled ∧ p'.outlook does = p.outlook does := by
  cases h with
  | stays => exact ⟨hp, rfl⟩
  | takes ht hcan =>
    have hfirst := first_over_of_canTake hcan
    exact ⟨hp.put ht hfirst id, outlook_put ht hfirst rfl rfl⟩
  | deed ht =>
    have hfirst := hp.first_over ht rfl
    exact ⟨hp.put ht hfirst nofun, outlook_put ht hfirst rfl rfl⟩
  | lock ht =>
    have hfirst := hp.first_over ht rfl
    exact ⟨hp.put ht hfirst nofun, outlook_put ht hfirst rfl rfl⟩
  | unlock ht =>
    have hfirst := hp.first_over ht rfl
    exact ⟨hp.put ht hfirst nofun, outlook_put ht hfirst rfl rfl⟩

theorem Settled.run (hp : p.Settled) (does : (d : Deed) → StateM σ d.Answer) (moves : List Nat) :
    (p.run does 1 moves).outlook does = p.outlook does := by
  induction moves generalizing p with
  | nil => rfl
  | cons i more ih =>
    obtain ⟨hsettled, houtlook⟩ := (moved does 1 p i).settled hp
    rw [run_cons, ih hsettled, houtlook]

/-- If a worker is alone, the tasks take turns. -/
theorem runAll_of_alone {work : List (Work α)} {moves : List Nat} {results : List α}
    (h : ((start work s).run does 1 moves).results? = some results) :
    runAll does work s = (results, ((start work s).run does 1 moves).world) := by
  have houtlook := (settled_start work s).run does moves
  rw [outlook, results?_eq_some_iff.mp h, runAll_done, outlook, start_tasks] at houtlook
  exact houtlook.symm

/-! ## Taking turns -/

/-- A task that is over. -/
def finished (a : α) : Task α := ⟨true, .done a⟩

theorem move_of_taken {w : Work α} (ht : p.tasks[i]? = some ⟨true, w⟩) :
    p.move does workers i = p.advance does i w := by
  rw [move, ht]
  rfl

/-- The moves of a task that a worker is at bring it to its end, if no lock is in its way. -/
theorem exists_moves_task (does : (d : Deed) → StateM σ d.Answer) (workers : Nat) {w : Work α}
    (ht : p.tasks[i]? = some ⟨true, w⟩)
    (hends : w.Ends [] p.held) :
    ∃ moves, p.run does workers moves =
      ⟨p.tasks.set i (finished (w.run does p.world).1), [], (w.run does p.world).2⟩ := by
  induction w generalizing p with
  | done a =>
    obtain ⟨tasks, held, world⟩ := p
    obtain rfl : held = [] := hends
    refine ⟨[], congrArg (Pool.mk · [] world) ?_⟩
    obtain ⟨hlt, hget⟩ := List.getElem?_eq_some_iff.mp ht
    have hset := List.set_getElem_self hlt
    rw [hget] at hset
    exact hset.symm
  | deed d next ih =>
    obtain ⟨moves, hmoves⟩ := ih (does d p.world).1
      (p := { p.put i (next (does d p.world).1) with world := (does d p.world).2 })
      (put_self ht _) (hends _)
    refine ⟨i :: moves, ?_⟩
    rw [run_cons, move_of_taken ht]
    refine hmoves.trans ?_
    rw [put_tasks, List.set_set]
    rfl
  | lock l rest ih =>
    obtain ⟨moves, hmoves⟩ := ih (p := { p.put i rest with held := l :: p.held })
      (put_self ht _) hends.2
    refine ⟨i :: moves, ?_⟩
    rw [run_cons, move_of_taken ht, advance, if_neg (by simpa using hends.1)]
    refine hmoves.trans ?_
    rw [put_tasks, List.set_set]
    rfl
  | unlock l rest ih =>
    obtain ⟨moves, hmoves⟩ := ih (p := { p.put i rest with held := p.held.erase l })
      (put_self ht _) hends
    refine ⟨i :: moves, ?_⟩
    rw [run_cons, move_of_taken ht]
    refine hmoves.trans ?_
    rw [put_tasks, List.set_set]
    rfl

/-- A pool in which some tasks are over, and the others are still to be taken. -/
def halfway (results : List α) (work : List (Work α)) (s : σ) : Pool σ α :=
  ⟨results.map finished ++ work.map (⟨false, ·⟩), [], s⟩

theorem halfway_getElem? (results : List α) (w : Work α) (more : List (Work α)) (s : σ) :
    (halfway results (w :: more) s).tasks[results.length]? = some ⟨false, w⟩ := by
  simp [halfway]

theorem halfway_put (results : List α) (w rest : Work α) (more : List (Work α)) (s : σ) :
    ((halfway results (w :: more) s).put results.length rest).tasks =
      results.map finished ++ ⟨true, rest⟩ :: more.map (⟨false, ·⟩) := by
  simp [halfway, put]

theorem halfway_move (hworkers : 0 < workers) (results : List α) (w : Work α)
    (more : List (Work α)) (s : σ) :
    (halfway results (w :: more) s).move does workers results.length =
      (halfway results (w :: more) s).put results.length w := by
  have hidle : (halfway results (w :: more) s).tasks.countP Task.isBusy = 0 := by
    simp [halfway, List.countP_eq_zero, Task.isBusy, finished, Work.result?]
  have htaken :
      ((halfway results (w :: more) s).tasks.take results.length).all (·.taken) = true := by
    simp [halfway, finished]
  have hcan : (halfway results (w :: more) s).canTake workers results.length = true := by
    rw [canTake, hidle, htaken, decide_eq_true hworkers, Bool.or_true, Bool.and_true]
  rw [move, halfway_getElem?]
  exact (if_neg Bool.false_ne_true).trans (if_pos hcan)

/-- With any number of workers the tasks can take turns. -/
theorem exists_moves_runAll (does : (d : Deed) → StateM σ d.Answer) (hworkers : 0 < workers)
    {work : List (Work α)} (hends : ∀ w ∈ work, w.Ends [] []) (s : σ) :
    ∃ moves, (start work s).run does workers moves =
      ⟨(runAll does work s).1.map finished, [], (runAll does work s).2⟩ := by
  suffices h : ∀ results, ∃ moves, (halfway results work s).run does workers moves =
      ⟨(results ++ (runAll does work s).1).map finished, [], (runAll does work s).2⟩ from h []
  induction work generalizing s with
  | nil =>
    refine fun results => ⟨[], ?_⟩
    show halfway results [] s = ⟨(results ++ []).map finished, [], s⟩
    rw [halfway, List.map_nil, List.append_nil, List.append_nil]
  | cons w more ih =>
    intro results
    obtain ⟨hw, hmore⟩ := List.forall_mem_cons.mp hends
    obtain ⟨moves, hmoves⟩ := exists_moves_task does workers
      (put_self (halfway_getElem? results w more s) w) hw
    obtain ⟨later, hlater⟩ := ih hmore (w.run does s).2 (results ++ [(w.run does s).1])
    refine ⟨results.length :: (moves ++ later), ?_⟩
    have hnext : (⟨((halfway results (w :: more) s).put results.length w).tasks.set results.length
        (finished (w.run does s).1), [], (w.run does s).2⟩ : Pool σ α) =
        halfway (results ++ [(w.run does s).1]) more (w.run does s).2 := by
      rw [halfway_put]
      simp [halfway]
    rw [run_cons, halfway_move hworkers, run_append, hmoves, put_world]
    refine (congrArg (fun p => p.run does workers later) hnext).trans (hlater.trans ?_)
    rw [List.append_assoc]
    rfl

end FaultDrill.Pool
