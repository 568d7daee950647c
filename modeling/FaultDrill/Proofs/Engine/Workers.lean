import FaultDrill.Engine.Workers
import FaultDrill.Proofs.Engine.Turn
import FaultDrill.Proofs.Pool.Turns
/-!
# Turns beside turns

The work of a turn, done without a break, is the turn (`work_run`). So a cycle whose groups take
turns is one of the runs of its pool (`exists_moves_cycle`), and the only one if there is but one
worker (`cycleBy_of_alone`). Beside other turns, too, a turn calls and adds only where its draws
license it (`licensed`), and it goes in one of two ways: it makes no call and adds no event, or what
it does last is to add the event of an attempt (`Went`).
-/
namespace FaultDrill

open Work

/-! ## Without a break -/

theorem Attempt.scriptWork_run (e : Engine σ) (id : String) (script : Script) (s : σ) :
    (scriptWork id script).run e.does s = runScript e.client id script s := by
  have hasked : (Work.credentials id).run e.does s = e.client.credentials id s := rfl
  rw [scriptWork, run_bind, hasked, runScript, bind_run]
  cases (e.client.credentials id s).1 with
  | error why => rfl
  | ok c => cases hc : c.isEnabled <;> simp [hc] <;> rfl

theorem Attempt.work_run (e : Engine σ) (fallback : Option Script) (id : String) (d : Disruption)
    (s : σ) : (work fallback id d).run e.does s = perform e.client fallback id d s := by
  cases d with
  | script script => exact scriptWork_run e id script s
  | terminate =>
    have hended : (Work.terminate id).run e.does s = e.client.terminate id s := rfl
    rw [work, terminateWork, run_bind, hended, perform, terminate, bind_run]
    cases (e.client.terminate id s).1 with
    | ok _ => rfl
    | error why =>
      cases why with
      | unsupported backend operation =>
        cases fallback with
        | none => rfl
        | some script => exact scriptWork_run e id script _
      | _ => rfl

namespace Engine

variable {e : Engine σ} {now : Instant} {g : Group} {seed : UInt64}

theorem disruptWork_run (e : Engine σ) (now : Instant) (g : Group) (id : String) (s : σ) :
    (e.disruptWork now g id).run e.does s = e.disrupt now g id s := by
  have hrun : (e.disruptWork now g id).run e.does s =
      ((e.appended now g id s).1.map fun _ => .disrupted id (e.recorded now g id s).1.outcome,
        (e.appended now g id s).2) := by
    rw [disruptWork, run_bind, run_holding, Attempt.work_run]
    rfl
  rw [hrun, disrupt_of_appended]
  cases (e.appended now g id s).1 <;> rfl

theorem actWork_run (e : Engine σ) (now : Instant) (g : Group) (drawn : Draw.Selection) (s : σ) :
    (e.actWork now g drawn).run e.does s = e.actOn now g drawn s := by
  cases drawn with
  | passed roll => rfl
  | nobody => rfl
  | member id =>
    rw [actWork, actOn]
    split
    · rfl
    · exact disruptWork_run e now g id s

theorem askWork_run {s : σ} (h : e.Asks g s) (now : Instant) (seed : UInt64) :
    (e.askWork now g seed).run e.does (e.elapsed s).2 = e.judge now g seed s := by
  have hasked : (Work.ask g.name (windowStart now e.config.window)).run e.does (e.elapsed s).2 =
    e.asked now g s := rfl
  rw [askWork, run_bind, hasked, judge_of_asks h]
  cases (e.asked now g s).1 with
  | error why => rfl
  | ok hit =>
    cases hit with
    | true => rfl
    | false => exact actWork_run ..

theorem judgeWork_run (e : Engine σ) (now : Instant) (g : Group) (seed : UInt64) (s : σ) :
    (e.judgeWork now g seed).run e.does s = e.judge now g seed s := by
  have hclock : Work.clock.run e.does s = e.elapsed s := rfl
  rw [judgeWork, run_bind, hclock, ← deadline]
  by_cases hlate : e.deadline ≤ (e.elapsed s).1
  · rw [if_pos hlate, judge_of_late hlate]
    rfl
  have htime := Nat.lt_of_not_le hlate
  rw [if_neg hlate]
  cases henabled : e.config.groupEnabled g.name with
  | false =>
    rw [judge_of_disabled htime henabled]
    rfl
  | true =>
    rw [if_neg (by decide)]
    cases hempty : g.isEmpty with
    | true =>
      rw [judge_of_empty htime henabled hempty]
      rfl
    | false =>
      rw [if_neg Bool.false_ne_true, run_holding, askWork_run ⟨htime, henabled, hempty⟩]

/-- Without a break the work of a turn is the turn. -/
theorem work_run (e : Engine σ) (now : Instant) (turn : Group × UInt64) (s : σ) :
    (e.work now turn).run e.does s = e.evaluate now turn.1 turn.2 s := by
  rw [work, run_bind, judgeWork_run, evaluate, bind_run]
  cases (e.judge now turn.1 turn.2 s).1 <;> rfl

theorem runAll_work (e : Engine σ) (now : Instant) (seeded : List (Group × UInt64)) (s : σ) :
    Pool.runAll e.does (seeded.map (e.work now)) s = e.evaluateAll now seeded s := by
  induction seeded generalizing s with
  | nil => rfl
  | cons turn more ih =>
    rw [List.map_cons, Pool.runAll_cons, work_run, ih, evaluateAll_cons]

/-! ## Cycles of a pool -/

theorem cycleBy_of_crawl_error {moves : List Nat} {r : Running σ} {why : Fault}
    (h : (e.crawled r.world).1 = .error why) :
    e.cycleBy moves now r = (some (.error why), ⟨r.draws, (e.crawled r.world).2⟩) := by
  rw [cycleBy, bind_run, opening_of_crawl_error h]
  rfl

/-- The pool of a cycle. -/
def cyclePool (e : Engine σ) (now : Instant) (r : Running σ) (groups : List Group) :
    Pool σ (Except Fault GroupReport) :=
  e.pool now (e.seeded r.draws groups) (e.crawled r.world).2

/-- The task of a listed group has the group's position. -/
theorem exists_work (e : Engine σ) (now : Instant) (r : Running σ) {groups : List Group} {i : Nat}
    (hg : (e.listed groups)[i]? = some g) :
    ∃ seed, ((e.seeded r.draws groups).map (e.work now))[i]? = some (e.work now (g, seed)) := by
  rw [← seeded_groups e r.draws groups, List.getElem?_map, Option.map_eq_some_iff] at hg
  obtain ⟨⟨g', seed⟩, hturn, rfl⟩ := hg
  exact ⟨seed, by rw [List.getElem?_map, hturn]; rfl⟩

/-- The deeds of a cycle's turns in their order, each with the position of its group among the
listed ones. -/
def deeds (e : Engine σ) (moves : List Nat) (now : Instant) (r : Running σ) :
    List (Nat × Step σ) :=
  match (e.crawled r.world).1 with
  | .error _ => []
  | .ok groups => (e.cyclePool now r groups).steps e.does e.workers moves

theorem deeds_of_crawl_ok {moves : List Nat} {r : Running σ} {groups : List Group}
    (hc : (e.crawled r.world).1 = .ok groups) :
    e.deeds moves now r = (e.cyclePool now r groups).steps e.does e.workers moves := by
  rw [deeds, hc]

theorem deeds_of_crawl_error {moves : List Nat} {r : Running σ} {why : Fault}
    (hc : (e.crawled r.world).1 = .error why) : e.deeds moves now r = [] := by
  rw [deeds, hc]

theorem evaluateBy_run (e : Engine σ) (moves : List Nat) (now : Instant) (r : Running σ)
    (groups : List Group) :
    Running.onWorld (e.evaluateBy moves now (e.seeded r.draws groups)) (e.opened r groups) =
      (((e.cyclePool now r groups).run e.does e.workers moves).results?,
        ⟨(e.opened r groups).draws,
          ((e.cyclePool now r groups).run e.does e.workers moves).world⟩) := rfl

theorem cycleBy_of_unfinished {moves : List Nat} {r : Running σ} {groups : List Group}
    (hc : (e.crawled r.world).1 = .ok groups)
    (h : ((e.cyclePool now r groups).run e.does e.workers moves).results? = none) :
    e.cycleBy moves now r = (none, ⟨(e.opened r groups).draws,
      ((e.cyclePool now r groups).run e.does e.workers moves).world⟩) := by
  rw [cycleBy, bind_run, opening_of_crawl_ok hc]
  simp only [bind_run, evaluateBy_run, h]
  rfl

theorem cycleBy_of_results {moves : List Nat} {r : Running σ} {groups : List Group}
    {results : List (Except Fault GroupReport)} (hc : (e.crawled r.world).1 = .ok groups)
    (h : ((e.cyclePool now r groups).run e.does e.workers moves).results? = some results) :
    e.cycleBy moves now r =
      let (result, r) := e.closing now results ⟨(e.opened r groups).draws,
        ((e.cyclePool now r groups).run e.does e.workers moves).world⟩
      (some result, r) := by
  rw [cycleBy, bind_run, opening_of_crawl_ok hc]
  simp only [bind_run, evaluateBy_run, h]
  rfl

theorem cycle_of_turns {r : Running σ} {groups : List Group}
    (hc : (e.crawled r.world).1 = .ok groups) :
    e.cycle now r =
      e.closing now (e.evaluateAll now (e.seeded r.draws groups) (e.crawled r.world).2).1
        ⟨(e.opened r groups).draws,
          (e.evaluateAll now (e.seeded r.draws groups) (e.crawled r.world).2).2⟩ := by
  rw [cycle, bind_run, opening_of_crawl_ok hc]
  rfl

/-- Where the results and the world are those of turns, the cycle is that of turns. -/
theorem cycleBy_of_turns {moves : List Nat} {r : Running σ} {groups : List Group}
    {results : List (Except Fault GroupReport)} (hc : (e.crawled r.world).1 = .ok groups)
    (h : ((e.cyclePool now r groups).run e.does e.workers moves).results? = some results)
    (hturns : e.evaluateAll now (e.seeded r.draws groups) (e.crawled r.world).2 =
      (results, ((e.cyclePool now r groups).run e.does e.workers moves).world)) :
    e.cycleBy moves now r = (some (e.cycle now r).1, (e.cycle now r).2) := by
  rw [cycleBy_of_results hc h, cycle_of_turns hc, hturns]
  rfl

/-- The only worker lets the groups take turns. -/
theorem cycleBy_of_alone (h : e.config.maxConcurrency ≤ 1) {moves : List Nat} {r : Running σ}
    {result : Except Fault CycleReport} (hresult : (e.cycleBy moves now r).1 = some result) :
    e.cycleBy moves now r = (some (e.cycle now r).1, (e.cycle now r).2) := by
  cases hc : (e.crawled r.world).1 with
  | error why => rw [cycleBy_of_crawl_error hc, cycle_of_crawl_error hc]
  | ok groups =>
    cases hresults : ((e.cyclePool now r groups).run e.does e.workers moves).results? with
    | none => exact nomatch (fst_of_eq (cycleBy_of_unfinished hc hresults)).symm.trans hresult
    | some results =>
      refine cycleBy_of_turns hc hresults ?_
      have hone : e.workers = 1 := by rw [workers]; omega
      rw [hone] at hresults ⊢
      rw [← runAll_work]
      exact Pool.runAll_of_alone hresults

/-! ## Attempts -/

/-- An attempt needs no lock, and all it does is to call about the instance. -/
theorem attempt_plain (fallback : Option Script) (id : String) (d : Disruption) :
    (Attempt.work fallback id d).Plain fun d => d.callee? = some id := by
  have hscript (script : Script) :
      (Attempt.scriptWork id script).Plain fun d => d.callee? = some id := by
    refine Plain.deed_bind rfl fun found => ?_
    cases found with
    | error why => trivial
    | ok c =>
      dsimp only
      split
      · trivial
      · exact Plain.deed_bind rfl fun _ => trivial
  cases d with
  | script script => exact hscript script
  | terminate =>
    refine Plain.deed_bind rfl fun ended => ?_
    cases ended with
    | ok _ => trivial
    | error why =>
      dsimp only
      split
      · exact hscript _
      · trivial

/-! ## Locks -/

theorem actWork_ends (e : Engine σ) (now : Instant) (g : Group) (drawn : Draw.Selection)
    (name : String) : Ends [.group name] [.group name] (e.actWork now g drawn) := by
  cases drawn with
  | passed roll => rfl
  | nobody => rfl
  | member id =>
    refine .ite rfl ?_
    refine (Ends.holding (by simp) (.of_plain (attempt_plain ..) _)).bind fun attempt => ?_
    exact Ends.deed_bind fun n => Ends.deed_bind fun answer => rfl

theorem judgeWork_ends (e : Engine σ) (now : Instant) (g : Group) (seed : UInt64) :
    Ends [] [] (e.judgeWork now g seed) := by
  refine Ends.deed_bind fun n => ?_
  refine .ite rfl (.ite rfl (.ite rfl (Ends.holding (by simp) ?_)))
  refine Ends.deed_bind fun answer => ?_
  cases answer with
  | error why => rfl
  | ok hit =>
    cases hit with
    | true => rfl
    | false => exact actWork_ends ..

/-- A turn gives back the locks that it takes. -/
theorem work_ends (e : Engine σ) (now : Instant) (turn : Group × UInt64) :
    Ends [] [] (e.work now turn) := by
  refine (judgeWork_ends e now turn.1 turn.2).bind fun verdict => ?_
  cases verdict <;> rfl

/-- With any number of workers the groups can take turns. -/
theorem exists_moves_cycle (e : Engine σ) (now : Instant) (r : Running σ) :
    ∃ moves, e.cycleBy moves now r = (some (e.cycle now r).1, (e.cycle now r).2) := by
  cases hc : (e.crawled r.world).1 with
  | error why => exact ⟨[], by rw [cycleBy_of_crawl_error hc, cycle_of_crawl_error hc]⟩
  | ok groups =>
    have hends : ∀ w ∈ (e.seeded r.draws groups).map (e.work now), w.Ends [] [] :=
      List.forall_mem_map.mpr fun turn _ => work_ends e now turn
    have hworkers : 0 < e.workers := Nat.le_max_left ..
    obtain ⟨moves, hmoves⟩ :=
      Pool.exists_moves_runAll e.does hworkers hends (e.crawled r.world).2
    rw [runAll_work] at hmoves
    have hpool : (e.cyclePool now r groups).run e.does e.workers moves = _ := hmoves
    generalize hall : e.evaluateAll now (e.seeded r.draws groups) (e.crawled r.world).2 = all at hpool
    obtain ⟨results, world⟩ := all
    have hresults : ((e.cyclePool now r groups).run e.does e.workers moves).results? =
        some results := by
      rw [hpool, Pool.results?_eq_some_iff, List.map_map]
      rfl
    exact ⟨moves, cycleBy_of_turns hc hresults (hpool ▸ hall)⟩

/-- A cycle for which moves are given is one of the cycles of the pool, whatever the moves. -/
theorem exists_moves_cycleAs (e : Engine σ) (moves : List Nat) (now : Instant) (r : Running σ) :
    ∃ moves', e.cycleBy moves' now r =
      (some (e.cycleAs moves now r).1, (e.cycleAs moves now r).2) := by
  rw [cycleAs]
  cases h : e.cycleBy moves now r with
  | mk result r' =>
    cases result with
    | none => exact exists_moves_cycle e now r
    | some result => exact ⟨moves, h⟩

/-! ## The deeds of a turn -/

theorem isAppend_of_callee? {d : Deed} {id : String} (h : d.callee? = some id) :
    d.isAppend = false := by
  cases d with
  | append ev => cases h
  | _ => rfl

/-- Where somebody is called or an event is added, the group is enabled, the engine is not leashed,
and a member was drawn; calls are about this member. -/
def Licenses (e : Engine σ) (g : Group) (seed : UInt64) (d : Deed) : Prop :=
  d.isCall = true ∨ d.isAppend = true → e.config.groupEnabled g.name = true ∧
    e.config.leashed = false ∧ ∃ id, e.drawn g seed = .member id ∧
      ∀ callee, d.callee? = some callee → callee = id

theorem licenses_of_quiet {d : Deed} (hcall : d.isCall = false) (happend : d.isAppend = false) :
    e.Licenses g seed d := by
  rw [Licenses, hcall, happend]
  nofun

theorem disruptWork_only {id : String} (henabled : e.config.groupEnabled g.name = true)
    (hleashed : e.config.leashed = false) (hdrawn : e.drawn g seed = .member id) :
    (e.disruptWork now g id).Only (e.Licenses g seed) := by
  refine Only.bind (Only.holding ((attempt_plain ..).only.mono fun d hd _ => ?_)) fun attempt => ?_
  · refine ⟨henabled, hleashed, id, hdrawn, fun callee hcallee => ?_⟩
    exact Option.some.inj (hcallee.symm.trans hd)
  · refine Only.deed_bind (licenses_of_quiet rfl rfl) fun n => Only.deed_bind ?_ fun _ => trivial
    exact fun _ => ⟨henabled, hleashed, id, hdrawn, nofun⟩

theorem actWork_only (henabled : e.config.groupEnabled g.name = true) :
    (e.actWork now g (e.drawn g seed)).Only (e.Licenses g seed) := by
  cases hdrawn : e.drawn g seed with
  | passed roll => trivial
  | nobody => trivial
  | member id =>
    rw [actWork]
    split
    · trivial
    · exact disruptWork_only henabled (eq_false_of_ne_true ‹_›) hdrawn

/-- All deeds of a turn are licensed, whatever the others do. -/
theorem judgeWork_only (e : Engine σ) (now : Instant) (g : Group) (seed : UInt64) :
    (e.judgeWork now g seed).Only (e.Licenses g seed) := by
  refine Only.deed_bind (licenses_of_quiet rfl rfl) fun n => Only.ite trivial ?_
  cases henabled : e.config.groupEnabled g.name with
  | false => trivial
  | true =>
    refine Only.ite trivial (Only.ite trivial (Only.holding ?_))
    refine Only.deed_bind (licenses_of_quiet rfl rfl) fun answer => ?_
    cases answer with
    | error why => trivial
    | ok hit =>
      cases hit with
      | true => trivial
      | false => exact actWork_only henabled

theorem work_only (e : Engine σ) (now : Instant) (turn : Group × UInt64) :
    (e.work now turn).Only (e.Licenses turn.1 turn.2) := by
  refine (judgeWork_only e now turn.1 turn.2).bind fun verdict => ?_
  cases verdict <;> trivial

/-- The deeds of a cycle are licensed by their turns, however the workers move. -/
theorem licensed {moves : List Nat} {r : Running σ} {groups : List Group}
    (hc : (e.crawled r.world).1 = .ok groups) {i : Nat} {turn : Group × UInt64}
    (hturn : (e.seeded r.draws groups)[i]? = some turn) :
    ∀ st ∈ Pool.own i (e.deeds moves now r), e.Licenses turn.1 turn.2 st.deed := by
  have hwork : ((e.seeded r.draws groups).map (e.work now))[i]? = some (e.work now turn) := by
    rw [List.getElem?_map, hturn]
    rfl
  rw [← Pool.start_tasks ((e.seeded r.draws groups).map (e.work now)) (e.crawled r.world).2,
    List.getElem?_map, Option.map_eq_some_iff] at hwork
  obtain ⟨t, ht, hrest⟩ := hwork
  rw [deeds_of_crawl_ok hc]
  refine Pool.own_only (P := e.Licenses turn.1 turn.2) ht ?_
  rw [hrest]
  exact work_only e now turn

/-! ## Beside others -/

/-- How a turn may go beside others: what it does and its verdict. -/
inductive Went (e : Engine σ) (g : Group) : List (Step σ) → Except Fault Verdict → Prop where
  /-- Nobody is called, and no event is added. -/
  | idle {steps : List (Step σ)} {verdict : Except Fault Verdict}
    (hsteps : ∀ st ∈ steps, st.deed.isCall = false ∧ st.deed.isAppend = false)
    (hverdict : ∀ id outcome, verdict ≠ .ok (.disrupted id outcome)) : Went e g steps verdict
  /-- The event of an attempt is what is added last. -/
  | acted {before : List (Step σ)} {ev : Event} {s : σ}
    (hbefore : ∀ st ∈ before, st.deed.isAppend = false)
    (hgroup : ev.group = g.name) (hkind : ev.kind = g.kind) :
    Went e g (before ++ [⟨.append ev, s⟩])
      ((e.log.append ev s).1.map fun _ => .disrupted ev.instanceId ev.outcome)

theorem Went.cons {d : Deed} {s : σ} {steps : List (Step σ)} {verdict : Except Fault Verdict}
    (hcall : d.isCall = false) (happend : d.isAppend = false) (h : e.Went g steps verdict) :
    e.Went g (⟨d, s⟩ :: steps) verdict := by
  cases h with
  | idle hsteps hverdict =>
    exact .idle (List.forall_mem_cons.mpr ⟨⟨hcall, happend⟩, hsteps⟩) hverdict
  | acted hbefore hgroup hkind =>
    exact .acted (List.forall_mem_cons.mpr ⟨happend, hbefore⟩) hgroup hkind

section Went

variable {steps : List (Step σ)} {verdict : Except Fault Verdict}

theorem Went.of_done {v : Except Fault Verdict} (h : Comes e.does (.done v) steps verdict)
    (hv : ∀ id outcome, v ≠ .ok (.disrupted id outcome)) : e.Went g steps verdict := by
  obtain ⟨rfl, rfl⟩ := h.of_done
  exact .idle (fun _ h => nomatch h) hv

theorem went_disrupt {id : String} (h : (e.disruptWork now g id).Comes e.does steps verdict) :
    e.Went g steps verdict := by
  obtain ⟨attempt, tried, more, rfl, htried, hmore⟩ := h.of_bind
  obtain ⟨s, more, rfl, hlater⟩ := hmore.of_deed_bind
  obtain ⟨s', more, rfl, hlast⟩ := hlater.of_deed_bind
  have hcalls := (attempt_plain ..).only.of_comes htried.of_holding
  have hbefore : ∀ st ∈ tried ++ [⟨.clock, s⟩], st.deed.isAppend = false :=
    List.forall_mem_append.mpr ⟨fun st hst => isAppend_of_callee? (hcalls st hst),
      List.forall_mem_singleton.mpr rfl⟩
  obtain ⟨rfl, rfl⟩ := hlast.of_done
  rw [List.append_cons]
  exact .acted hbefore rfl rfl

theorem went_act {drawn : Draw.Selection}
    (h : (e.actWork now g drawn).Comes e.does steps verdict) : e.Went g steps verdict := by
  cases drawn with
  | passed roll => exact .of_done h nofun
  | nobody => exact .of_done h nofun
  | member id =>
    rw [actWork] at h
    split at h
    · exact .of_done h nofun
    · exact went_disrupt h

theorem went_ask (h : (e.askWork now g seed).Comes e.does steps verdict) :
    e.Went g steps verdict := by
  obtain ⟨s, more, rfl, hmore⟩ := h.of_deed_bind
  refine .cons rfl rfl ?_
  generalize (e.does (.ask g.name (windowStart now e.config.window)) s).1 = answer at hmore
  cases answer with
  | error why => exact .of_done hmore nofun
  | ok hit =>
    cases hit with
    | true => exact .of_done hmore nofun
    | false => exact went_act hmore

/-- A turn beside others. -/
theorem went (h : (e.judgeWork now g seed).Comes e.does steps verdict) :
    e.Went g steps verdict := by
  obtain ⟨s, more, rfl, hmore⟩ := h.of_deed_bind
  refine .cons rfl rfl ?_
  split at hmore
  · exact .of_done hmore nofun
  · split at hmore
    · exact .of_done hmore nofun
    · split at hmore
      · exact .of_done hmore nofun
      · exact went_ask hmore.of_holding

end Went

end Engine
end FaultDrill
