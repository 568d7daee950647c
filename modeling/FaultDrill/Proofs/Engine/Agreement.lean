import FaultDrill.Proofs.Engine.Account
import FaultDrill.Proofs.Engine.Workers
/-!
# Reports and ledgers

What a cycle with any number of workers reports and what it adds to the ledger. The report goes by
the positions of the groups, so it is in the order of the crawl whatever the workers do. The ledger
grows in the order in which the log takes the events. Both tell of the same disruptions, and of the
same order where there is one worker only (`cycleBy_accounts`).
-/
namespace FaultDrill.Engine

open Work

variable {e : Engine σ} {ledger : σ → List Event} {moves : List Nat} {now : Instant} {g : Group}
  {i : Nat}

/-! ## Events that the log takes -/

/-- The event that the log takes with a deed, if it takes one. -/
def taken? (e : Engine σ) (st : Step σ) : Option Event :=
  match st.deed with
  | .append ev =>
    match (e.log.append ev st.world).1 with
    | .ok () => some ev
    | .error _ => none
  | _ => none

theorem taken?_of_ok {ev : Event} {s : σ} (h : (e.log.append ev s).1 = .ok ()) :
    e.taken? ⟨.append ev, s⟩ = some ev := by
  simp only [taken?, h]

theorem taken?_of_error {ev : Event} {s : σ} {why : Fault}
    (h : (e.log.append ev s).1 = .error why) : e.taken? ⟨.append ev, s⟩ = none := by
  simp only [taken?, h]

theorem taken?_of_not_append {st : Step σ} (h : st.deed.isAppend = false) : e.taken? st = none := by
  obtain ⟨d, s⟩ := st
  cases d with
  | append ev => cases h
  | _ => rfl

theorem taken?_eq_some_iff {st : Step σ} {ev : Event} :
    e.taken? st = some ev ↔ st.deed = .append ev ∧ (e.log.append ev st.world).1 = .ok () := by
  constructor
  · intro h
    obtain ⟨d, s⟩ := st
    cases d with
    | append ev' =>
      cases happend : (e.log.append ev' s).1 with
      | ok _ =>
        obtain rfl := Option.some.inj ((taken?_of_ok happend).symm.trans h)
        exact ⟨rfl, happend⟩
      | error why => exact nomatch (taken?_of_error happend).symm.trans h
    | _ => exact nomatch h
  · obtain ⟨d, s⟩ := st
    rintro ⟨rfl, hok⟩
    exact taken?_of_ok hok

theorem filterMap_taken? {steps : List (Step σ)} (h : ∀ st ∈ steps, st.deed.isAppend = false) :
    steps.filterMap e.taken? = [] :=
  List.filterMap_eq_nil_iff.mpr fun st hst => taken?_of_not_append (h st hst)

/-- A deed that adds no event leaves the ledger alone. -/
theorem ledger_does_of_not_append (h : e.Adds ledger) {st : Step σ}
    (hdeed : st.deed.isAppend = false) : ledger (e.does st.deed st.world).2 = ledger st.world := by
  obtain ⟨d, s⟩ := st
  cases d with
  | clock => exact h.elapsed s
  | ask group start => exact h.asking group start s
  | append ev => cases hdeed
  | terminate id => exact h.client.terminate id s
  | credentials id => exact h.client.credentials id s
  | runScript id c script => exact h.client.runScript id c script s

/-- The ledger grows by the event that the log takes, if the log leaves it alone otherwise. -/
theorem ledger_does (h : e.Adds ledger) {st : Step σ}
    (hrejects : ∀ ev why, st.deed = .append ev → (e.log.append ev st.world).1 = .error why →
      ledger (e.log.append ev st.world).2 = ledger st.world) :
    ledger (e.does st.deed st.world).2 = ledger st.world ++ (e.taken? st).toList := by
  cases hdeed : st.deed.isAppend with
  | false =>
    rw [ledger_does_of_not_append h hdeed, taken?_of_not_append hdeed, Option.toList_none,
      List.append_nil]
  | true =>
    obtain ⟨d, s⟩ := st
    cases d with
    | append ev =>
      cases happend : (e.log.append ev s).1 with
      | ok _ =>
        rw [taken?_of_ok happend]
        exact h.append_ok ev s happend
      | error why =>
        rw [taken?_of_error happend, Option.toList_none, List.append_nil]
        exact hrejects ev why rfl happend
    | _ => cases hdeed

/-! ## Turns beside others -/

namespace Went

variable {steps : List (Step σ)} {verdict : Except Fault Verdict}

/-- A turn has at most one event. -/
theorem length_taken (h : e.Went g steps verdict) : (steps.filterMap e.taken?).length ≤ 1 := by
  cases h with
  | idle hsteps =>
    rw [filterMap_taken? fun st hst => (hsteps st hst).2]
    exact Nat.zero_le 1
  | acted hbefore =>
    rw [List.filterMap_append, filterMap_taken? hbefore]
    exact List.length_filterMap_le ..

/-- It is an event of the turn's group. -/
theorem named (h : e.Went g steps verdict) {st : Step σ} (hst : st ∈ steps) {ev : Event}
    (htaken : e.taken? st = some ev) : ev.group = g.name ∧ ev.kind = g.kind := by
  have happend : st.deed = .append ev := (taken?_eq_some_iff.mp htaken).1
  cases h with
  | idle hsteps =>
    have hdeed := (hsteps st hst).2
    rw [happend] at hdeed
    cases hdeed
  | acted hbefore hgroup hkind =>
    rcases List.mem_append.mp hst with hst | hst
    · have hdeed := hbefore st hst
      rw [happend] at hdeed
      cases hdeed
    · obtain rfl := List.mem_singleton.mp hst
      cases happend
      exact ⟨hgroup, hkind⟩

/-- Where there is a verdict, the log has taken the event of the attempt. -/
theorem of_ok {v : Verdict} (h : e.Went g steps (.ok v)) :
    ((∀ st ∈ steps, st.deed.isCall = false ∧ st.deed.isAppend = false) ∧
        ∀ id outcome, v ≠ .disrupted id outcome) ∨
      ∃ before ev s, steps = before ++ [⟨.append ev, s⟩] ∧
        (∀ st ∈ before, st.deed.isAppend = false) ∧ ev.group = g.name ∧ ev.kind = g.kind ∧
        (e.log.append ev s).1 = .ok () ∧ v = .disrupted ev.instanceId ev.outcome := by
  generalize hverdict : Except.ok v = verdict at h
  cases h with
  | idle hsteps hother =>
    exact .inl ⟨hsteps, fun id outcome hv => hother id outcome (hverdict ▸ congrArg _ hv)⟩
  | @acted before ev s hbefore hgroup hkind =>
    cases happend : (e.log.append ev s).1 with
    | error why =>
      rw [happend] at hverdict
      cases hverdict
    | ok _ =>
      rw [happend] at hverdict
      cases hverdict
      exact .inr ⟨before, ev, s, rfl, hbefore, hgroup, hkind, happend, rfl⟩

/-- The event of a turn is the one that the verdict tells of. -/
theorem headline {v : Verdict} (h : e.Went g steps (.ok v)) (n : Nat) :
    (steps.filterMap e.taken?).map Event.headline =
      (GroupReport.headline? ⟨g.name, g.kind, n, v⟩).toList := by
  obtain ⟨hsteps, hother⟩ | ⟨before, ev, s, rfl, hbefore, hgroup, hkind, hok, rfl⟩ := h.of_ok
  · rw [filterMap_taken? fun st hst => (hsteps st hst).2, GroupReport.headline?_eq_none hother]
    rfl
  · rw [List.filterMap_append, filterMap_taken? hbefore, List.filterMap_cons, taken?_of_ok hok,
      ← hgroup, ← hkind]
    rfl

/-- No event of a turn with a verdict was rejected. -/
theorem accepted {v : Verdict} (h : e.Went g steps (.ok v)) {st : Step σ} (hst : st ∈ steps)
    {ev : Event} (hdeed : st.deed = .append ev) : (e.log.append ev st.world).1 = .ok () := by
  have happend : st.deed.isAppend = true := by rw [hdeed]; rfl
  obtain ⟨hsteps, -⟩ | ⟨before, ev', s, rfl, hbefore, -, -, hok, -⟩ := h.of_ok
  · exact nomatch happend.symm.trans (hsteps st hst).2
  · rcases List.mem_append.mp hst with hst | hst
    · exact nomatch happend.symm.trans (hbefore st hst)
    · obtain rfl := List.mem_singleton.mp hst
      cases hdeed
      exact hok

/-- A turn whose verdict is no disruption calls nobody and adds nothing. -/
theorem quiet {v : Verdict} (h : e.Went g steps (.ok v))
    (hother : ∀ id outcome, v ≠ .disrupted id outcome) :
    ∀ st ∈ steps, st.deed.isCall = false ∧ st.deed.isAppend = false := by
  obtain ⟨hsteps, -⟩ | ⟨before, ev, s, -, -, -, -, -, hv⟩ := h.of_ok
  · exact hsteps
  · exact absurd hv (hother _ _)

end Went

/-! ## The turns of a pool -/

/-- What is reported of a group, if there is a verdict. -/
def reportOn (g : Group) (verdict : Except Fault Verdict) : Except Fault GroupReport :=
  verdict.map (⟨g.name, g.kind, g.members.length, ·⟩)

theorem work_comes {turn : Group × UInt64} {steps : List (Step σ)}
    {result : Except Fault GroupReport} (h : (e.work now turn).Comes e.does steps result) :
    ∃ verdict, e.Went turn.1 steps verdict ∧ result = reportOn turn.1 verdict := by
  obtain ⟨verdict, first, more, rfl, hfirst, hmore⟩ := h.of_bind
  refine ⟨verdict, ?_⟩
  cases verdict with
  | ok v =>
    obtain ⟨rfl, rfl⟩ := hmore.of_done
    rw [List.append_nil]
    exact ⟨went hfirst, rfl⟩
  | error why =>
    obtain ⟨rfl, rfl⟩ := hmore.of_done
    rw [List.append_nil]
    exact ⟨went hfirst, rfl⟩

/-- The events that the log takes in a cycle, in the order in which it takes them, each with the
position of its group. -/
def entries (e : Engine σ) (moves : List Nat) (now : Instant) (r : Running σ) :
    List (Nat × Event) := Pool.gains e.taken? (e.deeds moves now r)

section Turns

variable {r : Running σ} {groups : List Group} {results : List (Except Fault GroupReport)}

/-- Every listed group has its turn beside the others, with a result at its position. -/
theorem went_of_results (hc : (e.crawled r.world).1 = .ok groups)
    (h : ((e.cyclePool now r groups).run e.does e.workers moves).results? = some results)
    (hg : (e.listed groups)[i]? = some g) :
    ∃ verdict, e.Went g (Pool.own i (e.deeds moves now r)) verdict ∧
      results[i]? = some (reportOn g verdict) := by
  obtain ⟨seed, hwork⟩ := exists_work e now r hg
  obtain ⟨result, hresult, hcomes⟩ := Pool.comes_of_results h hwork
  obtain ⟨verdict, hwent, rfl⟩ := work_comes hcomes
  rw [deeds_of_crawl_ok hc]
  exact ⟨verdict, hwent, hresult⟩

theorem lt_of_mem_deeds (hc : (e.crawled r.world).1 = .ok groups) {deed : Nat × Step σ}
    (h : deed ∈ e.deeds moves now r) : deed.1 < (e.listed groups).length := by
  rw [deeds_of_crawl_ok hc] at h
  have hlt := Pool.lt_of_mem_steps h
  rw [← seeded_groups e r.draws groups]
  simpa [cyclePool, pool, Pool.start] using hlt

theorem length_results (h : ((e.cyclePool now r groups).run e.does e.workers moves).results? =
    some results) : results.length = (e.listed groups).length := by
  have hrests := congrArg List.length (Pool.results?_eq_some_iff.mp h)
  rw [List.length_map, List.length_map, Pool.length_run] at hrests
  rw [← hrests, ← seeded_groups e r.draws groups]
  simp [cyclePool, pool, Pool.start]

/-- A cycle that is over: the results of its turns, and what its end makes of them. -/
theorem exists_results (hc : (e.crawled r.world).1 = .ok groups)
    {result : Except Fault CycleReport} (h : (e.cycleBy moves now r).1 = some result) :
    ∃ results, ((e.cyclePool now r groups).run e.does e.workers moves).results? = some results ∧
      (e.closing now results ⟨(e.opened r groups).draws,
        ((e.cyclePool now r groups).run e.does e.workers moves).world⟩) =
        (result, (e.cycleBy moves now r).2) := by
  cases hresults : ((e.cyclePool now r groups).run e.does e.workers moves).results? with
  | none => exact nomatch (fst_of_eq (cycleBy_of_unfinished hc hresults)).symm.trans h
  | some results =>
    refine ⟨results, rfl, ?_⟩
    rw [cycleBy_of_results hc hresults] at h ⊢
    exact Prod.ext (Option.some.inj h) rfl

theorem results_of_ok (hc : (e.crawled r.world).1 = .ok groups) {report : CycleReport}
    (h : (e.cycleBy moves now r).1 = some (.ok report)) :
    ((e.cyclePool now r groups).run e.does e.workers moves).results? =
      some (report.groups.map .ok) := by
  obtain ⟨results, hresults, hclosing⟩ := exists_results hc h
  rw [hresults]
  have hreport := fst_of_eq hclosing
  rw [closing_run] at hreport
  split at hreport
  · cases hreport
  · rename_i reports hall
    cases hreport
    rw [allOrFirst_eq_ok hall]

/-- What a report says at a position comes of the turn of the group there. -/
theorem reported_at (hc : (e.crawled r.world).1 = .ok groups) {report : CycleReport}
    (h : (e.cycleBy moves now r).1 = some (.ok report)) {rep : GroupReport}
    (hrep : report.groups[i]? = some rep) :
    ∃ g v, (e.listed groups)[i]? = some g ∧
      e.Went g (Pool.own i (e.deeds moves now r)) (.ok v) ∧
      rep = ⟨g.name, g.kind, g.members.length, v⟩ := by
  have hresults := results_of_ok hc h
  obtain ⟨hlt, -⟩ := List.getElem?_eq_some_iff.mp hrep
  have hlength := length_results hresults
  rw [List.length_map] at hlength
  have hg := List.getElem?_eq_getElem (hlength ▸ hlt)
  obtain ⟨verdict, hwent, hresult⟩ := went_of_results hc hresults hg
  rw [List.getElem?_map, hrep] at hresult
  cases verdict with
  | error why => cases hresult
  | ok v =>
    cases hresult
    exact ⟨_, v, hg, hwent, rfl⟩

/-! ## The ledger of a cycle -/

theorem ledger_closing (h : e.Adds ledger) (results : List (Except Fault GroupReport))
    (r : Running σ) : ledger (e.closing now results r).2.world = ledger r.world := by
  rw [closing_run]
  split
  · rfl
  · exact h.elapsed _

/-- The ledger grows by the events that the log takes. -/
theorem ledger_cycleBy (h : e.Adds ledger)
    (hrejects : ∀ deed ∈ e.deeds moves now r, ∀ ev why, deed.2.deed = .append ev →
      (e.log.append ev deed.2.world).1 = .error why →
      ledger (e.log.append ev deed.2.world).2 = ledger deed.2.world)
    {result : Except Fault CycleReport} (hresult : (e.cycleBy moves now r).1 = some result) :
    ledger (e.cycleBy moves now r).2.world =
      ledger r.world ++ (e.entries moves now r).map (·.2) := by
  have hcrawl : ledger (e.crawled r.world).2 = ledger r.world := h.crawl _ _
  cases hc : (e.crawled r.world).1 with
  | error why =>
    rw [cycleBy_of_crawl_error hc, entries, deeds_of_crawl_error hc]
    exact hcrawl.trans (List.append_nil _).symm
  | ok groups =>
    obtain ⟨results, -, hclosing⟩ := exists_results hc hresult
    rw [deeds_of_crawl_ok hc] at hrejects
    rw [← snd_of_eq hclosing, ledger_closing h, entries, deeds_of_crawl_ok hc, ← hcrawl]
    exact Pool.view_of_run fun deed hdeed => ledger_does h (hrejects deed hdeed)

end Turns

/-! ## Reports and ledgers -/

/-- A report and the ledger after its cycle tell the same. -/
structure Agree (e : Engine σ) (ledger : σ → List Event) (moves : List Nat) (now : Instant)
    (r : Running σ) (report : CycleReport) : Prop where
  /-- The report has one entry for each crawled group that the lists let through. -/
  subjects : ∃ groups, (e.crawl e.config.allow r.world).1 = .ok groups ∧
    report.groups.map GroupReport.subject =
      (groups.filter fun g => e.config.isListed g.name).map Group.subject
  /-- The ledger grows by the events that the log takes. -/
  events : ledger (e.cycleBy moves now r).2.world =
    ledger r.world ++ (e.entries moves now r).map (·.2)
  /-- These are one for each disruption that the report tells of. -/
  headlines : (((e.entries moves now r).map (·.2)).map Event.headline).Perm
    (report.groups.filterMap GroupReport.headline?)
  /-- A worker that is alone has them added in the order of the report. -/
  order : e.config.maxConcurrency ≤ 1 →
    ((e.entries moves now r).map (·.2)).map Event.headline =
      report.groups.filterMap GroupReport.headline?
  /-- Each has the position of its disruption. -/
  positions : ∀ i rep, report.groups[i]? = some rep →
    (((e.entries moves now r).filter (·.1 == i)).map (·.2)).map Event.headline =
      rep.headline?.toList
  /-- Turns without a disruption neither call nor add an event. -/
  others : ∀ i rep, report.groups[i]? = some rep →
    (∀ id outcome, rep.verdict ≠ .disrupted id outcome) →
      ∀ st ∈ Pool.own i (e.deeds moves now r), st.deed.isCall = false ∧ st.deed.isAppend = false

/-- What a cycle without a report leaves behind. -/
structure Unreported (e : Engine σ) (ledger : σ → List Event) (moves : List Nat) (now : Instant)
    (r : Running σ) : Prop where
  /-- The ledger grows by the events that the log takes. -/
  events : ledger (e.cycleBy moves now r).2.world =
    ledger r.world ++ (e.entries moves now r).map (·.2)
  /-- These are the events that turns have added with success. -/
  taken : ∀ i ev, (i, ev) ∈ e.entries moves now r ↔
    ∃ s, (i, ⟨.append ev, s⟩) ∈ e.deeds moves now r ∧ (e.log.append ev s).1 = .ok ()
  /-- No two are of the same position. -/
  distinct : ((e.entries moves now r).map (·.1)).Nodup
  /-- Each is of the group at its position among the crawled ones that the lists let through. -/
  named : ∀ i ev, (i, ev) ∈ e.entries moves now r → ∃ groups g,
    (e.crawl e.config.allow r.world).1 = .ok groups ∧
      (groups.filter fun g => e.config.isListed g.name)[i]? = some g ∧
      ev.group = g.name ∧ ev.kind = g.kind

section Agreement

variable {r : Running σ} {groups : List Group}

theorem mem_entries {ev : Event} :
    (i, ev) ∈ e.entries moves now r ↔
      ∃ s, (i, ⟨.append ev, s⟩) ∈ e.deeds moves now r ∧ (e.log.append ev s).1 = .ok () := by
  rw [entries, Pool.mem_gains]
  constructor
  · rintro ⟨⟨d, s⟩, hst, htaken⟩
    obtain ⟨rfl, hok⟩ := taken?_eq_some_iff.mp htaken
    exact ⟨s, hst, hok⟩
  · rintro ⟨s, hst, hok⟩
    exact ⟨_, hst, taken?_of_ok hok⟩

theorem filterMap_eq_flatMap_range {f : α → Option β} (l : List α) :
    l.filterMap f = (List.range l.length).flatMap fun i => (l[i]?.bind f).toList := by
  induction l with
  | nil => rfl
  | cons a l ih =>
    rw [List.length_cons, List.range_succ_eq_map, List.flatMap_cons, List.flatMap_map,
      List.filterMap_cons, ih]
    cases h : f a <;> simp [h]

/-- The events of a position are those that the report tells of there. -/
theorem headline_at (hc : (e.crawled r.world).1 = .ok groups) {report : CycleReport}
    (h : (e.cycleBy moves now r).1 = some (.ok report)) {rep : GroupReport}
    (hrep : report.groups[i]? = some rep) :
    ((Pool.own i (e.deeds moves now r)).filterMap e.taken?).map Event.headline =
      rep.headline?.toList := by
  obtain ⟨g, v, -, hwent, rfl⟩ := reported_at hc h hrep
  exact hwent.headline _

theorem subjects_of_report (hc : (e.crawled r.world).1 = .ok groups) {report : CycleReport}
    (h : (e.cycleBy moves now r).1 = some (.ok report)) :
    report.groups.map GroupReport.subject = (e.listed groups).map Group.subject := by
  have hlength := length_results (results_of_ok hc h)
  rw [List.length_map] at hlength
  refine List.ext_getElem? fun i => ?_
  rw [List.getElem?_map, List.getElem?_map]
  cases hrep : report.groups[i]? with
  | none =>
    rw [List.getElem?_eq_none_iff, hlength] at hrep
    rw [List.getElem?_eq_none hrep]
    rfl
  | some rep =>
    obtain ⟨g, v, hg, -, rfl⟩ := reported_at hc h hrep
    rw [hg]
    rfl

theorem headlines_of_report (hc : (e.crawled r.world).1 = .ok groups) {report : CycleReport}
    (h : (e.cycleBy moves now r).1 = some (.ok report)) :
    (((e.entries moves now r).map (·.2)).map Event.headline).Perm
      (report.groups.filterMap GroupReport.headline?) := by
  have hlength := length_results (results_of_ok hc h)
  rw [List.length_map] at hlength
  have hdeeds : ∀ deed ∈ e.deeds moves now r, deed.1 < report.groups.length :=
    fun deed hdeed => hlength ▸ lt_of_mem_deeds hc hdeed
  refine ((Pool.gains_perm hdeeds e.taken?).map Event.headline).trans (List.Perm.of_eq ?_)
  rw [List.map_flatMap, filterMap_eq_flatMap_range]
  refine List.flatMap_congr fun i hi => ?_
  have hrep := List.getElem?_eq_getElem (List.mem_range.mp hi)
  rw [headline_at hc h hrep, hrep]
  rfl

/-- In a cycle with a report the log took every event. -/
theorem accepted_of_report (hc : (e.crawled r.world).1 = .ok groups) {report : CycleReport}
    (h : (e.cycleBy moves now r).1 = some (.ok report)) {deed : Nat × Step σ}
    (hdeed : deed ∈ e.deeds moves now r) {ev : Event} (happend : deed.2.deed = .append ev) :
    (e.log.append ev deed.2.world).1 = .ok () := by
  have hlt := lt_of_mem_deeds hc hdeed
  rw [← length_results (results_of_ok hc h), List.length_map] at hlt
  obtain ⟨g, v, -, hwent, -⟩ := reported_at hc h (List.getElem?_eq_getElem hlt)
  exact hwent.accepted (Pool.mem_own.mpr hdeed) happend

theorem agree_of_report (h : e.Adds ledger) {report : CycleReport}
    (hok : (e.cycleBy moves now r).1 = some (.ok report)) : e.Agree ledger moves now r report := by
  obtain ⟨groups, hc⟩ : ∃ groups, (e.crawled r.world).1 = .ok groups := by
    cases hc : (e.crawled r.world).1 with
    | error why =>
      rw [cycleBy_of_crawl_error hc] at hok
      cases hok
    | ok groups => exact ⟨groups, rfl⟩
  have hevents : ledger (e.cycleBy moves now r).2.world =
      ledger r.world ++ (e.entries moves now r).map (·.2) := by
    refine ledger_cycleBy h (fun deed hdeed ev why happend herr => ?_) hok
    exact nomatch (accepted_of_report hc hok hdeed happend).symm.trans herr
  refine ⟨⟨groups, hc, subjects_of_report hc hok⟩, hevents, headlines_of_report hc hok, ?_, ?_, ?_⟩
  · intro hone
    have halone := cycleBy_of_alone hone hok
    rw [halone] at hok hevents
    obtain ⟨added, hadded, hheadlines⟩ := headlines_of_ok h (Option.some.inj hok)
    rw [← List.append_cancel_left (hevents.symm.trans hadded)] at hheadlines
    exact hheadlines
  · intro i rep hrep
    rw [entries, Pool.gains_own]
    exact headline_at hc hok hrep
  · intro i rep hrep hother
    obtain ⟨g, v, -, hwent, rfl⟩ := reported_at hc hok hrep
    exact hwent.quiet hother

theorem unreported_of_rejects (h : e.Adds ledger) (hrejects : e.Rejects ledger) {why : Fault}
    (herr : (e.cycleBy moves now r).1 = some (.error why)) : e.Unreported ledger moves now r where
  events := ledger_cycleBy h (fun _ _ ev why _ hrejected => hrejects ev _ why hrejected) herr
  taken _ _ := mem_entries
  distinct := by
    refine Pool.nodup_gains fun i => ?_
    cases hc : (e.crawled r.world).1 with
    | error why =>
      rw [deeds_of_crawl_error hc]
      exact Nat.zero_le 1
    | ok groups =>
      obtain ⟨results, hresults, -⟩ := exists_results hc herr
      cases hg : (e.listed groups)[i]? with
      | some g =>
        obtain ⟨verdict, hwent, -⟩ := went_of_results hc hresults hg
        exact hwent.length_taken
      | none =>
        have hnone : Pool.own i (e.deeds moves now r) = [] := by
          refine List.eq_nil_iff_forall_not_mem.mpr fun st hst => ?_
          have hlt := lt_of_mem_deeds hc (Pool.mem_own.mp hst)
          exact Nat.not_lt.mpr (List.getElem?_eq_none_iff.mp hg) hlt
        rw [hnone]
        exact Nat.zero_le 1
  named := by
    intro i ev hentry
    obtain ⟨s, hdeed, hok⟩ := mem_entries.mp hentry
    cases hc : (e.crawled r.world).1 with
    | error why =>
      rw [deeds_of_crawl_error hc] at hdeed
      cases hdeed
    | ok groups =>
      obtain ⟨results, hresults, -⟩ := exists_results hc herr
      have hg := List.getElem?_eq_getElem (lt_of_mem_deeds hc hdeed)
      obtain ⟨verdict, hwent, -⟩ := went_of_results hc hresults hg
      exact ⟨groups, _, hc, hg, hwent.named (Pool.mem_own.mpr hdeed) (taken?_of_ok hok)⟩

end Agreement

/-- A report and the ledger agree, up to the order of the events if there are several workers. Where
there is no report, the ledger has grown by the events that the log took, and where already the crawl
failed nothing has changed. -/
theorem cycleBy_accounts (h : e.Adds ledger) (moves : List Nat) (now : Instant) (r : Running σ) :
    (∀ report, (e.cycleBy moves now r).1 = some (.ok report) → e.Agree ledger moves now r report) ∧
      (∀ why, (e.cycleBy moves now r).1 = some (.error why) → e.Rejects ledger →
        e.Unreported ledger moves now r) ∧
      ∀ why, (e.crawl e.config.allow r.world).1 = .error why →
        (e.cycleBy moves now r).1 = some (.error why) ∧
          ledger (e.cycleBy moves now r).2.world = ledger r.world ∧
          (e.cycleBy moves now r).2.draws = r.draws := by
  refine ⟨fun _ hok => agree_of_report h hok,
    fun _ herr hrejects => unreported_of_rejects h hrejects herr, ?_⟩
  intro why hcrawl
  rw [cycleBy_of_crawl_error hcrawl]
  exact ⟨rfl, h.crawl _ _, rfl⟩

/-- A drill of the groups in its world by two workers, whose log has room for a number of events. A
crawl that finds no groups fails. -/
def roomFor (n : Nat) : Engine (List Event × List Group) where
  config := { Config.standard with
    groupDefaults := ⟨true, .ofNat 1, .terminate⟩, maxConcurrency := 2 }
  crawl _ := fun s => (if s.2.isEmpty then .error (.catalogUnresolved "fleet") else .ok s.2, s)
  client :=
    { backend := "command"
      terminate := fun _ s => (.ok (), s)
      credentials := fun id s => (.error (.credentialsDisabled id), s)
      runScript := fun id _ _ s => (.error (.instanceNotFound id), s) }
  log :=
    { hasRecent := fun group start s => (.ok (s.1.any (·.countsFor group start)), s)
      append := fun ev s =>
        if s.1.length < n then (.ok (), s.1 ++ [ev], s.2)
        else (.error (.ledgerUnavailable "full"), s) }
  elapsed := fun s => (0, s)

theorem roomFor_adds (n : Nat) : (roomFor n).Adds Prod.fst where
  crawl _ _ := rfl
  client := ⟨fun _ _ => rfl, fun _ _ => rfl, fun _ _ _ _ => rfl⟩
  asking _ _ _ := rfl
  append_ok ev s h := by
    by_cases hroom : s.1.length < n
    · simp [roomFor, hroom]
    · simp [roomFor, hroom] at h
  elapsed _ := rfl

theorem roomFor_rejects (n : Nat) : (roomFor n).Rejects Prod.fst := by
  intro ev s why h
  by_cases hroom : s.1.length < n
  · simp [roomFor, hroom] at h
  · simp [roomFor, hroom]

/-- Two workers, one of which is done with the second of two groups before the other is with the
first. -/
def overtaking : List Nat := List.replicate 6 0 ++ List.replicate 10 1 ++ List.replicate 4 0

/-- One event is all that there is room for: a group beside an empty one, then beside one whose
event comes first, and a crawl without groups. -/
theorem roomFor_one_accounts :
    let web : Group := ⟨"web", .cloud, ["i-1", "i-2"]⟩
    let idle : Group := ⟨"idle", .cloud, []⟩
    let db : Group := ⟨"db", .cloud, ["i-3"]⟩
    let few : Running (List Event × List Group) := ⟨.seeded 7, [], [web, idle]⟩
    let more : Running (List Event × List Group) := ⟨.seeded 7, [], [web, db]⟩
    let empty : Running (List Event × List Group) := ⟨.seeded 7, [], []⟩
    ((((roomFor 1).cycleBy overtaking ⟨0, 0⟩ few).1.bind (·.toOption)).map
        (·.groups.map (·.verdict)) = some [.disrupted "i-2" .succeeded, .emptyGroup]) ∧
      (∀ report, ((roomFor 1).cycleBy overtaking ⟨0, 0⟩ few).1 = some (.ok report) →
        (roomFor 1).Agree Prod.fst overtaking ⟨0, 0⟩ few report) ∧
      ((roomFor 1).cycleBy overtaking ⟨0, 0⟩ more).1 =
        some (.error (.ledgerUnavailable "full")) ∧
      ((roomFor 1).cycleBy overtaking ⟨0, 0⟩ more).2.world.1.map (·.instanceId) = ["i-3"] ∧
      (roomFor 1).Unreported Prod.fst overtaking ⟨0, 0⟩ more ∧
      ((roomFor 1).cycleBy overtaking ⟨0, 0⟩ empty).1 =
        some (.error (.catalogUnresolved "fleet")) ∧
      ((roomFor 1).cycleBy overtaking ⟨0, 0⟩ empty).2.world.1 = [] ∧
      ((roomFor 1).cycleBy overtaking ⟨0, 0⟩ empty).2.draws = .seeded 7 := by
  intro web idle db few more empty
  have hfull : ((roomFor 1).cycleBy overtaking ⟨0, 0⟩ more).1 =
      some (.error (.ledgerUnavailable "full")) := by
    decide +kernel
  refine ⟨by decide +kernel, ?_, hfull, by decide +kernel, ?_, ?_⟩
  · exact (cycleBy_accounts (roomFor_adds 1) overtaking ⟨0, 0⟩ few).1
  · exact (cycleBy_accounts (roomFor_adds 1) overtaking ⟨0, 0⟩ more).2.1 _ hfull
      (roomFor_rejects 1)
  · exact (cycleBy_accounts (roomFor_adds 1) overtaking ⟨0, 0⟩ empty).2.2 _ rfl

/-- With two workers the events need not be in the order of the report. -/
theorem overtaking_reorders :
    let web : Group := ⟨"web", .cloud, ["i-1"]⟩
    let db : Group := ⟨"db", .cloud, ["i-3"]⟩
    let r : Running (List Event × List Group) := ⟨.seeded 7, [], [web, db]⟩
    ∃ report, ((roomFor 2).cycleBy overtaking ⟨0, 0⟩ r).1 = some (.ok report) ∧
      report.groups.map (·.verdict) =
        [.disrupted "i-1" .succeeded, .disrupted "i-3" .succeeded] ∧
      ¬ ∃ added, ((roomFor 2).cycleBy overtaking ⟨0, 0⟩ r).2.world.1 = r.world.1 ++ added ∧
        added.map Event.headline = report.groups.filterMap GroupReport.headline? := by
  intro web db r
  refine ⟨⟨⟨0, 0⟩, ⟨0, 0⟩, ⟨0, 0⟩, [⟨"web", .cloud, 1, .disrupted "i-1" .succeeded⟩,
    ⟨"db", .cloud, 1, .disrupted "i-3" .succeeded⟩]⟩, by decide +kernel, rfl, ?_⟩
  rintro ⟨added, hadded, hheadlines⟩
  have hledger : ((roomFor 2).cycleBy overtaking ⟨0, 0⟩ r).2.world.1.map Event.headline =
      [("db", .cloud, "i-3", .succeeded), ("web", .cloud, "i-1", .succeeded)] := by
    decide +kernel
  rw [hadded, show r.world.1 = [] from rfl, List.nil_append, hheadlines] at hledger
  exact absurd hledger (by decide)

end FaultDrill.Engine
