import FaultDrill.Proofs.Draw.Lot
import FaultDrill.Proofs.Engine.Ruling
import FaultDrill.Proofs.Engine.Spending
/-!
# Certain groups

A group with the probability one never loses the draw, so its turn is an attempt on one of its
members unless its window is spent (`Sure.turned_eq`). An attempt that counts spends the window for
every instant in it, and one that was skipped leaves it as it was (`spent_turned_self`). Between two
turns of a group in a run of cycles the ledger grows by events of other groups only
(`ledger_between`), so a group whose attempt was skipped is attempted again (`certain_spends`).
-/
namespace FaultDrill

/-- A log that answers whatever it is asked in a state. -/
def EventLog.AnswersIn (log : EventLog σ) (s : σ) : Prop :=
  ∀ group start, ∃ hit, (log.hasRecent group start s).1 = .ok hit

namespace Engine

variable {e : Engine σ} {ledger : σ → List Event} {now later : Instant} {t t' : Turn σ}

/-! ## One turn -/

/-- The turn of a group with the probability one, enabled and with members, in an engine without its
leash. It comes before the deadline, and the log works in it. -/
structure Sure (e : Engine σ) (now : Instant) (t : Turn σ) : Prop where
  enabled : e.config.groupEnabled t.group.name = true
  inhabited : t.group.members ≠ []
  unleashed : e.config.leashed = false
  certain : e.config.probability t.group.name = .ofNat 1
  inTime : (e.elapsed t.world).1 < e.deadline
  works : ¬ e.Fails now t

theorem Sure.drawn (h : e.Sure now t) :
    ∃ id ∈ t.group.members, e.drawn t.group t.seed = .member id :=
  Draw.select_of_certain rfl rfl h.certain h.inhabited t.seed

theorem Sure.ruling (h : e.Sure now t) :
    ∃ id ∈ t.group.members, ∀ spent outcome, e.ruling t.group t.seed spent outcome =
      if spent then .alreadyHit else .disrupted id (outcome id) := by
  obtain ⟨id, hid, hdrawn⟩ := h.drawn
  have hnonempty : t.group.isEmpty = false := by
    rw [Group.isEmpty, List.isEmpty_eq_false_iff]
    exact h.inhabited
  refine ⟨id, hid, fun spent outcome => ?_⟩
  rw [Engine.ruling, h.enabled, hnonempty, hdrawn, h.unleashed]
  cases spent <;> rfl

/-- A turn of a certain group is an attempt unless the window is spent, whatever the seed. -/
theorem Sure.turned_eq (hkeeps : e.Keeps ledger) (h : e.Sure now t) :
    ∃ id ∈ t.group.members,
      (e.turned now t).1 = .ok ⟨t.group.name, t.group.kind, t.group.members.length,
        if e.spent ledger now t.world t.group.name then .alreadyHit
        else .disrupted id (e.eventOn now t id).outcome⟩ ∧
      e.entry now t =
        if e.spent ledger now t.world t.group.name then none else some (e.eventOn now t id) := by
  obtain ⟨id, hid, hruling⟩ := h.ruling
  have hturned := turned_eq_ruling hkeeps h.inTime h.works
  rw [hruling] at hturned
  refine ⟨id, hid, hturned, ?_⟩
  rw [entry, hturned]
  cases e.spent ledger now t.world t.group.name <;> rfl

theorem eventOn_counts (hnow : now.OnClock) (hpos : 1 ≤ e.config.window.millis)
    (hlt : e.config.window.millis < twoPow 63) (t : Turn σ) (id : String) :
    (e.eventOn now t id).countsFor t.group.name (windowStart now e.config.window) =
      (e.eventOn now t id).outcome.counts := by
  obtain ⟨n, htime⟩ := recorded_time e now t.group id (e.asked now t.group t.world).2
  have hstart : windowStart now e.config.window ≤ (e.eventOn now t id).time := by
    rw [eventOn, htime, windowStart_le_iff hnow hpos hlt (Instant.inLeapSecond_after hnow.noLeap n)]
    exact Instant.windowIndex_le_after hnow.noLeap n hpos
  have hgroup : (e.eventOn now t id).group = t.group.name := rfl
  rw [Event.countsFor, hgroup, beq_self_eq_true, decide_eq_true hstart, Bool.true_and, Bool.true_and]

/-- The window is spent after a turn if it was before or the attempt in the turn counts. -/
theorem spent_turned_self (hkeeps : e.Keeps ledger) (hnow : now.OnClock)
    (hpos : 1 ≤ e.config.window.millis) (hlt : e.config.window.millis < twoPow 63) (t : Turn σ) :
    e.spent ledger now (e.turned now t).2 t.group.name =
      (e.spent ledger now t.world t.group.name || (e.entry now t).any (·.outcome.counts)) := by
  rw [spent, spent, ledger_turned hkeeps.adds fun _ _ => hkeeps.rejects, List.any_append]
  cases hentry : e.entry now t with
  | none => rfl
  | some ev =>
    obtain ⟨id, -, rfl, -⟩ := entry_eq_some_iff.mp hentry
    rw [Option.toList_some, List.any_cons, eventOn_counts hnow hpos hlt, List.any_nil,
      Bool.or_false, Option.any_some]

theorem hasRecent_eq (hkeeps : e.Keeps ledger) {s : σ} (hanswers : e.log.AnswersIn s)
    (group : String) (since : Instant) :
    (e.log.hasRecent group (windowStart since e.config.window) s).1 =
      .ok (e.spent ledger since s group) := by
  obtain ⟨hit, hhit⟩ := hanswers group (windowStart since e.config.window)
  rw [hhit, spent, hkeeps.log.answer _ _ _ _ hhit]

theorem spent_shared (hnow : now.OnClock) (hpos : 1 ≤ e.config.window.millis)
    (hlt : e.config.window.millis < twoPow 63) (h : now.Shares e.config.window.millis later) (s : σ)
    (group : String) : e.spent ledger later s group = e.spent ledger now s group := by
  rw [spent, spent, h.windowStart_eq hnow hpos hlt]

/-! ## Turns of a run -/

/-- The turns of a run of cycles, each with the time of its cycle. -/
def runTurns (e : Engine σ) : List Instant → Running σ → List (Instant × Turn σ)
  | [], _ => []
  | now :: more, r => (e.turns now r).map (now, ·) ++ e.runTurns more (e.cycle now r).2

theorem ledger_turnsFrom (h : e.Keeps ledger) {seeded : List (Group × UInt64)} {s : σ}
    {before after : List (Turn σ)} (hsplit : e.turnsFrom now seeded s = before ++ t :: after) :
    ledger t.world = ledger s ++ before.filterMap (e.entry now) := by
  induction seeded generalizing s before with
  | nil => cases before <;> cases hsplit
  | cons turn more ih =>
    obtain ⟨g, seed⟩ := turn
    rw [turnsFrom_cons] at hsplit
    cases before with
    | nil =>
      obtain ⟨rfl, -⟩ := List.cons_eq_cons.mp hsplit
      rw [List.filterMap_nil, List.append_nil]
    | cons first before =>
      obtain ⟨rfl, hrest⟩ := List.cons_eq_cons.mp hsplit
      rw [ih hrest, ledger_turned h.adds fun _ _ => h.rejects, List.append_assoc,
        List.filterMap_cons]
      cases e.entry now ⟨g, seed, s⟩ <;> rfl

theorem ledger_turns (h : e.Keeps ledger) {r : Running σ} {before after : List (Turn σ)}
    (hsplit : e.turns now r = before ++ t :: after) :
    ledger t.world = ledger r.world ++ before.filterMap (e.entry now) := by
  have hcrawl : ledger (e.crawled r.world).2 = ledger r.world := h.crawl _ _
  rw [← hcrawl]
  cases hc : (e.crawled r.world).1 with
  | error why =>
    rw [turns_of_crawl_error hc] at hsplit
    cases before <;> cases hsplit
  | ok groups =>
    rw [turns_of_crawl_ok hc] at hsplit
    exact ledger_turnsFrom h hsplit

/-- A turn of a run finds the ledger with the entries of the turns before it. -/
theorem ledger_runTurns (h : e.Keeps ledger) {times : List Instant} {r : Running σ}
    {before after : List (Instant × Turn σ)}
    (hsplit : e.runTurns times r = before ++ (now, t) :: after) :
    ledger t.world = ledger r.world ++ before.filterMap fun p => e.entry p.1 p.2 := by
  induction times generalizing r before with
  | nil => cases before <;> cases hsplit
  | cons first more ih =>
    rw [runTurns, List.append_eq_append_iff] at hsplit
    have hcycle : ledger (e.cycle first r).2.world =
        ledger r.world ++ (e.turns first r).filterMap (e.entry first) :=
      ledger_cycle h.adds r fun _ _ _ _ => h.rejects
    have hentries (turns : List (Turn σ)) :
        (turns.map (first, ·)).filterMap (fun p => e.entry p.1 p.2) =
          turns.filterMap (e.entry first) := by
      rw [List.filterMap_map]
      rfl
    -- the turn is one of a later cycle, or one of the first
    rcases hsplit with ⟨before', rfl, hlater⟩ | ⟨rest, hfirst, hrest⟩
    · rw [ih hlater, hcycle, List.filterMap_append, hentries, List.append_assoc]
    · cases rest with
      | nil =>
        have hstart : e.runTurns more (e.cycle first r).2 = [] ++ (now, t) :: after := hrest.symm
        rw [List.append_nil] at hfirst
        rw [ih hstart, hcycle, ← hfirst, hentries, List.filterMap_nil, List.append_nil]
      | cons p rest =>
        obtain ⟨rfl, -⟩ := List.cons_eq_cons.mp hrest
        obtain ⟨turns, more', hturns, rfl, hmore⟩ := List.map_eq_append_iff.mp hfirst
        obtain ⟨t', after', rfl, heq, -⟩ := List.map_eq_cons_iff.mp hmore
        cases heq
        rw [hentries, ledger_turns h hturns]

/-- The ledger before a later turn of a run is the one after an earlier turn, with the entries of the
turns in between. -/
theorem ledger_between (h : e.Keeps ledger) {times : List Instant} {r : Running σ}
    {before between after : List (Instant × Turn σ)}
    (hsplit : e.runTurns times r = before ++ (now, t) :: (between ++ (later, t') :: after)) :
    ledger t'.world =
      ledger (e.turned now t).2 ++ between.filterMap fun p => e.entry p.1 p.2 := by
  -- both turns find the entries of the turns before them, the later one the earlier one's as well
  have hearlier := ledger_runTurns h hsplit
  rw [← List.cons_append, ← List.append_assoc] at hsplit
  rw [ledger_runTurns h hsplit, List.filterMap_append, ← List.append_assoc, ← hearlier,
    ledger_turned h.adds fun _ _ => h.rejects, List.append_assoc]
  congr 1
  cases hentry : e.entry now t with
  | none => exact List.filterMap_cons_none hentry
  | some ev => exact List.filterMap_cons_some hentry

/-- The turns of other groups in between do not spend the window of a group. -/
theorem spent_between (h : e.Keeps ledger) {times : List Instant} {r : Running σ}
    {before between after : List (Instant × Turn σ)}
    (hsplit : e.runTurns times r = before ++ (now, t) :: (between ++ (later, t') :: after))
    {group : String} (hothers : ∀ p ∈ between, p.2.group.name ≠ group) (since : Instant) :
    e.spent ledger since t'.world group = e.spent ledger since (e.turned now t).2 group := by
  rw [spent, spent, ledger_between h hsplit, List.any_append]
  have hnone : (between.filterMap fun p => e.entry p.1 p.2).any
      (·.countsFor group (windowStart since e.config.window)) = false := by
    rw [List.any_eq_false]
    intro ev hev
    obtain ⟨p, hp, hentry⟩ := List.mem_filterMap.mp hev
    rw [countsFor_of_entry hentry (hothers p hp)]
    decide
  rw [hnone, Bool.or_false]

end Engine

theorem Outcome.counts_eq (o : Outcome) : o.counts = !decide (o = .skipped) := by cases o <;> rfl

/-- In a run of cycles, the turn of a certain group is an attempt on a member unless the window is
spent, whatever the seed. After it, the log has the window spent if it was or if the attempt was not
skipped, at every instant of the window. A group that was skipped is attempted again in its next
turn. -/
theorem Engine.certain_spends {e : Engine σ} {ledger : σ → List Event} (h : e.Keeps ledger)
    (hpos : 1 ≤ e.config.window.millis) (hlt : e.config.window.millis < twoPow 63)
    (times : List Instant) (r : Running σ) {before after : List (Instant × Turn σ)} {now : Instant}
    {t : Turn σ} (hrun : e.runTurns times r = before ++ (now, t) :: after) (hnow : now.OnClock)
    (hsure : e.Sure now t) (hanswers : e.log.AnswersIn (e.turned now t).2) :
    ∃ id ∈ t.group.members, ∃ outcome,
      (e.turned now t).1 = .ok ⟨t.group.name, t.group.kind, t.group.members.length,
        if e.spent ledger now t.world t.group.name then .alreadyHit else .disrupted id outcome⟩ ∧
      (∀ later, now.Shares e.config.window.millis later →
        (e.log.hasRecent t.group.name (windowStart later e.config.window) (e.turned now t).2).1 =
          .ok (e.spent ledger now t.world t.group.name || !decide (outcome = .skipped))) ∧
      (e.spent ledger now t.world t.group.name = false → outcome = .skipped →
        ∀ between later t' rest, after = between ++ (later, t') :: rest →
          (∀ p ∈ between, p.2.group.name ≠ t.group.name) → t'.group.name = t.group.name →
          now.Shares e.config.window.millis later → e.Sure later t' →
          ∃ id' ∈ t'.group.members, ∃ outcome', (e.turned later t').1 =
            .ok ⟨t'.group.name, t'.group.kind, t'.group.members.length,
              .disrupted id' outcome'⟩) := by
  obtain ⟨id, hid, hturned, hentry⟩ := hsure.turned_eq h
  have hafter := spent_turned_self h hnow hpos hlt t
  refine ⟨id, hid, (e.eventOn now t id).outcome, hturned, ?_, ?_⟩
  · intro later hshares
    rw [hasRecent_eq h hanswers, spent_shared hnow hpos hlt hshares, hafter, hentry,
      ← Outcome.counts_eq]
    cases e.spent ledger now t.world t.group.name <;> rfl
  · intro hspent hskipped between later t' rest hbetween hothers hgroup hshares hsure'
    obtain ⟨id', hid', hturned', -⟩ := hsure'.turned_eq h
    have hunspent : e.spent ledger later t'.world t'.group.name = false := by
      rw [hgroup, spent_shared hnow hpos hlt hshares, spent_between h (hbetween ▸ hrun) hothers,
        hafter, hentry, hspent]
      simp [hskipped, Outcome.counts]
    rw [hunspent] at hturned'
    exact ⟨id', hid', _, hturned'⟩

/-- A drill of two groups by script. The first login that is asked for is not known, all later ones
are. -/
def Engine.locked : Engine (List Event × Nat) :=
  .beside { Config.standard with groupDefaults := ⟨true, .ofNat 1, .script Script.shutdown⟩ }
    (fun _ n => (.ok [⟨"web", .localMachines, ["w-1"]⟩, ⟨"db", .localMachines, ["d-1"]⟩], n))
    { backend := "local"
      terminate := fun _ n => (.error (.unsupported "local" "terminate"), n)
      credentials := fun _ n =>
        (.ok (if n = 0 then .disabled "root" else .withPassword "root" "secret"), n + 1)
      runScript := fun _ _ _ n => (.ok ⟨0, "", ""⟩, n) }
    (fun n => (0, n))

theorem Engine.locked_keeps : locked.Keeps Prod.fst := beside_keeps ..

theorem Engine.locked_answers (s : List Event × Nat) : locked.log.AnswersIn s :=
  fun _ _ => ⟨_, rfl⟩

theorem Engine.locked_sure {now : Instant} {t : Turn (List Event × Nat)}
    (h : t.group.members ≠ []) : locked.Sure now t where
  enabled := rfl
  inhabited := h
  unleashed := rfl
  certain := by
    simp only [Config.probability, Config.policy?, locked, beside, Config.standard, List.lookup_nil,
      Option.bind_none, Option.getD_none]
  inTime := by
    show 0 < locked.deadline
    decide
  works := beside_not_fails _ _ _ _ _ _

/-- The first group of the drill is skipped in the first cycle. Its window is not spent by that, up
to the end of the day, and it is attempted again in the second cycle. -/
theorem locked_spends :
    ∃ web db web' db', Engine.locked.runTurns [⟨0, 0⟩, ⟨60, 0⟩] ⟨.seeded 7, [], 0⟩ =
        [(⟨0, 0⟩, web), (⟨0, 0⟩, db), (⟨60, 0⟩, web'), (⟨60, 0⟩, db')] ∧
      (Engine.locked.turned ⟨0, 0⟩ web).1 =
        .ok ⟨"web", .localMachines, 1, .disrupted "w-1" .skipped⟩ ∧
      (Engine.locked.log.hasRecent "web"
          (windowStart ⟨86399, 999999999⟩ Engine.locked.config.window)
          (Engine.locked.turned ⟨0, 0⟩ web).2).1 = .ok false ∧
      ∃ outcome, (Engine.locked.turned ⟨60, 0⟩ web').1 =
        .ok ⟨"web", .localMachines, 1, .disrupted "w-1" outcome⟩ := by
  have hruns : (Engine.locked.runTurns [⟨0, 0⟩, ⟨60, 0⟩] ⟨.seeded 7, [], 0⟩).map (fun p =>
      (p.1, p.2.group, p.2.world.1.length, (Engine.locked.turned p.1 p.2).1)) =
      [(⟨0, 0⟩, ⟨"web", .localMachines, ["w-1"]⟩, 0,
          .ok ⟨"web", .localMachines, 1, .disrupted "w-1" .skipped⟩),
        (⟨0, 0⟩, ⟨"db", .localMachines, ["d-1"]⟩, 1,
          .ok ⟨"db", .localMachines, 1, .disrupted "d-1" .succeeded⟩),
        (⟨60, 0⟩, ⟨"web", .localMachines, ["w-1"]⟩, 2,
          .ok ⟨"web", .localMachines, 1, .disrupted "w-1" .succeeded⟩),
        (⟨60, 0⟩, ⟨"db", .localMachines, ["d-1"]⟩, 3,
          .ok ⟨"db", .localMachines, 1, .alreadyHit⟩)] := by decide +kernel
  obtain ⟨⟨_, web⟩, rest, hrun, hweb, hrest⟩ := List.map_eq_cons_iff.mp hruns
  obtain ⟨⟨_, db⟩, rest, rfl, hdb, hrest⟩ := List.map_eq_cons_iff.mp hrest
  obtain ⟨⟨_, web'⟩, rest, rfl, hweb', hrest⟩ := List.map_eq_cons_iff.mp hrest
  obtain ⟨⟨_, db'⟩, rest, rfl, hdb', hnone⟩ := List.map_eq_cons_iff.mp hrest
  obtain rfl := List.map_eq_nil_iff.mp hnone
  simp only [Prod.mk.injEq] at hweb hdb hweb' hdb'
  obtain ⟨rfl, hgroup, hlength, hturned⟩ := hweb
  obtain ⟨rfl, hother, -⟩ := hdb
  obtain ⟨rfl, hgroup', -⟩ := hweb'
  obtain ⟨rfl, -⟩ := hdb'
  have hnow : (⟨0, 0⟩ : Instant).OnClock := ⟨by decide, by decide, by decide⟩
  have hfresh : Engine.locked.spent Prod.fst ⟨0, 0⟩ web.world web.group.name = false := by
    rw [Engine.spent, List.length_eq_zero_iff.mp hlength]
    rfl
  have hfirst : Engine.locked.runTurns [⟨0, 0⟩, ⟨60, 0⟩] ⟨.seeded 7, [], 0⟩ =
      [] ++ (⟨0, 0⟩, web) :: [(⟨0, 0⟩, db), (⟨60, 0⟩, web'), (⟨60, 0⟩, db')] := hrun
  obtain ⟨id, hid, outcome, hreport, hanswer, hagain⟩ := Engine.certain_spends Engine.locked_keeps
    (by decide) (by decide) _ _ hfirst hnow (Engine.locked_sure (by simp [hgroup]))
    (Engine.locked_answers _)
  rw [hfresh] at hreport hanswer hagain
  have houtcome : outcome = .skipped := by
    rw [hreport] at hturned
    simp at hturned
    exact hturned.2.2.2.2
  subst houtcome
  refine ⟨web, db, web', db', hrun, hturned, ?_, ?_⟩
  · have hlast := hanswer ⟨86399, 999999999⟩ ⟨by decide, by decide, by decide⟩
    rw [hgroup] at hlast
    exact hlast
  · obtain ⟨id', hid', outcome', hreport'⟩ := hagain rfl rfl [(⟨0, 0⟩, db)] ⟨60, 0⟩ web' _ rfl
      (by simp [hgroup, hother]) (by rw [hgroup, hgroup']) ⟨by decide, by decide, by decide⟩
      (Engine.locked_sure (by simp [hgroup']))
    rw [hgroup'] at hid' hreport'
    obtain rfl := List.mem_singleton.mp hid'
    exact ⟨outcome', hreport'⟩

end FaultDrill
