import FaultDrill.Proofs.Engine.Account
/-!
# Outages of the log

What a cycle does after its log has failed. Each turn looks at its own group only: it touches an
instance whenever the group is due for it (`touches_iff`), whatever the log answered in the turns
before. The fault is looked at when all turns are over. So a cycle stops at an outage only where none
of the later groups was due, and every later one that is due and fails as well leaves a disruption
without an event (`stopsAtOutage_iff`).
-/
namespace FaultDrill

/-- Whether a call touches the instance, rather than asking how to log in to it. -/
def Call.touches : Call → Bool
  | .credentials _ => false
  | _ => true

/-! ## Attempts that touch an instance -/

namespace Attempt

/-- Whether an attempt gets as far as touching its instance. A script needs a login for that. -/
def Reaches (client : Client σ) (id : String) (s : σ) : Disruption → Prop
  | .terminate => True
  | .script _ => ∃ c, (client.credentials id s).1 = .ok c ∧ c.isEnabled = true

theorem runScript_calls (client : Client σ) (id : String) (sc : Script) (s : σ) :
    callsOf (runScript client.watched id sc) s = (.credentials id, s) ::
      match (client.credentials id s).1 with
      | .ok c =>
        if c.isEnabled then [(.runScript id c sc, (client.credentials id s).2)] else []
      | .error _ => [] := by
  have hfirst : client.watched.credentials id ⟨s, []⟩ = ((client.credentials id s).1,
      ⟨(client.credentials id s).2, [(.credentials id, s)]⟩) := rfl
  rw [callsOf, runScript, bind_run, hfirst]
  cases (client.credentials id s).1 with
  | error why => rfl
  | ok c => cases hc : c.isEnabled <;> simp only [hc] <;> rfl

theorem terminate_calls (client : Client σ) (fallback : Option Script) (id : String) (s : σ) :
    ∃ more, callsOf (terminate client.watched fallback id) s = (.terminate id, s) :: more := by
  have hfirst : client.watched.terminate id ⟨s, []⟩ = ((client.terminate id s).1,
      ⟨(client.terminate id s).2, [(.terminate id, s)]⟩) := rfl
  rw [callsOf, terminate, bind_run, hfirst]
  cases (client.terminate id s).1 with
  | ok _ => exact ⟨[], rfl⟩
  | error why =>
    dsimp only
    split
    · rw [runScript_follows client id _ _ _]
      exact ⟨_, rfl⟩
    · exact ⟨[], rfl⟩

theorem touches_iff (client : Client σ) (fallback : Option Script) (id : String) (d : Disruption)
    (s : σ) :
    (∃ c ∈ callsOf (perform client.watched fallback id d) s, c.1.touches = true) ↔
      Reaches client id s d := by
  cases d with
  | terminate =>
    obtain ⟨more, hcalls⟩ := terminate_calls client fallback id s
    rw [perform, hcalls]
    exact ⟨fun _ => trivial, fun _ => ⟨_, List.mem_cons_self, rfl⟩⟩
  | script sc =>
    rw [perform, runScript_calls, Reaches]
    cases (client.credentials id s).1 with
    | error why => simp [Call.touches]
    | ok c => cases hc : c.isEnabled <;> simp [hc, Call.touches]

end Attempt

namespace Engine

variable {e : Engine σ} {now : Instant} {t : Turn σ} {id : String}

/-! ## Turns that touch an instance, and turns in which the log fails -/

/-- The turn's calls touch an instance. -/
def Touches (e : Engine σ) (now : Instant) (t : Turn σ) : Prop :=
  ∃ c ∈ e.turnCalls now t, c.1.touches = true

/-- The turn's group is due: a member is drawn, and the attempt on it gets as far as touching it. -/
def Due (e : Engine σ) (now : Instant) (t : Turn σ) : Prop :=
  ∃ id, e.Acts now t id ∧
    Attempt.Reaches e.client id (e.asked now t.group t.world).2 (e.config.disruption t.group.name)

/-- The log fails in a turn: when it is asked about the group, or given the event of an attempt. -/
def Fails (e : Engine σ) (now : Instant) (t : Turn σ) : Prop :=
  (e.Asks t.group t.world ∧ ∃ why, (e.asked now t.group t.world).1 = .error why) ∨
    ∃ id, e.Acts now t id ∧ ∃ why, (e.answerOn now t id).1 = .error why

theorem Acts.turnCalls_eq (h : e.Acts now t id) :
    e.turnCalls now t = callsOf (Attempt.perform e.client.watched e.config.fallbackScript id
      (e.config.disruption t.group.name)) (e.asked now t.group t.world).2 := by
  have hwatched : e.watched.Acts now ⟨t.group, t.seed, ⟨t.world, []⟩⟩ id :=
    ⟨⟨⟨h.draws.inTime, h.draws.enabled, h.draws.inhabited⟩, h.draws.unspent⟩, h.drawn,
      h.unleashed⟩
  rw [turnCalls, callsOf, evaluate_world, snd_of_eq hwatched.judge_eq]
  rfl

theorem touches_iff : e.Touches now t ↔ e.Due now t := by
  constructor
  · rintro ⟨c, hc, htouches⟩
    by_cases hacts : ∃ id, e.Acts now t id
    · obtain ⟨id, hacts⟩ := hacts
      rw [hacts.turnCalls_eq] at hc
      exact ⟨id, hacts, (Attempt.touches_iff ..).mp ⟨c, hc, htouches⟩⟩
    · rw [turnCalls_of_not_acts (not_exists.mp hacts)] at hc
      cases hc
  · rintro ⟨id, hacts, hreaches⟩
    rw [Touches, hacts.turnCalls_eq]
    exact (Attempt.touches_iff ..).mpr hreaches

/-- The log's faults are the only ones of a turn. -/
theorem fails_iff : e.Fails now t ↔ ∃ why, (e.turned now t).1 = .error why := by
  constructor
  · rintro (⟨hasks, why, hasked⟩ | ⟨id, hacts, why, hanswer⟩)
    · refine ⟨why, ?_⟩
      rw [fst_of_eq (turned_eq e now t), judge_of_asks hasks, hasked]
      rfl
    · refine ⟨why, ?_⟩
      rw [fst_of_eq hacts.turned_eq, hanswer]
      rfl
  · rintro ⟨why, hwhy⟩
    by_cases hacts : ∃ id, e.Acts now t id
    · obtain ⟨id, hacts⟩ := hacts
      rw [fst_of_eq hacts.turned_eq] at hwhy
      cases hanswer : (e.answerOn now t id).1 with
      | ok _ => rw [hanswer] at hwhy; cases hwhy
      | error why' => exact .inr ⟨id, hacts, why', hanswer⟩
    · left
      rw [fst_of_eq (turned_eq e now t)] at hwhy
      have hjudged := e.judged now t.group t.seed t.world
      generalize e.judge now t.group t.seed t.world = verdict at hjudged hwhy
      cases hjudged with
      | unread why hasks hasked => exact ⟨hasks, why, hasked⟩
      | disrupted id hd hdrawn hleashed => exact absurd ⟨id, hd, hdrawn, hleashed⟩ hacts
      | _ => cases hwhy

/-! ## Cycles in an outage -/

/-- After the log has failed in a turn, no later turn touches an instance. -/
def StopsAtOutage (e : Engine σ) (now : Instant) (r : Running σ) : Prop :=
  (e.turns now r).Pairwise fun t t' => e.Fails now t → ¬ e.Touches now t'

/-- An instance is touched, and there is no event of it. -/
def Unrecorded (e : Engine σ) (now : Instant) (t : Turn σ) : Prop :=
  e.Touches now t ∧ e.entry now t = none

/-- A turn has no event of what it did where the log fails in it. -/
theorem unrecorded_iff : e.Unrecorded now t ↔ e.Due now t ∧ e.Fails now t := by
  rw [Unrecorded, touches_iff]
  refine and_congr_right ?_
  rintro ⟨id, hacts, -⟩
  cases hanswer : (e.answerOn now t id).1 with
  | ok _ =>
    rw [hacts.entry_of_ok hanswer, fails_iff, fst_of_eq hacts.turned_eq, hanswer]
    exact ⟨nofun, fun ⟨_, h⟩ => nomatch h⟩
  | error why =>
    rw [hacts.entry_of_error hanswer]
    exact ⟨fun _ => .inr ⟨id, hacts, why, hanswer⟩, fun _ => rfl⟩

/-- The first fault is the answer. -/
theorem allOrFirst_map_eq_error_iff {f : α → Except Fault β} {l : List α} {why : Fault} :
    allOrFirst (l.map f) = .error why ↔
      ∃ before a after, l = before ++ a :: after ∧ (∀ b ∈ before, ¬ ∃ w, f b = .error w) ∧
        f a = .error why := by
  induction l with
  | nil => simp [allOrFirst]
  | cons a l ih =>
    rw [List.map_cons]
    cases hfirst : f a with
    | error w =>
      constructor
      · intro h
        cases h
        exact ⟨[], a, l, rfl, by simp, hfirst⟩
      · rintro ⟨before, b, after, heq, hbefore, hb⟩
        cases before with
        | nil =>
          obtain ⟨rfl, rfl⟩ := List.cons_eq_cons.mp heq
          rw [hfirst] at hb
          cases hb
          rfl
        | cons first before =>
          obtain ⟨rfl, -⟩ := List.cons_eq_cons.mp heq
          exact absurd ⟨w, hfirst⟩ (hbefore a List.mem_cons_self)
    | ok value =>
      have hrest : allOrFirst (.ok value :: l.map f) = .error why ↔
          allOrFirst (l.map f) = .error why := by
        rw [allOrFirst]
        cases allOrFirst (l.map f) <;> simp [Except.map]
      rw [hrest, ih]
      constructor
      · rintro ⟨before, b, after, rfl, hbefore, hb⟩
        have hvalue : ¬ ∃ w, f a = .error w := by simp [hfirst]
        exact ⟨a :: before, b, after, rfl, List.forall_mem_cons.mpr ⟨hvalue, hbefore⟩, hb⟩
      · rintro ⟨before, b, after, heq, hbefore, hb⟩
        cases before with
        | nil =>
          obtain ⟨rfl, -⟩ := List.cons_eq_cons.mp heq
          rw [hfirst] at hb
          cases hb
        | cons first before =>
          obtain ⟨rfl, rfl⟩ := List.cons_eq_cons.mp heq
          exact ⟨before, b, after, rfl, (List.forall_mem_cons.mp hbefore).2, hb⟩

/-- A cycle answers the fault of the first turn in which the log failed. -/
theorem cycle_eq_error_iff {r : Running σ} {groups : List Group} {why : Fault}
    (hc : (e.crawled r.world).1 = .ok groups) :
    (e.cycle now r).1 = .error why ↔
      ∃ before t after, e.turns now r = before ++ t :: after ∧ (∀ b ∈ before, ¬ e.Fails now b) ∧
        (e.turned now t).1 = .error why := by
  simp only [fails_iff]
  rw [← allOrFirst_map_eq_error_iff, cycle_of_crawl_ok hc, turns_of_crawl_ok hc, evaluateAll_turned]
  cases allOrFirst ((e.turnsFrom now (e.seeded r.draws groups) (e.crawled r.world).2).map
    fun t => (e.turned now t).1) with
  | error w =>
    constructor
    · intro h
      rw [Except.error.inj h]
    · intro h
      rw [Except.error.inj h]
  | ok reports => exact ⟨nofun, nofun⟩

end Engine

/-- What a cycle does in an outage of its log. Every listed group has its turn, a turn touches an
instance if its group is due, and the cycle answers the first fault. So the cycle stops at the outage
exactly where no later group was due, and each due group whose turn fails is left without an event. -/
theorem Engine.stopsAtOutage_iff (e : Engine σ) (now : Instant) (r : Running σ) :
    (e.StopsAtOutage now r ↔
        (e.turns now r).Pairwise fun t t' => e.Fails now t → ¬ e.Due now t') ∧
      (∀ t ∈ e.turns now r, (e.Touches now t ↔ e.Due now t) ∧
        (e.Unrecorded now t ↔ e.Due now t ∧ e.Fails now t)) ∧
      ∀ groups, (e.crawl e.config.allow r.world).1 = .ok groups →
        (e.turns now r).map (·.group) = groups.filter (fun g => e.config.isListed g.name) ∧
          ∀ why, (e.cycle now r).1 = .error why ↔
            ∃ before t after, e.turns now r = before ++ t :: after ∧
              (∀ b ∈ before, ¬ e.Fails now b) ∧ (e.turned now t).1 = .error why := by
  refine ⟨?_, fun t _ => ⟨touches_iff, unrecorded_iff⟩, ?_⟩
  · rw [StopsAtOutage]
    simp only [touches_iff]
  · intro groups hcrawl
    exact ⟨turns_groups hcrawl, fun why => cycle_eq_error_iff hcrawl⟩

/-- A drill of two groups that are terminated at every chance, while no event can be written. -/
def Engine.unwritable : Engine Unit where
  config := { Config.standard with groupDefaults := ⟨true, .ofNat 1, .terminate⟩ }
  crawl _ := pure (.ok [⟨"web", .cloud, ["i-1"]⟩, ⟨"db", .cloud, ["i-2"]⟩])
  client :=
    { backend := "command"
      terminate := fun _ => pure (.ok ())
      credentials := fun id => pure (.error (.credentialsDisabled id))
      runScript := fun id _ _ => pure (.error (.instanceNotFound id)) }
  log :=
    { hasRecent := fun _ _ => pure (.ok false)
      append := fun _ => pure (.error (.ledgerUnavailable "disk gone")) }
  elapsed := pure 0

/-- The two turns of the drill that cannot write: both touch an instance, and the event is refused. -/
theorem Engine.unwritable_turns :
    ∃ web db, unwritable.turns ⟨0, 0⟩ ⟨.seeded 7, ()⟩ = [web, db] ∧
      ∀ t ∈ [web, db], unwritable.Touches ⟨0, 0⟩ t ∧
        (unwritable.turned ⟨0, 0⟩ t).1 = .error (.ledgerUnavailable "disk gone") := by
  have hturns : (unwritable.turns ⟨0, 0⟩ ⟨.seeded 7, ()⟩).map (fun t =>
      ((unwritable.turnCalls ⟨0, 0⟩ t).any (·.1.touches), (unwritable.turned ⟨0, 0⟩ t).1)) =
      [(true, .error (.ledgerUnavailable "disk gone")),
        (true, .error (.ledgerUnavailable "disk gone"))] := by decide +kernel
  obtain ⟨web, rest, heq, hweb, hrest⟩ := List.map_eq_cons_iff.mp hturns
  obtain ⟨db, none, rfl, hdb, hnone⟩ := List.map_eq_cons_iff.mp hrest
  obtain rfl := List.map_eq_nil_iff.mp hnone
  refine ⟨web, db, heq, ?_⟩
  simp only [List.forall_mem_cons, List.not_mem_nil, false_implies, implies_true, and_true]
  obtain ⟨hwebTouches, hwebFault⟩ := Prod.mk.inj hweb
  obtain ⟨hdbTouches, hdbFault⟩ := Prod.mk.inj hdb
  exact ⟨⟨List.any_eq_true.mp hwebTouches, hwebFault⟩, List.any_eq_true.mp hdbTouches, hdbFault⟩

/-- Both groups of the drill that cannot write are due, and the cycle answers the fault. -/
theorem unwritable_outage :
    (∃ web db, Engine.unwritable.turns ⟨0, 0⟩ ⟨.seeded 7, ()⟩ = [web, db] ∧
        Engine.unwritable.Due ⟨0, 0⟩ web ∧ Engine.unwritable.Due ⟨0, 0⟩ db) ∧
      (Engine.unwritable.turns ⟨0, 0⟩ ⟨.seeded 7, ()⟩).map (·.group) =
        [⟨"web", .cloud, ["i-1"]⟩, ⟨"db", .cloud, ["i-2"]⟩] ∧
      (Engine.unwritable.cycle ⟨0, 0⟩ ⟨.seeded 7, ()⟩).1 =
        .error (.ledgerUnavailable "disk gone") := by
  obtain ⟨web, db, hturns, hboth⟩ := Engine.unwritable_turns
  obtain ⟨-, hdue, hcycle⟩ := Engine.stopsAtOutage_iff Engine.unwritable ⟨0, 0⟩ ⟨.seeded 7, ()⟩
  obtain ⟨hgroups, hfault⟩ := hcycle _ rfl
  rw [hturns] at hdue
  refine ⟨⟨web, db, hturns, ?_, ?_⟩, hgroups, ?_⟩
  · exact (hdue web (by simp)).1.mp (hboth web (by simp)).1
  · exact (hdue db (by simp)).1.mp (hboth db (by simp)).1
  · exact (hfault _).mpr ⟨[], web, [db], hturns, nofun, (hboth web (by simp)).2⟩

/-- After the log has failed to take the event of one group, the next group is disrupted all the
same, and there are two disruptions without an event. -/
theorem unwritable_goes_on :
    ¬ Engine.unwritable.StopsAtOutage ⟨0, 0⟩ ⟨.seeded 7, ()⟩ ∧
      ¬ (Engine.unwritable.turns ⟨0, 0⟩ ⟨.seeded 7, ()⟩).Pairwise fun t t' =>
        ¬ (Engine.unwritable.Unrecorded ⟨0, 0⟩ t ∧ Engine.unwritable.Unrecorded ⟨0, 0⟩ t') := by
  obtain ⟨web, db, hturns, hboth⟩ := Engine.unwritable_turns
  have hfails {t : Engine.Turn Unit} (ht : t ∈ [web, db]) : Engine.unwritable.Fails ⟨0, 0⟩ t :=
    Engine.fails_iff.mpr ⟨_, (hboth t ht).2⟩
  have hunrecorded {t : Engine.Turn Unit} (ht : t ∈ [web, db]) :
      Engine.unwritable.Unrecorded ⟨0, 0⟩ t :=
    Engine.unrecorded_iff.mpr ⟨Engine.touches_iff.mp (hboth t ht).1, hfails ht⟩
  rw [Engine.StopsAtOutage, hturns, List.pairwise_pair, List.pairwise_pair]
  constructor
  · intro hstops
    exact hstops (hfails (by simp)) (hboth db (by simp)).1
  · intro hone
    exact hone ⟨hunrecorded (by simp), hunrecorded (by simp)⟩

end FaultDrill
