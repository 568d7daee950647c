import FaultDrill.Proofs.Engine.Ruling
/-!
# Rehearsals

A leashed engine decides as the same engine without its leash does, and acts on nobody. The two are
run side by side from the same state. The unleashed one changes the world between the turns, but to
the ledger it only adds events of groups that had their turn; as names do not repeat, both find the
same groups spent (`evaluateAll_rehearses`), and everything else that a turn looks at is the same.
-/
namespace FaultDrill

/-- A verdict of a rehearsal, and the verdict that stands in its place where it is played. -/
inductive Verdict.Rehearses : Verdict → Verdict → Prop where
  | acting (id : String) (outcome : Outcome) : Rehearses (.leashed id) (.disrupted id outcome)
  | same (v : Verdict) (hleashed : ∀ id, v ≠ .leashed id)
    (hdisrupted : ∀ id outcome, v ≠ .disrupted id outcome) : Rehearses v v

/-- The report on a group in a rehearsal, and the one in its place where it is played. -/
structure GroupReport.Rehearses (r r' : GroupReport) : Prop where
  subject : r.subject = r'.subject
  verdict : r.verdict.Rehearses r'.verdict

namespace Engine

/-- The engine with its leash on or off. -/
def leash (e : Engine σ) (on : Bool) : Engine σ :=
  { e with config := { e.config with leashed := on } }

variable {e : Engine σ} {ledger : σ → List Event} {now : Instant} {t : Turn σ}

theorem Keeps.leash (h : e.Keeps ledger) (on : Bool) : (e.leash on).Keeps ledger :=
  ⟨h.crawl, h.client, h.log, h.elapsed⟩

/-! ## One turn -/

theorem leash_ruling (e : Engine σ) (on : Bool) (g : Group) (seed : UInt64) (spent : Bool)
    (outcome : String → Outcome) :
    (e.leash on).ruling g seed spent outcome =
      if e.config.groupEnabled g.name = false then .disabled
      else if g.isEmpty then .emptyGroup
      else if spent then .alreadyHit
      else match e.drawn g seed with
        | .passed roll => .notSelected roll (e.config.probability g.name)
        | .nobody => .emptyGroup
        | .member id => if on then .leashed id else .disrupted id (outcome id) := rfl

/-- On what both find alike, the leashed engine rules as the unleashed one does, and names the member
that the unleashed one disrupts. -/
theorem ruling_rehearses (e : Engine σ) (g : Group) (seed : UInt64) (spent : Bool)
    (outcome outcome' : String → Outcome) :
    ((e.leash true).ruling g seed spent outcome).Rehearses
      ((e.leash false).ruling g seed spent outcome') := by
  rw [leash_ruling, leash_ruling]
  split
  · exact .same _ nofun nofun
  split
  · exact .same _ nofun nofun
  split
  · exact .same _ nofun nofun
  cases e.drawn g seed with
  | passed roll => exact .same _ nofun nofun
  | nobody => exact .same _ nofun nofun
  | member id => exact .acting id _

theorem turned_rehearses (h : e.Keeps ledger) (g : Group) (seed : UInt64) {s s' : σ}
    (hspent : e.spent ledger now s g.name = e.spent ledger now s' g.name)
    (htime : (e.elapsed s).1 < e.deadline) (htime' : (e.elapsed s').1 < e.deadline)
    (hlog : ¬ (e.leash true).Fails now ⟨g, seed, s⟩)
    (hlog' : ¬ (e.leash false).Fails now ⟨g, seed, s'⟩) :
    ∃ rep rep', ((e.leash true).turned now ⟨g, seed, s⟩).1 = .ok rep ∧
      ((e.leash false).turned now ⟨g, seed, s'⟩).1 = .ok rep' ∧ rep.Rehearses rep' := by
  have hdry := turned_eq_ruling (h.leash true) (t := ⟨g, seed, s⟩) htime hlog
  have hwet := turned_eq_ruling (h.leash false) (t := ⟨g, seed, s'⟩) htime' hlog'
  have hsame : (e.leash true).spent ledger now s g.name = (e.leash false).spent ledger now s' g.name :=
    hspent
  rw [hsame] at hdry
  exact ⟨_, _, hdry, hwet, rfl, ruling_rehearses e g seed _ _ _⟩

/-! ## All turns -/

theorem evaluateAll_rehearses (h : e.Keeps ledger) (seeded : List (Group × UInt64))
    (hnodup : (seeded.map (·.1.name)).Nodup) {s s' : σ}
    (hspent : ∀ turn ∈ seeded, e.spent ledger now s turn.1.name = e.spent ledger now s' turn.1.name)
    (hdry : (e.leash true).Undisturbed now ((e.leash true).turnsFrom now seeded s))
    (hwet : (e.leash false).Undisturbed now ((e.leash false).turnsFrom now seeded s')) :
    ∃ reps reps', ((e.leash true).evaluateAll now seeded s).1 = reps.map .ok ∧
      ((e.leash false).evaluateAll now seeded s').1 = reps'.map .ok ∧
      List.Forall₂ GroupReport.Rehearses reps reps' := by
  induction seeded generalizing s s' with
  | nil => exact ⟨[], [], rfl, rfl, .nil⟩
  | cons turn more ih =>
    obtain ⟨g, seed⟩ := turn
    rw [turnsFrom_cons, Undisturbed, List.forall_mem_cons] at hdry hwet
    obtain ⟨⟨htime, hlog⟩, hdry⟩ := hdry
    obtain ⟨⟨htime', hlog'⟩, hwet⟩ := hwet
    rw [List.map_cons, List.nodup_cons] at hnodup
    obtain ⟨hsame, hspent⟩ := List.forall_mem_cons.mp hspent
    obtain ⟨rep, rep', hrep, hrep', hfirst⟩ :=
      turned_rehearses h g seed hsame htime htime' hlog hlog'
    have hspent' : ∀ turn ∈ more,
        e.spent ledger now ((e.leash true).turned now ⟨g, seed, s⟩).2 turn.1.name =
          e.spent ledger now ((e.leash false).turned now ⟨g, seed, s'⟩).2 turn.1.name := by
      intro turn hturn
      have hne : g.name ≠ turn.1.name := by
        intro heq
        exact hnodup.1 (heq ▸ List.mem_map_of_mem (f := (·.1.name)) hturn)
      have hleft := spent_turned (h.leash true) now (t := ⟨g, seed, s⟩) hne
      have hright := spent_turned (h.leash false) now (t := ⟨g, seed, s'⟩) hne
      exact hleft.trans ((hspent turn hturn).trans hright.symm)
    obtain ⟨reps, reps', hreps, hreps', hrest⟩ := ih hnodup.2 hspent' hdry hwet
    refine ⟨rep :: reps, rep' :: reps', ?_, ?_, .cons hfirst hrest⟩
    · rw [evaluateAll_of_cons, hrep, hreps, List.map_cons]
    · rw [evaluateAll_of_cons, hrep', hreps', List.map_cons]

/-! ## Whole cycles -/

theorem not_acts_of_leashed (hleashed : e.config.leashed = true) (t : Turn σ) (id : String) :
    ¬ e.Acts now t id := fun hacts => absurd (hacts.unleashed.symm.trans hleashed) (by decide)

theorem calls_of_leashed (hleashed : e.config.leashed = true) (now : Instant) (r : Running σ) :
    e.calls now r = [] := by
  rw [calls_eq, List.flatMap_eq_nil_iff]
  intro t _
  exact turnCalls_of_not_acts (not_acts_of_leashed hleashed t)

theorem ledger_of_leashed (h : e.Keeps ledger) (hleashed : e.config.leashed = true) (now : Instant)
    (r : Running σ) : ledger (e.cycle now r).2.world = ledger r.world := by
  have hnone : (e.turns now r).filterMap (e.entry now) = [] := by
    rw [List.filterMap_eq_nil_iff]
    intro t _
    exact entry_of_not_acts (not_acts_of_leashed hleashed t)
  rw [ledger_cycle h.adds r fun _ _ _ _ => h.rejects, hnone, List.append_nil]

theorem allOrFirst_map_ok (values : List α) : allOrFirst (values.map .ok) = .ok values := by
  induction values with
  | nil => rfl
  | cons a values ih => rw [List.map_cons, allOrFirst, ih]; rfl

theorem cycle_of_reports {r : Running σ} {groups : List Group} {reps : List GroupReport}
    (hc : (e.crawled r.world).1 = .ok groups)
    (hall : (e.evaluateAll now (e.seeded r.draws groups) (e.crawled r.world).2).1 = reps.map .ok) :
    ∃ report, (e.cycle now r).1 = .ok report ∧ report.groups = reps := by
  rw [cycle_of_crawl_ok hc, hall, allOrFirst_map_ok]
  exact ⟨_, rfl, rfl⟩

end Engine

/-- A leashed cycle is a rehearsal of the unleashed one from the same state: it gives every listed
group the verdict that it has there, but names the members that are disrupted there; it makes no
call, adds no event, and draws the same. -/
theorem Engine.leash_rehearses {e : Engine σ} {ledger : σ → List Event} (h : e.Keeps ledger)
    (now : Instant) (r : Running σ) {groups : List Group}
    (hcrawl : (e.crawl e.config.allow r.world).1 = .ok groups) (hnodup : (groups.map (·.name)).Nodup)
    (hdry : (e.leash true).Undisturbed now ((e.leash true).turns now r))
    (hwet : (e.leash false).Undisturbed now ((e.leash false).turns now r)) :
    ∃ dry wet, ((e.leash true).cycle now r).1 = .ok dry ∧ ((e.leash false).cycle now r).1 = .ok wet ∧
      dry.groups.map GroupReport.subject =
        (groups.filter fun g => e.config.isListed g.name).map Group.subject ∧
      List.Forall₂ GroupReport.Rehearses dry.groups wet.groups ∧
      (e.leash true).calls now r = [] ∧
      ledger ((e.leash true).cycle now r).2.world = ledger r.world ∧
      ((e.leash true).cycle now r).2.draws = ((e.leash false).cycle now r).2.draws := by
  have hcrawled (on : Bool) : ((e.leash on).crawled r.world).1 = .ok groups := hcrawl
  have hnames : ((e.seeded r.draws groups).map (·.1.name)).Nodup := by
    have hlisted : (e.seeded r.draws groups).map (·.1.name) = (e.listed groups).map (·.name) := by
      rw [← seeded_groups e r.draws groups, List.map_map]
      rfl
    rw [hlisted]
    exact hnodup.sublist (List.filter_sublist.map _)
  rw [turns_of_crawl_ok (hcrawled _)] at hdry hwet
  obtain ⟨reps, reps', hreps, hreps', hall⟩ :=
    evaluateAll_rehearses h (e.seeded r.draws groups) hnames (fun _ _ => rfl) hdry hwet
  obtain ⟨dry, hcycle, rfl⟩ := cycle_of_reports (hcrawled true) hreps
  obtain ⟨wet, hcycle', rfl⟩ := cycle_of_reports (hcrawled false) hreps'
  refine ⟨dry, wet, hcycle, hcycle', ?_, hall, calls_of_leashed rfl now r,
    ledger_of_leashed (h.leash true) rfl now r, ?_⟩
  · obtain ⟨groups', hcrawl', hsubjects⟩ := subjects_of_ok hcycle
    cases hcrawl.symm.trans hcrawl'
    exact hsubjects
  · rw [cycle_draws (hcrawled true), cycle_draws (hcrawled false)]
    rfl

/-- A drill of three groups, one of them without members, that are terminated at every chance. -/
def Engine.sundry : Engine (List Event × Unit) :=
  .beside { Config.standard with groupDefaults := ⟨true, .ofNat 1, .terminate⟩ }
    (fun _ => pure (.ok
      [⟨"web", .cloud, ["i-1", "i-2"]⟩, ⟨"idle", .cloud, []⟩, ⟨"db", .cloud, ["i-3"]⟩]))
    { backend := "command"
      terminate := fun _ => pure (.ok ())
      credentials := fun id => pure (.error (.credentialsDisabled id))
      runScript := fun id _ _ => pure (.error (.instanceNotFound id)) }
    (pure 0)

theorem Engine.sundry_undisturbed (on : Bool) (turns : List (Turn (List Event × Unit))) :
    (sundry.leash on).Undisturbed ⟨0, 0⟩ turns := by
  intro t _
  exact ⟨by show 0 < sundry.deadline; decide, beside_not_fails _ _ _ _ _ _⟩

/-- The rehearsal of the sundry drill beside the drill itself. -/
theorem sundry_rehearses :
    let r : Engine.Running (List Event × Unit) := ⟨.seeded 7, [], ()⟩
    ((((Engine.sundry.leash true).cycle ⟨0, 0⟩ r).1.toOption.map (·.groups.map (·.verdict)) =
        some [.leashed "i-2", .emptyGroup, .leashed "i-3"]) ∧
      (((Engine.sundry.leash false).cycle ⟨0, 0⟩ r).1.toOption.map (·.groups.map (·.verdict)) =
        some [.disrupted "i-2" .succeeded, .emptyGroup, .disrupted "i-3" .succeeded])) ∧
      ∃ dry wet, ((Engine.sundry.leash true).cycle ⟨0, 0⟩ r).1 = .ok dry ∧
        ((Engine.sundry.leash false).cycle ⟨0, 0⟩ r).1 = .ok wet ∧
        List.Forall₂ GroupReport.Rehearses dry.groups wet.groups := by
  intro r
  refine ⟨by decide +kernel, ?_⟩
  obtain ⟨dry, wet, hdry, hwet, -, hall, -⟩ := Engine.leash_rehearses (Engine.beside_keeps ..)
    ⟨0, 0⟩ r (e := Engine.sundry) rfl (by decide) (Engine.sundry_undisturbed true _)
    (Engine.sundry_undisturbed false _)
  exact ⟨dry, wet, hdry, hwet, hall⟩

end FaultDrill
