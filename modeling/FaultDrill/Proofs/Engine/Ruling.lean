import FaultDrill.Proofs.Engine.Outage
/-!
# Rulings

What a turn decides when it is in time and the log works. `ruling` is the verdict as a function of
what the turn finds: the group and its seed, whether the ledger has its window spent, and what an
attempt on a member would come to. Of the ledger a turn sees no more than that, and no turn spends
the window of another group (`spent_turned`).
-/
namespace FaultDrill.Engine

variable {e : Engine σ} {ledger : σ → List Event} {now : Instant} {t : Turn σ}

/-- The verdict on a group in time, given whether its window is spent and the outcomes that attempts
on its members would have. -/
def ruling (e : Engine σ) (g : Group) (seed : UInt64) (spent : Bool) (outcome : String → Outcome) :
    Verdict :=
  if e.config.groupEnabled g.name = false then .disabled
  else if g.isEmpty then .emptyGroup
  else if spent then .alreadyHit
  else match e.drawn g seed with
    | .passed roll => .notSelected roll (e.config.probability g.name)
    | .nobody => .emptyGroup
    | .member id => if e.config.leashed then .leashed id else .disrupted id (outcome id)

/-- Whether the ledger has the window of a group spent. -/
def spent (e : Engine σ) (ledger : σ → List Event) (now : Instant) (s : σ) (group : String) : Bool :=
  (ledger s).any (·.countsFor group (windowStart now e.config.window))

theorem asked_eq_spent (h : e.Keeps ledger) {g : Group} {s : σ} {hit : Bool}
    (hasked : (e.asked now g s).1 = .ok hit) : hit = e.spent ledger now s g.name := by
  rw [spent, ← h.elapsed s]
  exact h.log.answer _ _ _ _ hasked

/-- A turn whose group draws is ruled on by what is drawn. -/
theorem judge_of_drawn (hdraws : e.Draws now t.group t.world) (hlog : ¬ e.Fails now t)
    {spent : Bool} (hspent : spent = false) :
    (e.judge now t.group t.seed t.world).1 =
      .ok (e.ruling t.group t.seed spent fun id => (e.eventOn now t id).outcome) := by
  rw [ruling, if_neg (by rw [hdraws.enabled]; decide), if_neg (by rw [hdraws.inhabited]; decide),
    if_neg (by rw [hspent]; decide)]
  cases hdrawn : e.drawn t.group t.seed with
  | passed roll => rw [judge_of_draws hdraws, hdrawn]; rfl
  | nobody => rw [judge_of_draws hdraws, hdrawn]; rfl
  | member id =>
    cases hleashed : e.config.leashed with
    | true => rw [judge_of_draws hdraws, hdrawn, actOn, if_pos hleashed]; rfl
    | false =>
      have hacts : e.Acts now t id := ⟨hdraws, hdrawn, hleashed⟩
      rw [hacts.judge_eq]
      cases hanswer : (e.answerOn now t id).1 with
      | ok _ => rfl
      | error why => exact absurd (.inr ⟨id, hacts, why, hanswer⟩) hlog

/-- The ruling is the verdict of a turn that is in time and in which the log does not fail. -/
theorem judge_eq_ruling (h : e.Keeps ledger) (htime : (e.elapsed t.world).1 < e.deadline)
    (hlog : ¬ e.Fails now t) :
    (e.judge now t.group t.seed t.world).1 =
      .ok (e.ruling t.group t.seed (e.spent ledger now t.world t.group.name) fun id =>
        (e.eventOn now t id).outcome) := by
  cases henabled : e.config.groupEnabled t.group.name with
  | false => rw [judge_of_disabled htime henabled, ruling, if_pos henabled]
  | true =>
    cases hempty : t.group.isEmpty with
    | true =>
      rw [judge_of_empty htime henabled hempty, ruling, if_neg (by rw [henabled]; decide),
        if_pos hempty]
    | false =>
      have hasks : e.Asks t.group t.world := ⟨htime, henabled, hempty⟩
      cases hasked : (e.asked now t.group t.world).1 with
      | error why => exact absurd (.inl ⟨hasks, why, hasked⟩) hlog
      | ok hit =>
        have hspent := asked_eq_spent h hasked
        cases hit with
        | true =>
          rw [judge_of_asks hasks, hasked, ruling, if_neg (by rw [henabled]; decide),
            if_neg (by rw [hempty]; decide), if_pos hspent.symm]
          rfl
        | false => exact judge_of_drawn ⟨hasks, hasked⟩ hlog hspent.symm

theorem turned_eq_ruling (h : e.Keeps ledger) (htime : (e.elapsed t.world).1 < e.deadline)
    (hlog : ¬ e.Fails now t) :
    (e.turned now t).1 = .ok ⟨t.group.name, t.group.kind, t.group.members.length,
      e.ruling t.group t.seed (e.spent ledger now t.world t.group.name) fun id =>
        (e.eventOn now t id).outcome⟩ := by
  rw [fst_of_eq (turned_eq e now t), judge_eq_ruling h htime hlog]
  rfl

/-! ## Turns of other groups -/

theorem Keeps.rejects (h : e.Keeps ledger) : e.Rejects ledger := h.log.append_error

/-- The event that a turn adds is about its own group. -/
theorem countsFor_of_entry {ev : Event} (hentry : e.entry now t = some ev) {group : String}
    (hne : t.group.name ≠ group) (start : Instant) : ev.countsFor group start = false := by
  obtain ⟨id, -, rfl, -⟩ := entry_eq_some_iff.mp hentry
  rw [Event.countsFor, beq_false_of_ne (show (e.eventOn now t id).group ≠ group from hne)]
  rfl

/-- A turn spends the window of no other group. -/
theorem spent_turned (h : e.Keeps ledger) (now : Instant) {t : Turn σ} {group : String}
    (hne : t.group.name ≠ group) :
    e.spent ledger now (e.turned now t).2 group = e.spent ledger now t.world group := by
  rw [spent, spent, ledger_turned h.adds fun _ _ => h.rejects, List.any_append]
  cases hentry : e.entry now t with
  | none => rw [Option.toList_none, List.any_nil, Bool.or_false]
  | some ev =>
    rw [Option.toList_some, List.any_cons, countsFor_of_entry hentry hne, List.any_nil,
      Bool.or_false, Bool.or_false]

/-- The turns of a cycle are in time, and the log does not fail in them. -/
def Undisturbed (e : Engine σ) (now : Instant) (turns : List (Turn σ)) : Prop :=
  ∀ t ∈ turns, (e.elapsed t.world).1 < e.deadline ∧ ¬ e.Fails now t

/-- A log in memory never fails. -/
theorem beside_not_fails (config : Config)
    (crawl : List String → StateM κ (Except Fault (List Group))) (client : Client κ)
    (elapsed : StateM κ Nat) (now : Instant) (t : Turn (List Event × κ)) :
    ¬ (beside config crawl client elapsed).Fails now t := by
  rintro (⟨-, why, hasked⟩ | ⟨id, -, why, hanswer⟩)
  · cases hasked
  · cases hanswer

end FaultDrill.Engine
