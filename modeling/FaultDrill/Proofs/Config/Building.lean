import FaultDrill.Config
import FaultDrill.Proofs.Binary64.Unit
import FaultDrill.Proofs.Document.Record
/-!
# Configurations from documents

What is known of a configuration that was made from a document. Each of its settings is the one of
the document or a standard value, the settings of a group are those of the last entry with its name
(`Built`), and all of them passed their checks (`Built.valid`).
-/
namespace FaultDrill

namespace Config
open Document

/-! ## Checks -/

/-- A value that is read from a text, if there is one. -/
def Parsed (parse : String → Except ε α) (raw? : Option String) (fallback value : α) : Prop :=
  match raw? with
  | none => value = fallback
  | some raw => parse raw = .ok value

theorem checkProbability_eq_ok_iff {scope : String} {p q : Binary64} :
    checkProbability scope p = .ok q ↔ p.InUnit ∧ p = q := by
  rw [checkProbability, Binary64.inUnit_iff]
  generalize (Binary64.zero.le p && p.le (.ofNat 1)) = inside
  cases inside <;> simp

theorem parsed_of_spanOr {setting : String} {standard span : Span} {raw? : Option String}
    (h : spanOr setting standard raw? = .ok span) : Parsed Span.parse raw? standard span := by
  cases raw? with
  | none => exact (Except.ok.inj h).symm
  | some raw =>
    rw [spanOr] at h
    exact mapError_eq_ok_iff.mp h

/-- A probability of a group's own is kept as it is. -/
theorem checked_of_mapM {scope : String} {x? y? : Option Binary64}
    (h : x?.mapM (checkProbability scope) = .ok y?) :
    y? = x? ∧ ∀ x, x? = some x → x.InUnit := by
  obtain ⟨rfl, rfl⟩ | ⟨x, y, rfl, rfl, hx⟩ := Option.mapM_eq_ok h
  · exact ⟨rfl, nofun⟩
  · obtain ⟨hunit, rfl⟩ := checkProbability_eq_ok_iff.mp hx
    exact ⟨rfl, fun _ hsome => Option.some.inj hsome ▸ hunit⟩

/-- A probability for all groups is kept as it is, and only the standard one is not checked. -/
theorem checked_of_elim {scope : String} {standard p : Binary64} {x? : Option Binary64}
    (h : x?.elim (pure standard) (checkProbability scope) = .ok p) :
    p = x?.getD standard ∧ ∀ x, x? = some x → x.InUnit := by
  cases x? with
  | none => exact ⟨(Except.ok.inj h).symm, nofun⟩
  | some x =>
    rw [Option.elim_some] at h
    obtain ⟨hunit, rfl⟩ := checkProbability_eq_ok_iff.mp h
    exact ⟨rfl, fun _ hsome => Option.some.inj hsome ▸ hunit⟩

/-- The disruption that a text names. -/
def Surroundings.parse (around : Surroundings) (raw : String) : Except Disruption.Fault Disruption :=
  Disruption.parse around.files around.home around.base raw

theorem parse_of_disruptionOf {around : Surroundings} {group : Option String} {raw : String}
    {d : Disruption} (h : disruptionOf around group raw = .ok d) : around.parse raw = .ok d :=
  mapError_eq_ok_iff.mp h

theorem parsed_of_elim {around : Surroundings} {group raw? : Option String}
    {standard d : Disruption} (h : raw?.elim (pure standard) (disruptionOf around group) = .ok d) :
    Parsed around.parse raw? standard d := by
  cases raw? with
  | none => exact (Except.ok.inj h).symm
  | some raw =>
    rw [Option.elim_some] at h
    exact parse_of_disruptionOf h

theorem parse_eq_terminate {around : Surroundings} {raw : String}
    (h : Text.lowerAscii (Text.trim raw) = "terminate") : around.parse raw = .ok .terminate := by
  rw [Surroundings.parse, Disruption.parse, if_pos h]

theorem workers_eq_ok {n? : Option Nat} {n : Nat} (h : workers n? = .ok n) :
    1 ≤ n ∧ n = n?.getD standard.maxConcurrency := by
  match n? with
  | none =>
    cases h
    exact ⟨by decide, rfl⟩
  | some 0 => cases h
  | some (m + 1) =>
    cases h
    exact ⟨by omega, rfl⟩

/-- The script to fall back on is the one that is named; where a text names none, nothing loads. -/
theorem fallback_eq_ok {around : Surroundings} {raw? : Option String} {s? : Option Script}
    (h : fallback around raw? = .ok s?) :
    (raw? = none ∧ s? = none) ∨
      ∃ raw s, raw? = some raw ∧ s? = some s ∧ around.parse raw = .ok (.script s) := by
  cases raw? with
  | none => exact .inl ⟨rfl, (Except.ok.inj h).symm⟩
  | some raw =>
    obtain ⟨d, hd, h⟩ := bind_eq_ok_iff.mp h
    cases d with
    | terminate => cases h
    | script s => exact .inr ⟨raw, s, rfl, (Except.ok.inj h).symm, parse_of_disruptionOf hd⟩

/-! ## Settings of groups -/

/-- The settings of a group, from its document. -/
structure GroupPolicy.Of (around : Surroundings) (d : GroupDocument) (p : GroupPolicy) : Prop where
  enabled : p.enabled = d.enabled
  probability : p.probability = d.probability
  inUnit : ∀ x, d.probability = some x → x.InUnit
  disruption : ∀ m, p.disruption = some m ↔ ∃ raw, d.disruption = some raw ∧ around.parse raw = .ok m

theorem groupPolicy_eq_ok {around : Surroundings} {name : String} {d : GroupDocument}
    {p : GroupPolicy} (h : groupPolicy around name d = .ok p) : GroupPolicy.Of around d p := by
  obtain ⟨probability, hprobability, h⟩ := bind_eq_ok_iff.mp h
  obtain ⟨disruption, hdisruption, h⟩ := bind_eq_ok_iff.mp h
  cases h
  obtain ⟨hkept, hunit⟩ := checked_of_mapM hprobability
  refine ⟨rfl, hkept, hunit, ?_⟩
  intro m
  obtain ⟨hnone, rfl⟩ | ⟨raw, m', hsome, rfl, hm'⟩ := Option.mapM_eq_ok hdisruption
  · simp [hnone]
  · simp [hsome, parse_of_disruptionOf hm']

/-- The settings for all groups, from their document. -/
structure GroupDefaults.Of (around : Surroundings) (d : GroupDocument) (g : GroupDefaults) :
    Prop where
  enabled : g.enabled = d.enabled.getD standard.groupDefaults.enabled
  probability : g.probability = d.probability.getD standard.groupDefaults.probability
  inUnit : ∀ x, d.probability = some x → x.InUnit
  disruption : Parsed around.parse d.disruption standard.groupDefaults.disruption g.disruption

-- The continuation of the definition stands in every branch of its two choices; here it stands once.
theorem groupDefaultsOf_eq (around : Surroundings) (d : GroupDocument) :
    groupDefaultsOf around d = (do
      let p ← d.probability.elim (pure standard.groupDefaults.probability)
        (checkProbability "group_defaults")
      let m ← d.disruption.elim (pure standard.groupDefaults.disruption) (disruptionOf around none)
      return ⟨d.enabled.getD standard.groupDefaults.enabled, p, m⟩) := by
  rw [groupDefaultsOf]
  cases d.probability <;> cases d.disruption <;> simp only [Option.elim_none, Option.elim_some]

theorem groupDefaultsOf_eq_ok {around : Surroundings} {d : GroupDocument} {g : GroupDefaults}
    (h : groupDefaultsOf around d = .ok g) : GroupDefaults.Of around d g := by
  rw [groupDefaultsOf_eq] at h
  obtain ⟨p, hp, h⟩ := bind_eq_ok_iff.mp h
  obtain ⟨m, hm, h⟩ := bind_eq_ok_iff.mp h
  cases h
  obtain ⟨hkept, hunit⟩ := checked_of_elim hp
  exact ⟨rfl, hkept, hunit, parsed_of_elim hm⟩

/-! ## Groups by name -/

theorem isSome_lastValue? (name : String) (l : List (String × α)) :
    (lastValue? name l).isSome = l.any (·.1 == name) := by
  induction l with
  | nil => rfl
  | cons entry more ih =>
    obtain ⟨k, a⟩ := entry
    rw [lastValue?, Option.isSome_or, ih, List.any_cons, Bool.or_comm]
    by_cases hk : k = name <;> simp [hk]

/-- Of values with the same name the last one stays. -/
theorem lookup_lastByName (l : List (String × α)) (name : String) :
    (lastByName l).lookup name = lastValue? name l := by
  induction l with
  | nil => rfl
  | cons entry more ih =>
    obtain ⟨k, a⟩ := entry
    have hsome := isSome_lastValue? name more
    rw [lastByName, lastValue?]
    by_cases hk : k = name
    · subst hk
      cases hlast : lastValue? k more with
      | none =>
        rw [hlast] at hsome
        rw [if_neg (by simp [← hsome]), List.lookup_cons_self]
        simp
      | some b =>
        rw [hlast] at hsome
        rw [if_pos (by rw [← hsome]; rfl), ih, hlast]
        rfl
    · have hbeq : (name == k) = false := by simpa using Ne.symm hk
      rw [if_neg hk, Option.or_none]
      split
      · exact ih
      · rw [List.lookup_cons, hbeq]
        exact ih

theorem lookup_rel {R : α → β → Prop} {l : List (String × α)} {m : List (String × β)}
    (h : List.Forall₂ (fun p q => p.1 = q.1 ∧ R p.2 q.2) l m) (name : String) :
    Option.Rel R (l.lookup name) (m.lookup name) := by
  induction h with
  | nil => exact .none
  | @cons p q l m hfirst _ ih =>
    obtain ⟨k, a⟩ := p
    obtain ⟨k', b⟩ := q
    obtain ⟨rfl, hab⟩ := hfirst
    rw [List.lookup_cons, List.lookup_cons]
    cases name == k with
    | true => exact .some hab
    | false => exact ih

/-! ## From document to configuration -/

/-- What a configuration has from its document. -/
structure Built (around : Surroundings) (d : ConfigDocument) (c : Config) : Prop where
  enabled : c.enabled = d.enabled.getD standard.enabled
  window : Parsed Span.parse d.window standard.window c.window
  window_ne_zero : c.window.millis ≠ 0
  groupDefaults : GroupDefaults.Of around d.groupDefaults c.groupDefaults
  groups : ∀ group, Option.Rel (GroupPolicy.Of around) (lastValue? group d.groups) (c.policy? group)
  workers : workers d.maxConcurrency = .ok c.maxConcurrency
  fallbackScript : fallback around d.fallbackScript = .ok c.fallbackScript

/-- What a document has to give for a configuration, and what the configuration has from it. -/
theorem ofDocument_eq_ok {around : Surroundings} {d : ConfigDocument} {c : Config}
    (h : ofDocument around d = .ok c) :
    Built around d c ∧ sshSettings around d.ssh = .ok c.ssh := by
  obtain ⟨window, hwindow, h⟩ := bind_eq_ok_iff.mp h
  dsimp only at h
  split at h
  · obtain ⟨_, hthrown, -⟩ := bind_eq_ok_iff.mp h
    cases hthrown
  · rename_i hzero
    simp only [bind_eq_ok_iff] at h
    obtain ⟨groupDefaults, hdefaults, groups, hgroups, ssh, hssh, workers, hworkers, deadline, -,
      interval, -, timeout, -, fallback, hfallback, h⟩ := h
    cases h
    refine ⟨⟨rfl, parsed_of_spanOr hwindow, hzero, groupDefaultsOf_eq_ok hdefaults, ?_, hworkers,
      hfallback⟩, hssh⟩
    intro group
    rw [← lookup_lastByName]
    refine lookup_rel ((forall₂_of_mapM hgroups).imp ?_) group
    rintro ⟨name, g⟩ ⟨name', p⟩ hread
    obtain ⟨p', hp, hread⟩ := bind_eq_ok_iff.mp hread
    cases hread
    exact ⟨rfl, groupPolicy_eq_ok hp⟩

/-! ## Valid configurations -/

/-- A configuration whose settings are all in range. The script to fall back on is a script by its
type. -/
structure Valid (c : Config) : Prop where
  window : 1 ≤ c.window.millis
  defaultProbability : c.groupDefaults.probability.InUnit
  probability : ∀ group, (c.probability group).InUnit
  maxConcurrency : 1 ≤ c.maxConcurrency

theorem standard_probability : standard.groupDefaults.probability = .ofNat 1 := by
  simp only [standard]

theorem standard_inUnit : standard.groupDefaults.probability.InUnit := by
  rw [standard_probability]
  exact Binary64.inUnit_one

/-- The probabilities of groups of their own are in range. -/
theorem Built.own_inUnit {around : Surroundings} {d : ConfigDocument} {c : Config}
    (h : Built around d c) {group : String} {x : Binary64}
    (hx : (c.policy? group).bind (·.probability) = some x) : x.InUnit := by
  obtain ⟨p, hp, hx⟩ := Option.bind_eq_some_iff.mp hx
  have hgroup := h.groups group
  rw [hp] at hgroup
  obtain ⟨gd, -, hof⟩ := exists_of_rel_some hgroup
  exact hof.inUnit x (hof.probability ▸ hx)

theorem Built.valid {around : Surroundings} {d : ConfigDocument} {c : Config}
    (h : Built around d c) : c.Valid := by
  have hdefault : c.groupDefaults.probability.InUnit := by
    rw [h.groupDefaults.probability]
    cases hp : d.groupDefaults.probability with
    | none => exact standard_inUnit
    | some x => exact h.groupDefaults.inUnit x hp
  refine ⟨Nat.pos_of_ne_zero h.window_ne_zero, hdefault, ?_, (workers_eq_ok h.workers).1⟩
  intro group
  rw [probability]
  cases hown : (c.policy? group).bind (·.probability) with
  | none => exact hdefault
  | some x => exact h.own_inUnit hown

end Config
end FaultDrill
