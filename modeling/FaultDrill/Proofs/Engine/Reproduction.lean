import FaultDrill.Proofs.Draw.Lot
import FaultDrill.Proofs.Engine.Account
import FaultDrill.Proofs.Engine.Spending
/-!
# Runs with one seed

Two engines that were given the same seed, and have nothing else in common, are run side by side. A
cycle draws one word for each group that it lists, whatever becomes of the groups, so the source
knows no more of a run than how many groups were listed (`afterCycles_draws`). As long as these
numbers are the same in both runs, the groups at one place of the two lists get the same seed, and by
it the same lot; a turn looks at its lot for everything that it draws (`goesBy_ofSeed`).
-/
namespace FaultDrill
open Draw

namespace Engine

variable {e : Engine σ} {now : Instant} {t : Turn σ}

/-! ## What the source knows of a run -/

/-- How many groups a cycle lists; none where the crawl fails. -/
def listedCount (e : Engine σ) (r : Running σ) : Nat :=
  match (e.crawled r.world).1 with
  | .error _ => 0
  | .ok groups => (e.listed groups).length

/-- How many groups each cycle of a run lists. -/
def listedCounts (e : Engine σ) : List Instant → Running σ → List Nat
  | [], _ => []
  | now :: more, r => e.listedCount r :: e.listedCounts more (e.cycle now r).2

/-- How many groups the cycles of a run list together. -/
def listedTotal (e : Engine σ) (times : List Instant) (r : Running σ) : Nat :=
  (e.listedCounts times r).foldr (· + ·) 0

/-- A cycle draws one word for each listed group, whether or not it comes to a report. -/
theorem cycle_skip (e : Engine σ) (now : Instant) (r : Running σ) :
    (e.cycle now r).2.draws = r.draws.skip (e.listedCount r) := by
  rw [listedCount]
  cases hc : (e.crawled r.world).1 with
  | error why => rw [cycle_of_crawl_error hc]; rfl
  | ok groups => rw [cycle_draws hc, Source.words64_snd]

theorem afterCycles_draws (e : Engine σ) (times : List Instant) (r : Running σ) :
    (e.afterCycles times r).draws = r.draws.skip (e.listedTotal times r) := by
  induction times generalizing r with
  | nil => rfl
  | cons now more ih =>
    rw [afterCycles, ih, cycle_skip, Source.skip_skip, listedTotal, listedTotal, listedCounts,
      List.foldr_cons]

theorem turnsFrom_seeds (e : Engine σ) (now : Instant) (seeded : List (Group × UInt64)) (s : σ) :
    (e.turnsFrom now seeded s).map (·.seed) = seeded.map Prod.snd := by
  conv_rhs => rw [← turnsFrom_map e now seeded s, List.map_map]
  rfl

theorem turns_seeds (e : Engine σ) (now : Instant) (r : Running σ) :
    (e.turns now r).map (·.seed) = (r.draws.words64 (e.listedCount r)).1 := by
  rw [listedCount]
  cases hc : (e.crawled r.world).1 with
  | error why => rw [turns_of_crawl_error hc]; rfl
  | ok groups =>
    rw [turns_of_crawl_ok hc, turnsFrom_seeds, seeded, List.map_snd_zip]
    exact Nat.le_of_eq (Source.length_words64 ..)

/-- The seed at a place of the list is the word at that place behind those of the cycles before. -/
theorem seed_eq_wordAt {times : List Instant} {r : Running σ} {i : Nat}
    (h : (e.turns now (e.afterCycles times r))[i]? = some t) :
    t.seed = r.draws.wordAt (e.listedTotal times r + i) := by
  have hseed := congrArg (Option.map (·.seed)) h
  rw [← List.getElem?_map, turns_seeds, Source.getElem?_words64, afterCycles_draws,
    Source.wordAt_skip] at hseed
  split at hseed
  · exact (Option.some.inj hseed).symm
  · cases hseed

/-! ## What a turn draws -/

/-- The turn draws a number, to be held against the probability of its group. -/
def Rolls (e : Engine σ) (now : Instant) (t : Turn σ) (roll : Binary64) : Prop :=
  e.Draws now t.group t.world ∧ (Source.seeded t.seed).roll.1 = roll

/-- The turn wins against its number, and draws the index of a member. -/
def Picks (e : Engine σ) (now : Instant) (t : Turn σ) (index : Nat) : Prop :=
  e.Draws now t.group t.world ∧ (e.eligibility t.group).isEligible = true ∧
    (e.config.probability t.group.name).le (Source.seeded t.seed).roll.1 = false ∧
    (Source.seeded t.seed).roll.2.pick t.group.members.length = index

/-- A turn that takes all that it draws from a lot. -/
structure GoesBy (e : Engine σ) (now : Instant) (t : Turn σ) (lot : Lot) : Prop where
  roll : ∀ roll, e.Rolls now t roll → roll = lot.roll
  index : ∀ index, e.Picks now t index → index = lot.index t.group.members.length
  /-- A group that draws is dealt with as the lot has it. -/
  drawing : e.Draws now t.group t.world → e.judge now t.group t.seed t.world =
    e.actOn now t.group (lot.selection (e.eligibility t.group) t.group.members)
      (e.asked now t.group t.world).2
  /-- For any other group the seed does not matter. -/
  otherwise : ¬ e.Draws now t.group t.world → ∀ seed,
    e.judge now t.group t.seed t.world = e.judge now t.group seed t.world

theorem judge_of_not_asks {g : Group} {s : σ} (h : ¬ e.Asks g s) (seed seed' : UInt64) :
    e.judge now g seed s = e.judge now g seed' s := by
  by_cases htime : (e.elapsed s).1 < e.deadline
  · cases henabled : e.config.groupEnabled g.name with
    | false => rw [judge_of_disabled htime henabled, judge_of_disabled htime henabled]
    | true =>
      cases hempty : g.isEmpty with
      | false => exact absurd ⟨htime, henabled, hempty⟩ h
      | true => rw [judge_of_empty htime henabled hempty, judge_of_empty htime henabled hempty]
  · have hlate : e.deadline ≤ (e.elapsed s).1 := Nat.le_of_not_lt htime
    rw [judge_of_late hlate, judge_of_late hlate]

theorem judge_of_not_draws {g : Group} {s : σ} (h : ¬ e.Draws now g s) (seed seed' : UInt64) :
    e.judge now g seed s = e.judge now g seed' s := by
  by_cases hasks : e.Asks g s
  · rw [judge_of_asks hasks, judge_of_asks hasks]
    cases hasked : (e.asked now g s).1 with
    | error why => rfl
    | ok hit =>
      cases hit with
      | true => rfl
      | false => exact absurd ⟨hasks, hasked⟩ h
  · exact judge_of_not_asks hasks seed seed'

theorem goesBy_ofSeed (e : Engine σ) (now : Instant) (t : Turn σ) :
    e.GoesBy now t (Lot.ofSeed t.seed) where
  roll := by
    rintro roll ⟨-, hroll⟩
    exact hroll.symm
  index := by
    rintro index ⟨-, -, -, hindex⟩
    exact hindex.symm
  drawing := by
    intro hdraws
    rw [judge_of_draws hdraws, drawn, select_eq_selection]
  otherwise := by
    intro hnot seed
    exact judge_of_not_draws hnot t.seed seed

end Engine

/-- Two runs with one seed, of engines that may differ in all else, in which each cycle so far listed
as many groups in the one as in the other. The groups at one place of the current cycles have the
same seed, and their turns go by the same lot. -/
theorem Engine.turns_share_lots (e : Engine σ) (e' : Engine τ) (seed : UInt64) (world : σ) (world' : τ)
    (times times' : List Instant)
    (hcounts : e.listedCounts times ⟨.seeded seed, world⟩ =
      e'.listedCounts times' ⟨.seeded seed, world'⟩)
    (now now' : Instant) (place : Nat) {t : Turn σ} {t' : Turn τ}
    (ht : (e.turns now (e.afterCycles times ⟨.seeded seed, world⟩))[place]? = some t)
    (ht' : (e'.turns now' (e'.afterCycles times' ⟨.seeded seed, world'⟩))[place]? = some t') :
    t.seed = t'.seed ∧ ∃ lot, e.GoesBy now t lot ∧ e'.GoesBy now' t' lot := by
  have hseeds : t.seed = t'.seed := by
    rw [seed_eq_wordAt ht, seed_eq_wordAt ht', listedTotal, listedTotal, hcounts]
  refine ⟨hseeds, Draw.Lot.ofSeed t.seed, goesBy_ofSeed e now t, ?_⟩
  rw [hseeds]
  exact goesBy_ofSeed e' now' t'

/-- A drill of two groups that are terminated at every chance. -/
def Engine.calm : Engine (List Event × Unit) :=
  .beside { Config.standard with groupDefaults := ⟨true, .ofNat 1, .terminate⟩ }
    (fun _ => pure (.ok [⟨"web", .cloud, ["i-1", "i-2"]⟩, ⟨"db", .cloud, ["d-1", "d-2", "d-3"]⟩]))
    { backend := "command"
      terminate := fun _ => pure (.ok ())
      credentials := fun id => pure (.error (.credentialsDisabled id))
      runScript := fun id _ _ => pure (.error (.instanceNotFound id)) }
    (pure 0)

/-- A leashed drill of three groups, of which one is not listed and one cannot be looked up in the
log, so that no cycle comes to a report. -/
def Engine.troubled : Engine Unit where
  config := { Config.standard with
    leashed := true
    deny := ["spare"]
    groupDefaults := ⟨true, .ofNat 1, .terminate⟩ }
  crawl _ := pure (.ok [⟨"lost", .localMachines, ["l-1"]⟩, ⟨"spare", .localMachines, ["s-1"]⟩,
    ⟨"app", .localMachines, ["a-1", "a-2", "a-3"]⟩])
  client :=
    { backend := "local"
      terminate := fun _ => pure (.error (.unsupported "local" "terminate"))
      credentials := fun id => pure (.error (.instanceNotFound id))
      runScript := fun id _ _ => pure (.error (.instanceNotFound id)) }
  log :=
    { hasRecent := fun group _ =>
        pure (if group = "lost" then .error (.ledgerUnavailable "torn") else .ok false)
      append := fun _ => pure (.ok ()) }
  elapsed := pure 0

/-- In their third cycles both drills pick the third of three members, though in one of them all
groups were disrupted and then found spent, and in the other no cycle had a report. -/
theorem calm_troubled_share_lots :
    ∃ t t', (Engine.calm.turns ⟨90000, 0⟩
          (Engine.calm.afterCycles [⟨0, 0⟩, ⟨1, 0⟩] ⟨.seeded 7, [], ()⟩))[1]? = some t ∧
      (Engine.troubled.turns ⟨5, 0⟩
          (Engine.troubled.afterCycles [⟨0, 0⟩, ⟨0, 0⟩] ⟨.seeded 7, ()⟩))[1]? = some t' ∧
      (Engine.calm.judge ⟨90000, 0⟩ t.group t.seed t.world).1 = .ok (.disrupted "d-3" .succeeded) ∧
      (Engine.troubled.judge ⟨5, 0⟩ t'.group t'.seed t'.world).1 = .ok (.leashed "a-3") ∧
      t.seed = t'.seed ∧
      ∃ lot, Engine.calm.GoesBy ⟨90000, 0⟩ t lot ∧ Engine.troubled.GoesBy ⟨5, 0⟩ t' lot := by
  have hcalm : (Engine.calm.turns ⟨90000, 0⟩
      (Engine.calm.afterCycles [⟨0, 0⟩, ⟨1, 0⟩] ⟨.seeded 7, [], ()⟩))[1]?.map
        (fun t => (Engine.calm.judge ⟨90000, 0⟩ t.group t.seed t.world).1) =
      some (.ok (.disrupted "d-3" .succeeded)) := by decide +kernel
  have htroubled : (Engine.troubled.turns ⟨5, 0⟩
      (Engine.troubled.afterCycles [⟨0, 0⟩, ⟨0, 0⟩] ⟨.seeded 7, ()⟩))[1]?.map
        (fun t => (Engine.troubled.judge ⟨5, 0⟩ t.group t.seed t.world).1) =
      some (.ok (.leashed "a-3")) := by decide +kernel
  obtain ⟨t, ht, hjudge⟩ := Option.map_eq_some_iff.mp hcalm
  obtain ⟨t', ht', hjudge'⟩ := Option.map_eq_some_iff.mp htroubled
  refine ⟨t, t', ht, ht', hjudge, hjudge', ?_⟩
  have hcounts : Engine.calm.listedCounts [⟨0, 0⟩, ⟨1, 0⟩] ⟨.seeded 7, [], ()⟩ =
      Engine.troubled.listedCounts [⟨0, 0⟩, ⟨0, 0⟩] ⟨.seeded 7, ()⟩ := by decide +kernel
  exact Engine.turns_share_lots Engine.calm Engine.troubled 7 ([], ()) () _ _ hcounts
    ⟨90000, 0⟩ ⟨5, 0⟩ 1 ht ht'

end FaultDrill
