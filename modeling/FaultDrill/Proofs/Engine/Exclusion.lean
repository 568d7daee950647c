import Mathlib.Logic.Function.Basic
import FaultDrill.Proofs.Engine.Agreement
import FaultDrill.Proofs.Engine.Spending
/-!
# Groups under locks

A turn asks the log about its group long before it adds an event, and beside it others go on. What
keeps the answer true until then is the lock of the group: the work of a turn is `Work.Guarded`, it
calls and adds only where the log has denied under the lock that the window is spent. Two turns of
groups with one name are never under the lock at the same time (`Guards.alone`). So with any number
of workers, too, no call is made for a group whose window is spent (`calls_beside`), and no window is
spent a second time (`afterCyclesBy_ascendsFrom`).
-/
namespace FaultDrill

/-- How far work has come under the lock of its group. -/
inductive Stage where
  /-- It does not have the lock. -/
  | outside
  /-- It has the lock. -/
  | inside
  /-- It has the lock, and under it the log has denied that the window is spent. -/
  | cleared
  deriving DecidableEq, Repr

namespace Stage

/-- Where the answer to a deed leads. -/
def after : Stage → (d : Deed) → d.Answer → Stage
  | _, .ask .., .ok false => cleared
  | _, .ask .., _ => inside
  | _, .append _, _ => inside
  | stage, _, _ => stage

/-- Whether a deed may be done in the turn of a group: the log is asked about the group's window
under the lock, and only where it denies there are calls and an event of the group. -/
def Allows (window : Span) (now : Instant) (group : String) : Stage → Deed → Prop
  | _, .clock => True
  | stage, .ask g start => stage ≠ outside ∧ g = group ∧ start = windowStart now window
  | stage, .append ev => stage = cleared ∧ ev.group = group ∧ ∃ n, ev.time = now.after n
  | stage, _ => stage = cleared

variable {window : Span} {now : Instant} {group : String} {stage : Stage} {d : Deed}

/-- Deeds neither take the lock nor give it back. -/
theorem after_eq_outside_iff (h : stage.Allows window now group d) (answer : d.Answer) :
    stage.after d answer = outside ↔ stage = outside := by
  cases d with
  | clock => exact Iff.rfl
  | ask g start =>
    refine iff_of_false ?_ h.1
    cases answer with
    | error why => nofun
    | ok hit => cases hit <;> nofun
  | append ev => exact iff_of_false nofun (by rw [h.1]; nofun)
  | _ => exact Iff.rfl

end Stage

/-! ## Guarded work -/

namespace Work

/-- Work in the turn of a group that takes the lock of this group only, does what its stage allows,
and ends at a certain stage. -/
def Guarded (window : Span) (now : Instant) (group : String) (ends : Stage → Prop) :
    Stage → Work α → Prop
  | stage, .done _ => ends stage
  | stage, .deed d next => stage.Allows window now group d ∧
    ∀ answer, Guarded window now group ends (stage.after d answer) (next answer)
  | stage, .lock (.group g) rest =>
    stage = .outside ∧ g = group ∧ Guarded window now group ends .inside rest
  | stage, .lock (.member _) rest => Guarded window now group ends stage rest
  | stage, .unlock (.group g) rest =>
    stage ≠ .outside ∧ g = group ∧ Guarded window now group ends .outside rest
  | stage, .unlock (.member _) rest => Guarded window now group ends stage rest

namespace Guarded

variable {window : Span} {now : Instant} {group : String} {ends ends' : Stage → Prop}
  {stage : Stage} {w : Work α} {f : α → Work β}

theorem bind (hw : w.Guarded window now group ends stage)
    (hf : ∀ a stage, ends stage → (f a).Guarded window now group ends' stage) :
    (w >>= f).Guarded window now group ends' stage := by
  induction w generalizing stage with
  | done a => exact hf a stage hw
  | deed d next ih => exact ⟨hw.1, fun answer => ih answer (hw.2 answer)⟩
  | lock l rest ih =>
    cases l with
    | group g => exact ⟨hw.1, hw.2.1, ih hw.2.2⟩
    | member id => exact ih hw
  | unlock l rest ih =>
    cases l with
    | group g => exact ⟨hw.1, hw.2.1, ih hw.2.2⟩
    | member id => exact ih hw

theorem deed_bind {d : Deed} {f : d.Answer → Work β} (hd : stage.Allows window now group d)
    (hf : ∀ answer, (f answer).Guarded window now group ends (stage.after d answer)) :
    (Work.deed d .done >>= f).Guarded window now group ends stage := ⟨hd, hf⟩

theorem ite {p : Prop} [Decidable p] {w' : Work α} (h : w.Guarded window now group ends stage)
    (h' : w'.Guarded window now group ends stage) :
    (if p then w else w').Guarded window now group ends stage := by
  split
  · exact h
  · exact h'

theorem holding_group (h : w.Guarded window now group (· ≠ .outside) .inside) :
    (holding (.group group) w).Guarded window now group (· = .outside) .outside :=
  ⟨rfl, rfl, h.bind fun _ _ hinside => ⟨hinside, rfl, rfl⟩⟩

theorem holding_member (h : w.Guarded window now group ends stage) (id : String) :
    (holding (.member id) w).Guarded window now group ends stage := h.bind fun _ _ hends => hends

/-- Calls may be made where the log has denied. -/
theorem of_plain {id : String} (hw : w.Plain fun d => d.callee? = some id) :
    w.Guarded window now group (· = .cleared) .cleared := by
  induction w with
  | done a => rfl
  | deed d next ih =>
    obtain ⟨hcall, hnext⟩ := hw
    cases d with
    | clock => cases hcall
    | ask g start => cases hcall
    | append ev => cases hcall
    | _ => exact ⟨rfl, fun answer => ih answer (hnext answer)⟩
  | lock l rest => cases hw
  | unlock l rest => cases hw

end Guarded
end Work

namespace Engine

open Work

section Guarded

variable {e : Engine σ} {now : Instant} {window : Span} {group : String}

theorem disruptWork_guarded (e : Engine σ) (now : Instant) (g : Group) (id : String) :
    (e.disruptWork now g id).Guarded window now g.name (· ≠ .outside) .cleared := by
  refine ((Guarded.of_plain (attempt_plain ..)).holding_member id).bind ?_
  rintro attempt _ rfl
  exact .deed_bind trivial fun n => .deed_bind ⟨rfl, rfl, n, rfl⟩ fun _ => nofun

theorem actWork_guarded (e : Engine σ) (now : Instant) (g : Group) (drawn : Draw.Selection) :
    (e.actWork now g drawn).Guarded window now g.name (· ≠ .outside) .cleared := by
  cases drawn with
  | passed roll => nofun
  | nobody => nofun
  | member id => exact .ite nofun (disruptWork_guarded e now g id)

theorem askWork_guarded (e : Engine σ) (now : Instant) (g : Group) (seed : UInt64) :
    (e.askWork now g seed).Guarded e.config.window now g.name (· ≠ .outside) .inside := by
  refine .deed_bind ⟨nofun, rfl, rfl⟩ fun answer => ?_
  cases answer with
  | error why => nofun
  | ok hit =>
    cases hit with
    | true => nofun
    | false => exact actWork_guarded ..

/-- The work of a turn goes by its stages. -/
theorem work_guarded (e : Engine σ) (now : Instant) (turn : Group × UInt64) :
    (e.work now turn).Guarded e.config.window now turn.1.name (· = .outside) .outside := by
  have hjudge : (e.judgeWork now turn.1 turn.2).Guarded e.config.window now turn.1.name
      (· = .outside) .outside :=
    .deed_bind trivial fun _ => .ite rfl (.ite rfl (.ite rfl (askWork_guarded ..).holding_group))
  refine hjudge.bind ?_
  rintro verdict _ rfl
  cases verdict <;> rfl

end Guarded

/-! ## Deeds and the ledger -/

section Fits

variable {e : Engine σ} {ledger : σ → List Event} {now : Instant} {group : String} {stage : Stage}
  {d : Deed} {s : σ}

/-- Whether nothing in the ledger counts for a group in the window of a time. -/
def Unspent (e : Engine σ) (ledger : σ → List Event) (now : Instant) (group : String) (s : σ) :
    Prop := (ledger s).any (·.countsFor group (windowStart now e.config.window)) = false

/-- A deed that the turn of a group may do in the world in which it does it. -/
def Fits (e : Engine σ) (ledger : σ → List Event) (now : Instant) (group : String)
    (st : Step σ) : Prop :=
  ∃ stage : Stage, stage.Allows e.config.window now group st.deed ∧
    (stage = .cleared → e.Unspent ledger now group st.world)

/-- Calls and events meet a ledger in which the window of the group is not spent. -/
theorem Fits.unspent {st : Step σ} (h : e.Fits ledger now group st)
    (hdeed : st.deed.isCall = true ∨ st.deed.isAppend = true) :
    e.Unspent ledger now group st.world := by
  obtain ⟨stage, hallows, hunspent⟩ := h
  obtain ⟨d, s⟩ := st
  refine hunspent ?_
  cases d with
  | clock => simp [Deed.isCall, Deed.callee?, Deed.isAppend] at hdeed
  | ask g start => simp [Deed.isCall, Deed.callee?, Deed.isAppend] at hdeed
  | append ev => exact hallows.1
  | _ => exact hallows

theorem ledger_does_of_keeps (h : e.Keeps ledger) (st : Step σ) :
    ledger (e.does st.deed st.world).2 = ledger st.world ++ (e.taken? st).toList :=
  ledger_does h.adds fun ev why _ => h.log.append_error ev st.world why

/-- A fitting deed adds a timely event, if any. -/
theorem Fits.grown (h : e.Keeps ledger) {st : Step σ} (hst : e.Fits ledger now group st) :
    Grown (Event.Timely e.config.window now) (ledger st.world)
      (ledger (e.does st.deed st.world).2) := by
  rw [ledger_does_of_keeps h]
  cases htaken : e.taken? st with
  | none =>
    rw [Option.toList_none, List.append_nil]
    exact .refl _
  | some ev =>
    have happend := (taken?_eq_some_iff.mp htaken).1
    have hunspent := hst.unspent (.inr (by rw [happend]; rfl))
    obtain ⟨stage, hallows, -⟩ := hst
    rw [happend] at hallows
    obtain ⟨-, rfl, htime⟩ := hallows
    exact .snoc (.refl _) ⟨htime, hunspent⟩

/-- The deeds in the turn of one group do not spend the windows of others. -/
theorem unspent_does_of_ne (h : e.Keeps ledger) (hd : stage.Allows e.config.window now group d)
    {other : String} (hne : stage = .cleared → group ≠ other)
    (hother : e.Unspent ledger now other s) : e.Unspent ledger now other (e.does d s).2 := by
  rw [Unspent, ledger_does_of_keeps h ⟨d, s⟩, List.any_append, hother, Bool.false_or]
  cases htaken : e.taken? ⟨d, s⟩ with
  | none => rfl
  | some ev =>
    obtain rfl : d = .append ev := (taken?_eq_some_iff.mp htaken).1
    obtain ⟨hcleared, rfl, -⟩ := hd
    simp [Event.countsFor, hne hcleared]

/-- Where the log has just denied that the window is spent, or had done so before, it is not spent. -/
theorem unspent_does (h : e.Keeps ledger) (hd : stage.Allows e.config.window now group d)
    (hunspent : stage = .cleared → e.Unspent ledger now group s)
    (hafter : stage.after d (e.does d s).1 = .cleared) :
    e.Unspent ledger now group (e.does d s).2 := by
  have hquiet (hdeed : d.isAppend = false) : ledger (e.does d s).2 = ledger s := by
    rw [ledger_does_of_keeps h ⟨d, s⟩, taken?_of_not_append hdeed, Option.toList_none,
      List.append_nil]
  cases d with
  | append ev => cases hafter
  | ask g start =>
    obtain ⟨-, rfl, rfl⟩ := hd
    rw [Unspent, hquiet rfl]
    cases hanswer : (e.does (.ask g (windowStart now e.config.window)) s).1 with
    | error why => rw [hanswer] at hafter; cases hafter
    | ok hit =>
      cases hit with
      | true => rw [hanswer] at hafter; cases hafter
      | false => exact (h.log.answer _ _ _ _ hanswer).symm
  | _ =>
    rw [Unspent, hquiet rfl]
    exact hunspent hafter

end Fits

/-! ## Pools of guarded turns -/

section Guards

variable {e : Engine σ} {ledger : σ → List Event} {now : Instant} {group : Nat → String}
  {stage : Nat → Stage} {p p' : Pool σ α} {workers i : Nat}

/-- A pool with guarded turns. Each turn has a group and a stage. -/
structure Guards (e : Engine σ) (ledger : σ → List Event) (now : Instant) (group : Nat → String)
    (stage : Nat → Stage) (p : Pool σ α) : Prop where
  guarded : ∀ i (t : Task α), p.tasks[i]? = some t →
    t.rest.Guarded e.config.window now (group i) (· = .outside) (stage i)
  held : ∀ i, stage i ≠ .outside → .group (group i) ∈ p.held
  /-- No two turns of groups with one name are under the lock. -/
  alone : ∀ i j, stage i ≠ .outside → stage j ≠ .outside → group i = group j → i = j
  unspent : ∀ i, stage i = .cleared → e.Unspent ledger now (group i) p.world

namespace Guards

/-- The turn of a task goes on at another stage. -/
theorem put_guarded (h : e.Guards ledger now group stage p) {rest : Work α} {after : Stage}
    (hrest : rest.Guarded e.config.window now (group i) (· = .outside) after) :
    ∀ j (t : Task α), (p.put i rest).tasks[j]? = some t → t.rest.Guarded e.config.window now (group j)
      (· = .outside) (Function.update stage i after j) := by
  intro j t ht
  by_cases hij : i = j
  · subst hij
    obtain ⟨hlt, -⟩ := List.getElem?_eq_some_iff.mp ht
    rw [Pool.put_tasks, List.length_set] at hlt
    rw [Pool.put_self (List.getElem?_eq_getElem hlt)] at ht
    obtain rfl := Option.some.inj ht
    rwa [Function.update_self]
  · rw [Pool.put_other hij] at ht
    rw [Function.update_of_ne (Ne.symm hij)]
    exact h.guarded j t ht

theorem inside_of_update (stage : Nat → Stage) {after : Stage}
    (hafter : after ≠ .outside → stage i ≠ .outside) {j : Nat} (hj : Function.update stage i after j ≠ .outside) : stage j ≠ .outside := by
  by_cases hij : i = j
  · subst hij
    rw [Function.update_self] at hj
    exact hafter hj
  · rwa [Function.update_of_ne (Ne.symm hij)] at hj

theorem of_deed (h : e.Guards ledger now group stage p) (hkeeps : e.Keeps ledger) {d : Deed}
    {next : d.Answer → Work α} (ht : p.tasks[i]? = some ⟨true, .deed d next⟩) :
    e.Guards ledger now group (Function.update stage i ((stage i).after d (e.does d p.world).1))
      { p.put i (next (e.does d p.world).1) with world := (e.does d p.world).2 } := by
  obtain ⟨hallows, hnext⟩ := h.guarded i _ ht
  have hafter := Stage.after_eq_outside_iff hallows (e.does d p.world).1
  have hinside {j : Nat} := inside_of_update stage (mt hafter.mpr) (j := j)
  refine ⟨h.put_guarded (hnext _), fun j hj => h.held j (hinside hj),
    fun j k hj hk => h.alone j k (hinside hj) (hinside hk), fun j hj => ?_⟩
  by_cases hij : i = j
  · subst hij
    rw [Function.update_self] at hj
    exact unspent_does hkeeps hallows (h.unspent i) hj
  · rw [Function.update_of_ne (Ne.symm hij)] at hj
    refine unspent_does_of_ne hkeeps hallows (fun hcleared hgroups => hij ?_) (h.unspent j hj)
    exact h.alone i j (by rw [hcleared]; nofun) (by rw [hj]; nofun) hgroups

/-- The lock is taken while no other turn has it. -/
theorem of_lock (h : e.Guards ledger now group stage p) {rest : Work α}
    (ht : p.tasks[i]? = some ⟨true, .lock (.group (group i)) rest⟩)
    (hfree : .group (group i) ∉ p.held) :
    e.Guards ledger now group (Function.update stage i .inside)
      { p.put i rest with held := .group (group i) :: p.held } := by
  obtain ⟨-, -, hrest⟩ := h.guarded i _ ht
  have hfresh : ∀ j, stage j ≠ .outside → group j ≠ group i :=
    fun j hj hgroups => hfree (hgroups ▸ h.held j hj)
  refine ⟨h.put_guarded hrest, fun j hj => ?_, fun j k hj hk hgroups => ?_, fun j hj => ?_⟩
  · by_cases hij : i = j
    · subst hij
      exact List.mem_cons_self
    · rw [Function.update_of_ne (Ne.symm hij)] at hj
      exact List.mem_cons_of_mem _ (h.held j hj)
  · by_cases hij : i = j <;> by_cases hik : i = k
    · exact hij.symm.trans hik
    · subst hij
      rw [Function.update_of_ne (Ne.symm hik)] at hk
      exact absurd hgroups.symm (hfresh k hk)
    · subst hik
      rw [Function.update_of_ne (Ne.symm hij)] at hj
      exact absurd hgroups (hfresh j hj)
    · rw [Function.update_of_ne (Ne.symm hij)] at hj
      rw [Function.update_of_ne (Ne.symm hik)] at hk
      exact h.alone j k hj hk hgroups
  · by_cases hij : i = j
    · subst hij
      rw [Function.update_self] at hj
      cases hj
    · rw [Function.update_of_ne (Ne.symm hij)] at hj
      exact h.unspent j hj

/-- The lock is given back by the turn that has it. -/
theorem of_unlock (h : e.Guards ledger now group stage p) {rest : Work α}
    (ht : p.tasks[i]? = some ⟨true, .unlock (.group (group i)) rest⟩) :
    e.Guards ledger now group (Function.update stage i .outside)
      { p.put i rest with held := p.held.erase (.group (group i)) } := by
  obtain ⟨hinside, -, hrest⟩ := h.guarded i _ ht
  have hother : ∀ j, Function.update stage i .outside j ≠ .outside → i ≠ j := by
    rintro j hj rfl
    exact hj (Function.update_self ..)
  have hstill {j : Nat} := inside_of_update stage (i := i) (j := j) fun h => absurd rfl h
  refine ⟨h.put_guarded hrest, fun j hj => ?_,
    fun j k hj hk => h.alone j k (hstill hj) (hstill hk), fun j hj => ?_⟩
  · refine (List.mem_erase_of_ne fun hlock => hother j hj ?_).mpr (h.held j (hstill hj))
    exact h.alone i j hinside (hstill hj) (Lock.group.inj hlock).symm
  · have hij := hother j (by rw [hj]; nofun)
    rw [Function.update_of_ne hij.symm] at hj
    exact h.unspent j hj

/-- A move keeps the turns guarded, and its deed is fitting. -/
theorem moved (h : e.Guards ledger now group stage p) (hkeeps : e.Keeps ledger)
    {step : Option (Step σ)} (hmoved : Pool.Moved e.does workers p i step p') :
    (∃ stage', e.Guards ledger now group stage' p') ∧
      ∀ st ∈ step, e.Fits ledger now (group i) st := by
  -- Where the turn stays at its stage.
  have hput {rest : Work α}
      (hrest : rest.Guarded e.config.window now (group i) (· = .outside) (stage i)) :
      ∀ j (t : Task α), (p.put i rest).tasks[j]? = some t →
        t.rest.Guarded e.config.window now (group j) (· = .outside) (stage j) := by
    have hguarded := h.put_guarded hrest
    rwa [Function.update_eq_self] at hguarded
  cases hmoved with
  | stays => exact ⟨⟨stage, h⟩, nofun⟩
  | takes ht hcan => exact ⟨⟨stage, hput (h.guarded i _ ht), h.held, h.alone, h.unspent⟩, nofun⟩
  | deed ht =>
    refine ⟨⟨_, h.of_deed hkeeps ht⟩, fun st hst => ?_⟩
    obtain rfl := Option.some.inj hst
    exact ⟨stage i, (h.guarded i _ ht).1, h.unspent i⟩
  | @lock l rest ht hfree =>
    have hguarded := h.guarded i _ ht
    refine ⟨?_, nofun⟩
    cases l with
    | group g =>
      obtain rfl := hguarded.2.1
      exact ⟨_, h.of_lock ht hfree⟩
    | member id =>
      exact ⟨stage, hput hguarded, fun j hj => List.mem_cons_of_mem _ (h.held j hj), h.alone,
        h.unspent⟩
  | @unlock l rest ht =>
    have hguarded := h.guarded i _ ht
    refine ⟨?_, nofun⟩
    cases l with
    | group g =>
      obtain rfl := hguarded.2.1
      exact ⟨_, h.of_unlock ht⟩
    | member id =>
      refine ⟨stage, hput hguarded, fun j hj => ?_, h.alone, h.unspent⟩
      refine (List.mem_erase_of_ne ?_).mpr (h.held j hj)
      nofun

/-- However the workers move, their deeds are fitting. -/
theorem fits_of_run (h : e.Guards ledger now group stage p) (hkeeps : e.Keeps ledger)
    (moves : List Nat) :
    ∀ deed ∈ p.steps e.does workers moves, e.Fits ledger now (group deed.1) deed.2 := by
  induction moves generalizing p stage with
  | nil => exact fun _ h => nomatch h
  | cons i more ih =>
    obtain ⟨⟨stage', h'⟩, hfits⟩ := h.moved hkeeps (Pool.moved e.does workers p i)
    rw [Pool.steps, List.forall_mem_append]
    refine ⟨fun deed hdeed => ?_, ih h'⟩
    obtain ⟨st, hst, rfl⟩ := Option.map_eq_some_iff.mp (Option.mem_toList.mp hdeed)
    exact hfits st hst

end Guards
end Guards

/-! ## Cycles of a pool -/

variable {e : Engine σ} {ledger : σ → List Event} {moves : List Nat} {now : Instant} {r : Running σ}
  {groups : List Group}

/-- The name of the group at a position. -/
def nameAt (seeded : List (Group × UInt64)) (i : Nat) : String :=
  (seeded[i]?.map (·.1.name)).getD ""

theorem nameAt_eq {seeded : List (Group × UInt64)} {i : Nat} {turn : Group × UInt64}
    (h : seeded[i]? = some turn) : nameAt seeded i = turn.1.name := by
  rw [nameAt, h]
  rfl

/-- At the start no turn is under its lock. -/
theorem guards_start (e : Engine σ) (ledger : σ → List Event) (now : Instant)
    (seeded : List (Group × UInt64)) (s : σ) :
    e.Guards ledger now (nameAt seeded) (fun _ => .outside) (e.pool now seeded s) where
  guarded i t ht := by
    have htasks := congrArg (·[i]?) (Pool.start_tasks (seeded.map (e.work now)) s)
    simp only [List.getElem?_map] at htasks
    obtain ⟨turn, hturn, hwork⟩ : ∃ turn, seeded[i]? = some turn ∧ e.work now turn = t.rest :=
      Option.map_eq_some_iff.mp (htasks.symm.trans (congrArg (·.map (·.rest)) ht))
    rw [nameAt_eq hturn, ← hwork]
    exact work_guarded e now turn
  held _ h := absurd rfl h
  alone _ _ h := absurd rfl h
  unspent _ h := nomatch h

/-- What the turns of a cycle do beside each other is fitting. -/
theorem deeds_fit (h : e.Keeps ledger) (hc : (e.crawled r.world).1 = .ok groups)
    {deed : Nat × Step σ} (hdeed : deed ∈ e.deeds moves now r) :
    e.Fits ledger now (nameAt (e.seeded r.draws groups) deed.1) deed.2 := by
  rw [deeds_of_crawl_ok hc] at hdeed
  exact (guards_start e ledger now _ _).fits_of_run h moves deed hdeed

/-- However the workers move, all calls in a turn are about the member that its group has drawn, and
they meet a ledger in which the group's window is not spent. -/
theorem calls_beside (h : e.Keeps ledger) (hc : (e.crawled r.world).1 = .ok groups) {i : Nat}
    {st : Step σ} (hdeed : (i, st) ∈ e.deeds moves now r) {id : String}
    (hcall : st.deed.callee? = some id) :
    ∃ g seed, (e.seeded r.draws groups)[i]? = some (g, seed) ∧
      e.config.isListed g.name = true ∧ e.config.groupEnabled g.name = true ∧
      e.config.leashed = false ∧ e.drawn g seed = .member id ∧ e.Unspent ledger now g.name st.world := by
  have hiscall : st.deed.isCall = true := by rw [Deed.isCall, hcall]; rfl
  obtain ⟨⟨g, seed⟩, hturn⟩ : ∃ turn, (e.seeded r.draws groups)[i]? = some turn := by
    refine ⟨_, List.getElem?_eq_getElem ?_⟩
    rw [← List.length_map (f := Prod.fst), seeded_groups]
    exact lt_of_mem_deeds hc hdeed
  obtain ⟨henabled, hleashed, id', hdrawn, hcallee⟩ :=
    licensed hc hturn st (Pool.mem_own.mpr hdeed) (.inl hiscall)
  obtain rfl := hcallee id hcall
  have hunspent := (deeds_fit h hc hdeed).unspent (.inl hiscall)
  rw [nameAt_eq hturn] at hunspent
  have hlisted := (List.mem_filter.mp (List.of_mem_zip (List.mem_of_getElem? hturn)).1).2
  exact ⟨g, seed, hturn, hlisted, henabled, hleashed, hdrawn, hunspent⟩

/-- A cycle with any number of workers adds timely events, one after the other. -/
theorem cycleBy_grown (h : e.Keeps ledger) (moves : List Nat) (now : Instant) (r : Running σ) :
    Grown (Event.Timely e.config.window now) (ledger r.world)
      (ledger (e.cycleBy moves now r).2.world) := by
  have hcrawl : ledger (e.crawled r.world).2 = ledger r.world := h.crawl _ _
  cases hc : (e.crawled r.world).1 with
  | error why =>
    rw [cycleBy_of_crawl_error hc, hcrawl]
    exact .refl _
  | ok groups =>
    have hturns : Grown (Event.Timely e.config.window now) (ledger (e.crawled r.world).2)
        (ledger ((e.cyclePool now r groups).run e.does e.workers moves).world) := by
      refine Pool.rel_of_run (p := e.cyclePool now r groups) Grown.refl Grown.trans ?_
      intro deed hdeed
      rw [← deeds_of_crawl_ok hc] at hdeed
      exact (deeds_fit h hc hdeed).grown h
    rw [hcrawl] at hturns
    cases hresults : ((e.cyclePool now r groups).run e.does e.workers moves).results? with
    | none =>
      rw [cycleBy_of_unfinished hc hresults]
      exact hturns
    | some results =>
      rw [cycleBy_of_results hc hresults]
      show Grown _ _ (ledger (e.closing now results _).2.world)
      rwa [ledger_closing h.adds]

/-- What goes on after cycles as of the given times, in their order, with the workers of each moving
as given. -/
def afterCyclesBy (e : Engine σ) : List (List Nat × Instant) → Running σ → Running σ
  | [], r => r
  | (moves, now) :: more, r => e.afterCyclesBy more (e.cycleBy moves now r).2

theorem afterCyclesBy_grown (h : e.Keeps ledger) (cycles : List (List Nat × Instant))
    (r : Running σ) :
    Grown (fun log ev => ∃ now ∈ cycles.map (·.2), Event.Timely e.config.window now log ev)
      (ledger r.world) (ledger (e.afterCyclesBy cycles r).world) := by
  induction cycles generalizing r with
  | nil => exact .refl _
  | cons cycle more ih =>
    obtain ⟨moves, now⟩ := cycle
    refine ((cycleBy_grown h moves now r).mono fun _ _ hev => ?_).trans ((ih _).mono ?_)
    · exact ⟨now, List.mem_cons_self, hev⟩
    · rintro log ev ⟨t, ht, hev⟩
      exact ⟨t, List.mem_cons_of_mem _ ht, hev⟩

/-- A run of cycles with any number of workers, too, lets the ledger only ascend: no window of a
group is spent a second time. -/
theorem afterCyclesBy_ascendsFrom (h : e.Keeps ledger) (hpos : 1 ≤ e.config.window.millis)
    (hlt : e.config.window.millis < twoPow 63) (cycles : List (List Nat × Instant))
    (htimes : ∀ now ∈ cycles.map (·.2), now.OnClock) (r : Running σ)
    (hold : ∀ old ∈ ledger r.world, ¬ old.time.inLeapSecond) :
    AscendsFrom e.config.window.millis (ledger r.world)
      (ledger (e.afterCyclesBy cycles r).world) := by
  have hgrown := (afterCyclesBy_grown h cycles r).ascends_of_timely htimes hpos hlt hold
  obtain ⟨added, heq, hadded⟩ := hgrown.exists_append
  exact ⟨added, heq, hadded, fun group index => hgrown.countP_spends_le group index⟩

end Engine
end FaultDrill
