import FaultDrill.Proofs.Engine.Turn
/-!
# Watching a client

A watched engine is the same engine on worlds that also hold the calls made on its client, each with
the world that it met. Watching changes neither what a cycle answers nor the world that it leaves
(`watched_cycle`), and the calls of a cycle are those of its turns, one turn after the other
(`calls_eq`).
-/
namespace FaultDrill

/-- A call on a client. -/
inductive Call where
  | terminate (id : String)
  | credentials (id : String)
  | runScript (id : String) (c : Credentials) (s : Script)

/-- The instance that a call is about. -/
def Call.instanceId : Call → String
  | terminate id => id
  | credentials id => id
  | runScript id _ _ => id

/-- A world and the calls on the client so far, the latest last. -/
structure Watched (σ : Type) where
  world : σ
  calls : List (Call × σ)

namespace Watched

/-- An action that makes no call. -/
def silent (m : StateM σ α) : StateM (Watched σ) α := fun w =>
  ((m w.world).1, ⟨(m w.world).2, w.calls⟩)

/-- An action that is a call. -/
def noted (c : Call) (m : StateM σ α) : StateM (Watched σ) α := fun w =>
  ((m w.world).1, ⟨(m w.world).2, w.calls ++ [(c, w.world)]⟩)

end Watched

/-- The client with its calls noted. -/
def Client.watched (client : Client σ) : Client (Watched σ) where
  backend := client.backend
  terminate id := Watched.noted (.terminate id) (client.terminate id)
  credentials id := Watched.noted (.credentials id) (client.credentials id)
  runScript id c s := Watched.noted (.runScript id c s) (client.runScript id c s)

/-- The engine with the calls on its client noted. -/
def Engine.watched (e : Engine σ) : Engine (Watched σ) where
  config := e.config
  crawl names := Watched.silent (e.crawl names)
  client := e.client.watched
  log :=
    { hasRecent := fun group start => Watched.silent (e.log.hasRecent group start)
      append := fun ev => Watched.silent (e.log.append ev) }
  elapsed := Watched.silent e.elapsed

/-- The calls of a watched action that begins in a world. -/
def callsOf (m : StateM (Watched σ) α) (s : σ) : List (Call × σ) := (m ⟨s, []⟩).2.calls

/-- A watched action that does what an action does, and notes its calls behind those before. -/
def Follows (m' : StateM (Watched σ) α) (m : StateM σ α) : Prop :=
  ∀ s cs, m' ⟨s, cs⟩ = ((m s).1, ⟨(m s).2, cs ++ callsOf m' s⟩)

@[simp] theorem callsOf_pure (a : α) (s : σ) : callsOf (pure a : StateM (Watched σ) α) s = [] := rfl

@[simp] theorem callsOf_silent (m : StateM σ α) (s : σ) : callsOf (Watched.silent m) s = [] := rfl

namespace Follows

theorem pure (a : α) : Follows (Pure.pure a : StateM (Watched σ) α) (Pure.pure a) := by
  intro s cs
  simp [pure_run]

theorem silent (m : StateM σ α) : Follows (Watched.silent m) m := by
  intro s cs
  simp [Watched.silent]

theorem noted (c : Call) (m : StateM σ α) : Follows (Watched.noted c m) m := fun _ _ => rfl

variable {m' : StateM (Watched σ) α} {m : StateM σ α} {f' : α → StateM (Watched σ) β}
  {f : α → StateM σ β}

theorem callsOf_bind (hm : Follows m' m) (hf : ∀ a, Follows (f' a) (f a)) (s : σ) :
    callsOf (m' >>= f') s = callsOf m' s ++ callsOf (f' (m s).1) (m s).2 := by
  rw [callsOf, bind_run, hm, hf]
  rfl

theorem bind (hm : Follows m' m) (hf : ∀ a, Follows (f' a) (f a)) :
    Follows (m' >>= f') (m >>= f) := by
  intro s cs
  rw [callsOf_bind hm hf, bind_run, bind_run, hm, hf, List.append_assoc]

theorem ite {c : Prop} [Decidable c] {m₁' m₂' : StateM (Watched σ) α} {m₁ m₂ : StateM σ α}
    (h₁ : Follows m₁' m₁) (h₂ : Follows m₂' m₂) :
    Follows (if c then m₁' else m₂') (if c then m₁ else m₂) := by
  split
  · exact h₁
  · exact h₂

end Follows

/-! ## Attempts -/

namespace Attempt

variable (client : Client σ)

theorem runScript_follows (id : String) (s : Script) :
    Follows (runScript client.watched id s) (runScript client id s) := by
  apply (Follows.noted _ _).bind
  intro found
  cases found with
  | error why => exact .pure _
  | ok credentials =>
    exact .ite (.pure _) ((Follows.noted _ _).bind fun _ => .pure _)

theorem terminate_follows (fallback : Option Script) (id : String) :
    Follows (terminate client.watched fallback id) (terminate client fallback id) := by
  apply (Follows.noted _ _).bind
  intro ended
  cases ended with
  | ok _ => exact .pure _
  | error why =>
    dsimp only
    split
    · exact runScript_follows client id _
    · exact .pure _

theorem perform_follows (fallback : Option Script) (id : String) (d : Disruption) :
    Follows (perform client.watched fallback id d) (perform client fallback id d) := by
  cases d with
  | terminate => exact terminate_follows client fallback id
  | script s => exact runScript_follows client id s

end Attempt

/-! ## Turns and cycles -/

namespace Engine

variable (e : Engine σ)

theorem disrupt_follows (now : Instant) (g : Group) (id : String) :
    Follows (e.watched.disrupt now g id) (e.disrupt now g id) := by
  apply (Attempt.perform_follows e.client _ id _).bind
  intro attempt
  apply (Follows.bind (Follows.silent e.elapsed) fun _ => .pure _).bind
  intro time
  apply (Follows.silent _).bind
  intro answer
  cases answer <;> exact .pure _

theorem actOn_follows (now : Instant) (g : Group) (drawn : Draw.Selection) :
    Follows (e.watched.actOn now g drawn) (e.actOn now g drawn) := by
  cases drawn with
  | passed roll => exact .pure _
  | nobody => exact .pure _
  | member id =>
    exact .ite (.pure _) (disrupt_follows e now g id)

theorem judge_follows (now : Instant) (g : Group) (seed : UInt64) :
    Follows (e.watched.judge now g seed) (e.judge now g seed) := by
  apply (Follows.bind (Follows.silent e.elapsed) fun _ => .pure _).bind
  intro late
  refine .ite (.pure _) (.ite (.pure _) (.ite (.pure _) ?_))
  apply (Follows.silent _).bind
  intro answer
  cases answer with
  | error why => exact .pure _
  | ok hit =>
    cases hit with
    | true => exact .pure _
    | false => exact actOn_follows e now g _

theorem evaluate_follows (now : Instant) (g : Group) (seed : UInt64) :
    Follows (e.watched.evaluate now g seed) (e.evaluate now g seed) := by
  apply (judge_follows e now g seed).bind
  intro verdict
  cases verdict <;> exact .pure _

theorem evaluateAll_follows (now : Instant) (seeded : List (Group × UInt64)) :
    Follows (e.watched.evaluateAll now seeded) (e.evaluateAll now seeded) := by
  induction seeded with
  | nil => exact .pure _
  | cons turn more ih =>
    exact (evaluate_follows e now turn.1 turn.2).bind fun _ => ih.bind fun _ => .pure _

/-- The turn of a group in a cycle: the group, the seed of its draws, and the world that the turn
begins in. -/
structure Turn (σ : Type) where
  group : Group
  seed : UInt64
  world : σ

/-- The calls of a turn. -/
def turnCalls (now : Instant) (t : Turn σ) : List (Call × σ) :=
  callsOf (e.watched.evaluate now t.group t.seed) t.world

/-- The turns of groups, each in the world that the one before leaves. -/
def turnsFrom (now : Instant) : List (Group × UInt64) → σ → List (Turn σ)
  | [], _ => []
  | (g, seed) :: more, s => ⟨g, seed, s⟩ :: turnsFrom now more (e.evaluate now g seed s).2

/-- The turns of a cycle: one for each listed group of the crawl. -/
def turns (now : Instant) (r : Running σ) : List (Turn σ) :=
  match (e.crawled r.world).1 with
  | .error _ => []
  | .ok groups => e.turnsFrom now (e.seeded r.draws groups) (e.crawled r.world).2

/-- A running engine whose client is watched from now on. -/
def Running.watched (r : Running σ) : Running (Watched σ) := ⟨r.draws, ⟨r.world, []⟩⟩

/-- The calls of a cycle. -/
def calls (now : Instant) (r : Running σ) : List (Call × σ) :=
  (e.watched.cycle now r.watched).2.world.calls

theorem callsOf_evaluateAll (now : Instant) (seeded : List (Group × UInt64)) (s : σ) :
    callsOf (e.watched.evaluateAll now seeded) s =
      (e.turnsFrom now seeded s).flatMap (e.turnCalls now) := by
  induction seeded generalizing s with
  | nil => rfl
  | cons turn more ih =>
    obtain ⟨g, seed⟩ := turn
    have hmore := evaluateAll_follows e now more
    rw [turnsFrom, List.flatMap_cons, ← ih, evaluateAll,
      Follows.callsOf_bind (evaluate_follows e now g seed) fun _ => hmore.bind fun _ => .pure _,
      Follows.callsOf_bind hmore fun _ => .pure _, callsOf_pure, List.append_nil]
    rfl

/-- A watched cycle answers what the cycle answers and leaves the same world; its calls are those of
its turns in their order. -/
theorem watched_cycle (now : Instant) (r : Running σ) :
    e.watched.cycle now r.watched =
      ((e.cycle now r).1, ⟨(e.cycle now r).2.draws, (e.cycle now r).2.world,
        (e.turns now r).flatMap (e.turnCalls now)⟩) := by
  rw [turns]
  cases hc : (e.crawled r.world).1 with
  | error why =>
    have hc' : (e.watched.crawled r.watched.world).1 = .error why := hc
    rw [cycle_of_crawl_error hc, cycle_of_crawl_error hc']
    rfl
  | ok groups =>
    have hc' : (e.watched.crawled r.watched.world).1 = .ok groups := hc
    have hall : e.watched.evaluateAll now (e.watched.seeded r.watched.draws groups)
        (e.watched.crawled r.watched.world).2 = _ :=
      evaluateAll_follows e now (e.seeded r.draws groups) (e.crawled r.world).2 []
    rw [cycle_of_crawl_ok hc, cycle_of_crawl_ok hc', turnsEnd, hall, callsOf_evaluateAll]
    cases allOrFirst (e.evaluateAll now (e.seeded r.draws groups) (e.crawled r.world).2).1 <;> rfl

theorem calls_eq (now : Instant) (r : Running σ) :
    e.calls now r = (e.turns now r).flatMap (e.turnCalls now) := by
  rw [calls, watched_cycle]

end Engine
end FaultDrill
