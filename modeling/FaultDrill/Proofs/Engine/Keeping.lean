import FaultDrill.Proofs.Engine.Turn
/-!
# What is promised of a ledger

An engine's actions work on a state that nothing is known of. `ledger` stands for a view of that
state: the events that are in the ledger. The predicates here say that the log answers by these
events and adds to their end, and that nothing else touches them. The log of a site answers so
(`Site.log_tells`), and `Engine.beside` is an engine of which all of it holds, whatever its client,
its crawler and its clock do.
-/
namespace FaultDrill

/-- An action that leaves a view of the state as it is. -/
def Leaves (view : σ → β) (m : StateM σ α) : Prop := ∀ s, view (m s).2 = view s

theorem Leaves.pure (view : σ → β) (a : α) : Leaves view (Pure.pure a : StateM σ α) :=
  fun _ => rfl

theorem Leaves.bind {view : σ → β} {m : StateM σ α} {f : α → StateM σ γ} (hm : Leaves view m)
    (hf : ∀ a, Leaves view (f a)) : Leaves view (m >>= f) := by
  intro s
  rw [bind_run, hf _ _, hm s]

/-- A client that leaves the ledger alone. -/
structure Client.Spares (client : Client σ) (ledger : σ → List Event) : Prop where
  terminate : ∀ id, Leaves ledger (client.terminate id)
  credentials : ∀ id, Leaves ledger (client.credentials id)
  runScript : ∀ id c s, Leaves ledger (client.runScript id c s)

/-- A log whose answers tell the truth about the ledger, whenever it answers. -/
structure EventLog.Tells (log : EventLog σ) (ledger : σ → List Event) : Prop where
  asking : ∀ group start, Leaves ledger (log.hasRecent group start)
  answer : ∀ group start s hit, (log.hasRecent group start s).1 = .ok hit →
    hit = (ledger s).any (·.countsFor group start)

/-- A log that moreover adds events at the end of the ledger, and nothing where it fails. -/
structure EventLog.Records (log : EventLog σ) (ledger : σ → List Event) : Prop
    extends log.Tells ledger where
  append_ok : ∀ ev s, (log.append ev s).1 = .ok () →
    ledger (log.append ev s).2 = ledger s ++ [ev]
  append_error : ∀ ev s why, (log.append ev s).1 = .error why →
    ledger (log.append ev s).2 = ledger s

/-- An engine whose ledger changes through its log alone. -/
structure Engine.Keeps (e : Engine σ) (ledger : σ → List Event) : Prop where
  crawl : ∀ names, Leaves ledger (e.crawl names)
  client : e.client.Spares ledger
  log : e.log.Records ledger
  elapsed : Leaves ledger e.elapsed

/-- An engine whose ledger changes only where its log takes an event, which then stands at the end.
How the log answers questions does not matter, nor what becomes of an event that it does not take. -/
structure Engine.Adds (e : Engine σ) (ledger : σ → List Event) : Prop where
  crawl : ∀ names, Leaves ledger (e.crawl names)
  client : e.client.Spares ledger
  asking : ∀ group start, Leaves ledger (e.log.hasRecent group start)
  append_ok : ∀ ev s, (e.log.append ev s).1 = .ok () →
    ledger (e.log.append ev s).2 = ledger s ++ [ev]
  elapsed : Leaves ledger e.elapsed

theorem Engine.Keeps.adds {e : Engine σ} {ledger : σ → List Event} (h : e.Keeps ledger) :
    e.Adds ledger :=
  ⟨h.crawl, h.client, h.log.asking, h.log.append_ok, h.elapsed⟩

/-- The events that are in the ledger of a site; none where they cannot be read. -/
def Site.events (s : Site κ) : List Event := (s.ledger.events s.files).toOption.getD []

/-- The log of a site answers by the events in its ledger, in memory as in a file. -/
theorem Site.log_tells : (Site.log : EventLog (Site κ)).Tells Site.events where
  asking _ _ _ := rfl
  answer group start s hit h := by
    have hrecent : s.ledger.hasRecent s.files group start = .ok hit := h
    rw [Ledger.hasRecent] at hrecent
    rw [Site.events]
    cases hes : s.ledger.events s.files with
    | error why =>
      rw [hes] at hrecent
      cases hrecent
    | ok es =>
      rw [hes] at hrecent
      cases hrecent
      rfl

namespace Attempt

variable {client : Client σ} {ledger : σ → List Event}

theorem runScript_leaves (h : client.Spares ledger) (id : String) (s : Script) :
    Leaves ledger (runScript client id s) := by
  apply (h.credentials id).bind
  intro found
  cases found with
  | error why => exact Leaves.pure ledger _
  | ok credentials =>
    dsimp only
    split
    · exact Leaves.pure ledger _
    · exact (h.runScript id credentials s).bind fun _ => Leaves.pure ledger _

theorem terminate_leaves (h : client.Spares ledger) (fallback : Option Script) (id : String) :
    Leaves ledger (terminate client fallback id) := by
  apply (h.terminate id).bind
  intro ended
  cases ended with
  | ok _ => exact Leaves.pure ledger _
  | error why =>
    dsimp only
    split
    · exact runScript_leaves h id _
    · exact Leaves.pure ledger _

theorem perform_leaves (h : client.Spares ledger) (fallback : Option Script) (id : String)
    (d : Disruption) : Leaves ledger (perform client fallback id d) := by
  cases d with
  | terminate => exact terminate_leaves h fallback id
  | script s => exact runScript_leaves h id s

end Attempt

namespace Engine

variable {e : Engine σ} {ledger : σ → List Event}

theorem asked_leaves (h : e.Adds ledger) (now : Instant) (g : Group) (s : σ) :
    ledger (e.asked now g s).2 = ledger s := by
  rw [asked, h.asking, h.elapsed]

theorem recorded_leaves (h : e.Adds ledger) (now : Instant) (g : Group) (id : String) (s : σ) :
    ledger (e.recorded now g id s).2 = ledger s := by
  show ledger (e.elapsed (e.attempted g id s).2).2 = _
  rw [h.elapsed]
  exact Attempt.perform_leaves h.client _ id _ s

end Engine

/-! ## An engine beside its ledger -/

/-- An action on the state beside a ledger. -/
def besideLedger (m : StateM κ α) : StateM (List Event × κ) α := fun s =>
  ((m s.2).1, s.1, (m s.2).2)

theorem besideLedger_leaves (m : StateM κ α) : Leaves Prod.fst (besideLedger m) := fun _ => rfl

/-- The engine of any crawler, client and clock that work beside a ledger in memory. -/
def Engine.beside (config : Config) (crawl : List String → StateM κ (Except Fault (List Group)))
    (client : Client κ) (elapsed : StateM κ Nat) : Engine (List Event × κ) where
  config
  crawl names := besideLedger (crawl names)
  client :=
    { backend := client.backend
      terminate := fun id => besideLedger (client.terminate id)
      credentials := fun id => besideLedger (client.credentials id)
      runScript := fun id c s => besideLedger (client.runScript id c s) }
  log :=
    { hasRecent := fun group start s => (.ok (s.1.any (·.countsFor group start)), s)
      append := fun ev s => (.ok (), s.1 ++ [ev], s.2) }
  elapsed := besideLedger elapsed

theorem Engine.beside_keeps (config : Config)
    (crawl : List String → StateM κ (Except Fault (List Group))) (client : Client κ)
    (elapsed : StateM κ Nat) : (beside config crawl client elapsed).Keeps Prod.fst where
  crawl _ := besideLedger_leaves _
  client := ⟨fun _ => besideLedger_leaves _, fun _ => besideLedger_leaves _,
    fun _ _ _ => besideLedger_leaves _⟩
  log :=
    { asking := fun _ _ _ => rfl
      answer := fun _ _ _ _ h => (Except.ok.inj h).symm
      append_ok := fun _ _ _ => rfl
      append_error := fun _ _ _ h => nomatch h }
  elapsed := besideLedger_leaves _

/-! ## Ledgers that grow -/

/-- A ledger that became another by events added one by one, each with a property that may look at
the events before it. -/
inductive Grown (P : List Event → Event → Prop) : List Event → List Event → Prop where
  | refl (l : List Event) : Grown P l l
  | snoc {l m : List Event} {ev : Event} (h : Grown P l m) (hev : P m ev) : Grown P l (m ++ [ev])

namespace Grown

variable {P Q : List Event → Event → Prop} {l m n : List Event}

theorem trans (h : Grown P l m) (h' : Grown P m n) : Grown P l n := by
  induction h' with
  | refl => exact h
  | snoc _ hev ih => exact .snoc ih hev

theorem mono (hPQ : ∀ l ev, P l ev → Q l ev) (h : Grown P l m) : Grown Q l m := by
  induction h with
  | refl => exact .refl l
  | snoc _ hev ih => exact .snoc ih (hPQ _ _ hev)

/-- What was added stands behind what was there, and each event of it had the property when all
before it were there. -/
theorem exists_append (h : Grown P l m) :
    ∃ added, m = l ++ added ∧
      ∀ before ev after, added = before ++ ev :: after → P (l ++ before) ev := by
  induction h with
  | refl => exact ⟨[], by simp, by simp⟩
  | @snoc m ev _ hev ih =>
    obtain ⟨added, rfl, hadded⟩ := ih
    refine ⟨added ++ [ev], by simp, ?_⟩
    intro before ev' after heq
    rcases List.eq_nil_or_concat after with rfl | ⟨front, last, rfl⟩
    · obtain ⟨rfl, heq⟩ := List.append_inj' heq rfl
      obtain rfl : ev = ev' := by simpa using heq
      exact hev
    · rw [List.concat_eq_append, ← List.cons_append, ← List.append_assoc] at heq
      exact hadded before ev' front (List.append_inj' heq rfl).1

end Grown
end FaultDrill
