import FaultDrill.Proofs.Engine.Ruling
/-!
# Turns in any order

The turns of a cycle share one ledger, and each reads it and adds to it. With a client that answers
the same at any time, what a turn comes to is settled before the first of them begins: nothing that
the other turns add is about its group (`spent_of_mem_turnsFrom`), and nothing else that it looks at
changes. So the groups may take their turns in any order (`evaluateAll_permuted`).
-/
namespace FaultDrill

/-! ## Steady clients -/

/-- An action with the same answer in every world. -/
def Steady (m : StateM σ α) : Prop := ∀ s s', (m s).1 = (m s').1

theorem Steady.pure (a : α) : Steady (Pure.pure a : StateM σ α) := fun _ _ => rfl

theorem Steady.bind {m : StateM σ α} {f : α → StateM σ β} (hm : Steady m) (hf : ∀ a, Steady (f a)) :
    Steady (m >>= f) := by
  intro s s'
  rw [bind_run, bind_run, hm s s']
  exact hf _ _ _

/-- A client whose answers depend on what it is asked alone. -/
structure Client.Steady (client : Client σ) : Prop where
  terminate : ∀ id, FaultDrill.Steady (client.terminate id)
  credentials : ∀ id, FaultDrill.Steady (client.credentials id)
  runScript : ∀ id c s, FaultDrill.Steady (client.runScript id c s)

namespace Attempt

variable {client : Client σ}

theorem runScript_steady (h : client.Steady) (id : String) (s : Script) :
    Steady (runScript client id s) := by
  apply (h.credentials id).bind
  intro found
  cases found with
  | error why => exact .pure _
  | ok credentials =>
    dsimp only
    split
    · exact .pure _
    · exact (h.runScript id credentials s).bind fun _ => .pure _

theorem terminate_steady (h : client.Steady) (fallback : Option Script) (id : String) :
    Steady (terminate client fallback id) := by
  apply (h.terminate id).bind
  intro ended
  cases ended with
  | ok _ => exact .pure _
  | error why =>
    dsimp only
    split
    · exact runScript_steady h id _
    · exact .pure _

theorem perform_steady (h : client.Steady) (fallback : Option Script) (id : String)
    (d : Disruption) : Steady (perform client fallback id d) := by
  cases d with
  | terminate => exact terminate_steady h fallback id
  | script s => exact runScript_steady h id s

end Attempt

/-- The event without its time, which is set to the epoch. -/
def Event.undated (ev : Event) : Event := { ev with time := ⟨0, 0⟩ }

namespace Engine

variable {e : Engine σ} {ledger : σ → List Event} {now : Instant}

/-! ## One turn -/

theorem eventOn_undated (e : Engine σ) (now : Instant) (t : Turn σ) (id : String) :
    ∃ s, (e.eventOn now t id).undated =
      let attempt := (e.attempted t.group id s).1
      ⟨t.group.name, t.group.kind, id, attempt.disruption, ⟨0, 0⟩, attempt.outcome,
        attempt.detail⟩ := ⟨_, rfl⟩

/-- With a steady client, the attempt of a turn is the same whenever the turn comes. -/
theorem eventOn_steady (h : e.client.Steady) (now : Instant) (g : Group) (seed : UInt64) (s s' : σ)
    (id : String) :
    (e.eventOn now ⟨g, seed, s⟩ id).undated = (e.eventOn now ⟨g, seed, s'⟩ id).undated := by
  obtain ⟨w, hw⟩ := eventOn_undated e now ⟨g, seed, s⟩ id
  obtain ⟨w', hw'⟩ := eventOn_undated e now ⟨g, seed, s'⟩ id
  have hattempt : (e.attempted g id w).1 = (e.attempted g id w').1 :=
    Attempt.perform_steady h e.config.fallbackScript id _ w w'
  rw [hw, hw', hattempt]

/-- The report on a group as it is settled in a world: by what the ledger has of it there, and what
the client would answer. -/
def settled (e : Engine σ) (ledger : σ → List Event) (now : Instant) (s : σ)
    (turn : Group × UInt64) : GroupReport :=
  ⟨turn.1.name, turn.1.kind, turn.1.members.length,
    e.ruling turn.1 turn.2 (e.spent ledger now s turn.1.name) fun id =>
      (e.eventOn now ⟨turn.1, turn.2, s⟩ id).outcome⟩

/-- The undated event that goes with it. -/
def settledEntry (e : Engine σ) (ledger : σ → List Event) (now : Instant) (s : σ)
    (turn : Group × UInt64) : Option Event :=
  entryOf (fun id => (e.eventOn now ⟨turn.1, turn.2, s⟩ id).undated)
    (.ok (e.settled ledger now s turn))

theorem entryOf_map (f : Event → Event) (event : String → Event)
    (result : Except Fault GroupReport) :
    (entryOf event result).map f = entryOf (fun id => f (event id)) result := by
  rcases result with why | ⟨_, _, _, verdict⟩
  · rfl
  · cases verdict <;> rfl

/-- A turn comes to what was settled in a world that has its group's window spent or unspent alike. -/
theorem turned_eq_settled (h : e.Keeps ledger) (hsteady : e.client.Steady) (s : σ) {t : Turn σ}
    (hspent : e.spent ledger now t.world t.group.name = e.spent ledger now s t.group.name)
    (htime : (e.elapsed t.world).1 < e.deadline) (hlog : ¬ e.Fails now t) :
    (e.turned now t).1 = .ok (e.settled ledger now s (t.group, t.seed)) ∧
      (e.entry now t).map Event.undated = e.settledEntry ledger now s (t.group, t.seed) := by
  have hevent (id : String) := eventOn_steady hsteady now t.group t.seed t.world s id
  have houtcome : (fun id => (e.eventOn now t id).outcome) =
      fun id => (e.eventOn now ⟨t.group, t.seed, s⟩ id).outcome := by
    funext id
    have hsame := congrArg Event.outcome (hevent id)
    exact hsame
  have hturned : (e.turned now t).1 = .ok (e.settled ledger now s (t.group, t.seed)) := by
    rw [turned_eq_ruling h htime hlog, hspent, houtcome]
    rfl
  refine ⟨hturned, ?_⟩
  rw [entry, entryOf_map, hturned, settledEntry]
  congr 1
  funext id
  exact hevent id

/-! ## All turns -/

/-- The turns before one of a group have not touched its window, if names do not repeat. -/
theorem spent_of_mem_turnsFrom (h : e.Keeps ledger) {seeded : List (Group × UInt64)}
    (hnodup : (seeded.map (·.1.name)).Nodup) {s : σ} {t : Turn σ}
    (ht : t ∈ e.turnsFrom now seeded s) :
    e.spent ledger now t.world t.group.name = e.spent ledger now s t.group.name := by
  induction seeded generalizing s with
  | nil => cases ht
  | cons turn more ih =>
    obtain ⟨g, seed⟩ := turn
    rw [List.map_cons, List.nodup_cons] at hnodup
    rw [turnsFrom_cons] at ht
    rcases List.mem_cons.mp ht with rfl | ht
    · rfl
    · -- the turn comes after the first one, which is of another group
      have hne : g.name ≠ t.group.name := by
        intro heq
        have hmem := List.mem_map_of_mem (f := (·.1.name)) (mem_of_mem_turnsFrom ht)
        exact hnodup.1 (heq ▸ hmem)
      rw [ih hnodup.2 ht, spent_turned h now hne]

theorem evaluateAll_eq_settled (h : e.Keeps ledger) (hsteady : e.client.Steady)
    {seeded : List (Group × UInt64)} (hnodup : (seeded.map (·.1.name)).Nodup) {s : σ}
    (hund : e.Undisturbed now (e.turnsFrom now seeded s)) :
    (e.evaluateAll now seeded s).1 = seeded.map (fun turn => .ok (e.settled ledger now s turn)) ∧
      ∃ added, ledger (e.evaluateAll now seeded s).2 = ledger s ++ added ∧
        added.map Event.undated = seeded.filterMap (e.settledEntry ledger now s) := by
  have hturns : ∀ t ∈ e.turnsFrom now seeded s,
      (e.turned now t).1 = .ok (e.settled ledger now s (t.group, t.seed)) ∧
        (e.entry now t).map Event.undated = e.settledEntry ledger now s (t.group, t.seed) := by
    intro t ht
    exact turned_eq_settled h hsteady s (spent_of_mem_turnsFrom h hnodup ht) (hund t ht).1
      (hund t ht).2
  constructor
  · rw [evaluateAll_turned, List.map_congr_left fun t ht => (hturns t ht).1]
    conv_rhs => rw [← turnsFrom_map e now seeded s, List.map_map]
    rfl
  · refine ⟨_, ledger_evaluateAll h.adds seeded s fun _ _ _ _ => h.rejects, ?_⟩
    rw [List.map_filterMap, List.filterMap_congr fun t ht => (hturns t ht).2]
    conv_rhs => rw [← turnsFrom_map e now seeded s, List.filterMap_map]
    rfl

end Engine

/-- Groups with names of their own may take their turns in any order: every group has the same report,
and the ledger grows by the same events, up to their order and their times. -/
theorem Engine.evaluateAll_permuted {e : Engine σ} {ledger : σ → List Event} (h : e.Keeps ledger)
    (hsteady : e.client.Steady) (now : Instant) {seeded permuted : List (Group × UInt64)}
    (hperm : permuted.Perm seeded) (hnodup : (seeded.map (·.1.name)).Nodup) (s : σ)
    (hund : e.Undisturbed now (e.turnsFrom now seeded s))
    (hund' : e.Undisturbed now (e.turnsFrom now permuted s)) :
    ∃ report : Group × UInt64 → GroupReport,
      (e.evaluateAll now seeded s).1 = seeded.map (fun turn => .ok (report turn)) ∧
      (e.evaluateAll now permuted s).1 = permuted.map (fun turn => .ok (report turn)) ∧
      ∃ added added', ledger (e.evaluateAll now seeded s).2 = ledger s ++ added ∧
        ledger (e.evaluateAll now permuted s).2 = ledger s ++ added' ∧
        (added'.map Event.undated).Perm (added.map Event.undated) := by
  have hnodup' : (permuted.map (·.1.name)).Nodup := (hperm.map _).nodup_iff.mpr hnodup
  obtain ⟨hreports, added, hledger, hadded⟩ := evaluateAll_eq_settled h hsteady hnodup hund
  obtain ⟨hreports', added', hledger', hadded'⟩ := evaluateAll_eq_settled h hsteady hnodup' hund'
  refine ⟨e.settled ledger now s, hreports, hreports', added, added', hledger, hledger', ?_⟩
  rw [hadded, hadded']
  exact hperm.filterMap _

/-- A drill that terminates instances at every chance, which works on all but one. Every look at the
clock finds a second more. -/
def Engine.ticking : Engine (List Event × Nat) :=
  .beside { Config.standard with groupDefaults := ⟨true, .ofNat 1, .terminate⟩ }
    (fun _ n => (.ok [], n))
    { backend := "command"
      terminate := fun id n =>
        (if id = "d-1" then .error (.unsupported "command" "terminate") else .ok (), n)
      credentials := fun id n => (.error (.credentialsDisabled id), n)
      runScript := fun id _ _ n => (.error (.instanceNotFound id), n) }
    (fun n => (n, n + 1000000000))

theorem Engine.ticking_keeps : ticking.Keeps Prod.fst := beside_keeps ..

theorem Engine.ticking_steady : ticking.client.Steady :=
  ⟨fun _ _ _ => rfl, fun _ _ _ => rfl, fun _ _ _ _ _ => rfl⟩

theorem Engine.ticking_undisturbed {now : Instant} {turns : List (Turn (List Event × Nat))}
    (htime : turns.all (fun t => decide ((ticking.elapsed t.world).1 < ticking.deadline)) = true) :
    ticking.Undisturbed now turns := by
  intro t ht
  exact ⟨of_decide_eq_true (List.all_eq_true.mp htime t ht), beside_not_fails _ _ _ _ _ _⟩

/-- Four groups in two orders: one is hit already, one is empty, and the attempts on the others end
differently. The reports are the same, and so are the events, but for their times. -/
theorem ticking_permuted :
    let web : Group := ⟨"web", .cloud, ["w-1", "w-2"]⟩
    let idle : Group := ⟨"idle", .cloud, []⟩
    let app : Group := ⟨"app", .cloud, ["a-1"]⟩
    let db : Group := ⟨"db", .cloud, ["d-1"]⟩
    let seeded := [(web, 7), (idle, 8), (app, 9), (db, 10)]
    let permuted := [(db, 10), (app, 9), (web, 7), (idle, 8)]
    let old : Event := ⟨"app", .cloud, "a-1", "terminate", ⟨60, 0⟩, .failed, none⟩
    let s : List Event × Nat := ([old], 0)
    ((Engine.ticking.evaluateAll ⟨90, 0⟩ seeded s).1.map (·.toOption.map (·.verdict)) =
        [some (.disrupted "w-1" .succeeded), some .emptyGroup, some .alreadyHit,
          some (.disrupted "d-1" .unsupported)]) ∧
      ((Engine.ticking.evaluateAll ⟨90, 0⟩ seeded s).2.1.map (fun ev => (ev.instanceId, ev.time)) =
        [("a-1", ⟨60, 0⟩), ("w-1", ⟨91, 0⟩), ("d-1", ⟨95, 0⟩)]) ∧
      ((Engine.ticking.evaluateAll ⟨90, 0⟩ permuted s).2.1.map (fun ev => (ev.instanceId, ev.time)) =
        [("a-1", ⟨60, 0⟩), ("d-1", ⟨91, 0⟩), ("w-1", ⟨94, 0⟩)]) ∧
      ∃ report : Group × UInt64 → GroupReport,
        (Engine.ticking.evaluateAll ⟨90, 0⟩ seeded s).1 = seeded.map (fun turn => .ok (report turn)) ∧
        (Engine.ticking.evaluateAll ⟨90, 0⟩ permuted s).1 =
          permuted.map (fun turn => .ok (report turn)) ∧
        ∃ added added', (Engine.ticking.evaluateAll ⟨90, 0⟩ seeded s).2.1 = [old] ++ added ∧
          (Engine.ticking.evaluateAll ⟨90, 0⟩ permuted s).2.1 = [old] ++ added' ∧
          (added'.map Event.undated).Perm (added.map Event.undated) := by
  intro web idle app db seeded permuted old s
  refine ⟨by decide +kernel, by decide +kernel, by decide +kernel, ?_⟩
  have hperm : permuted.Perm seeded := by decide +kernel
  exact Engine.evaluateAll_permuted Engine.ticking_keeps Engine.ticking_steady ⟨90, 0⟩ hperm
    (by decide +kernel) s (Engine.ticking_undisturbed (by decide +kernel))
    (Engine.ticking_undisturbed (by decide +kernel))

end FaultDrill
