import Mathlib.Data.List.Forall2
import Mathlib.Data.List.Nodup
import Mathlib.Data.List.Pairwise
import FaultDrill.Catalog.Snapshot
/-!
# What a catalog document says

A document that can be read is a catalog exactly when it is valid (`Valid`), whatever the key files
are like. Its snapshot then lists the groups with the ids of their instances, and its machines are
the instances of the document one by one (`Describes`), each found under its own id
(`Snapshot.parse_exact`). Both loops are followed by what they have collected so far: an id is new
to the machines exactly when the ids of the document do not repeat, and what is new to the machines
is new to the group.
-/
namespace FaultDrill.Catalog
open Document

/-! ## Entries -/

/-- An entry that an instance can be made from. -/
structure InstanceEntry.Sound (e : InstanceEntry) : Prop where
  named : Text.allBlank e.id = false
  addressed : (∃ a ∈ e.ipAddress, Text.allBlank a = false) ∨
    ∃ a ∈ e.hostname, Text.allBlank a = false
  port : e.port ≠ some 0

/-- The address of an entry: its IP address, or its host name if that is blank or missing. -/
def InstanceEntry.Address (e : InstanceEntry) (a : String) : Prop :=
  Text.allBlank a = false ∧ (e.ipAddress = some a ∨
    (∀ b ∈ e.ipAddress, Text.allBlank b = true) ∧ e.hostname = some a)

/-- The machine that an entry describes. A key path that is not blank gives either the key or the
reason why it could not be read. -/
structure InstanceEntry.Describes (keys : KeyStore) (e : InstanceEntry) (m : Machine) : Prop where
  id : m.id = e.id
  host : ∃ a, e.Address a ∧ m.host = Text.trim a
  port : m.port = e.port.getD 22
  login : m.username = e.username ∧ m.password = e.password ∧ m.keyPassword = e.keyPassword
  keyless : (∀ p ∈ e.keyPath, Text.allBlank p = true) →
    m.keyPath = none ∧ m.key = none ∧ m.keyError = none
  keyed : ∀ p ∈ e.keyPath, Text.allBlank p = false → m.keyPath = some p ∧
    ((∃ k, keys p = .ok k ∧ m.key = some k ∧ m.keyError = none) ∨
      ∃ why, keys p = .error why ∧ m.key = none ∧ m.keyError = some why)

theorem notBlank_eq_some_iff {s : Option String} {t : String} :
    notBlank s = some t ↔ s = some t ∧ Text.allBlank t = false := by
  rw [notBlank, Option.filter_eq_some_iff, Bool.not_eq_true']

theorem notBlank_eq_none_iff {s : Option String} :
    notBlank s = none ↔ ∀ t ∈ s, Text.allBlank t = true := by
  rw [notBlank, Option.filter_eq_none_iff]
  simp

namespace InstanceEntry

variable {keys : KeyStore} {group : String} {e : InstanceEntry} {m : Machine}

theorem address_iff {a : String} :
    e.Address a ↔ (notBlank e.ipAddress).or (notBlank e.hostname) = some a := by
  rw [Address, Option.or_eq_some_iff, notBlank_eq_some_iff, notBlank_eq_some_iff,
    notBlank_eq_none_iff]
  tauto

theorem exists_address_iff :
    (∃ a, e.Address a) ↔ (∃ a ∈ e.ipAddress, Text.allBlank a = false) ∨
      ∃ a ∈ e.hostname, Text.allBlank a = false := by
  constructor
  · rintro ⟨a, hblank, hip | ⟨-, hhost⟩⟩
    · exact .inl ⟨a, hip, hblank⟩
    · exact .inr ⟨a, hhost, hblank⟩
  · intro h
    by_cases hip : ∃ a ∈ e.ipAddress, Text.allBlank a = false
    · obtain ⟨a, hip, hblank⟩ := hip
      exact ⟨a, hblank, .inl hip⟩
    · obtain ⟨a, hhost, hblank⟩ := h.resolve_left hip
      refine ⟨a, hblank, .inr ⟨?_, hhost⟩⟩
      intro b hb
      by_contra hnot
      exact hip ⟨b, hb, Bool.eq_false_iff.mpr hnot⟩

theorem port_ne_zero_iff : e.port.getD Machine.defaultPort ≠ 0 ↔ e.port ≠ some 0 := by
  cases e.port with
  | none => simp [Machine.defaultPort]
  | some n => simp

theorem sound_of_machine (h : e.machine keys group = .ok m) : e.Sound := by
  rw [machine] at h
  split at h
  · cases h
  · rename_i hid
    split at h
    · cases h
    · rename_i a ha
      refine ⟨Bool.eq_false_iff.mpr hid, exists_address_iff.mp ⟨a, address_iff.mpr ha⟩, ?_⟩
      rw [← port_ne_zero_iff]
      intro hzero
      rw [if_pos hzero] at h
      cases h

theorem machine_of_sound (h : e.Sound) (keys : KeyStore) (group : String) :
    ∃ m, e.machine keys group = .ok m ∧ e.Describes keys m := by
  obtain ⟨a, ha⟩ := exists_address_iff.mpr h.addressed
  rw [machine, if_neg (by rw [h.named]; decide), address_iff.mp ha]
  dsimp only
  rw [if_neg (port_ne_zero_iff.mpr h.port)]
  refine ⟨_, rfl, rfl, ⟨a, ha, rfl⟩, rfl, ⟨rfl, rfl, rfl⟩, ?_, ?_⟩
  · intro hblank
    rw [notBlank_eq_none_iff.mpr hblank]
    exact ⟨rfl, rfl, rfl⟩
  · intro p hp hblank
    rw [notBlank_eq_some_iff.mpr ⟨hp, hblank⟩]
    refine ⟨rfl, ?_⟩
    cases hread : keys p with
    | ok k =>
      left
      refine ⟨k, rfl, ?_⟩
      rw [Option.map_some, Option.bind_some, Option.bind_some, hread]
      exact ⟨rfl, rfl⟩
    | error why =>
      right
      refine ⟨why, rfl, ?_⟩
      rw [Option.map_some, Option.bind_some, Option.bind_some, hread]
      exact ⟨rfl, rfl⟩

theorem machine_of_not_sound (h : ¬ e.Sound) (keys : KeyStore) (group : String) :
    ∃ why, e.machine keys group = .error why := by
  cases hmachine : e.machine keys group with
  | error why => exact ⟨why, rfl⟩
  | ok m => exact absurd (sound_of_machine hmachine) h

end InstanceEntry

/-! ## The instances of a group -/

variable {keys : KeyStore}

/-- Instances that may be added where some ids are taken. -/
structure Addable (taken : List String) (es : List InstanceEntry) : Prop where
  sound : ∀ e ∈ es, e.Sound
  unique : (taken ++ es.map (·.id)).Nodup

theorem addable_cons {taken : List String} {e : InstanceEntry} {es : List InstanceEntry} :
    Addable taken (e :: es) ↔ e.Sound ∧ Addable (taken ++ [e.id]) es := by
  constructor
  · intro ⟨hsound, hunique⟩
    obtain ⟨he, hes⟩ := List.forall_mem_cons.mp hsound
    rw [List.map_cons, List.append_cons] at hunique
    exact ⟨he, hes, hunique⟩
  · intro ⟨he, hes, hunique⟩
    refine ⟨List.forall_mem_cons.mpr ⟨he, hes⟩, ?_⟩
    rw [List.map_cons, List.append_cons]
    exact hunique

theorem any_eq_true_iff {f : α → String} {l : List α} {id : String} :
    l.any (f · == id) = true ↔ id ∈ l.map f := by
  rw [List.any_eq_true, List.mem_map]
  simp only [beq_iff_eq]

theorem nodup_append_singleton {l : List String} {id : String} :
    (l ++ [id]).Nodup ↔ id ∉ l ∧ l.Nodup := by
  rw [← List.concat_eq_append, List.nodup_concat]

theorem not_mem_of_nodup {l m : List String} {id : String} (h : (l ++ id :: m).Nodup) : id ∉ l := by
  rw [List.append_cons] at h
  exact (nodup_append_singleton.mp (List.nodup_append.mp h).1).1

theorem addInstances_cons {e : InstanceEntry} {g : Group} {m : Machine}
    (hmachine : e.machine keys g.name = .ok m) (es : List InstanceEntry) (machines : List Machine) :
    addInstances keys (e :: es) machines g =
      if machines.any (·.id == m.id) then .error (.duplicateInstance m.id)
      else addInstances keys es (machines ++ [m]) (g.add m.id) := by
  rw [addInstances, hmachine]
  rfl

/-- What is kept while the instances of a group are added: machines have ids of their own, and the
members of the group are among them. -/
structure Gathered (machines : List Machine) (g : Group) : Prop where
  unique : (machines.map (·.id)).Nodup
  members : ∀ id ∈ g.members, id ∈ machines.map (·.id)

/-- An id that is new to the machines is new to the group, and becomes a member. -/
theorem Gathered.add_eq {machines : List Machine} {g : Group} (h : Gathered machines g) {id : String}
    (hnew : id ∉ machines.map (·.id)) : g.add id = { g with members := g.members ++ [id] } := by
  rw [Group.add, if_neg fun hmem => hnew (h.members id hmem)]

theorem Gathered.add {machines : List Machine} {g : Group} (h : Gathered machines g) {m : Machine}
    (hnew : m.id ∉ machines.map (·.id)) : Gathered (machines ++ [m]) (g.add m.id) := by
  have hids : (machines ++ [m]).map (·.id) = machines.map (·.id) ++ [m.id] := by
    rw [List.map_append, List.map_singleton]
  constructor
  · rw [hids, nodup_append_singleton]
    exact ⟨hnew, h.unique⟩
  · rw [hids, h.add_eq hnew]
    intro id hid
    rw [List.mem_append] at hid ⊢
    exact hid.imp_left (h.members id)

/-- Instances are added to the machines and to the group one by one, or cannot be added. -/
theorem addInstances_cases (keys : KeyStore) (es : List InstanceEntry) {machines : List Machine}
    {g : Group} (h : Gathered machines g) :
    (Addable (machines.map (·.id)) es ∧ ∃ added,
      addInstances keys es machines g =
        .ok (machines ++ added, { g with members := g.members ++ es.map (·.id) }) ∧
      List.Forall₂ (InstanceEntry.Describes keys) es added) ∨
    (¬ Addable (machines.map (·.id)) es ∧ ∃ why, addInstances keys es machines g = .error why) := by
  induction es generalizing machines g with
  | nil =>
    left
    refine ⟨⟨by simp, by simpa using h.unique⟩, [], ?_, .nil⟩
    rw [addInstances, List.map_nil, List.append_nil, List.append_nil]
  | cons e es ih =>
    by_cases hsound : e.Sound
    · obtain ⟨m, hmachine, hdescribes⟩ := InstanceEntry.machine_of_sound hsound keys g.name
      rw [addInstances_cons hmachine]
      by_cases htaken : m.id ∈ machines.map (·.id)
      · -- the id is taken, so the document repeats it
        right
        rw [if_pos (any_eq_true_iff.mpr htaken)]
        refine ⟨?_, _, rfl⟩
        intro haddable
        have hnew : e.id ∉ machines.map (·.id) := not_mem_of_nodup haddable.unique
        exact hnew (hdescribes.id ▸ htaken)
      · have hids : (machines ++ [m]).map (·.id) = machines.map (·.id) ++ [e.id] := by
          rw [List.map_append, List.map_singleton, hdescribes.id]
        rw [if_neg fun h => htaken (any_eq_true_iff.mp h), addable_cons, ← hids]
        rcases ih (h.add htaken) with ⟨haddable, added, hadded, hall⟩ | ⟨hnot, hfails⟩
        · left
          refine ⟨⟨hsound, haddable⟩, m :: added, ?_, .cons hdescribes hall⟩
          rw [hadded, h.add_eq htaken, hdescribes.id, List.append_assoc, List.singleton_append,
            List.append_assoc, List.singleton_append, List.map_cons]
        · exact .inr ⟨fun h => hnot h.2, hfails⟩
    · right
      obtain ⟨why, hwhy⟩ := InstanceEntry.machine_of_not_sound hsound keys g.name
      rw [addable_cons, addInstances, hwhy]
      exact ⟨fun h => hsound h.1, why, rfl⟩

theorem map_id_of_describes {es : List InstanceEntry} {machines : List Machine}
    (h : List.Forall₂ (InstanceEntry.Describes keys) es machines) :
    machines.map (·.id) = es.map (·.id) := by
  induction h with
  | nil => rfl
  | cons hfirst _ ih => rw [List.map_cons, List.map_cons, hfirst.id, ih]

/-! ## The groups of a document -/

/-- The instances of groups, in the order of the document. -/
def allInstances (gs : List GroupEntry) : List InstanceEntry := gs.flatMap (·.instances)

theorem allInstances_cons (g : GroupEntry) (gs : List GroupEntry) :
    allInstances (g :: gs) = g.instances ++ allInstances gs := List.flatMap_cons

/-- The group that an entry stands for. -/
def GroupEntry.group (g : GroupEntry) : Group :=
  ⟨g.id, .localMachines, g.instances.map (·.id)⟩

/-- Groups that may be added where some names and some ids of instances are taken. -/
structure Admissible (names taken : List String) (gs : List GroupEntry) : Prop where
  named : ∀ g ∈ gs, Text.allBlank g.id = false
  distinct : (names ++ gs.map (·.id)).Nodup
  addable : Addable taken (allInstances gs)

theorem addable_append {taken : List String} {es es' : List InstanceEntry} :
    Addable taken (es ++ es') ↔ Addable taken es ∧ Addable (taken ++ es.map (·.id)) es' := by
  constructor
  · rintro ⟨hsound, hunique⟩
    rw [List.map_append, ← List.append_assoc] at hunique
    obtain ⟨hleft, hright⟩ := List.forall_mem_append.mp hsound
    exact ⟨⟨hleft, (List.nodup_append.mp hunique).1⟩, hright, hunique⟩
  · rintro ⟨⟨hleft, -⟩, hright, hunique⟩
    refine ⟨List.forall_mem_append.mpr ⟨hleft, hright⟩, ?_⟩
    rw [List.map_append, ← List.append_assoc]
    exact hunique

theorem admissible_cons {names taken : List String} {g : GroupEntry} {gs : List GroupEntry} :
    Admissible names taken (g :: gs) ↔ Text.allBlank g.id = false ∧ Addable taken g.instances ∧
      Admissible (names ++ [g.id]) (taken ++ g.instances.map (·.id)) gs := by
  constructor
  · rintro ⟨hnamed, hdistinct, haddable⟩
    obtain ⟨hg, hgs⟩ := List.forall_mem_cons.mp hnamed
    rw [allInstances_cons, addable_append] at haddable
    rw [List.map_cons, List.append_cons] at hdistinct
    exact ⟨hg, haddable.1, hgs, hdistinct, haddable.2⟩
  · rintro ⟨hg, haddable, hgs, hdistinct, hrest⟩
    refine ⟨List.forall_mem_cons.mpr ⟨hg, hgs⟩, ?_, ?_⟩
    · rw [List.map_cons, List.append_cons]
      exact hdistinct
    · rw [allInstances_cons, addable_append]
      exact ⟨haddable, hrest⟩

theorem addGroups_cons {g : GroupEntry} {s : Snapshot} (hnamed : Text.allBlank g.id = false)
    (hnew : g.id ∉ s.groups.map (·.name)) (gs : List GroupEntry) :
    Snapshot.addGroups keys (g :: gs) s =
      match addInstances keys g.instances s.machines (.empty g.id .localMachines) with
      | .ok (machines, group) =>
        Snapshot.addGroups keys gs ⟨s.groups ++ [group], machines⟩
      | .error why => .error why := by
  rw [Snapshot.addGroups, if_neg (by rw [hnamed]; decide)]
  dsimp only
  rw [if_neg fun h => hnew (any_eq_true_iff.mp h)]
  cases addInstances keys g.instances s.machines (.empty g.id .localMachines) <;> rfl

theorem addGroups_refuses {g : GroupEntry} {s : Snapshot}
    (h : ¬ (Text.allBlank g.id = false ∧ g.id ∉ s.groups.map (·.name))) (gs : List GroupEntry) :
    ∃ why, Snapshot.addGroups keys (g :: gs) s = .error why := by
  rw [Snapshot.addGroups]
  split
  · exact ⟨_, rfl⟩
  · rename_i hblank
    have htaken : g.id ∈ s.groups.map (·.name) := by
      by_contra hnew
      exact h ⟨Bool.eq_false_iff.mpr hblank, hnew⟩
    dsimp only
    rw [if_pos (any_eq_true_iff.mpr htaken)]
    exact ⟨_, rfl⟩

/-- What is kept while groups are added: groups have names and machines have ids of their own. -/
structure Snapshot.Distinct (s : Snapshot) : Prop where
  names : (s.groups.map (·.name)).Nodup
  ids : (s.machines.map (·.id)).Nodup

/-- A group with a new name may be added together with the machines of its instances. -/
theorem Snapshot.Distinct.add {s : Snapshot} (h : s.Distinct) {g : GroupEntry}
    (hnew : g.id ∉ s.groups.map (·.name)) (haddable : Addable (s.machines.map (·.id)) g.instances)
    {machines : List Machine}
    (hall : List.Forall₂ (InstanceEntry.Describes keys) g.instances machines) :
    Distinct ⟨s.groups ++ [g.group], s.machines ++ machines⟩ := by
  constructor
  · show ((s.groups ++ [g.group]).map (·.name)).Nodup
    rw [List.map_append, List.map_singleton, nodup_append_singleton]
    exact ⟨hnew, h.names⟩
  · show ((s.machines ++ machines).map (·.id)).Nodup
    rw [List.map_append, map_id_of_describes hall]
    exact haddable.unique

/-- Groups are added one by one, each with all its instances, or cannot be added. -/
theorem addGroups_cases (keys : KeyStore) (gs : List GroupEntry) {s : Snapshot} (h : s.Distinct) :
    (Admissible (s.groups.map (·.name)) (s.machines.map (·.id)) gs ∧ ∃ added,
      Snapshot.addGroups keys gs s =
        .ok ⟨s.groups ++ gs.map GroupEntry.group, s.machines ++ added⟩ ∧
      List.Forall₂ (InstanceEntry.Describes keys) (allInstances gs) added) ∨
    (¬ Admissible (s.groups.map (·.name)) (s.machines.map (·.id)) gs ∧
      ∃ why, Snapshot.addGroups keys gs s = .error why) := by
  induction gs generalizing s with
  | nil =>
    left
    refine ⟨⟨by simp, by simpa using h.names, by simp [allInstances], ?_⟩, [], ?_, .nil⟩
    · simpa [allInstances] using h.ids
    · rw [Snapshot.addGroups, List.map_nil, List.append_nil, List.append_nil]
  | cons g gs ih =>
    by_cases hfirst : Text.allBlank g.id = false ∧ g.id ∉ s.groups.map (·.name)
    · obtain ⟨hnamed, hnew⟩ := hfirst
      -- a group begins without members, whatever machines there are already
      have hgathered : Gathered s.machines (.empty g.id .localMachines) := ⟨h.ids, nofun⟩
      rw [admissible_cons, addGroups_cons hnamed hnew]
      rcases addInstances_cases keys g.instances hgathered with
        ⟨haddable, machines, hmachines, hall⟩ | ⟨hnot, why, hwhy⟩
      · have hrest := ih (h.add hnew haddable hall)
        rw [List.map_append, List.map_singleton, List.map_append, map_id_of_describes hall] at hrest
        rw [hmachines]
        rcases hrest with ⟨hadmissible, added, hadded, hall'⟩ | ⟨hnot, hfails⟩
        · left
          refine ⟨⟨hnamed, haddable, hadmissible⟩, machines ++ added, ?_, ?_⟩
          · show Snapshot.addGroups keys gs ⟨s.groups ++ [g.group], s.machines ++ machines⟩ = _
            rw [hadded, List.append_assoc, List.append_assoc, List.singleton_append, List.map_cons]
          · rw [allInstances_cons]
            exact List.rel_append hall hall'
        · exact .inr ⟨fun h => hnot h.2.2, hfails⟩
      · right
        rw [hwhy]
        exact ⟨fun h => hnot h.2.1, why, rfl⟩
    · right
      refine ⟨?_, addGroups_refuses hfirst gs⟩
      intro hadmissible
      exact hfirst ⟨(admissible_cons.mp hadmissible).1, not_mem_of_nodup hadmissible.distinct⟩

/-! ## Whole documents -/

/-- A document that is a catalog. -/
structure Valid (entries : List GroupEntry) : Prop where
  named : ∀ g ∈ entries, Text.allBlank g.id = false
  distinct : (entries.map (·.id)).Nodup
  sound : ∀ g ∈ entries, ∀ e ∈ g.instances, e.Sound
  /-- Ids of instances do not repeat, not even in different groups. -/
  unique : ((allInstances entries).map (·.id)).Nodup

theorem mem_allInstances {entries : List GroupEntry} {e : InstanceEntry} :
    e ∈ allInstances entries ↔ ∃ g ∈ entries, e ∈ g.instances := List.mem_flatMap

theorem valid_iff {entries : List GroupEntry} : Valid entries ↔ Admissible [] [] entries := by
  constructor
  · intro ⟨hnamed, hdistinct, hsound, hunique⟩
    refine ⟨hnamed, hdistinct, ?_, hunique⟩
    intro e he
    obtain ⟨g, hg, he⟩ := mem_allInstances.mp he
    exact hsound g hg e he
  · intro ⟨hnamed, hdistinct, hsound, hunique⟩
    exact ⟨hnamed, hdistinct, fun g hg e he => hsound e (mem_allInstances.mpr ⟨g, hg, he⟩), hunique⟩

/-- A snapshot that says what a document says. -/
structure Snapshot.Reflects (keys : KeyStore) (entries : List GroupEntry) (s : Snapshot) :
    Prop where
  groups : s.groups = entries.map fun g => ⟨g.id, .localMachines, g.instances.map (·.id)⟩
  members : ∀ g ∈ s.groups, g.members.Nodup
  /-- There is one machine for each instance of the document. -/
  machines : List.Forall₂ (InstanceEntry.Describes keys) (allInstances entries) s.machines
  unique : (s.machines.map (·.id)).Nodup
  index : ∀ id m, s.machine? id = some m ↔ m ∈ s.machines ∧ m.id = id
  indexed : ∀ g ∈ s.groups, ∀ id ∈ g.members, ∃ m, s.machine? id = some m
  housed : ∀ id m, s.machine? id = some m → ∃! g, g ∈ s.groups ∧ id ∈ g.members

theorem Snapshot.machine?_eq_some_iff {s : Snapshot} (h : (s.machines.map (·.id)).Nodup)
    {id : String} {m : Machine} : s.machine? id = some m ↔ m ∈ s.machines ∧ m.id = id := by
  constructor
  · intro hfound
    exact ⟨List.mem_of_find?_eq_some hfound, by simpa using List.find?_some hfound⟩
  · rintro ⟨hmem, rfl⟩
    cases hfound : s.machine? m.id with
    | none =>
      have hnone := List.find?_eq_none.mp hfound m hmem
      simp at hnone
    | some m' =>
      have hsame : m'.id = m.id := by simpa using List.find?_some hfound
      rw [List.inj_on_of_nodup_map h (List.mem_of_find?_eq_some hfound) hmem hsame]

theorem flatMap_members (entries : List GroupEntry) :
    (entries.map GroupEntry.group).flatMap (·.members) = (allInstances entries).map (·.id) := by
  rw [allInstances, List.map_flatMap, List.flatMap_map]
  rfl

/-- The groups of a valid document have no member twice, and no two of them have one in common. -/
theorem Valid.members {entries : List GroupEntry} (h : Valid entries) :
    (∀ g ∈ entries.map GroupEntry.group, g.members.Nodup) ∧
      ∀ g ∈ entries.map GroupEntry.group, ∀ g' ∈ entries.map GroupEntry.group, ∀ id ∈ g.members,
        id ∈ g'.members → g = g' := by
  have hunique := h.unique
  rw [← flatMap_members, List.nodup_flatMap] at hunique
  refine ⟨hunique.1, ?_⟩
  intro g hg g' hg' id hid hid'
  have hsymm : Std.Symm (Function.onFun List.Disjoint fun g : Group => g.members) :=
    ⟨fun _ _ hdisjoint => List.disjoint_symm hdisjoint⟩
  by_contra hne
  exact hunique.2.forall hg hg' hne hid hid'

theorem reflects_of_valid {entries : List GroupEntry} (h : Valid entries) {machines : List Machine}
    (hall : List.Forall₂ (InstanceEntry.Describes keys) (allInstances entries) machines) :
    Snapshot.Reflects keys entries ⟨entries.map GroupEntry.group, machines⟩ := by
  have hids : machines.map (·.id) = (entries.map GroupEntry.group).flatMap (·.members) := by
    rw [map_id_of_describes hall, flatMap_members]
  have hunique : (machines.map (·.id)).Nodup := by
    rw [hids, flatMap_members]
    exact h.unique
  have hindex (id : String) (m : Machine) :
      Snapshot.machine? ⟨entries.map GroupEntry.group, machines⟩ id = some m ↔
        m ∈ machines ∧ m.id = id := Snapshot.machine?_eq_some_iff hunique
  refine ⟨rfl, h.members.1, hall, hunique, hindex, ?_, ?_⟩
  · intro g hg id hid
    have hmem : id ∈ machines.map (·.id) := by
      rw [hids]
      exact List.mem_flatMap.mpr ⟨g, hg, hid⟩
    obtain ⟨m, hm, hname⟩ := List.mem_map.mp hmem
    exact ⟨m, (hindex id m).mpr ⟨hm, hname⟩⟩
  · intro id m hfound
    obtain ⟨hm, rfl⟩ := (hindex id m).mp hfound
    have hmem := List.mem_map_of_mem (f := (·.id)) hm
    rw [hids] at hmem
    obtain ⟨g, hg, hid⟩ := List.mem_flatMap.mp hmem
    refine ⟨g, ⟨hg, hid⟩, ?_⟩
    rintro g' ⟨hg', hid'⟩
    exact h.members.2 g' hg' g hg _ hid' hid

/-- A document that can be read is a catalog exactly when it is valid, and its snapshot says what the
document says. -/
theorem Snapshot.parse_exact (keys : KeyStore) {content : String} {entries : List GroupEntry}
    (hread : Json.read (Reader.list GroupEntry.reader) content = .ok entries) :
    ((∃ s, Snapshot.parse keys content = .ok s) ↔ Valid entries) ∧
      ∀ s, Snapshot.parse keys content = .ok s → s.Reflects keys entries := by
  have hparse : Snapshot.parse keys content = Snapshot.addGroups keys entries .empty := by
    rw [parse, hread]
  rw [hparse, valid_iff]
  rcases addGroups_cases keys entries (s := .empty) ⟨.nil, .nil⟩ with
    ⟨hadmissible, machines, hadded, hall⟩ | ⟨hnot, why, hwhy⟩
  · rw [hadded]
    refine ⟨⟨fun _ => hadmissible, fun _ => ⟨_, rfl⟩⟩, ?_⟩
    intro s hs
    cases hs
    exact reflects_of_valid (valid_iff.mpr hadmissible) hall
  · rw [hwhy]
    exact ⟨⟨nofun, fun h => absurd h hnot⟩, nofun⟩

/-- A store with one key. -/
def oneKey : KeyStore := fun path => if path = "db" then .ok [1, 2, 3] else .error "no such file"

/-- A document with a blank address, a key that cannot be read and one that can. -/
theorem oneKey_parse_exact :
    let content := "[\x7b\"id\":\"web\",\"instances\":[" ++
      "\x7b\"id\":\"w\",\"ipAddress\":\" \",\"hostname\":\"lb \",\"privateKeyFilePath\":\"lb\"\x7d]\x7d," ++
      "\x7b\"id\":\"db\",\"instances\":[" ++
      "\x7b\"id\":\"d\",\"ipAddress\":\"::1\",\"privateKeyFilePath\":\"db\",\"sshPort\":23\x7d]\x7d]"
    ∃ entries s, Json.read (Reader.list GroupEntry.reader) content = .ok entries ∧
      Snapshot.parse oneKey content = .ok s ∧ Valid entries ∧ s.Reflects oneKey entries ∧
      s.groups = [⟨"web", .localMachines, ["w"]⟩, ⟨"db", .localMachines, ["d"]⟩] ∧
      s.machines = [⟨"w", "lb", none, none, some "lb", none, none, some "no such file", 22⟩,
        ⟨"d", "::1", none, none, some "db", some [1, 2, 3], none, none, 23⟩] := by
  intro content
  have hsnapshot : (Snapshot.parse oneKey content).toOption = some
      ⟨[⟨"web", .localMachines, ["w"]⟩, ⟨"db", .localMachines, ["d"]⟩],
        [⟨"w", "lb", none, none, some "lb", none, none, some "no such file", 22⟩,
          ⟨"d", "::1", none, none, some "db", some [1, 2, 3], none, none, 23⟩]⟩ := by
    decide +kernel
  cases hentries : Json.read (Reader.list GroupEntry.reader) content with
  | error why =>
    rw [Snapshot.parse, hentries] at hsnapshot
    cases hsnapshot
  | ok entries =>
    obtain ⟨hvalid, hreflects⟩ := Snapshot.parse_exact oneKey hentries
    cases hs : Snapshot.parse oneKey content with
    | error why =>
      rw [hs] at hsnapshot
      cases hsnapshot
    | ok s =>
      rw [hs] at hsnapshot
      obtain rfl := Option.some.inj hsnapshot
      exact ⟨entries, _, rfl, rfl, hvalid.mp ⟨_, hs⟩, hreflects _ hs, rfl, rfl⟩

end FaultDrill.Catalog
