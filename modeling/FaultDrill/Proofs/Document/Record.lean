import FaultDrill.Document.Reader
import FaultDrill.Proofs.Except
/-!
# Records that were read

What can be said of a record from the value that was read from it. A record gives a value for a field
under the field's name, or, where a list stands for the record, in the field's place (`Node.Gives`).
When a form has read a record, each field is what was read from the value given for it, or its
standard value where none is given (`Node.Reads`); and where unknown keys are refused, the record has
none (`Form.reads_of_reader`).
-/
namespace FaultDrill.Document

/-! ## What a document gives -/

/-- A value given for a field of a record whose fields have the given names. -/
inductive Node.Gives (names : List String) : Node → (name : String) → Node → Prop where
  | named {members : List (Node × Option Node)} {whole : Bool} {key v : Node} {name : String}
    (hmember : (key, some v) ∈ members) (hkey : Reader.text key = .ok name) :
    Gives names (.record members whole) name v
  | placed {elements : List Node} {whole : Bool} {i : Nat} {v : Node} {name : String}
    (hname : names[i]? = some name) (helement : elements[i]? = some v) :
    Gives names (.list elements whole true) name v

/-- A record with a key that is none of the names. -/
inductive Node.HasUnknown (names : List String) : Node → Prop where
  | key {members : List (Node × Option Node)} {whole : Bool} {key : Node} {value : Option Node}
    {name : String} (hmember : (key, value) ∈ members) (hkey : Reader.text key = .ok name)
    (hname : name ∉ names) : HasUnknown names (.record members whole)

/-- A value for a field of a record: read from what the record gives for the field, or standard where
it gives nothing. -/
structure Node.Reads (names : List String) (n : Node) (name : String) (r : Reader α)
    (standard value : α) : Prop where
  given : ∀ v, n.Gives names name v → r v = .ok value
  missing : (∀ v, ¬ n.Gives names name v) → value = standard

/-- A record sets a field that may be absent: what it gives for the field stands for a value. -/
def Node.Sets (names : List String) (n : Node) (name : String) (r : Reader α) (a : α) : Prop :=
  ∃ v, n.Gives names name v ∧ Reader.optional r v = .ok (some a)

/-- A field that may be absent was read as a value where the record sets it. -/
theorem Node.Reads.eq_some_iff {names : List String} {n : Node} {name : String} {r : Reader α}
    {value : Option α} (h : n.Reads names name (Reader.optional r) none value) (a : α) :
    value = some a ↔ n.Sets names name r a := by
  constructor
  · intro hvalue
    by_cases hgiven : ∃ v, n.Gives names name v
    · obtain ⟨v, hv⟩ := hgiven
      exact ⟨v, hv, hvalue ▸ h.given v hv⟩
    · rw [h.missing (not_exists.mp hgiven)] at hvalue
      cases hvalue
  · rintro ⟨v, hv, hread⟩
    exact Except.ok.inj ((h.given v hv).symm.trans hread)

/-! ## Where forms find fields -/

/-- Fields that are found where a record gives them. -/
def Fields.Of (names : List String) (n : Node) (fields : Fields) : Prop :=
  ∀ i name v, names[i]? = some name →
    ((∃ place, fields.get? i name = some (place, v)) ↔ n.Gives names name v)

namespace Form

variable {fields : Fields} {i : Nat} {name : String}

theorem both_eq_ok_iff {f : Outcome (α → β)} {x : Outcome α} {b : β} :
    f.both x = .ok b ↔ ∃ g a, f = .ok g ∧ x = .ok a ∧ g a = b := by
  cases f <;> cases x <;> simp [Outcome.both]

theorem guarded_eq_ok_iff {fault : Option (Nat × Fault)} {x : Outcome α} {a : α} :
    guarded fault x = .ok a ↔ fault = none ∧ x = .ok a := by
  cases fault with
  | none => simp [guarded]
  | some e => simp [guarded, both_eq_ok_iff]

@[simp] theorem names_seq (f : Form (α → β)) (x : Form α) : (f <*> x).names = f.names ++ x.names :=
  rfl

@[simp] theorem names_map (g : α → β) (x : Form α) : (g <$> x).names = x.names := rfl

theorem read_seq_eq_ok_iff {f : Form (α → β)} {x : Form α} {b : β} :
    (f <*> x).read i fields = .ok b ↔
      ∃ g a, f.read i fields = .ok g ∧ x.read (i + f.names.length) fields = .ok a ∧ g a = b :=
  both_eq_ok_iff

theorem read_map_eq_ok_iff {g : α → β} {x : Form α} {b : β} :
    (g <$> x).read i fields = .ok b ↔ ∃ a, x.read i fields = .ok a ∧ g a = b := by
  show Outcome.both (.ok g) (x.read i fields) = .ok b ↔ _
  simp [both_eq_ok_iff]

/-- A field with a standard value is read from what the record gives. -/
theorem reads_of_defaulting {names : List String} {n : Node} {standard value : α} {r : Reader α}
    (hof : fields.Of names n) (hname : names[i]? = some name)
    (h : (defaulting name standard r).read i fields = .ok value) :
    n.Reads names name r standard value := by
  simp only [defaulting] at h
  split at h
  · rename_i place v hfound
    have hgives := (hof i name v hname).mp ⟨place, hfound⟩
    refine ⟨?_, fun hmissing => absurd hgives (hmissing v)⟩
    intro v' hv'
    obtain ⟨place', hfound'⟩ := (hof i name v' hname).mpr hv'
    cases hfound.symm.trans hfound'
    exact mapError_eq_ok_iff.mp h
  · rename_i hnone
    refine ⟨?_, fun _ => (Except.ok.inj h).symm⟩
    intro v hv
    obtain ⟨place, hfound⟩ := (hof i name v hname).mpr hv
    rw [hnone] at hfound
    cases hfound

/-- The last field of a form, and what is left of the form without it. -/
theorem reads_last {names : List String} {n : Node} {f : Form (α → β)} {standard : α} {r : Reader α}
    {b : β} (hof : fields.Of names n) (hname : names[f.names.length]? = some name)
    (h : (f <*> defaulting name standard r).read 0 fields = .ok b) :
    ∃ g a, f.read 0 fields = .ok g ∧ n.Reads names name r standard a ∧ g a = b := by
  obtain ⟨g, a, hf, hread, hb⟩ := read_seq_eq_ok_iff.mp h
  rw [Nat.zero_add] at hread
  exact ⟨g, a, hf, reads_of_defaulting hof hname hread, hb⟩

/-- The only field of a form. -/
theorem reads_only {names : List String} {n : Node} {g : α → β} {standard : α} {r : Reader α} {b : β}
    (hof : fields.Of names n) (hname : names[0]? = some name)
    (h : (g <$> defaulting name standard r).read 0 fields = .ok b) :
    ∃ a, n.Reads names name r standard a ∧ g a = b := by
  obtain ⟨a, hread, hb⟩ := read_map_eq_ok_iff.mp h
  exact ⟨a, reads_of_defaulting hof hname hread, hb⟩

/-! ## Records without faults -/

/-- The first of members without a fault: its key is a text that names a field, no key before it is
the same, and it has a value. -/
theorem keyFault?_cons_eq_none {names seen : List String} {whole : Bool} {place : Nat}
    {key : Node} {value : Option Node} {more : List (Node × Option Node)}
    (h : keyFault? names .refused whole place seen ((key, value) :: more) = none) :
    ∃ k v, Reader.text key = .ok k ∧ value = some v ∧ k ∈ names ∧ k ∉ seen ∧
      keyFault? names .refused whole (place + 1) (k :: seen) more = none := by
  rw [keyFault?] at h
  cases hkey : Reader.text key with
  | error e => simp [hkey] at h
  | ok k =>
    rw [hkey] at h
    dsimp only at h
    split at h
    · cases h
    · rename_i hknown
      have hname : k ∈ names := by simpa using hknown
      split at h
      · cases h
      · rename_i hseen
        cases value with
        | none => cases h
        | some v => exact ⟨k, v, rfl, rfl, hname, by simpa [hname] using hseen, h⟩

/-- Members without a fault have keys that name fields, none of them seen before, and values. -/
theorem known_of_keyFault? {names seen : List String} {whole : Bool} {place : Nat}
    {members : List (Node × Option Node)}
    (h : keyFault? names .refused whole place seen members = none) :
    ∀ m ∈ members, ∃ k, Reader.text m.1 = .ok k ∧ k ∈ names ∧ k ∉ seen := by
  induction members generalizing place seen with
  | nil => nofun
  | cons first more ih =>
    obtain ⟨k, v, hkey, -, hname, hseen, hmore⟩ := keyFault?_cons_eq_none h
    intro m hm
    rcases List.mem_cons.mp hm with rfl | hm
    · exact ⟨k, hkey, hname, hseen⟩
    · obtain ⟨k', hkey', hname', hseen'⟩ := ih hmore m hm
      exact ⟨k', hkey', hname', fun hmem => hseen' (List.mem_cons_of_mem k hmem)⟩

/-- Among members without a fault, the first with a key is the only one. -/
theorem exists_find?_iff {names seen : List String} {whole : Bool} {place place' : Nat}
    {members : List (Node × Option Node)} {v : Node}
    (h : keyFault? names .refused whole place seen members = none) :
    (∃ p, find? name place' members = some (p, v)) ↔
      ∃ key, (key, some v) ∈ members ∧ Reader.text key = .ok name := by
  induction members generalizing place seen place' with
  | nil => simp [find?]
  | cons first more ih =>
    obtain ⟨key, value⟩ := first
    obtain ⟨k, v', hkey, rfl, -, -, hmore⟩ := keyFault?_cons_eq_none h
    simp only [find?, hkey]
    split
    · -- later members have other keys
      rename_i hk
      subst hk
      constructor
      · rintro ⟨p, hp⟩
        cases hp
        exact ⟨key, List.mem_cons_self, hkey⟩
      · rintro ⟨key', hmem, hkey'⟩
        rcases List.mem_cons.mp hmem with heq | hmem
        · cases heq
          exact ⟨place', rfl⟩
        · obtain ⟨k', hk', -, hseen⟩ := known_of_keyFault? hmore _ hmem
          cases hk'.symm.trans hkey'
          exact absurd List.mem_cons_self hseen
    · rename_i hk
      rw [ih hmore]
      constructor
      · rintro ⟨key', hmem, hkey'⟩
        exact ⟨key', List.mem_cons_of_mem _ hmem, hkey'⟩
      · rintro ⟨key', hmem, hkey'⟩
        rcases List.mem_cons.mp hmem with heq | hmem
        · cases heq
          cases hkey.symm.trans hkey'
          exact absurd rfl hk
        · exact ⟨key', hmem, hkey'⟩

/-- The fields that a form reads in a record without a fault are found where the record gives them,
and the record has no unknown key. -/
theorem of_record {form : Form α} {members : List (Node × Option Node)} {whole : Bool} {a : α}
    (h : reader.record .refused form members whole = .ok a) :
    ¬ (Node.record members whole).HasUnknown form.names ∧
      ∃ fields, fields.Of form.names (.record members whole) ∧ form.read 0 fields = .ok a := by
  obtain ⟨hfault, hread⟩ := guarded_eq_ok_iff.mp h
  refine ⟨?_, _, ?_, hread⟩
  · rintro ⟨hmember, hkey, hname⟩
    obtain ⟨k, hk, hin, -⟩ := known_of_keyFault? hfault _ hmember
    cases hk.symm.trans hkey
    exact hname hin
  · intro i name v _
    show (∃ place, find? name 0 members = some (place, v)) ↔ _
    rw [exists_find?_iff hfault]
    constructor
    · rintro ⟨key, hmember, hkey⟩
      exact .named hmember hkey
    · rintro ⟨hmember, hkey⟩
      exact ⟨_, hmember, hkey⟩

/-- A form that refuses unknown keys has read its fields where the document gives them. -/
theorem reads_of_reader {form : Form α} {n : Node} {a : α} (hnames : form.names.Nodup)
    (h : form.reader .refused n = .ok a) :
    ¬ n.HasUnknown form.names ∧
      ∃ fields, fields.Of form.names n ∧ form.read 0 fields = .ok a := by
  cases n with
  | record members whole => exact of_record (mapError_eq_ok_iff.mp h)
  | scalar s =>
    -- an empty record may be written as nothing at all
    rw [reader] at h
    split at h
    · obtain ⟨-, fields, hof, hread⟩ := of_record (mapError_eq_ok_iff.mp h)
      refine ⟨nofun, fields, ?_, hread⟩
      intro i name v hname
      rw [hof i name v hname]
      constructor
      · rintro ⟨hmember, -⟩
        cases hmember
      · nofun
    · cases h
  | list elements whole positional =>
    rw [reader] at h
    split at h
    · rename_i hpositional
      subst hpositional
      obtain ⟨-, hread⟩ := guarded_eq_ok_iff.mp (mapError_eq_ok_iff.mp h)
      refine ⟨nofun, _, ?_, hread⟩
      intro i name v hname
      constructor
      · rintro ⟨place, hfound⟩
        obtain ⟨v', helement, heq⟩ := Option.map_eq_some_iff.mp hfound
        cases heq
        exact .placed hname helement
      · intro hgives
        cases hgives with
        | @placed _ _ j _ _ hname' helement =>
          obtain rfl : i = j := (List.getElem?_inj (List.getElem?_eq_some_iff.mp hname).1 hnames).mp
            (hname.trans hname'.symm)
          exact ⟨i, by simp only [helement, Option.map_some]⟩
    · cases h

end Form

/-! ## Tables -/

/-- An entry of a table. -/
inductive Node.HasEntry : Node → Node → Prop where
  | mk {members : List (Node × Option Node)} {whole : Bool} {key v : Node}
    (hmember : (key, some v) ∈ members) : HasEntry (.record members whole) v

/-- The value of the last of some members with a key. -/
def lastMember? (name : String) : List (Node × Option Node) → Option Node
  | [] => none
  | (key, value) :: more =>
    (lastMember? name more).or (if (Reader.text key).toOption = some name then value else none)

/-- The value of the last entry of a table with a key. -/
def Node.lastEntry? (name : String) : Node → Option Node
  | .record members _ => lastMember? name members
  | _ => none

/-- The last of the values that are paired with a name. -/
def lastValue? (name : String) : List (String × α) → Option α
  | [] => none
  | (k, a) :: more => (lastValue? name more).or (if k = name then some a else none)

/-- Members of a table that were read as entries. -/
def EntryRead (r : Reader α) (member : Node × Option Node) (entry : String × α) : Prop :=
  Reader.text member.1 = .ok entry.1 ∧ ∃ v, member.2 = some v ∧ r v = .ok entry.2

/-- A table that was read is a record of its entries, or nothing at all. -/
theorem Reader.table_eq_ok {r : Reader α} {n : Node} {entries : List (String × α)}
    (h : table r n = .ok entries) :
    (∃ members whole, n = .record members whole ∧
      List.Forall₂ (EntryRead r) members entries) ∨
      (∃ s, n = .scalar s) ∧ entries = [] := by
  cases n with
  | scalar s =>
    rw [table] at h
    split at h
    · cases h
      exact .inr ⟨⟨s, rfl⟩, rfl⟩
    · cases h
  | list elements whole positional => cases h
  | record members whole =>
    rw [table] at h
    obtain ⟨entries', hentries, h⟩ := bind_eq_ok_iff.mp h
    split at h
    · cases h
      refine .inl ⟨members, whole, rfl, (forall₂_of_mapM hentries).imp ?_⟩
      rintro ⟨key, value⟩ ⟨k, a⟩ hread
      obtain ⟨k', hkey, hread⟩ := bind_eq_ok_iff.mp hread
      cases value with
      | none => cases hread
      | some v =>
        obtain ⟨a', ha, hread⟩ := bind_eq_ok_iff.mp hread
        cases hread
        exact ⟨hkey, v, rfl, ha⟩
    · cases h

/-- Every entry of a table that was read could be read. -/
theorem Node.HasEntry.read {r : Reader α} {n v : Node} {entries : List (String × α)}
    (hentry : n.HasEntry v) (h : Reader.table r n = .ok entries) : ∃ a, r v = .ok a := by
  obtain ⟨hmember⟩ := hentry
  obtain ⟨members, whole, heq, hall⟩ | ⟨⟨s, heq⟩, -⟩ := Reader.table_eq_ok h
  · cases heq
    obtain ⟨entry, -, -, v', hv', ha⟩ := exists_of_mem_of_forall₂ hall hmember
    cases hv'
    exact ⟨entry.2, ha⟩
  · cases heq

/-- The last member with a name was read as the last value paired with the name. -/
theorem lastMember?_read {r : Reader α} {members : List (Node × Option Node)}
    {entries : List (String × α)} (h : List.Forall₂ (EntryRead r) members entries)
    (name : String) :
    Option.Rel (fun v a => r v = .ok a) (lastMember? name members) (lastValue? name entries) := by
  induction h with
  | nil => exact .none
  | @cons member entry members entries hfirst _ ih =>
    obtain ⟨key, value⟩ := member
    obtain ⟨k, a⟩ := entry
    obtain ⟨hkey, v, hvalue, hv⟩ := hfirst
    obtain rfl : value = some v := hvalue
    rw [lastMember?, lastValue?]
    generalize lastMember? name members = later at ih ⊢
    generalize lastValue? name entries = later' at ih ⊢
    cases ih with
    | some hlater => exact .some hlater
    | none =>
      have hkey : (Reader.text key).toOption = some k := by rw [hkey]; rfl
      simp only [hkey, Option.some.injEq, Option.none_or]
      split
      · exact .some hv
      · exact .none

/-- The last entry of a table was read as the last value paired with its key. -/
theorem Node.lastEntry?_read {r : Reader α} {n : Node} {entries : List (String × α)}
    (h : Reader.table r n = .ok entries) (name : String) :
    Option.Rel (fun v a => r v = .ok a) (n.lastEntry? name) (lastValue? name entries) := by
  obtain ⟨members, whole, rfl, hall⟩ | ⟨⟨s, rfl⟩, rfl⟩ := Reader.table_eq_ok h
  · exact lastMember?_read hall name
  · exact .none

end FaultDrill.Document
