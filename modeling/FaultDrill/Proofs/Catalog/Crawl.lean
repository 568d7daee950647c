import FaultDrill.Catalog
import FaultDrill.Proofs.Catalog.Snapshot
import FaultDrill.Proofs.Except
/-!
# Crawls of a catalog

A crawl loads the document again. It gives the groups that the document has now and that are asked
for, in the document's order (`crawl_exact`), or nothing where there is no valid document. Every
member of a group that it gives is found in the catalog afterwards (`crawl_found`).
-/
namespace FaultDrill

/-! ## Groups of another kind -/

/-- Members that are new are added behind the others. -/
theorem Group.foldl_add {name : String} {kind : GroupKind} {members ids : List String}
    (h : (members ++ ids).Nodup) :
    ids.foldl Group.add ⟨name, kind, members⟩ = ⟨name, kind, members ++ ids⟩ := by
  induction ids generalizing members with
  | nil => rw [List.foldl_nil, List.append_nil]
  | cons id ids ih =>
    have hnew : id ∉ members := Catalog.not_mem_of_nodup h
    rw [List.append_cons] at h ⊢
    rw [List.foldl_cons, Group.add, if_neg hnew, ih h]

/-- A group without repeated members keeps them under another kind. -/
theorem Group.retag_eq {g : Group} (h : g.members.Nodup) (kind : GroupKind) :
    g.retag kind = ⟨g.name, kind, g.members⟩ := by
  rw [retag]
  split
  · rename_i hkind
    rw [← hkind]
  · have hadded : g.members.foldl add ⟨g.name, kind, []⟩ = ⟨g.name, kind, [] ++ g.members⟩ :=
      foldl_add h
    exact hadded

namespace Catalog
open Document

/-! ## The document of a source -/

/-- What a source tells: the entries of its document, which is valid. -/
def Source.Tells (files : FileTree) (web : Web) (source : Source) (entries : List GroupEntry) :
    Prop :=
  ∃ content, source.read files web = .ok content ∧
    Json.read (Reader.list GroupEntry.reader) content = .ok entries ∧ Valid entries

variable {keys : KeyStore} {files : FileTree} {web : Web} {home : Option String} {c : Catalog}
  {entries : List GroupEntry}

theorem parse_of_valid {content : String}
    (hread : Json.read (Reader.list GroupEntry.reader) content = .ok entries) (h : Valid entries)
    (keys : KeyStore) : ∃ s, Snapshot.parse keys content = .ok s ∧ s.Reflects keys entries := by
  rw [Snapshot.parse, hread]
  rcases addGroups_cases keys entries (s := .empty) ⟨.nil, .nil⟩ with
    ⟨-, machines, hadded, hall⟩ | ⟨hnot, -⟩
  · exact ⟨_, hadded, reflects_of_valid h hall⟩
  · exact absurd (valid_iff.mp h) hnot

theorem valid_of_parse {content : String} {s : Snapshot} (h : Snapshot.parse keys content = .ok s) :
    ∃ entries, Json.read (Reader.list GroupEntry.reader) content = .ok entries ∧ Valid entries := by
  rw [Snapshot.parse] at h
  cases hread : Json.read (Reader.list GroupEntry.reader) content with
  | error why => rw [hread] at h; cases h
  | ok entries =>
    rw [hread] at h
    rcases addGroups_cases keys entries (s := .empty) ⟨.nil, .nil⟩ with
      ⟨hadmissible, -⟩ | ⟨-, why, hwhy⟩
    · exact ⟨entries, rfl, valid_iff.mpr hadmissible⟩
    · cases hwhy.symm.trans h

theorem load_eq_ok_iff {source : Source} {s : Snapshot} : load files web home source = .ok s ↔
    ∃ content, source.read files web = .ok content ∧
      Snapshot.parse (keyStore files home) content = .ok s := by
  cases hread : source.read files web with
  | error chain => simp [load_of_unread hread]
  | ok content =>
    rw [load_of_read hread]
    cases hparse : Snapshot.parse (keyStore files home) content <;> simp [Except.mapError, hparse]

/-- A source that tells something loads. -/
theorem Source.Tells.load {source : Source} (h : source.Tells files web entries)
    (home : Option String) :
    ∃ s, load files web home source = .ok s ∧ s.Reflects (keyStore files home) entries := by
  obtain ⟨content, hcontent, hread, hvalid⟩ := h
  obtain ⟨s, hparse, hreflects⟩ := parse_of_valid hread hvalid (keyStore files home)
  exact ⟨s, load_eq_ok_iff.mpr ⟨content, hcontent, hparse⟩, hreflects⟩

/-- A source that loads tells something. -/
theorem tells_of_load {source : Source} {s : Snapshot} (h : load files web home source = .ok s) :
    ∃ entries, source.Tells files web entries := by
  obtain ⟨content, hcontent, hparse⟩ := load_eq_ok_iff.mp h
  obtain ⟨entries, hread, hvalid⟩ := valid_of_parse hparse
  exact ⟨entries, content, hcontent, hread, hvalid⟩

/-! ## Crawls -/

theorem crawl_of_load {s : Snapshot} (h : load files web home c.source = .ok s) (kind : GroupKind)
    (names : List String) :
    c.crawl files web home kind names =
      ((Group.named names s.groups).map (·.retag kind), { c with current := s }) := by
  rw [crawl, groups, refresh, h]

theorem crawl_of_error {why : FaultDrill.Fault} (h : load files web home c.source = .error why)
    (kind : GroupKind) (names : List String) : c.crawl files web home kind names = ([], c) := by
  rw [crawl, groups, refresh, h]
  rfl

/-- The groups of a snapshot that have one of the names are the entries of its document that do. -/
theorem named_groups {s : Snapshot} (h : s.Reflects keys entries) (kind : GroupKind)
    (names : List String) :
    (Group.named names s.groups).map (·.retag kind) =
      (entries.filter fun g => names = [] ∨ g.id ∈ names).map fun g =>
        ⟨g.id, kind, g.instances.map (·.id)⟩ := by
  have hretag : ∀ g ∈ Group.named names s.groups, g.retag kind = ⟨g.name, kind, g.members⟩ :=
    fun g hg => Group.retag_eq (h.members g (List.mem_of_mem_filter hg)) kind
  have hempty : names.isEmpty = decide (names = []) := by cases names <;> rfl
  rw [List.map_congr_left hretag, Group.named, h.groups, List.filter_map, List.map_map]
  simp only [Function.comp_def, hempty, Bool.decide_or]

theorem crawl_of_tells (h : c.source.Tells files web entries) (home : Option String)
    (kind : GroupKind) (names : List String) :
    (c.crawl files web home kind names).1 =
      (entries.filter fun g => names = [] ∨ g.id ∈ names).map fun g =>
        ⟨g.id, kind, g.instances.map (·.id)⟩ := by
  obtain ⟨s, hload, hreflects⟩ := h.load home
  rw [crawl_of_load hload, named_groups hreflects]

/-- A source that tells nothing leaves the catalog as it is. -/
theorem crawl_of_untold (h : ∀ entries, ¬ c.source.Tells files web entries) (home : Option String)
    (kind : GroupKind) (names : List String) : c.crawl files web home kind names = ([], c) := by
  cases hload : load files web home c.source with
  | error why => exact crawl_of_error hload kind names
  | ok s =>
    obtain ⟨entries, htells⟩ := tells_of_load hload
    exact absurd htells (h entries)

/-- What a crawl gives. -/
structure Crawled (files : FileTree) (web : Web) (home : Option String) (c : Catalog)
    (kind : GroupKind) (names : List String) (found : List Group) : Prop where
  /-- The groups of the document with one of the names, in the document's order. -/
  groups : ∀ entries, c.source.Tells files web entries →
    found = (entries.filter fun g => names = [] ∨ g.id ∈ names).map fun g =>
      ⟨g.id, kind, g.instances.map (·.id)⟩
  once : (found.map (·.name)).Nodup
  /-- Names said twice and names of no group make no difference. -/
  names : ∀ names', (names' = [] ↔ names = []) →
    (∀ entries, c.source.Tells files web entries → ∀ g ∈ entries, g.id ∈ names' ↔ g.id ∈ names) →
    (c.crawl files web home kind names').1 = found
  invalid : (∀ entries, ¬ c.source.Tells files web entries) → found = []

/-- A crawl gives the groups of the document that are asked for, as it tells them. -/
theorem crawl_exact (files : FileTree) (web : Web) (home : Option String) (c : Catalog)
    (kind : GroupKind) (names : List String) :
    Crawled files web home c kind names (c.crawl files web home kind names).1 := by
  by_cases h : ∃ entries, c.source.Tells files web entries
  · obtain ⟨entries, htells⟩ := h
    refine ⟨fun _ h => crawl_of_tells h home kind names, ?_, ?_, fun h => absurd htells (h entries)⟩
    · rw [crawl_of_tells htells, List.map_map]
      obtain ⟨_, _, _, hvalid⟩ := htells
      exact (List.filter_sublist.map GroupEntry.id).nodup hvalid.distinct
    · intro names' hnil hmem
      rw [crawl_of_tells htells, crawl_of_tells htells]
      congr 1
      apply List.filter_congr
      intro g hg
      exact decide_eq_decide.mpr (or_congr hnil (hmem entries htells g hg))
  · have hnot := not_exists.mp h
    rw [crawl_of_untold hnot]
    refine ⟨fun entries htells => absurd htells (hnot entries), .nil, ?_, fun _ => rfl⟩
    intro names' _ _
    rw [crawl_of_untold hnot]

/-- After a crawl every member of a group that it gave is found. -/
theorem crawl_found {kind : GroupKind} {names : List String} {g : Group} {id : String}
    (hg : g ∈ (c.crawl files web home kind names).1) (hid : id ∈ g.members) :
    ∃ m, (c.crawl files web home kind names).2.machine? id = some m := by
  cases hload : load files web home c.source with
  | error why =>
    rw [crawl_of_error hload] at hg
    cases hg
  | ok s =>
    obtain ⟨entries, htells⟩ := tells_of_load hload
    obtain ⟨s', hload', hreflects⟩ := htells.load home
    cases hload.symm.trans hload'
    rw [crawl_of_load hload] at hg ⊢
    obtain ⟨g', hg', rfl⟩ := List.mem_map.mp hg
    have hmem := List.mem_of_mem_filter hg'
    rw [Group.retag_eq (hreflects.members g' hmem)] at hid
    exact hreflects.indexed g' hmem id hid

end Catalog
end FaultDrill
