import FaultDrill.Proofs.Config.Building
import FaultDrill.Proofs.Config.Document
import FaultDrill.Proofs.Json.Structure
import FaultDrill.Proofs.Text.Utf8
/-!
# Configurations that load

A configuration that loads is valid (`Config.Valid`) and says of every group what the document says:
the group's own settings, those for all groups where it has none, and the standard values where the
document has none at all (`Config.Follows`). A document with a setting that is no valid one, or with
a key that no record knows, does not load (`Offends`). Both are said of the value that the file
holds, and hold for either format (`load_validates`).
-/
namespace FaultDrill.Config
open Document

/-! ## Settings and what stands in for them -/

/-- A value that is the one that is set, or a fallback where none is. -/
structure Resolves (set : α → Prop) (fallback value : α) : Prop where
  given : ∀ a, set a → value = a
  missing : (∀ a, ¬ set a) → value = fallback

theorem Resolves.of_getD {set : α → Prop} {value? : Option α} (h : ∀ a, value? = some a ↔ set a)
    (fallback : α) : Resolves set fallback (value?.getD fallback) where
  given a ha := by rw [(h a).mpr ha, Option.getD_some]
  missing hnone := by
    cases value? with
    | none => rfl
    | some a => exact absurd ((h a).mp rfl) (hnone a)

theorem Parsed.resolves {parse : String → Except ε α} {raw? : Option String} {fallback value : α}
    {set : String → Prop} (h : Parsed parse raw? fallback value)
    (hset : ∀ raw, raw? = some raw ↔ set raw) :
    Resolves (fun a => ∃ raw, set raw ∧ parse raw = .ok a) fallback value where
  given := by
    rintro a ⟨raw, hraw, ha⟩
    rw [(hset raw).mpr hraw] at h
    exact Except.ok.inj (h.symm.trans ha)
  missing hnone := by
    cases raw? with
    | none => exact h
    | some raw => exact absurd ⟨raw, (hset raw).mp rfl, h⟩ (hnone value)

/-! ## What documents set -/

/-- A document sets something for all groups without settings of their own. -/
def SetsForAll (n : Node) (name : String) (r : Reader α) (a : α) : Prop :=
  ∃ g, n.Gives ConfigDocument.names "group_defaults" g ∧ g.Sets GroupDocument.names name r a

/-- A document sets something for a group, in the last entry with its name. -/
def SetsFor (n : Node) (group name : String) (r : Reader α) (a : α) : Prop :=
  ∃ gs g, n.Gives ConfigDocument.names "groups" gs ∧ gs.lastEntry? group = some g ∧
    g.Sets GroupDocument.names name r a

section
variable {n : Node} {d : ConfigDocument} {name : String} {r : Reader α}
  {setting : GroupDocument → Option α}

theorem ConfigDocument.Read.forAll_iff (h : d.Read n) (hdefault : setting default = none)
    (hsetting : ∀ g gd, GroupDocument.Read g gd → ∀ a, setting gd = some a ↔
      g.Sets GroupDocument.names name r a) (a : α) :
    setting d.groupDefaults = some a ↔ SetsForAll n name r a := by
  constructor
  · intro hset
    by_cases hgiven : ∃ g, n.Gives ConfigDocument.names "group_defaults" g
    · obtain ⟨g, hg⟩ := hgiven
      have hread := GroupDocument.read_of_reader (h.groupDefaults.given g hg)
      exact ⟨g, hg, (hsetting g _ hread a).mp hset⟩
    · rw [h.groupDefaults.missing (not_exists.mp hgiven), hdefault] at hset
      cases hset
  · rintro ⟨g, hg, hset⟩
    have hread := GroupDocument.read_of_reader (h.groupDefaults.given g hg)
    exact (hsetting g _ hread a).mpr hset

theorem ConfigDocument.Read.forGroup_iff (h : d.Read n)
    (hsetting : ∀ g gd, GroupDocument.Read g gd → ∀ a, setting gd = some a ↔
      g.Sets GroupDocument.names name r a) (group : String) (a : α) :
    (lastValue? group d.groups).bind setting = some a ↔ SetsFor n group name r a := by
  constructor
  · intro hset
    obtain ⟨gd, hlast, hset⟩ := Option.bind_eq_some_iff.mp hset
    by_cases hgiven : ∃ gs, n.Gives ConfigDocument.names "groups" gs
    · obtain ⟨gs, hgs⟩ := hgiven
      have hrel := Node.lastEntry?_read (h.groups.given gs hgs) group
      rw [hlast] at hrel
      obtain ⟨g, hentry, hread⟩ := exists_of_rel_some hrel
      exact ⟨gs, g, hgs, hentry, (hsetting g gd (GroupDocument.read_of_reader hread) a).mp hset⟩
    · rw [h.groups.missing (not_exists.mp hgiven)] at hlast
      cases hlast
  · rintro ⟨gs, g, hgs, hentry, hset⟩
    have hrel := Node.lastEntry?_read (h.groups.given gs hgs) group
    rw [hentry] at hrel
    obtain ⟨gd, hlast, hread⟩ := exists_of_some_rel hrel
    rw [hlast]
    exact (hsetting g gd (GroupDocument.read_of_reader hread) a).mpr hset

end

/-! ## What a configuration takes from its document -/

/-- A configuration whose settings are those that its document sets. What the document does not set
has its standard value, and what it does not set for a group has the value for all groups. -/
structure Follows (around : Surroundings) (n : Node) (c : Config) : Prop where
  enabled : Resolves (n.Sets ConfigDocument.names "enabled" Reader.flag) true c.enabled
  window : Resolves (fun span => ∃ raw,
      n.Sets ConfigDocument.names "window" Reader.text raw ∧ Span.parse raw = .ok span)
    (.seconds 86400) c.window
  maxConcurrency :
    Resolves (n.Sets ConfigDocument.names "max_concurrency" wholeNumber) 4 c.maxConcurrency
  fallbackScript : ∀ s, c.fallbackScript = some s ↔ ∃ raw,
    n.Sets ConfigDocument.names "fallback_script" Reader.text raw ∧ around.parse raw = .ok (.script s)
  defaultEnabled : Resolves (SetsForAll n "enabled" Reader.flag) false c.groupDefaults.enabled
  defaultProbability :
    Resolves (SetsForAll n "probability" Reader.real) (.ofNat 1) c.groupDefaults.probability
  defaultDisruption : Resolves (fun m => ∃ raw,
      SetsForAll n "disruption" Reader.text raw ∧ around.parse raw = .ok m)
    (.script Script.shutdown) c.groupDefaults.disruption
  /-- The switch for all groups comes before their own. -/
  groupEnabled : ∀ group, ∃ own,
    Resolves (SetsFor n group "enabled" Reader.flag) c.groupDefaults.enabled own ∧
      c.groupEnabled group = (c.enabled && own)
  probability : ∀ group, Resolves (SetsFor n group "probability" Reader.real)
    c.groupDefaults.probability (c.probability group)
  disruption : ∀ group, Resolves (fun m => ∃ raw,
      SetsFor n group "disruption" Reader.text raw ∧ around.parse raw = .ok m)
    c.groupDefaults.disruption (c.disruption group)

section
variable {around : Surroundings} {n : Node} {d : ConfigDocument} {c : Config}

/-- A setting of a group's own is the one of its document. -/
theorem Built.own_eq_some_iff {setting : GroupPolicy → Option α} {P : GroupDocument → α → Prop}
    (h : Built around d c)
    (hsetting : ∀ gd p, GroupPolicy.Of around gd p → ∀ a, setting p = some a ↔ P gd a)
    (group : String) (a : α) :
    (c.policy? group).bind setting = some a ↔ ∃ gd, lastValue? group d.groups = some gd ∧ P gd a := by
  have hgroup := h.groups group
  rw [Option.bind_eq_some_iff]
  constructor
  · rintro ⟨p, hp, hset⟩
    rw [hp] at hgroup
    obtain ⟨gd, hgd, hof⟩ := exists_of_rel_some hgroup
    exact ⟨gd, hgd, (hsetting gd p hof a).mp hset⟩
  · rintro ⟨gd, hgd, hset⟩
    rw [hgd] at hgroup
    obtain ⟨p, hp, hof⟩ := exists_of_some_rel hgroup
    exact ⟨p, hp, (hsetting gd p hof a).mpr hset⟩

theorem Built.follows (h : Built around d c) (hread : d.Read n) : Follows around n c where
  enabled := by
    rw [h.enabled]
    exact .of_getD hread.enabled _
  window := h.window.resolves hread.window
  maxConcurrency := by
    rw [(workers_eq_ok h.workers).2]
    exact .of_getD hread.maxConcurrency _
  fallbackScript s := by
    simp only [← hread.fallbackScript]
    obtain ⟨hnone, hnone'⟩ | ⟨raw, s', hraw, hs', hparse⟩ := fallback_eq_ok h.fallbackScript
    · simp [hnone, hnone']
    · simp [hraw, hs', hparse]
  defaultEnabled := by
    rw [h.groupDefaults.enabled]
    exact .of_getD (hread.forAll_iff rfl fun _ _ hg => hg.enabled) _
  defaultProbability := by
    rw [h.groupDefaults.probability, standard_probability]
    exact .of_getD (hread.forAll_iff rfl fun _ _ hg => hg.probability) _
  defaultDisruption :=
    h.groupDefaults.disruption.resolves (hread.forAll_iff rfl fun _ _ hg => hg.disruption)
  groupEnabled group := by
    refine ⟨_, .of_getD (fun a => ?_) _, rfl⟩
    rw [h.own_eq_some_iff (fun gd p hof a => by rw [hof.enabled]), ← Option.bind_eq_some_iff]
    exact hread.forGroup_iff (fun _ _ hg => hg.enabled) group a
  probability group := by
    refine .of_getD (fun a => ?_) _
    rw [h.own_eq_some_iff (fun gd p hof a => by rw [hof.probability]), ← Option.bind_eq_some_iff]
    exact hread.forGroup_iff (fun _ _ hg => hg.probability) group a
  disruption group := by
    refine .of_getD (fun m => ?_) _
    rw [h.own_eq_some_iff fun gd p hof => hof.disruption]
    simp only [← hread.forGroup_iff (fun _ _ hg => hg.disruption) group, Option.bind_eq_some_iff]
    constructor
    · rintro ⟨gd, hgd, raw, hraw, hm⟩
      exact ⟨raw, ⟨gd, hgd, hraw⟩, hm⟩
    · rintro ⟨raw, ⟨gd, hgd, hraw⟩, hm⟩
      exact ⟨gd, hgd, raw, hraw, hm⟩

/-! ## Documents that do not load -/

/-- What keeps a document from loading: a key that no record knows, on any level, or a setting out of
range. -/
inductive Offends (n : Node) : Prop where
  | unknown (h : n.HasUnknown ConfigDocument.names)
  | unknownForAll {g : Node} (hg : n.Gives ConfigDocument.names "group_defaults" g)
    (h : g.HasUnknown GroupDocument.names)
  | unknownForGroup {gs g : Node} (hgs : n.Gives ConfigDocument.names "groups" gs)
    (hg : gs.HasEntry g) (h : g.HasUnknown GroupDocument.names)
  | unknownForLogins {l : Node} (hl : n.Gives ConfigDocument.names "ssh" l)
    (h : l.HasUnknown SshDocument.names)
  | probabilityForAll {x : Binary64} (hx : SetsForAll n "probability" Reader.real x)
    (h : ¬ x.InUnit)
  | probabilityForGroup {group : String} {x : Binary64}
    (hx : SetsFor n group "probability" Reader.real x) (h : ¬ x.InUnit)
  /-- A window that is rounded to nothing. -/
  | noWindow {raw : String} (hraw : n.Sets ConfigDocument.names "window" Reader.text raw)
    (h : Span.parse raw = .ok ⟨0⟩)
  | noWorker (h : n.Sets ConfigDocument.names "max_concurrency" wholeNumber 0)
  | terminateFallback {raw : String}
    (hraw : n.Sets ConfigDocument.names "fallback_script" Reader.text raw)
    (h : Text.lowerAscii (Text.trim raw) = "terminate")

theorem Built.not_offends (h : Built around d c) (hread : d.Read n) : ¬ Offends n := by
  have hfollows := h.follows hread
  intro hoffends
  cases hoffends with
  | unknown hunknown => exact hread.known hunknown
  | unknownForAll hg hunknown =>
    exact (GroupDocument.read_of_reader (hread.groupDefaults.given _ hg)).known hunknown
  | unknownForGroup hgs hg hunknown =>
    obtain ⟨gd, hgd⟩ := hg.read (hread.groups.given _ hgs)
    exact (GroupDocument.read_of_reader hgd).known hunknown
  | unknownForLogins hl hunknown =>
    exact (SshDocument.read_of_reader (hread.ssh.given _ hl)).known hunknown
  | probabilityForAll hx hout =>
    exact hout (hfollows.defaultProbability.given _ hx ▸ h.valid.defaultProbability)
  | probabilityForGroup hx hout =>
    exact hout ((hfollows.probability _).given _ hx ▸ h.valid.probability _)
  | noWindow hraw hzero =>
    have hwindow := hfollows.window.given _ ⟨_, hraw, hzero⟩
    exact h.window_ne_zero (congrArg Span.millis hwindow)
  | noWorker hzero =>
    have hworkers := hfollows.maxConcurrency.given _ hzero
    have hpos := h.valid.maxConcurrency
    omega
  | terminateFallback hraw hterminate =>
    have hset := (hread.fallbackScript _).mpr hraw
    have hparse : around.parse _ = .ok .terminate := parse_eq_terminate hterminate
    obtain ⟨hnone, -⟩ | ⟨raw, s, hraw', -, hscript⟩ := fallback_eq_ok h.fallbackScript
    · rw [hset] at hnone
      cases hnone
    · cases hset.symm.trans hraw'
      rw [hparse] at hscript
      cases hscript

end

/-! ## Files -/

/-- The tree of a text in a format. -/
def Format.tree (text : String) : Format → Tree
  | json => Json.tree text.toList
  | yaml => Yaml.tree text.toList

theorem Format.read_eq (r : Reader α) (text : String) (format : Format) :
    format.read r text = r.document (format.tree text) := by
  cases format <;> rfl

/-- The value that a configuration file holds, in the format that goes with its extension. -/
def HasDocument (files : FileTree) (path : String) (n : Node) : Prop :=
  ∃ text format, files.readText path = .ok text ∧
    Format.ofExtension (Path.extension? path) = some format ∧ (format.tree text).root = some n

/-- What surrounds the configuration of a path: scripts are looked up from its directory. -/
def surroundings (files : FileTree) (home : Option String) (path : String) : Surroundings :=
  ⟨files, home, (Path.parent? path).getD "."⟩

theorem document_eq_ok {r : Reader α} {t : Tree} {a : α} (h : r.document t = .ok a) :
    ∃ n, t.root = some n ∧ r n = .ok a := by
  rw [Reader.document] at h
  cases hroot : t.root with
  | none =>
    rw [hroot] at h
    cases h
  | some n =>
    rw [hroot] at h
    obtain ⟨a', ha, h⟩ := bind_eq_ok_iff.mp h
    split at h
    · cases h
      exact ⟨n, rfl, ha⟩
    · cases h

/-- A file that loads holds a document, and its configuration is the one of that document. -/
theorem ofDocument_of_load {files : FileTree} {home : Option String} {path : String} {c : Config}
    (h : load files home path = .ok c) :
    ∃ n d, HasDocument files path n ∧ d.Read n ∧
      ofDocument (surroundings files home path) d = .ok c := by
  rw [load] at h
  obtain ⟨text, htext, h⟩ := bind_eq_ok_iff.mp h
  split at h
  · cases h
  · rename_i format hformat
    obtain ⟨d, hd, h⟩ := bind_eq_ok_iff.mp h
    rw [mapError_eq_ok_iff, Format.read_eq] at hd
    obtain ⟨n, hroot, hread⟩ := document_eq_ok hd
    exact ⟨n, d, ⟨text, format, mapError_eq_ok_iff.mp htext, hformat, hroot⟩,
      ConfigDocument.read_of_reader hread, h⟩

theorem built_of_load {files : FileTree} {home : Option String} {path : String} {c : Config}
    (h : load files home path = .ok c) :
    ∃ n d, HasDocument files path n ∧ d.Read n ∧ Built (surroundings files home path) d c := by
  obtain ⟨n, d, hdocument, hread, hof⟩ := ofDocument_of_load h
  exact ⟨n, d, hdocument, hread, (ofDocument_eq_ok hof).1⟩

theorem HasDocument.unique {files : FileTree} {path : String} {n n' : Node}
    (h : HasDocument files path n) (h' : HasDocument files path n') : n = n' := by
  obtain ⟨text, format, htext, hformat, hroot⟩ := h
  obtain ⟨text', format', htext', hformat', hroot'⟩ := h'
  cases htext.symm.trans htext'
  cases hformat.symm.trans hformat'
  exact Option.some.inj (hroot.symm.trans hroot')

/-- A configuration that loads is valid and follows its document, and a document that offends does
not load. -/
theorem load_validates (files : FileTree) (home : Option String) (path : String) :
    (∀ c, load files home path = .ok c → c.Valid ∧
      ∃ n, HasDocument files path n ∧ c.Follows (surroundings files home path) n) ∧
    ∀ n, HasDocument files path n → Offends n → ∀ c, load files home path ≠ .ok c := by
  refine ⟨?_, ?_⟩
  · intro c h
    obtain ⟨n, d, hdocument, hread, hbuilt⟩ := built_of_load h
    exact ⟨hbuilt.valid, n, hdocument, hbuilt.follows hread⟩
  · intro n hdocument hoffends c h
    obtain ⟨n', d, hdocument', hread, hbuilt⟩ := built_of_load h
    obtain rfl := hdocument.unique hdocument'
    exact hbuilt.not_offends hread hoffends

/-! ## A group with two entries -/

/-- A document with two entries for one group, each with a probability. -/
def twice (first last : Nat) : Value :=
  .record [("groups", .record [("web", .record [("probability", .nat first)]),
    ("web", .record [("probability", .nat last)])])]

/-- The document in a file. -/
def twiceFiles (first last : Nat) : FileTree :=
  ⟨[(["chaos.json"], .file (Text.Utf8.bytes (Json.compact (twice first last))))], []⟩

theorem twice_hasDocument (first last : Nat)
    (hlex : Json.lex (Json.compact (twice first last)).toList = Json.tokens (twice first last)) :
    HasDocument (twiceFiles first last) "chaos.json" (twice first last).node := by
  refine ⟨Json.compact (twice first last), .json, ?_, by decide, ?_⟩
  · have hread : (twiceFiles first last).read "chaos.json" =
      .ok (Text.Utf8.bytes (Json.compact (twice first last))) := rfl
    simp only [FileTree.readText, hread, bind, Except.bind, Text.Utf8.string?_bytes]
  · rw [Format.tree, Json.tree_of_lex hlex]

theorem twice_setsFor (first last : Nat) :
    SetsFor (twice first last).node "web" "probability" Reader.real (.ofNat last) :=
  ⟨_, _, .named List.mem_cons_self rfl, rfl, _, .named List.mem_cons_self rfl, rfl⟩

/-- The last entry counts, whatever the first one says: a probability of two keeps the document from
loading in the last entry and does no harm in the first. -/
theorem twice_validates :
    (∃ c, load (twiceFiles 2 0) "" "chaos.json" = .ok c ∧ c.Valid ∧ c.probability "web" = .ofNat 0) ∧
      ∀ c, load (twiceFiles 0 2) "" "chaos.json" ≠ .ok c := by
  have hgood := twice_hasDocument 2 0 (by decide +kernel)
  have hbad := twice_hasDocument 0 2 (by decide +kernel)
  constructor
  · obtain ⟨c, hload⟩ := exists_of_toBool (x := load (twiceFiles 2 0) "" "chaos.json")
      (by decide +kernel)
    obtain ⟨hvalid, n, hdocument, hfollows⟩ := (load_validates _ _ _).1 c hload
    obtain rfl := hgood.unique hdocument
    exact ⟨c, hload, hvalid, (hfollows.probability "web").given _ (twice_setsFor 2 0)⟩
  · refine (load_validates _ _ _).2 _ hbad (.probabilityForGroup (twice_setsFor 0 2) ?_)
    rw [Binary64.inUnit_iff]
    decide +kernel

end FaultDrill.Config
