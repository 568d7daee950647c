import FaultDrill.Catalog
import FaultDrill.Proofs.Text.Utf8
/-!
# The last good load

A catalog over a file has a history: the files around it change in any way, and it is asked for this
and that. Some requests make it load its document, and a load goes in one of three ways (`Load`). A
catalog holds the snapshot of its latest good load, the one at its opening included, and nothing of
any other; all its answers come from that snapshot (`open_lastGood`).
-/
namespace FaultDrill.Catalog

/-! ## Histories -/

/-- What may happen to a catalog. -/
inductive Request where
  /-- The files become others: contents change, files come and go. -/
  | change (files : FileTree)
  | refresh
  | groups
  | current
  | machine (id : String)
  deriving Repr

/-- What a catalog answers. -/
inductive Answer where
  | changed
  | loaded (result : Except FaultDrill.Fault Snapshot)
  | groups (found : List Group)
  | current (s : Snapshot)
  | machine (found : Option Machine)
  deriving Repr

/-- The answer to a request, with the files and the catalog after it. -/
def answer (web : Web) (home : Option String) (files : FileTree) (c : Catalog) :
    Request → Answer × FileTree × Catalog
  | .change files => (.changed, files, c)
  | .refresh =>
    let (result, c) := c.refresh files web home
    (.loaded result, files, c)
  | .groups =>
    let (found, c) := c.groups files web home
    (.groups found, files, c)
  | .current => (.current c.current, files, c)
  | .machine id => (.machine (c.machine? id), files, c)

/-- The files and the catalog after a history. -/
def run (web : Web) (home : Option String) (files : FileTree) (c : Catalog) (rs : List Request) :
    FileTree × Catalog :=
  rs.foldl (fun w r => (answer web home w.1 w.2 r).2) (files, c)

/-- The files after a request. -/
def Request.filesAfter (files : FileTree) : Request → FileTree
  | .change files => files
  | _ => files

/-- The files after a history. -/
def filesAfter (files : FileTree) (rs : List Request) : FileTree := rs.foldl Request.filesAfter files

/-- The files that a request loads the document from, if it loads it. -/
def Request.loads (files : FileTree) : Request → List FileTree
  | .refresh => [files]
  | .groups => [files]
  | .change _ => []
  | .current => []
  | .machine _ => []

/-- The files that the loads of a history met, the latest last. -/
def loads (files : FileTree) : List Request → List FileTree
  | [] => []
  | r :: rs => r.loads files ++ loads (r.filesAfter files) rs

/-! ## Loads -/

/-- How a load of a file goes: the snapshot, or why there is none. The file may be missing or be no
text, and the text may be no catalog. Keys are read from the same files as the document. -/
inductive Load (home : Option String) (path : String) (files : FileTree) :
    Except (List String) Snapshot → Prop where
  | unreadable (why : FileTree.Fault) (h : files.readText path = .error why) :
    Load home path files (.error ["reading catalog " ++ path, why.message])
  | unsound {content : String} (why : Fault) (hread : files.readText path = .ok content)
    (hparse : Snapshot.parse (keyStore files home) content = .error why) :
    Load home path files (.error why.chain)
  | good {content : String} {s : Snapshot} (hread : files.readText path = .ok content)
    (hparse : Snapshot.parse (keyStore files home) content = .ok s) :
    Load home path files (.ok s)

/-- The load of a file fails. -/
def Fails (home : Option String) (path : String) (files : FileTree) : Prop :=
  ∃ chain, Load home path files (.error chain)

/-- The snapshot of the latest good load, or the empty one where no load was good. -/
def LastGood (home : Option String) (path : String) (trees : List FileTree) (s : Snapshot) :
    Prop :=
  (∃ before files after, trees = before ++ files :: after ∧ Load home path files (.ok s) ∧
      ∀ later ∈ after, Fails home path later) ∨
    s = .empty ∧ ∀ files ∈ trees, Fails home path files

/-- The right answer to a request where a snapshot is current, and what is current then. Only a good
load makes another snapshot current; a load that fails says so, or gives no groups. -/
inductive Answered (home : Option String) (path : String) (files : FileTree) (s : Snapshot) :
    Request → Answer → Snapshot → Prop where
  | change (files' : FileTree) : Answered home path files s (.change files') .changed s
  | refreshed {s' : Snapshot} (h : Load home path files (.ok s')) :
    Answered home path files s .refresh (.loaded (.ok s')) s'
  | refused {chain : List String} (h : Load home path files (.error chain)) :
    Answered home path files s .refresh
      (.loaded (.error (.catalogUnusable ("file:" ++ path) (": ".intercalate chain)))) s
  | listed {s' : Snapshot} (h : Load home path files (.ok s')) :
    Answered home path files s .groups (.groups s'.groups) s'
  | unlisted (h : Fails home path files) : Answered home path files s .groups (.groups []) s
  | current : Answered home path files s .current (.current s) s
  | machine (id : String) : Answered home path files s (.machine id) (.machine (s.machine? id)) s

section

variable {web : Web} {home : Option String} {path : String} {files : FileTree}
  {trees : List FileTree} {s : Snapshot}

theorem exists_load (home : Option String) (path : String) (files : FileTree) :
    ∃ result, Load home path files result := by
  cases hread : files.readText path with
  | error why => exact ⟨_, .unreadable why hread⟩
  | ok content =>
    cases hparse : Snapshot.parse (keyStore files home) content with
    | error why => exact ⟨_, .unsound why hread hparse⟩
    | ok s => exact ⟨_, .good hread hparse⟩

theorem read_file {content : String} (h : files.readText path = .ok content) :
    (Source.file path).read files web = .ok content := by
  rw [Source.read, h]
  rfl

/-- What the load of a source comes to is what its file says. -/
theorem Load.load_eq {result : Except (List String) Snapshot} (h : Load home path files result) :
    load files web home (.file path) =
      result.mapError fun chain => .catalogUnusable ("file:" ++ path) (": ".intercalate chain) := by
  cases h with
  | unreadable why h =>
    apply load_of_unread
    rw [Source.read, h]
    rfl
  | unsound why hread hparse =>
    rw [load_of_read (read_file hread), hparse]
    rfl
  | good hread hparse =>
    rw [load_of_read (read_file hread), hparse]
    rfl

theorem refresh_of_good {s' : Snapshot} (h : Load home path files (.ok s')) (s : Snapshot) :
    refresh files web home ⟨.file path, s⟩ = (.ok s', ⟨.file path, s'⟩) := by
  rw [refresh, h.load_eq]
  rfl

theorem refresh_of_failed {chain : List String} (h : Load home path files (.error chain))
    (s : Snapshot) :
    refresh files web home ⟨.file path, s⟩ =
      (.error (.catalogUnusable ("file:" ++ path) (": ".intercalate chain)), ⟨.file path, s⟩) := by
  rw [refresh, h.load_eq]
  rfl

/-! ## One request -/

theorem LastGood.good (h : Load home path files (.ok s)) (trees : List FileTree) :
    LastGood home path (trees ++ [files]) s :=
  .inl ⟨trees, files, [], rfl, h, nofun⟩

theorem LastGood.failed (hs : LastGood home path trees s) (h : Fails home path files) :
    LastGood home path (trees ++ [files]) s := by
  have hlast : ∀ later ∈ [files], Fails home path later := List.forall_mem_singleton.mpr h
  rcases hs with ⟨before, good, after, rfl, hgood, hafter⟩ | ⟨hempty, hall⟩
  · refine .inl ⟨before, good, after ++ [files], ?_, hgood, ?_⟩
    · rw [List.append_assoc, List.cons_append]
    · exact List.forall_mem_append.mpr ⟨hafter, hlast⟩
  · exact .inr ⟨hempty, List.forall_mem_append.mpr ⟨hall, hlast⟩⟩

/-- A request is answered rightly, and leaves current the last good load. -/
theorem answer_lastGood (hs : LastGood home path trees s) (files : FileTree) (r : Request) :
    ∃ a s', answer web home files ⟨.file path, s⟩ r = (a, r.filesAfter files, ⟨.file path, s'⟩) ∧
      Answered home path files s r a s' ∧ LastGood home path (trees ++ r.loads files) s' := by
  obtain ⟨result, hload⟩ := exists_load home path files
  cases r with
  | change files' =>
    refine ⟨_, s, rfl, .change files', ?_⟩
    rwa [Request.loads, List.append_nil]
  | refresh =>
    cases result with
    | error chain =>
      refine ⟨_, s, ?_, .refused hload, hs.failed ⟨chain, hload⟩⟩
      rw [answer, refresh_of_failed hload]
      rfl
    | ok s' =>
      refine ⟨_, s', ?_, .refreshed hload, .good hload trees⟩
      rw [answer, refresh_of_good hload]
      rfl
  | groups =>
    cases result with
    | error chain =>
      refine ⟨_, s, ?_, .unlisted ⟨chain, hload⟩, hs.failed ⟨chain, hload⟩⟩
      rw [answer, groups, refresh_of_failed hload]
      rfl
    | ok s' =>
      refine ⟨_, s', ?_, .listed hload, .good hload trees⟩
      rw [answer, groups, refresh_of_good hload]
      rfl
  | current =>
    refine ⟨_, s, rfl, .current, ?_⟩
    rwa [Request.loads, List.append_nil]
  | machine id =>
    refine ⟨_, s, rfl, .machine id, ?_⟩
    rwa [Request.loads, List.append_nil]

/-! ## Histories of any length -/

/-- By induction on the history, with the loads before it. -/
theorem run_lastGood (hs : LastGood home path trees s) (files : FileTree) (rs : List Request) :
    ∃ s', run web home files ⟨.file path, s⟩ rs = (filesAfter files rs, ⟨.file path, s'⟩) ∧
      LastGood home path (trees ++ loads files rs) s' := by
  induction rs generalizing trees s files with
  | nil =>
    refine ⟨s, rfl, ?_⟩
    rwa [loads, List.append_nil]
  | cons r rs ih =>
    obtain ⟨a, s', hanswer, -, hs'⟩ := answer_lastGood hs files r
    rw [loads, ← List.append_assoc, run, List.foldl_cons, hanswer]
    exact ih hs' _

theorem open_of_exists (h : files.exists path = true) (web : Web) (home : Option String) :
    Catalog.open files web home path = .ok (refresh files web home ⟨.file path, .empty⟩).2 := by
  rw [Catalog.open, Source.resolve, if_pos h]
  rfl

theorem open_file (h : files.exists path = true) (web : Web) (home : Option String) :
    ∃ s, Catalog.open files web home path = .ok ⟨.file path, s⟩ ∧ LastGood home path [files] s := by
  have hnone : LastGood home path [] .empty := .inr ⟨rfl, nofun⟩
  obtain ⟨result, hload⟩ := exists_load home path files
  rw [open_of_exists h]
  cases result with
  | error chain =>
    rw [refresh_of_failed hload]
    exact ⟨_, rfl, hnone.failed ⟨chain, hload⟩⟩
  | ok s =>
    rw [refresh_of_good hload]
    exact ⟨_, rfl, .good hload []⟩

/-- A catalog over a file always serves the last good load: after any history it holds the snapshot of
that load and no other, and whatever it is asked next is answered from there. -/
theorem open_lastGood (h : files.exists path = true) (web : Web) (home : Option String) :
    ∃ c, Catalog.open files web home path = .ok c ∧ ∀ rs, ∃ s,
      run web home files c rs = (filesAfter files rs, ⟨.file path, s⟩) ∧
      LastGood home path (files :: loads files rs) s ∧
      ∀ r, ∃ a s', answer web home (filesAfter files rs) ⟨.file path, s⟩ r =
          (a, r.filesAfter (filesAfter files rs), ⟨.file path, s'⟩) ∧
        Answered home path (filesAfter files rs) s r a s' := by
  obtain ⟨first, hopen, hfirst⟩ := open_file h web home
  refine ⟨_, hopen, ?_⟩
  intro rs
  obtain ⟨s, hrun, hs⟩ := run_lastGood hfirst files rs
  refine ⟨s, hrun, hs, ?_⟩
  intro r
  obtain ⟨a, s', hanswer, hanswered, -⟩ := answer_lastGood hs (filesAfter files rs) r
  exact ⟨a, s', hanswer, hanswered⟩

end

/-! ## A history with every kind of bad load -/

/-- A tree with one file. -/
def oneFile (content : List UInt8) : FileTree := ⟨[(["fleet"], .file content)], []⟩

/-- A text in the file is read back. -/
theorem oneFile_readText (text : String) :
    (oneFile (Text.Utf8.bytes text)).readText "fleet" = .ok text := by
  have hread : (oneFile (Text.Utf8.bytes text)).read "fleet" = .ok (Text.Utf8.bytes text) := rfl
  simp only [FileTree.readText, hread, bind, Except.bind, Text.Utf8.string?_bytes]

/-- A catalog document of groups without instances. -/
def fleet (ids : List String) : List UInt8 :=
  Text.Utf8.bytes ("[" ++ ",".intercalate (ids.map fun id => "\x7b\"id\":\"" ++ id ++ "\"\x7d") ++ "]")

/-- The document is cut off, is no text, repeats a group, and is deleted. -/
def badLoads : List Request := [
  .change (oneFile ((fleet ["web"]).take 9)), .groups, .change (oneFile [0xFF]), .refresh,
  .change (oneFile (fleet ["db", "db"])), .groups, .change ⟨[], []⟩, .refresh]

/-- The first document is served through all bad loads and is gone with the next good one. -/
theorem fleet_lastGood :
    let files := oneFile (fleet ["web"])
    let served (rs : List Request) := (Catalog.open files .offline none "fleet").toOption.map fun c =>
      (run .offline none files c rs).2.current.groups.map (·.name)
    served badLoads = some ["web"] ∧
      served (badLoads ++ [.change (oneFile (fleet ["db"])), .current, .groups]) = some ["db"] ∧
      files.exists "fleet" = true ∧
      ∃ c, Catalog.open files .offline none "fleet" = .ok c ∧ ∀ rs, ∃ s,
        run .offline none files c rs = (filesAfter files rs, ⟨.file "fleet", s⟩) ∧
        LastGood none "fleet" (files :: loads files rs) s ∧
        ∀ r, ∃ a s', answer .offline none (filesAfter files rs) ⟨.file "fleet", s⟩ r =
            (a, r.filesAfter (filesAfter files rs), ⟨.file "fleet", s'⟩) ∧
          Answered none "fleet" (filesAfter files rs) s r a s' :=
  ⟨by decide +kernel, by decide +kernel, rfl, open_lastGood rfl .offline none⟩

end FaultDrill.Catalog
