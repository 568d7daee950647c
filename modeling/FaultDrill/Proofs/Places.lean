import FaultDrill.Proofs.Catalog.Crawl
import FaultDrill.Proofs.Config.Loading
import FaultDrill.Proofs.Path
/-!
# Where keys and scripts are read

The key of an entry of a catalog, the key of a configuration and the script of a disruption are each
read from the place that their path leads to: the keys from the path with the home directory put in,
the script from there behind a base directory. Whether such a path leads where it says
(`Path.LeadsAsWritten`) goes by the home directory alone, and by the slashes behind `~/`
(`Path.leadsAsWritten_iff`).
-/
namespace FaultDrill

theorem toOption_readKeyFile (files : FileTree) (home : Option String) (p : String) :
    (readKeyFile files home p).toOption = (files.read (Path.expandHome home p)).toOption := by
  rw [readKeyFile]
  cases files.read (Path.expandHome home p) <;> rfl

/-! ## Keys of a catalog -/

namespace Catalog

variable {files : FileTree} {web : Web} {home : Option String} {p : String} {source : Source}
  {entries : List GroupEntry} {e : InstanceEntry}

theorem toOption_keyStore (files : FileTree) (home : Option String) (p : String) :
    (keyStore files home p).toOption = (files.read (Path.expandHome home p)).toOption := by
  rw [← toOption_readKeyFile, keyStore]
  cases readKeyFile files home p <;> rfl

theorem InstanceEntry.Describes.key_eq {keys : KeyStore} {m : Machine} (h : e.Describes keys m)
    (hp : e.keyPath = some p) (hblank : Text.allBlank p = false) : m.key = (keys p).toOption := by
  rcases (h.keyed p hp hblank).2 with ⟨key, hread, hkey, -⟩ | ⟨why, hread, hkey, -⟩
  · rw [hread, hkey]
    rfl
  · rw [hread, hkey]
    rfl

/-- What a catalog holds for the key of an entry is what the key's path leads to. -/
theorem key_of_load {s : Snapshot} (hload : load files web home source = .ok s)
    (htells : source.Tells files web entries) (he : e ∈ allInstances entries)
    (hp : e.keyPath = some p) (hblank : Text.allBlank p = false) :
    ∃ m, s.machine? e.id = some m ∧ m.keyPath = some p ∧
      m.key = (files.read (Path.expandHome home p)).toOption := by
  obtain ⟨s', hload', hreflects⟩ := htells.load home
  cases hload.symm.trans hload'
  obtain ⟨m, hm, hdescribes⟩ := exists_of_mem_of_forall₂ hreflects.machines he
  refine ⟨m, (hreflects.index e.id m).mpr ⟨hm, hdescribes.id⟩,
    (hdescribes.keyed p hp hblank).1, ?_⟩
  rw [hdescribes.key_eq hp hblank, toOption_keyStore]

end Catalog

/-! ## The key of a configuration -/

namespace Config
open Document

variable {files : FileTree} {home : Option String} {path p : String}

theorem key_of_sshSettings {around : Surroundings} {d : SshDocument} {s : SshSettings}
    (h : sshSettings around d = .ok s) (hp : d.key = some p) (hblank : Text.allBlank p = false) :
    ∃ key, readKeyFile around.files around.home p = .ok key ∧ s.key = some key := by
  rw [sshSettings, hp] at h
  dsimp only at h
  rw [if_neg (by rw [hblank]; decide)] at h
  obtain ⟨key?, hkey, h⟩ := bind_eq_ok_iff.mp h
  obtain ⟨_, -, h⟩ := bind_eq_ok_iff.mp h
  obtain ⟨_, -, h⟩ := bind_eq_ok_iff.mp h
  cases h
  cases hread : readKeyFile around.files around.home p with
  | error why =>
    rw [hread] at hkey
    cases hkey
  | ok key =>
    rw [hread] at hkey
    exact ⟨key, rfl, (Except.ok.inj hkey).symm⟩

/-- The key of a configuration that loads is what the key's path leads to. -/
theorem key_of_load {n l : Node} {c : Config} (hload : load files home path = .ok c)
    (hdocument : HasDocument files path n) (hl : n.Gives ConfigDocument.names "ssh" l)
    (hp : l.Sets SshDocument.names "key" Reader.text p) (hblank : Text.allBlank p = false) :
    ∃ key, files.read (Path.expandHome home p) = .ok key ∧ c.ssh.key = some key := by
  obtain ⟨n', d, hdocument', hread, hof⟩ := ofDocument_of_load hload
  obtain rfl := hdocument.unique hdocument'
  have hlogins := SshDocument.read_of_reader (hread.ssh.given l hl)
  obtain ⟨key, hkey, hset⟩ :=
    key_of_sshSettings (ofDocument_eq_ok hof).2 ((hlogins.key p).mpr hp) hblank
  exact ⟨key, mapError_eq_ok_iff.mp hkey, hset⟩

end Config

/-! ## The script of a disruption -/

namespace Disruption

variable {p : String}

theorem trim_script (p : String) :
    Text.trim ("script:" ++ p) = String.ofList ("script:".toList ++ Text.trimRight p.toList) := by
  have hfirst : Text.trimLeft ("script:".toList ++ p.toList) = "script:".toList ++ p.toList :=
    Text.trimLeft_cons rfl _
  have hlast : ∀ c ∈ "script:".toList.getLast?, Text.isBlank c = false := by
    rintro c ⟨⟩
    decide
  rw [Text.trim, String.toList_append, Text.trimChars, hfirst, Text.trimRight_append_left hlast]

theorem after?_script (p : String) :
    Text.after? "script:".toList (Text.trim ("script:" ++ p)).toList =
      some (Text.trimRight p.toList) := by
  rw [trim_script, Text.after?_eq_some]
  exact String.toList_ofList

/-- What names a script file does not ask for a termination. -/
theorem script_ne_terminate (p : String) :
    Text.lowerAscii (Text.trim ("script:" ++ p)) ≠ "terminate" := by
  intro h
  rw [trim_script, Text.lowerAscii, String.toList_ofList] at h
  have hfirst := congrArg (fun s : String => s.toList.head?) h
  simp only [String.toList_ofList] at hfirst
  exact absurd hfirst (by simp)

theorem scriptPath_trimRight (home : Option String) (base p : String) :
    scriptPath home base (String.ofList (Text.trimRight p.toList)) = scriptPath home base p := by
  have htrim : Text.trimChars (String.ofList (Text.trimRight p.toList)).toList =
      Text.trimChars p.toList := by
    rw [String.toList_ofList, Text.trimChars_trimRight]
  rw [scriptPath, scriptPath, Path.expandHome_congr htrim]

/-- A script is read from the place that its path leads to, behind the base directory. -/
theorem parse_script (files : FileTree) (home : Option String) (base p : String) :
    parse files home base ("script:" ++ p) =
      ((files.readText (scriptPath home base p)).map fun body =>
        script ⟨(Path.stem? (scriptPath home base p)).getD "script", body⟩).mapError
          (Fault.unreadable (scriptPath home base p)) := by
  rw [parse]
  dsimp only
  rw [if_neg (script_ne_terminate p), after?_script]
  dsimp only
  rw [scriptPath_trimRight]
  cases files.readText (scriptPath home base p) <;> rfl

end Disruption

/-! ## Paths that lead where they say -/

namespace Path
open Document

/-- A path as it is written, with blanks around it that do not count: behind `~/` stand names that go
on from the home directory, however many slashes there are, and anything else stands for itself. Keys
are read from where that leads, and scripts from there behind a base directory. -/
structure LeadsAsWritten (home base p : String) : Prop where
  fromHome : ∀ rest, FromHome p rest → Continues home (FileTree.names rest) (expandHome home p)
  underHome : ∀ rest, FromHome p rest → ".." ∉ FileTree.names rest →
    LiesUnder home (expandHome home p)
  asWritten : (∀ rest, ¬ FromHome p rest) → expandHome home p = Text.trim p
  catalogKey : ∀ files web source s entries, Catalog.load files web home source = .ok s →
    source.Tells files web entries → ∀ e ∈ Catalog.allInstances entries, e.keyPath = some p →
      Text.allBlank p = false → ∃ m, s.machine? e.id = some m ∧ m.keyPath = some p ∧
        m.key = (files.read (expandHome home p)).toOption
  configKey : ∀ files path c n l, Config.load files home path = .ok c →
    Config.HasDocument files path n → n.Gives Config.ConfigDocument.names "ssh" l →
      l.Sets Config.SshDocument.names "key" Reader.text p → Text.allBlank p = false →
        ∃ key, files.read (expandHome home p) = .ok key ∧ c.ssh.key = some key
  script : ∀ files body, files.readText (join base (expandHome home p)) = .ok body →
    ∃ label, Disruption.parse files home base ("script:" ++ p) = .ok (.script ⟨label, body⟩)
  noScript : ∀ files why, files.readText (join base (expandHome home p)) = .error why →
    Disruption.parse files home base ("script:" ++ p) =
      .error (.unreadable (join base (expandHome home p)) why)
  /-- Scripts from home are not looked for behind the base directory. -/
  homeFirst : isAbsolute home = true → ∀ rest, FromHome p rest →
    join base (expandHome home p) = expandHome home p
  absolute : isAbsolute (Text.trim p) = true → join base (expandHome home p) = Text.trim p
  relative : (∀ rest, ¬ FromHome p rest) → isAbsolute (Text.trim p) = false →
    Continues base (FileTree.route (Text.trim p)) (join base (expandHome home p))
  underBase : (∀ rest, ¬ FromHome p rest) → isAbsolute (Text.trim p) = false →
    ".." ∉ FileTree.route (Text.trim p) → LiesUnder base (join base (expandHome home p))

variable {home base p : String} {rest : List Char}

theorem not_isAbsolute_of_fromHome (h : FromHome p rest) : isAbsolute (Text.trim p) = false := by
  rw [Text.trim, h, isAbsolute_ofList]
  rfl

theorem isAbsolute_expandHome (hhome : isAbsolute home = true) (h : FromHome p rest) :
    isAbsolute (expandHome home p) = true := by
  rw [expandHome_of_fromHome h]
  exact isAbsolute_join hhome _

theorem continues_script (h : ∀ rest, ¬ FromHome p rest) (hp : isAbsolute (Text.trim p) = false) :
    Continues base (FileTree.route (Text.trim p)) (join base (expandHome home p)) := by
  rw [expandHome_of_not_fromHome h]
  exact continues_join hp base

/-- With names behind `~/`, or without `~/`, a path leads where it says. -/
theorem leadsAsWritten_of_continues
    (h : ∀ rest, FromHome p rest → Continues home (FileTree.names rest) (expandHome home p)) :
    LeadsAsWritten home base p where
  fromHome := h
  underHome rest hfrom hup := (h rest hfrom).liesUnder hup
  asWritten hnot := expandHome_of_not_fromHome hnot home
  catalogKey _ _ _ _ _ hload htells _ he hp hblank := Catalog.key_of_load hload htells he hp hblank
  configKey _ _ _ _ _ hload hdocument hl hp hblank :=
    Config.key_of_load hload hdocument hl hp hblank
  script files body hread := by
    rw [Disruption.parse_script, Disruption.scriptPath, hread]
    exact ⟨_, rfl⟩
  noScript files why hread := by
    rw [Disruption.parse_script, Disruption.scriptPath, hread]
    exact rfl
  homeFirst hhome rest hfrom := join_of_isAbsolute (isAbsolute_expandHome hhome hfrom) base
  absolute hp := by
    have hnot (rest : List Char) : ¬ FromHome p rest := by
      intro hfrom
      rw [not_isAbsolute_of_fromHome hfrom] at hp
      cases hp
    rw [expandHome_of_not_fromHome hnot, join_of_isAbsolute hp]
  relative hnot hp := continues_script hnot hp
  underBase hnot hp hup := (continues_script hnot hp).liesUnder hup

/-- A path leads where it says unless `~/` has one more slash behind it. What begins with that slash
is then the whole path, and the home directory is lost; it does no harm only if that is the root. -/
theorem leadsAsWritten_iff (home base p : String) :
    (LeadsAsWritten home base p ↔
      ∀ rest, FromHome p ('/' :: rest) → isAbsolute home = true ∧ FileTree.route home = []) ∧
    ∀ rest, FromHome p ('/' :: rest) →
      expandHome home p = String.ofList ('/' :: rest) ∧
        join base (expandHome home p) = String.ofList ('/' :: rest) := by
  refine ⟨⟨?_, ?_⟩, ?_⟩
  · intro hleads rest hfrom
    exact (continues_expandHome_iff hfrom).mp (hleads.fromHome _ hfrom) rfl
  · intro hroot
    apply leadsAsWritten_of_continues
    intro rest hfrom
    refine (continues_expandHome_iff hfrom).mpr fun hslash => ?_
    obtain ⟨more, rfl⟩ := List.head?_eq_some_iff.mp hslash
    exact hroot more hfrom
  · intro rest hfrom
    have hslash : isAbsolute (String.ofList ('/' :: rest)) = true := isAbsolute_ofList
    have hlost : expandHome home p = String.ofList ('/' :: rest) := by
      rw [expandHome_of_fromHome hfrom, join_of_isAbsolute hslash]
    rw [hlost]
    exact ⟨rfl, join_of_isAbsolute hslash base⟩

/-- Slashes further behind do no harm, nor blanks around the path; a second slash behind the `~`
does. -/
theorem slashes_lead :
    LeadsAsWritten "/home/oracle" "conf" " ~/.ssh//id " ∧
      FromHome "~//x" ['/', 'x'] ∧ expandHome "/home/oracle" "~//x" = "/x" := by
  have hone (rest : List Char) : ¬ FromHome " ~/.ssh//id " ('/' :: rest) := by
    intro hfrom
    have hchars : Text.trimChars " ~/.ssh//id ".toList = "~/.ssh//id".toList := by decide
    rw [FromHome, hchars] at hfrom
    cases hfrom
  have htwo : FromHome "~//x" ['/', 'x'] := by
    show Text.trimChars "~//x".toList = _
    decide
  refine ⟨(leadsAsWritten_iff _ _ _).1.mpr fun rest hfrom => absurd hfrom (hone rest), htwo, ?_⟩
  exact ((leadsAsWritten_iff "/home/oracle" "conf" "~//x").2 _ htwo).1

/-- The files of a machine with a key of the user's own and another one at the root. -/
def twoKeys : FileTree :=
  ⟨[(["x", "oracle", "home"], .file [1]), (["oracle", "home"], .directory), (["home"], .directory),
    (["x"], .file [2])], ["oracle", "home"]⟩

/-- A key that is said to be in the home directory is read from the root. -/
theorem twoSlashes_lead_astray :
    ¬ LeadsAsWritten "/home/oracle" "conf" "~//x" ∧
      expandHome "/home/oracle" "~//x" = "/x" ∧
      (readKeyFile twoKeys "/home/oracle" "~//x").toOption = some [2] ∧
      (readKeyFile twoKeys "/home/oracle" "~/x").toOption = some [1] := by
  refine ⟨fun hleads => ?_, by decide, by decide, by decide⟩
  have hfrom : FromHome "~//x" ['/', 'x'] := by
    show Text.trimChars "~//x".toList = _
    decide
  have hroute := (hleads.fromHome _ hfrom).route
  exact absurd hroute (by decide)

end Path
end FaultDrill
