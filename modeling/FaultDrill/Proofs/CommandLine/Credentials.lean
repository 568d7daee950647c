import FaultDrill.CommandLine.Run
import FaultDrill.Proofs.Catalog.Crawl
import FaultDrill.Proofs.Catalog.LastGood
import FaultDrill.Proofs.Credentials.Precedence
/-!
# The credentials that are shown

The command for an instance's credentials and the client that logs in find them on ways of their own.
Both merge the login of the catalog's machine with the same defaults, but only the client looks first
whether the key of the machine could be read. So the command shows what the client uses exactly where
it could (`showsUsed_iff`). Elsewhere the client refuses, and the command shows a login that does
without the key.
-/
namespace FaultDrill

/-! ## Catalogs and their machines -/

namespace Catalog

variable {keys : KeyStore} {m : Machine} {reason : String}

theorem InstanceEntry.Describes.key_eq_none {e : InstanceEntry} (h : e.Describes keys m)
    (hkey : m.keyError = some reason) : m.key = none := by
  cases hpath : notBlank e.keyPath with
  | none => exact (h.keyless (notBlank_eq_none_iff.mp hpath)).2.1
  | some p =>
    obtain ⟨hp, hblank⟩ := notBlank_eq_some_iff.mp hpath
    rcases (h.keyed p hp hblank).2 with ⟨k, -, -, hnone⟩ | ⟨why, -, hnone, -⟩
    · rw [hnone] at hkey
      cases hkey
    · exact hnone

theorem key_eq_none_of_mem {es : List InstanceEntry} {machines : List Machine}
    (h : List.Forall₂ (InstanceEntry.Describes keys) es machines) (hm : m ∈ machines)
    (hkey : m.keyError = some reason) : m.key = none := by
  induction h with
  | nil => cases hm
  | cons hfirst _ ih =>
    rcases List.mem_cons.mp hm with rfl | hm
    · exact hfirst.key_eq_none hkey
    · exact ih hm

/-- A machine of a loaded catalog has nothing in place of a key that could not be read. -/
theorem key_eq_none_of_load {files : FileTree} {web : Web} {home : Option String} {id : String}
    {source : Source} {s : Snapshot}
    (h : load files web home source = .ok s) (hfound : s.machine? id = some m)
    (hkey : m.keyError = some reason) : m.key = none := by
  obtain ⟨entries, htells⟩ := tells_of_load h
  obtain ⟨s', hload, hreflects⟩ := htells.load home
  obtain rfl : s = s' := Except.ok.inj (h.symm.trans hload)
  exact key_eq_none_of_mem hreflects.machines ((hreflects.index id m).mp hfound).1 hkey

/-- A refresh that succeeds is a good load, which becomes the current one. -/
theorem refresh_eq_ok {files : FileTree} {web : Web} {home : Option String} {c : Catalog}
    {s : Snapshot} (h : (c.refresh files web home).1 = .ok s) :
    load files web home c.source = .ok s ∧ c.refresh files web home = (.ok s, ⟨c.source, s⟩) := by
  rw [refresh] at h ⊢
  cases hload : load files web home c.source with
  | error why => rw [hload] at h; cases h
  | ok s' =>
    rw [hload] at h
    cases h
    exact ⟨rfl, rfl⟩

end Catalog

theorem LocalClient.credentialsOf_eq_ok_iff {defaults : Credentials.Defaults} {id : String}
    {found : Option Machine} {c : Credentials} :
    credentialsOf defaults id found = .ok c ↔
      ∃ m, found = some m ∧ m.keyError = none ∧ Credentials.resolve m.login defaults = c := by
  cases found with
  | none => simp [credentialsOf]
  | some m => cases hkey : m.keyError <;> simp [credentialsOf, hkey]

namespace CommandLine

/-! ## What the command loads -/

/-- The configuration and the catalog that the command loads. The catalog is loaded once more after
it is opened. -/
structure Loaded (w : World) (path : Option String) (location : String) (config : Config)
    (catalog : Catalog) : Prop where
  configured : loadConfig w path .none = .ok config
  opened : ∃ c s, Catalog.open w.files w.web w.home location = .ok c ∧
    c.refresh w.files w.web w.home = (.ok s, catalog)

variable {w : World} {path : Option String} {location id text : String} {config : Config}
  {catalog : Catalog} {m : Machine}

theorem Loaded.load (h : Loaded w path location config catalog) :
    Catalog.load w.files w.web w.home catalog.source = .ok catalog.current := by
  obtain ⟨-, c, s, -, hrefresh⟩ := h
  obtain ⟨hload, hrefresh'⟩ := Catalog.refresh_eq_ok (congrArg Prod.fst hrefresh)
  cases hrefresh.symm.trans hrefresh'
  exact hload

/-- The command shows the merged login of the machine that it finds, and nothing where it finds none
or cannot load. -/
theorem credentials_eq_ok_iff : credentials w path location id = .ok text ↔
    ∃ config catalog m, Loaded w path location config catalog ∧ catalog.machine? id = some m ∧
      text = Report.credentials w.color id
        (Credentials.resolve m.login config.loginDefaults) := by
  rw [credentials]
  simp only [bind_eq_ok_iff, mapError_eq_ok_iff]
  constructor
  · rintro ⟨config, hconfig, c, hopen, s, hs, hshown⟩
    obtain ⟨-, hrefresh⟩ := Catalog.refresh_eq_ok hs
    cases hm : s.machine? id with
    | none =>
      rw [hm] at hshown
      cases hshown
    | some m =>
      rw [hm] at hshown
      cases hshown
      exact ⟨config, _, m, ⟨hconfig, c, s, hopen, hrefresh⟩, hm, rfl⟩
  · rintro ⟨config, catalog, m, ⟨hconfig, c, s, hopen, hrefresh⟩, hm, rfl⟩
    have hs : (c.refresh w.files w.web w.home).1 = .ok s := congrArg Prod.fst hrefresh
    cases hrefresh.symm.trans (Catalog.refresh_eq_ok hs).2
    refine ⟨config, hconfig, c, hopen, s, hs, ?_⟩
    have hm : s.machine? id = some m := hm
    rw [hm]
    rfl

/-- The command loads one configuration and one catalog. -/
theorem Loaded.unique {config' : Config} {catalog' : Catalog}
    (h : Loaded w path location config catalog) (h' : Loaded w path location config' catalog') :
    config = config' ∧ catalog = catalog' := by
  obtain ⟨hconfig, c, s, hopen, hrefresh⟩ := h
  obtain ⟨hconfig', c', s', hopen', hrefresh'⟩ := h'
  cases hconfig.symm.trans hconfig'
  cases hopen.symm.trans hopen'
  cases hrefresh.symm.trans hrefresh'
  exact ⟨rfl, rfl⟩

/-- A file that is there and loads is what the command loads. -/
theorem loaded_of_good {s : Catalog.Snapshot} (hconfig : loadConfig w path .none = .ok config)
    (hexists : w.files.exists location = true)
    (h : Catalog.Load w.home location w.files (.ok s)) :
    Loaded w path location config ⟨.file location, s⟩ := by
  refine ⟨hconfig, ⟨.file location, s⟩, s, ?_, Catalog.refresh_of_good h s⟩
  rw [Catalog.open_of_exists hexists, Catalog.refresh_of_good h]

/-! ## What the client uses -/

variable {κ : Type}

/-- The credentials that the client for a site's machines finds. -/
def used (config : Config) (connector : Connector (Site κ)) (site : Site κ) (id : String) :
    Except Fault Credentials :=
  ((Backend.localClient config connector).client.credentials id site).1

/-- The command shows the credentials that the client uses over the same catalog and with the same
configuration, and shows nothing where the client has none. -/
def ShowsUsed (w : World) (path : Option String) (location id : String)
    (connector : Connector (Site κ)) (site : Site κ) : Prop :=
  ∀ text, credentials w path location id = .ok text ↔
    ∃ config catalog c, Loaded w path location config catalog ∧
      used config connector { site with catalog } id = .ok c ∧
      text = Report.credentials w.color id c

/-- The command finds a machine whose key could not be read. -/
structure FindsKeyless (w : World) (path : Option String) (location id : String) (config : Config)
    (catalog : Catalog) (m : Machine) (reason : String) : Prop where
  loaded : Loaded w path location config catalog
  found : catalog.machine? id = some m
  unread : m.keyError = some reason

variable {connector : Connector (Site κ)} {site : Site κ} {reason : String}

theorem used_eq_ok_iff {c : Credentials} :
    used config connector { site with catalog } id = .ok c ↔
      ∃ m, catalog.machine? id = some m ∧ m.keyError = none ∧
        Credentials.resolve m.login config.loginDefaults = c :=
  LocalClient.credentialsOf_eq_ok_iff

namespace FindsKeyless

theorem used_eq (h : FindsKeyless w path location id config catalog m reason)
    (connector : Connector (Site κ)) (site : Site κ) :
    used config connector { site with catalog } id = .error (.keyUnavailable id reason) := by
  show LocalClient.credentialsOf _ id (catalog.machine? id) = _
  simp only [LocalClient.credentialsOf, h.found, h.unread]

theorem credentials_eq (h : FindsKeyless w path location id config catalog m reason) :
    credentials w path location id = .ok (Report.credentials w.color id
      (Credentials.resolve m.login config.loginDefaults)) :=
  credentials_eq_ok_iff.mpr ⟨config, catalog, m, h.loaded, h.found, rfl⟩

/-- What the command shows then can log in with the default key or with the instance's password. -/
theorem isEnabled_eq (h : FindsKeyless w path location id config catalog m reason) :
    (Credentials.resolve m.login config.loginDefaults).isEnabled =
      ((Credentials.presentKey config.ssh.key).isSome ||
        (Credentials.present m.password).isSome) := by
  have hkey : m.login.key = none := Catalog.key_eq_none_of_load h.loaded.load h.found h.unread
  rw [Credentials.isEnabled_resolve, hkey]
  rfl

theorem not_showsUsed (h : FindsKeyless w path location id config catalog m reason)
    (connector : Connector (Site κ)) (site : Site κ) :
    ¬ ShowsUsed w path location id connector site := by
  intro hshows
  obtain ⟨config', catalog', c, hloaded, hused, -⟩ := (hshows _).mp h.credentials_eq
  obtain ⟨rfl, rfl⟩ := h.loaded.unique hloaded
  rw [h.used_eq] at hused
  cases hused

end FindsKeyless

theorem showsUsed_of_keyed
    (h : ¬ ∃ config catalog m reason, FindsKeyless w path location id config catalog m reason)
    (connector : Connector (Site κ)) (site : Site κ) :
    ShowsUsed w path location id connector site := by
  intro text
  rw [credentials_eq_ok_iff]
  constructor
  · rintro ⟨config, catalog, m, hloaded, hm, rfl⟩
    have hkeyed : m.keyError = none := by
      cases hkey : m.keyError with
      | none => rfl
      | some reason => exact absurd ⟨config, catalog, m, reason, hloaded, hm, hkey⟩ h
    exact ⟨config, catalog, _, hloaded, used_eq_ok_iff.mpr ⟨m, hm, hkeyed, rfl⟩, rfl⟩
  · rintro ⟨config, catalog, c, hloaded, hused, rfl⟩
    obtain ⟨m, hm, -, rfl⟩ := used_eq_ok_iff.mp hused
    exact ⟨config, catalog, m, hloaded, hm, rfl⟩

/-- The command shows what the client uses exactly where the key of the machine could be read, if it
has one. Where it could not, the client refuses the instance for that reason, while the command shows
a login with the default key or with the password of the instance wherever there is one. -/
theorem showsUsed_iff (w : World) (path : Option String) (location id : String)
    (connector : Connector (Site κ)) (site : Site κ) :
    (ShowsUsed w path location id connector site ↔
      ¬ ∃ config catalog m reason, FindsKeyless w path location id config catalog m reason) ∧
    ∀ config catalog m reason, FindsKeyless w path location id config catalog m reason →
      used config connector { site with catalog } id = .error (.keyUnavailable id reason) ∧
      ∃ c, credentials w path location id = .ok (Report.credentials w.color id c) ∧
        c.isEnabled = ((Credentials.presentKey config.ssh.key).isSome ||
          (Credentials.present m.password).isSome) := by
  refine ⟨⟨?_, fun h => showsUsed_of_keyed h connector site⟩, ?_⟩
  · rintro hshows ⟨config, catalog, m, reason, h⟩
    exact h.not_showsUsed connector site hshows
  · intro config catalog m reason h
    exact ⟨h.used_eq connector site, _, h.credentials_eq, h.isEnabled_eq⟩

/-! ## An instance with a password and a key that cannot be read -/

/-- A document with two instances, of which one names a key file. -/
def strandedText : String :=
  "[\x7b\"id\":\"db\",\"instances\":[" ++
    "\x7b\"id\":\"db-1\",\"hostname\":\"h\",\"userpass\":\"p\"," ++
      "\"privateKeyFilePath\":\"no.key\"\x7d," ++
    "\x7b\"id\":\"db-2\",\"hostname\":\"h\",\"userpass\":\"p\"\x7d]\x7d]"

/-- The document is there, and the key file is not. -/
def stranded : World where
  files := Catalog.oneFile (Text.Utf8.bytes strandedText)
  web := .offline
  home := none
  entropy := 0
  color := false

/-- Why the key file cannot be read. -/
def noKeyFile : String := "unable to read ssh key no.key: No such file or directory (os error 2)"

/-- The instance without its key. -/
def keyless : Machine :=
  { Machine.bare "db-1" "h" with password := some "p" }.withKeyError "no.key" noKeyFile

/-- The catalog of the two instances. -/
def strandedCatalog : Catalog :=
  ⟨.file "fleet", ⟨[⟨"db", .localMachines, ["db-1", "db-2"]⟩],
    [keyless, { Machine.bare "db-2" "h" with password := some "p" }]⟩⟩

/-- A site where nothing has happened yet. -/
def strandedSite : Site Unit := ⟨stranded.files, .offline, none, strandedCatalog, .memory [], ()⟩

theorem stranded_loaded : Loaded stranded .none "fleet" .standard strandedCatalog := by
  have hparse : Catalog.Snapshot.parse (Catalog.keyStore stranded.files none) strandedText =
      .ok strandedCatalog.current := by decide +kernel
  exact loaded_of_good rfl rfl (.good (Catalog.oneFile_readText strandedText) hparse)

theorem stranded_finds :
    FindsKeyless stranded .none "fleet" "db-1" .standard strandedCatalog keyless noKeyFile :=
  ⟨stranded_loaded, by decide +kernel, rfl⟩

theorem stranded_keyed :
    ¬ ∃ config catalog m reason,
      FindsKeyless stranded .none "fleet" "db-2" config catalog m reason := by
  rintro ⟨config, catalog, m, reason, h⟩
  obtain ⟨rfl, rfl⟩ := stranded_loaded.unique h.loaded
  have hfound : strandedCatalog.machine? "db-2" =
      some { Machine.bare "db-2" "h" with password := some "p" } := by decide +kernel
  cases hfound.symm.trans h.found
  cases h.unread

/-- The instance without a key file is shown as it is used. -/
theorem stranded_showsUsed :
    ShowsUsed stranded .none "fleet" "db-2" Outside.refusing strandedSite ∧
      used .standard Outside.refusing { strandedSite with catalog := strandedCatalog } "db-1" =
        .error (.keyUnavailable "db-1" noKeyFile) ∧
      ∃ c, credentials stranded .none "fleet" "db-1" = .ok (Report.credentials false "db-1" c) ∧
        c.isEnabled = true :=
  ⟨(showsUsed_iff stranded .none "fleet" "db-2" Outside.refusing strandedSite).1.mpr stranded_keyed,
    (showsUsed_iff stranded .none "fleet" "db-1" Outside.refusing strandedSite).2 _ _ _ _
      stranded_finds⟩

/-- The login that is shown for an instance that the client refuses. -/
theorem stranded_shows_refused :
    credentials stranded .none "fleet" "db-1" =
        .ok (Report.credentials false "db-1" (.withPassword "root" "p")) ∧
      ¬ ShowsUsed stranded .none "fleet" "db-1" Outside.refusing strandedSite :=
  ⟨stranded_finds.credentials_eq, stranded_finds.not_showsUsed Outside.refusing strandedSite⟩

end CommandLine
end FaultDrill
