import FaultDrill.CommandLine.Run
import FaultDrill.Proofs.Catalog.LastGood
import FaultDrill.Proofs.Engine.Exemption
import FaultDrill.Proofs.Except
/-!
# Settings in front of a configuration

The settings of a command line replace the backend, the catalog, the ledger and the groups to look
at, and may put the engine on the leash. They touch none of the switches that hold groups back
(`Overrides.Respects`), so what the file exempts stays exempt in every engine that is started with
them (`overrides_keep_exempt`). Groups named on the command line only narrow what is looked at: the
file's list of groups to leave alone still counts.
-/
namespace FaultDrill.CommandLine

/-- A configuration that a file's became under settings of a command line: the switches that hold
groups back are the file's. -/
structure Overrides.Respects (o : Overrides) (file config : Config) : Prop where
  enabled : config.enabled = file.enabled
  leashed : config.leashed = (file.leashed || o.leashed)
  deny : config.deny = file.deny
  groupDefaults : config.groupDefaults = file.groupDefaults
  groups : config.groups = file.groups
  window : config.window = file.window
  ssh : config.ssh = file.ssh
  allow : config.allow = if o.groups = [] then file.allow else o.groups

variable {o : Overrides} {file config : Config}

theorem Overrides.apply_respects (o : Overrides) (file : Config) : o.Respects file (o.apply file) where
  enabled := rfl
  leashed := Bool.or_comm ..
  deny := rfl
  groupDefaults := rfl
  groups := rfl
  window := rfl
  ssh := rfl
  allow := by simp only [apply, List.isEmpty_iff]

namespace Overrides.Respects

theorem withInterval (h : o.Respects file config) (every : Span) :
    o.Respects file { config with interval := every } := { h with }

/-- What the file exempts stays exempt. -/
theorem exempts (h : o.Respects file config) {group : String} (hfile : file.Exempts group) :
    config.Exempts group := by
  cases hfile with
  | denied hdenied => exact .denied (h.deny ▸ hdenied)
  | disabled hoff =>
    refine .disabled ?_
    rw [Config.policy?, h.groups, h.groupDefaults]
    exact hoff
  | leashed hleashed => exact .leashed (by rw [h.leashed, hleashed, Bool.true_or])
  | switchedOff hoff => exact .switchedOff (h.enabled.trans hoff)

/-- Where groups are named on the command line, only those have turns. -/
theorem named_of_mem_turns {e : Engine σ} (h : o.Respects file e.config) (hnamed : o.groups ≠ [])
    {now : Instant} {r : Engine.Running σ} {t : Engine.Turn σ} (ht : t ∈ e.turns now r) :
    t.group.name ∈ o.groups := by
  have hlisted := (Engine.listed_of_mem_turns ht).2
  rw [Config.isListed, h.allow, if_neg hnamed, Bool.and_eq_true, Bool.or_eq_true] at hlisted
  rcases hlisted.1 with hempty | hin
  · exact absurd (List.isEmpty_iff.mp hempty) hnamed
  · exact List.contains_iff_mem.mp hin

end Overrides.Respects

/-! ## What is started -/

variable {κ : Type} {out : Outside κ} {w : World} {path : String}

theorem loadConfig_of_load (h : Config.load w.files w.home path = .ok file) (o : Overrides) :
    loadConfig w (some path) o = .ok (o.apply file) := by
  rw [loadConfig, h]

theorem config_of_start {drill : Drill κ} (h : start out w config o = .ok drill) :
    drill.engine.config = config := by
  rw [start] at h
  simp only [bind_eq_ok_iff] at h
  obtain ⟨⟨backend, catalog⟩, -, ⟨ledger, files⟩, -, hdrill⟩ := h
  cases hdrill
  rfl

theorem start_of_startSchedule {interval : Option String} {drill : Drill κ} {every : Span}
    (h : startSchedule out w (some path) o interval = .ok (drill, every))
    (hload : Config.load w.files w.home path = .ok file) :
    start out w { o.apply file with interval := every } o = .ok drill := by
  rw [startSchedule, loadConfig_of_load hload] at h
  cases interval with
  | some raw =>
    simp only [bind_eq_ok_iff, Except.ok.injEq] at h
    obtain ⟨config, rfl, every', -, drill', hstart, hdrill⟩ := h
    obtain ⟨rfl, rfl⟩ := Prod.mk.inj (Except.ok.inj hdrill)
    exact hstart
  | none =>
    simp only [bind_eq_ok_iff, Except.ok.injEq] at h
    obtain ⟨config, rfl, every', -, drill', hstart, hdrill⟩ := h
    obtain ⟨rfl, rfl⟩ := Prod.mk.inj (Except.ok.inj hdrill)
    exact hstart

/-- No setting of a command line lifts a switch of the configuration file. Whatever engine runs with
the configuration that is loaded, on whatever crawler, client, log and clock, it leaves alone all
groups that the file exempts; and where groups are named on the command line, it looks at no
others. -/
theorem overrides_keep_exempt (h : Config.load w.files w.home path = .ok file) (o : Overrides) :
    ∃ config, loadConfig w (some path) o = .ok config ∧ o.Respects file config ∧
      (∀ (κ : Type) (out : Outside κ) drill, start out w config o = .ok drill →
        drill.engine.config = config) ∧
      (∀ (κ : Type) (out : Outside κ) interval drill every,
        startSchedule out w (some path) o interval = .ok (drill, every) →
          drill.engine.config = { config with interval := every }) ∧
      ∀ (σ : Type) (e : Engine σ) (every : Span), e.config = { config with interval := every } →
        e.LeavesAlone file.Exempts ∧
        (o.groups ≠ [] → ∀ now r, ∀ t ∈ e.turns now r, t.group.name ∈ o.groups) := by
  have hrespects := o.apply_respects file
  refine ⟨o.apply file, loadConfig_of_load h o, hrespects, fun _ _ _ => config_of_start,
    fun _ _ _ _ _ hstart => config_of_start (start_of_startSchedule hstart h), ?_⟩
  intro σ e every he
  have hrespects' : o.Respects file e.config := he ▸ hrespects.withInterval every
  refine ⟨e.leavesAlone.mono fun _ hfile => hrespects'.exempts hfile, ?_⟩
  intro hnamed now r t ht
  exact hrespects'.named_of_mem_turns hnamed ht

/-! ## A guarded group and a command line that names it -/

/-- A configuration that denies one group and disables another. -/
def guardedText : String :=
  "\x7b\"deny\":[\"db\"],\"group_defaults\":\x7b\"enabled\":true\x7d," ++
    "\"groups\":\x7b\"web\":\x7b\"enabled\":false\x7d\x7d\x7d"

/-- The configuration beside a catalog of three groups. -/
def guarded : World where
  files := ⟨[(["chaos.json"], .file (Text.Utf8.bytes guardedText)),
    (["fleet"], .file (Catalog.fleet ["db", "web", "app"]))], []⟩
  web := .offline
  home := none
  entropy := 0
  color := false

/-- A command line that names all three groups. -/
def pushing : Overrides := ⟨none, some "fleet", none, false, ["db", "web", "app"], some 7⟩

theorem guarded_loads : ∃ file, Config.load guarded.files guarded.home "chaos.json" = .ok file ∧
    file.Exempts "db" ∧ file.Exempts "web" ∧ ¬ file.Exempts "app" := by
  obtain ⟨file, hload, hexempts⟩ := exists_of_any
    (x := Config.load guarded.files guarded.home "chaos.json")
    (p := fun file => file.Exempts "db" ∧ file.Exempts "web" ∧ ¬ file.Exempts "app")
    (by decide +kernel)
  exact ⟨file, hload, of_decide_eq_true hexempts⟩

theorem guarded_starts : ∃ drill, (loadConfig guarded (some "chaos.json") pushing >>= fun config =>
    start (.still ⟨0, 0⟩) guarded config pushing) = .ok drill :=
  exists_of_toBool (by decide +kernel)

/-- The drill that the command line starts leaves the denied and the disabled group alone. -/
theorem guarded_keep_exempt :
    ∃ file drill, Config.load guarded.files guarded.home "chaos.json" = .ok file ∧
      file.Exempts "db" ∧ file.Exempts "web" ∧ ¬ file.Exempts "app" ∧
      (loadConfig guarded (some "chaos.json") pushing >>= fun config =>
        start (.still ⟨0, 0⟩) guarded config pushing) = .ok drill ∧
      drill.engine.LeavesAlone file.Exempts ∧
      ∀ now r, ∀ t ∈ drill.engine.turns now r, t.group.name ∈ ["db", "web", "app"] := by
  obtain ⟨file, hload, hdb, hweb, happ⟩ := guarded_loads
  obtain ⟨drill, hready⟩ := guarded_starts
  obtain ⟨config, hconfig, hstart⟩ := bind_eq_ok_iff.mp hready
  obtain ⟨config', hconfig', -, hdrill, -, hengines⟩ := overrides_keep_exempt hload pushing
  obtain rfl : config = config' := Except.ok.inj (hconfig.symm.trans hconfig')
  obtain ⟨halone, hnamed⟩ := hengines _ drill.engine config.interval (hdrill _ _ drill hstart)
  exact ⟨file, drill, hload, hdb, hweb, happ, hready, halone, hnamed (by decide)⟩

end FaultDrill.CommandLine
