import FaultDrill.Config.Document
import FaultDrill.Proofs.Document.Record
/-!
# Settings as documents give them

What a configuration document says where it could be read: every setting is what its record sets, and
no record has a key that it does not know. `ConfigDocument.Read` says so of the document as a whole,
`GroupDocument.Read` and `SshDocument.Read` of the records within it.
-/
namespace FaultDrill.Config
open Document

/-- The settings of a group. -/
def GroupDocument.names : List String := ["enabled", "probability", "disruption"]

/-- The settings for logins. -/
def SshDocument.names : List String :=
  ["user", "key", "key_passphrase", "connect_timeout", "script_timeout"]

/-- All settings. -/
def ConfigDocument.names : List String :=
  ["backend", "catalog", "enabled", "leashed", "window", "allow", "deny", "group_defaults", "groups",
    "ssh", "max_concurrency", "cycle_deadline", "interval", "ledger", "terminate_command",
    "terminate_timeout", "fallback_script"]

/-- A reader of whole numbers of 64 bits. -/
def wholeNumber : Reader Nat := Reader.natural (twoPow 64 - 1)

/-- The settings of a group, read from a record. -/
structure GroupDocument.Read (n : Node) (d : GroupDocument) : Prop where
  known : ¬ n.HasUnknown names
  enabled : ∀ a, d.enabled = some a ↔ n.Sets names "enabled" Reader.flag a
  probability : ∀ a, d.probability = some a ↔ n.Sets names "probability" Reader.real a
  disruption : ∀ a, d.disruption = some a ↔ n.Sets names "disruption" Reader.text a

theorem GroupDocument.read_of_reader {n : Node} {d : GroupDocument} (h : reader n = .ok d) :
    Read n d := by
  have hnames : names.Nodup := by decide
  obtain ⟨hknown, fields, hof, hread⟩ := Form.reads_of_reader hnames h
  obtain ⟨_, disruption, h2, hdisruption, rfl⟩ := Form.reads_last hof rfl hread
  obtain ⟨_, probability, h1, hprobability, rfl⟩ := Form.reads_last hof rfl h2
  obtain ⟨enabled, henabled, rfl⟩ := Form.reads_only hof rfl h1
  exact {
    known := hknown
    enabled := henabled.eq_some_iff
    probability := hprobability.eq_some_iff
    disruption := hdisruption.eq_some_iff }

/-- The settings for logins, read from a record. -/
structure SshDocument.Read (n : Node) (d : SshDocument) : Prop where
  known : ¬ n.HasUnknown names
  user : ∀ a, d.user = some a ↔ n.Sets names "user" Reader.text a
  key : ∀ a, d.key = some a ↔ n.Sets names "key" Reader.text a
  keyPassphrase : ∀ a, d.keyPassphrase = some a ↔ n.Sets names "key_passphrase" Reader.text a
  connectTimeout : ∀ a, d.connectTimeout = some a ↔ n.Sets names "connect_timeout" Reader.text a
  scriptTimeout : ∀ a, d.scriptTimeout = some a ↔ n.Sets names "script_timeout" Reader.text a

theorem SshDocument.read_of_reader {n : Node} {d : SshDocument} (h : reader n = .ok d) :
    Read n d := by
  have hnames : names.Nodup := by decide
  obtain ⟨hknown, fields, hof, hread⟩ := Form.reads_of_reader hnames h
  obtain ⟨_, scriptTimeout, h4, hscriptTimeout, rfl⟩ := Form.reads_last hof rfl hread
  obtain ⟨_, connectTimeout, h3, hconnectTimeout, rfl⟩ := Form.reads_last hof rfl h4
  obtain ⟨_, keyPassphrase, h2, hkeyPassphrase, rfl⟩ := Form.reads_last hof rfl h3
  obtain ⟨_, key, h1, hkey, rfl⟩ := Form.reads_last hof rfl h2
  obtain ⟨user, huser, rfl⟩ := Form.reads_only hof rfl h1
  exact {
    known := hknown
    user := huser.eq_some_iff
    key := hkey.eq_some_iff
    keyPassphrase := hkeyPassphrase.eq_some_iff
    connectTimeout := hconnectTimeout.eq_some_iff
    scriptTimeout := hscriptTimeout.eq_some_iff }

/-- All settings, read from a record. -/
structure ConfigDocument.Read (n : Node) (d : ConfigDocument) : Prop where
  known : ¬ n.HasUnknown names
  backend : ∀ a, d.backend = some a ↔ n.Sets names "backend" Reader.text a
  catalog : ∀ a, d.catalog = some a ↔ n.Sets names "catalog" Reader.text a
  enabled : ∀ a, d.enabled = some a ↔ n.Sets names "enabled" Reader.flag a
  leashed : ∀ a, d.leashed = some a ↔ n.Sets names "leashed" Reader.flag a
  window : ∀ a, d.window = some a ↔ n.Sets names "window" Reader.text a
  allow : n.Reads names "allow" (Reader.list Reader.text) [] d.allow
  deny : n.Reads names "deny" (Reader.list Reader.text) [] d.deny
  groupDefaults : n.Reads names "group_defaults" GroupDocument.reader default d.groupDefaults
  groups : n.Reads names "groups" (Reader.table GroupDocument.reader) [] d.groups
  ssh : n.Reads names "ssh" SshDocument.reader default d.ssh
  maxConcurrency : ∀ a, d.maxConcurrency = some a ↔ n.Sets names "max_concurrency" wholeNumber a
  cycleDeadline : ∀ a, d.cycleDeadline = some a ↔ n.Sets names "cycle_deadline" Reader.text a
  interval : ∀ a, d.interval = some a ↔ n.Sets names "interval" Reader.text a
  ledger : ∀ a, d.ledger = some a ↔ n.Sets names "ledger" Reader.text a
  terminateCommand : n.Reads names "terminate_command" (Reader.list Reader.text) [] d.terminateCommand
  terminateTimeout : ∀ a, d.terminateTimeout = some a ↔ n.Sets names "terminate_timeout" Reader.text a
  fallbackScript : ∀ a, d.fallbackScript = some a ↔ n.Sets names "fallback_script" Reader.text a

theorem ConfigDocument.read_of_reader {n : Node} {d : ConfigDocument} (h : reader n = .ok d) :
    Read n d := by
  have hnames : names.Nodup := by decide
  obtain ⟨hknown, fields, hof, hread⟩ := Form.reads_of_reader hnames h
  obtain ⟨_, fallbackScript, h16, hfallbackScript, rfl⟩ := Form.reads_last hof rfl hread
  obtain ⟨_, terminateTimeout, h15, hterminateTimeout, rfl⟩ := Form.reads_last hof rfl h16
  obtain ⟨_, terminateCommand, h14, hterminateCommand, rfl⟩ := Form.reads_last hof rfl h15
  obtain ⟨_, ledger, h13, hledger, rfl⟩ := Form.reads_last hof rfl h14
  obtain ⟨_, interval, h12, hinterval, rfl⟩ := Form.reads_last hof rfl h13
  obtain ⟨_, cycleDeadline, h11, hcycleDeadline, rfl⟩ := Form.reads_last hof rfl h12
  obtain ⟨_, maxConcurrency, h10, hmaxConcurrency, rfl⟩ := Form.reads_last hof rfl h11
  obtain ⟨_, ssh, h9, hssh, rfl⟩ := Form.reads_last hof rfl h10
  obtain ⟨_, groups, h8, hgroups, rfl⟩ := Form.reads_last hof rfl h9
  obtain ⟨_, groupDefaults, h7, hgroupDefaults, rfl⟩ := Form.reads_last hof rfl h8
  obtain ⟨_, deny, h6, hdeny, rfl⟩ := Form.reads_last hof rfl h7
  obtain ⟨_, allow, h5, hallow, rfl⟩ := Form.reads_last hof rfl h6
  obtain ⟨_, window, h4, hwindow, rfl⟩ := Form.reads_last hof rfl h5
  obtain ⟨_, leashed, h3, hleashed, rfl⟩ := Form.reads_last hof rfl h4
  obtain ⟨_, enabled, h2, henabled, rfl⟩ := Form.reads_last hof rfl h3
  obtain ⟨_, catalog, h1, hcatalog, rfl⟩ := Form.reads_last hof rfl h2
  obtain ⟨backend, hbackend, rfl⟩ := Form.reads_only hof rfl h1
  exact {
    known := hknown
    backend := hbackend.eq_some_iff
    catalog := hcatalog.eq_some_iff
    enabled := henabled.eq_some_iff
    leashed := hleashed.eq_some_iff
    window := hwindow.eq_some_iff
    allow := hallow
    deny := hdeny
    groupDefaults := hgroupDefaults
    groups := hgroups
    ssh := hssh
    maxConcurrency := hmaxConcurrency.eq_some_iff
    cycleDeadline := hcycleDeadline.eq_some_iff
    interval := hinterval.eq_some_iff
    ledger := hledger.eq_some_iff
    terminateCommand := hterminateCommand
    terminateTimeout := hterminateTimeout.eq_some_iff
    fallbackScript := hfallbackScript.eq_some_iff }

end FaultDrill.Config
