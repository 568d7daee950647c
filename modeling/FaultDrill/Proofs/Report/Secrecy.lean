import Mathlib.Data.List.Forall2
import FaultDrill.Config
import FaultDrill.Report.Text
/-!
# Secrets stay out of what is shown

Two inputs are alike when they differ in nothing but the contents of secrets: passwords, keys and
passphrases. Which of these are there, and which are empty, is not secret, and decides how an
instance is logged in to; so credentials that are resolved from alike inputs are alike
(`Credentials.resolve_alike`). Diagnostics and reports of what is alike are equal (`shown_alike`).
-/
namespace FaultDrill

/-! ## Alike inputs -/

/-- Texts that are both missing, both empty or both neither. -/
abbrev VeiledText : Option String → Option String → Prop := Option.Rel fun p q => p = "" ↔ q = ""

/-- Keys that are both missing, both empty or both neither. -/
abbrev VeiledKey : Option (List UInt8) → Option (List UInt8) → Prop :=
  Option.Rel fun k l => k = [] ↔ l = []

/-- Secrets of which both are there or neither is. -/
abbrev Masked : Option α → Option α → Prop := Option.Rel fun _ _ => True

/-- Logins that differ in nothing but their secrets. -/
structure Credentials.Login.Alike (a b : Login) : Prop where
  username : a.username = b.username
  password : VeiledText a.password b.password
  key : VeiledKey a.key b.key
  keyPassword : VeiledText a.keyPassword b.keyPassword

/-- Defaults that differ in nothing but their secrets. -/
structure Credentials.Defaults.Alike (a b : Defaults) : Prop where
  user : a.user = b.user
  key : VeiledKey a.key b.key
  keyPassphrase : VeiledText a.keyPassphrase b.keyPassphrase

/-- Machines that differ in nothing but their secrets. -/
structure Machine.Alike (a b : Machine) : Prop where
  id : a.id = b.id
  host : a.host = b.host
  username : a.username = b.username
  password : VeiledText a.password b.password
  keyPath : a.keyPath = b.keyPath
  key : VeiledKey a.key b.key
  keyPassword : VeiledText a.keyPassword b.keyPassword
  keyError : a.keyError = b.keyError
  port : a.port = b.port

/-- Settings for logins that differ in nothing but their secrets. -/
structure SshSettings.Alike (a b : SshSettings) : Prop where
  user : a.user = b.user
  key : VeiledKey a.key b.key
  keyPassphrase : VeiledText a.keyPassphrase b.keyPassphrase
  connectTimeout : a.connectTimeout = b.connectTimeout
  scriptTimeout : a.scriptTimeout = b.scriptTimeout

/-- Snapshots of the same groups, whose machines differ in nothing but their secrets. -/
structure Catalog.Snapshot.Alike (a b : Snapshot) : Prop where
  groups : a.groups = b.groups
  machines : List.Forall₂ Machine.Alike a.machines b.machines

/-- Proofs of identity of one kind. -/
inductive Auth.Alike : Auth → Auth → Prop where
  | none : Alike .none .none
  | password (p q : String) : Alike (.password p) (.password q)
  | key (k l : List UInt8) {p q : Option String} (h : Masked p q) : Alike (.key k p) (.key l q)

/-- Credentials that differ in nothing but their secrets. -/
structure Credentials.Alike (a b : Credentials) : Prop where
  username : a.username = b.username
  auth : a.auth.Alike b.auth
  sudoPassword : Masked a.sudoPassword b.sudoPassword

/-! ## Secrets that are there -/

section

variable {a b c d : Option α}

theorem Masked.isSome_eq (h : Masked a b) : a.isSome = b.isSome := by
  cases h <;> rfl

theorem Masked.or (h : Masked a b) (h' : Masked c d) : Masked (a.or c) (b.or d) := by
  cases h with
  | some _ => exact .some trivial
  | none => exact h'

theorem redacted_masked (h : Masked a b) : Credentials.redacted a = Credentials.redacted b := by
  cases h <;> rfl

theorem masked_of_rel {r : α → α → Prop} (h : Option.Rel r a b) : Masked a b := by
  cases h with
  | some _ => exact .some trivial
  | none => exact .none

/-- What is kept of one secret is kept of the other if both pass the same checks. -/
theorem filter_masked {r : α → α → Prop} (h : Option.Rel r a b) {f : α → Bool}
    (hf : ∀ x y, r x y → f x = f y) : Masked (a.filter f) (b.filter f) := by
  cases h with
  | none => exact .none
  | @some x y h =>
    rw [Option.filter_some, Option.filter_some, hf x y h]
    split
    · exact .some trivial
    · exact .none

end

namespace Credentials

theorem present_masked {p q : Option String} (h : VeiledText p q) :
    Masked (present p) (present q) := by
  refine filter_masked h ?_
  intro x y hxy
  rw [Bool.eq_iff_iff, bne_iff_ne, bne_iff_ne]
  exact not_congr hxy

theorem presentKey_masked {k l : Option (List UInt8)} (h : VeiledKey k l) :
    Masked (presentKey k) (presentKey l) := by
  refine filter_masked h ?_
  intro x y hxy
  rw [Bool.eq_iff_iff, Bool.not_eq_true', Bool.not_eq_true', List.isEmpty_eq_false_iff,
    List.isEmpty_eq_false_iff]
  exact not_congr hxy

/-! ## Resolving -/

/-- Which secrets decide the login depends on which are there, so alike inputs are logged in to
alike. -/
theorem resolve_alike {a b : Login} {d e : Defaults} (h : a.Alike b) (hd : d.Alike e) :
    (resolve a d).Alike (resolve b e) := by
  have hkey := presentKey_masked h.key
  have hdefault := presentKey_masked hd.key
  have hpassword := present_masked h.password
  have hkeyPassword := present_masked h.keyPassword
  rw [resolve, resolve, h.username, hd.user]
  generalize presentKey a.key = k, presentKey b.key = k' at hkey ⊢
  generalize presentKey d.key = dk, presentKey e.key = dk' at hdefault ⊢
  generalize present a.password = p, present b.password = p' at hpassword ⊢
  -- the same secret is used on both sides: the instance's key, or the default key, or the password
  cases hkey with
  | some _ => exact ⟨rfl, .key _ _ (hkeyPassword.or hpassword), hpassword⟩
  | none =>
    cases hdefault with
    | some _ => exact ⟨rfl, .key _ _ (masked_of_rel hd.keyPassphrase), hpassword⟩
    | none =>
      cases hpassword with
      | some _ => exact ⟨rfl, .password _ _, .some trivial⟩
      | none => exact ⟨rfl, .none, .none⟩

end Credentials

/-! ## Diagnostics -/

theorem Auth.Alike.kind_eq {a b : Auth} (h : a.Alike b) : a.kind = b.kind := by
  cases h with
  | none => rfl
  | password _ _ => rfl
  | key _ _ h => cases h <;> rfl

theorem Credentials.Alike.diagnostic_eq {a b : Credentials} (h : a.Alike b) :
    a.diagnostic = b.diagnostic := by
  rw [diagnostic, diagnostic, escalates, escalates, h.username, h.auth.kind_eq]

theorem Credentials.Defaults.Alike.diagnostic_eq {a b : Defaults} (h : a.Alike b) :
    a.diagnostic = b.diagnostic := by
  rw [diagnostic, diagnostic, h.user, redacted_masked (masked_of_rel h.key)]

theorem Machine.Alike.endpoint_eq {a b : Machine} (h : a.Alike b) : a.endpoint = b.endpoint := by
  rw [endpoint, endpoint, h.host, h.port]

theorem Machine.Alike.diagnostic_eq {a b : Machine} (h : a.Alike b) :
    a.diagnostic = b.diagnostic := by
  rw [diagnostic, diagnostic, h.endpoint_eq, h.id, h.username, h.keyPath, h.keyError]

theorem SshSettings.Alike.diagnostic_eq {a b : SshSettings} (h : a.Alike b) :
    a.diagnostic = b.diagnostic := by
  rw [diagnostic, diagnostic, h.user, redacted_masked (masked_of_rel h.key),
    redacted_masked (masked_of_rel h.keyPassphrase), h.connectTimeout, h.scriptTimeout]

/-! ## Reports -/

theorem Auth.Alike.authText_eq {a b : Auth} (h : a.Alike b) :
    Report.authText a = Report.authText b := by
  cases h with
  | none => rfl
  | password _ _ => rfl
  | key _ _ h => cases h <;> rfl

theorem Credentials.Alike.password {a b : Credentials} (h : a.Alike b) :
    Masked a.password b.password := by
  have hauth := h.auth
  rw [Credentials.password, Credentials.password]
  generalize a.auth = x, b.auth = y at hauth ⊢
  cases hauth with
  | none => exact .none
  | password _ _ => exact .some trivial
  | key _ _ _ => exact .none

/-- Alike snapshots have alike machines under an id, or none. -/
theorem Catalog.Snapshot.Alike.machine? {s t : Snapshot} (h : s.Alike t) (id : String) :
    Option.Rel Machine.Alike (s.machine? id) (t.machine? id) := by
  have hmachines := h.machines
  rw [Snapshot.machine?, Snapshot.machine?]
  generalize s.machines = ms, t.machines = ns at hmachines ⊢
  induction hmachines with
  | nil => exact .none
  | cons hab _ ih =>
    rw [List.find?_cons, List.find?_cons, hab.id]
    split
    · exact .some hab
    · exact ih

namespace Report

theorem credentials_alike (color : Bool) (id : String) {a b : Credentials} (h : a.Alike b) :
    credentials color id a = credentials color id b := by
  have hlogin : a.loginPassword.isSome = b.loginPassword.isSome :=
    (h.password.or h.sudoPassword).isSome_eq
  rw [credentials, credentials, h.auth.authText_eq, h.username, hlogin,
    Credentials.escalates, Credentials.escalates, h.username, h.sudoPassword.isSome_eq]

theorem machineLine_alike (color : Bool) {a b : Machine} (h : a.Alike b) :
    machineLine color a = machineLine color b := by
  rw [machineLine, machineLine, h.id, h.endpoint_eq, h.username, h.keyPath]

theorem memberLines_alike (color : Bool) {s t : Catalog.Snapshot} (h : s.Alike t) (g : Group) :
    memberLines color s g = memberLines color t g := by
  rw [memberLines, memberLines]
  congr 1
  refine List.map_congr_left ?_
  intro id _
  have hfound := h.machine? id
  generalize s.machine? id = m, t.machine? id = n at hfound ⊢
  cases hfound with
  | none => rfl
  | some h => exact machineLine_alike color h

theorem catalog_alike (color : Bool) (source : Catalog.Source) {s t : Catalog.Snapshot}
    (h : s.Alike t) : catalog color source s = catalog color source t := by
  have hlines : memberLines color s = memberLines color t := funext (memberLines_alike color h)
  rw [catalog, catalog, h.groups, hlines]

end Report

/-- Nothing that is shown of logins, machines and settings depends on the contents of secrets. -/
theorem shown_alike {login login' : Credentials.Login} {defaults defaults' : Credentials.Defaults}
    {m m' : Machine} {ssh ssh' : SshSettings} {s s' : Catalog.Snapshot}
    (hlogin : login.Alike login') (hdefaults : defaults.Alike defaults') (hm : m.Alike m')
    (hssh : ssh.Alike ssh') (hs : s.Alike s') (color : Bool) (id : String)
    (source : Catalog.Source) :
    let c := Credentials.resolve login defaults
    let c' := Credentials.resolve login' defaults'
    c.diagnostic = c'.diagnostic ∧ defaults.diagnostic = defaults'.diagnostic ∧
      m.diagnostic = m'.diagnostic ∧ ssh.diagnostic = ssh'.diagnostic ∧
      Report.credentials color id c = Report.credentials color id c' ∧
      Report.catalog color source s = Report.catalog color source s' := by
  intro c c'
  have hc : c.Alike c' := Credentials.resolve_alike hlogin hdefaults
  exact ⟨hc.diagnostic_eq, hdefaults.diagnostic_eq, hm.diagnostic_eq, hssh.diagnostic_eq,
    Report.credentials_alike color id hc, Report.catalog_alike color source hs⟩

/-! ## Two machines with secrets of their own -/

/-- A machine with a password and a key. The key password is empty, so the password unlocks the
key. -/
def Machine.sealed (password : String) (key : List UInt8) : Machine :=
  { Machine.bare "i-1" "h" with
    username := some "ann"
    password := some password
    keyPath := some "ann.key"
    key := some key
    keyPassword := some "" }

/-- Settings with a key and its passphrase. -/
def SshSettings.sealed (passphrase : String) (key : List UInt8) : SshSettings :=
  { Config.standard.ssh with key := some key, keyPassphrase := some passphrase }

/-- Defaults with a key and its passphrase. -/
def Credentials.Defaults.sealed (passphrase : String) (key : List UInt8) : Defaults :=
  ⟨none, some key, some passphrase⟩

/-- A snapshot of one machine. -/
def Catalog.Snapshot.single (m : Machine) : Snapshot := ⟨[⟨"web", .localMachines, [m.id]⟩], [m]⟩

theorem Machine.sealed_alike {p q : String} {k l : List UInt8} (hp : p = "" ↔ q = "")
    (hk : k = [] ↔ l = []) : (sealed p k).Alike (sealed q l) :=
  ⟨rfl, rfl, rfl, .some hp, rfl, .some hk, .some Iff.rfl, rfl, rfl⟩

/-- Two machines whose logins are not the same are shown as the same. -/
theorem sealed_shown :
    let m := Machine.sealed "alpha" [1]
    let n := Machine.sealed "beta" [2, 3]
    let c := Credentials.resolve m.login (.sealed "gamma" [4])
    let d := Credentials.resolve n.login (.sealed "delta" [5])
    c ≠ d ∧ c.diagnostic = d.diagnostic ∧
      (Credentials.Defaults.sealed "gamma" [4]).diagnostic =
        (Credentials.Defaults.sealed "delta" [5]).diagnostic ∧
      m.diagnostic = n.diagnostic ∧
      (SshSettings.sealed "gamma" [4]).diagnostic = (SshSettings.sealed "delta" [5]).diagnostic ∧
      Report.credentials true "i-1" c = Report.credentials true "i-1" d ∧
      Report.catalog true (.file "fleet") (.single m) =
        Report.catalog true (.file "fleet") (.single n) := by
  intro m n c d
  have hm : m.Alike n := Machine.sealed_alike (by decide) (by decide)
  have hlogin : m.login.Alike n.login := ⟨hm.username, hm.password, hm.key, hm.keyPassword⟩
  refine ⟨by decide, shown_alike hlogin ?_ hm ?_ ?_ true "i-1" (.file "fleet")⟩
  · exact ⟨rfl, .some (by decide), .some (by decide)⟩
  · exact ⟨rfl, .some (by decide), .some (by decide), rfl, rfl⟩
  · exact ⟨rfl, .cons hm .nil⟩

end FaultDrill
