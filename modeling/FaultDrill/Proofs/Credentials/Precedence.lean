import FaultDrill.Credentials
/-!
# Precedence among logins

User name and key of an instance go before those of the defaults, a key goes before a password, and
a value that is empty is passed over. `Prescribed` states these rules one by one, apart from how a
login is resolved. They allow one set of credentials for each instance, and that is what resolving
gives (`resolve_prescribed`). A secret stays on its own side: the instance's secrets unlock only the
instance's key, and the default passphrase unlocks only the default key.
-/
namespace FaultDrill.Credentials

/-! ## The first candidate -/

/-- The first of the candidates that is there and not empty, if there is one. -/
inductive First (empty : α) : List (Option α) → Option α → Prop where
  | nothing : First empty [] none
  | found {a others} (h : a ≠ empty) : First empty (some a :: others) (some a)
  | passed {c others r} (h : c = none ∨ c = some empty) (rest : First empty others r) :
    First empty (c :: others) r

namespace First

variable {empty : α} {cs ds : List (Option α)} {r r' : Option α}

theorem unique (h : First empty cs r) (h' : First empty cs r') : r = r' := by
  induction h with
  | nothing =>
    cases h'
    rfl
  | found ha =>
    cases h' with
    | found _ => rfl
    | passed hc _ => simp [ha] at hc
  | passed hc _ ih =>
    cases h' with
    | found ha => simp [ha] at hc
    | passed _ hrest => exact ih hrest

/-- Further candidates count where there was nothing among the ones before. -/
theorem append (h : First empty cs r) (hd : First empty ds r') :
    First empty (cs ++ ds) (r.or r') := by
  induction h with
  | nothing => exact hd
  | found ha => exact .found ha
  | passed hc _ ih => exact .passed hc ih

theorem exists_iff (h : First empty cs r) :
    (∃ a, First empty cs (some a)) ↔ r.isSome = true := by
  rw [Option.isSome_iff_exists]
  constructor
  · rintro ⟨a, ha⟩
    exact ⟨a, h.unique ha⟩
  · rintro ⟨a, rfl⟩
    exact ⟨a, h⟩

theorem ne_empty {a : α} (h : First empty cs (some a)) : a ≠ empty := by
  generalize hr : some a = r at h
  induction h with
  | nothing => cases hr
  | found ha =>
    obtain rfl := Option.some.inj hr
    exact ha
  | passed _ _ ih => exact ih hr

theorem ofFilter {p : α → Bool} (hp : ∀ a, p a = true ↔ a ≠ empty) (c : Option α) :
    First empty [c] (c.filter p) := by
  cases c with
  | none => exact .passed (.inl rfl) .nothing
  | some a =>
    by_cases ha : a = empty
    · rw [Option.filter_some, if_neg (by simp [hp, ha])]
      exact .passed (.inr (congrArg some ha)) .nothing
    · rw [Option.filter_some, if_pos ((hp a).mpr ha)]
      exact .found ha

end First

theorem first_present (t : Option String) : First "" [t] (present t) :=
  .ofFilter (fun _ => bne_iff_ne) t

theorem first_presentKey (k : Option (List UInt8)) : First [] [k] (presentKey k) :=
  .ofFilter (fun k => by cases k <;> simp) k

theorem present_eq_some_iff {t : Option String} {p : String} :
    present t = some p ↔ t = some p ∧ p ≠ "" := by
  rw [present, Option.filter_eq_some_iff, bne_iff_ne]

/-! ## What is resolved -/

variable {login : Login} {defaults : Defaults} {k : List UInt8} {p : String}

theorem username_resolve (login : Login) (defaults : Defaults) :
    (resolve login defaults).username =
      ((present login.username).or (present defaults.user)).getD superuser := by
  rw [resolve]
  cases presentKey login.key <;> cases presentKey defaults.key <;>
    cases present login.password <;> rfl

theorem sudoPassword_resolve (login : Login) (defaults : Defaults) :
    (resolve login defaults).sudoPassword = present login.password := by
  rw [resolve]
  cases presentKey login.key <;> cases presentKey defaults.key <;>
    cases present login.password <;> rfl

theorem privateKey_resolve (login : Login) (defaults : Defaults) :
    (resolve login defaults).privateKey = (presentKey login.key).or (presentKey defaults.key) := by
  rw [resolve]
  cases presentKey login.key <;> cases presentKey defaults.key <;>
    cases present login.password <;> rfl

theorem loginPassword_resolve (login : Login) (defaults : Defaults) :
    (resolve login defaults).loginPassword = present login.password := by
  rw [resolve]
  cases presentKey login.key <;> cases presentKey defaults.key <;>
    cases present login.password <;> rfl

/-- A login can be tried where there is a key or a password. -/
theorem isEnabled_resolve (login : Login) (defaults : Defaults) :
    (resolve login defaults).isEnabled = ((presentKey login.key).isSome ||
      (presentKey defaults.key).isSome || (present login.password).isSome) := by
  rw [resolve]
  cases presentKey login.key <;> cases presentKey defaults.key <;>
    cases present login.password <;> rfl

theorem auth_resolve_ownKey (h : presentKey login.key = some k) (defaults : Defaults) :
    (resolve login defaults).auth =
      .key k ((present login.keyPassword).or (present login.password)) := by
  rw [resolve, h]
  rfl

theorem auth_resolve_defaultKey (h : presentKey login.key = none)
    (hd : presentKey defaults.key = some k) :
    (resolve login defaults).auth = .key k defaults.keyPassphrase := by
  rw [resolve, h, hd]
  rfl

theorem auth_resolve_password (h : presentKey login.key = none)
    (hd : presentKey defaults.key = none) (hp : present login.password = some p) :
    (resolve login defaults).auth = .password p := by
  rw [resolve, h, hd, hp]
  rfl

theorem auth_resolve_nothing (h : presentKey login.key = none)
    (hd : presentKey defaults.key = none) (hp : present login.password = none) :
    (resolve login defaults).auth = .none := by
  rw [resolve, h, hd, hp]
  rfl

/-! ## The rules -/

/-- What may prove the identity for a login. -/
inductive Proves (login : Login) (defaults : Defaults) : Auth → Prop where
  /-- The instance's key, which its key password unlocks or else its password. -/
  | ownKey {k : List UInt8} {passphrase : Option String} (key : First [] [login.key] (some k))
    (unlocks : First "" [login.keyPassword, login.password] passphrase) :
    Proves login defaults (.key k passphrase)
  /-- The default key with the default passphrase. -/
  | defaultKey {k : List UInt8} (keyless : First [] [login.key] none)
    (key : First [] [defaults.key] (some k)) :
    Proves login defaults (.key k defaults.keyPassphrase)
  /-- The instance's password. -/
  | password {p : String} (keyless : First [] [login.key, defaults.key] none)
    (password : First "" [login.password] (some p)) : Proves login defaults (.password p)
  | nothing (keyless : First [] [login.key, defaults.key] none)
    (passwordless : First "" [login.password] none) : Proves login defaults .none

/-- The credentials that the rules give for a login. -/
structure Prescribed (login : Login) (defaults : Defaults) (c : Credentials) : Prop where
  username : First "" [login.username, defaults.user, some "root"] (some c.username)
  key : First [] [login.key, defaults.key] c.privateKey
  auth : Proves login defaults c.auth
  enabled : c.isEnabled = true ↔ (∃ k, First [] [login.key, defaults.key] (some k)) ∨
    ∃ p, First "" [login.password] (some p)
  escalates : c.escalates = true ↔ c.username ≠ "root"
  /-- Whatever proves the identity, the instance's password serves for escalation. -/
  passwords : c.auth ≠ .none → First "" [login.password] c.sudoPassword ∧
    First "" [login.password] c.loginPassword
  disabled : c.auth = .none → c.sudoPassword = none
  /-- The password proves the identity only where there is no key. -/
  password : ∀ p, c.password = some p ↔
    c.auth = .password p ∧ First "" [login.password] (some p)

theorem first_keys (login : Login) (defaults : Defaults) :
    First [] [login.key, defaults.key] ((presentKey login.key).or (presentKey defaults.key)) :=
  (first_presentKey login.key).append (first_presentKey defaults.key)

theorem proves_resolve (login : Login) (defaults : Defaults) :
    Proves login defaults (resolve login defaults).auth := by
  have hown := first_presentKey login.key
  have hdefault := first_presentKey defaults.key
  have hkeys := first_keys login defaults
  have hpassword := first_present login.password
  cases hk : presentKey login.key with
  | some k =>
    rw [auth_resolve_ownKey hk]
    exact .ownKey (hk ▸ hown) ((first_present login.keyPassword).append hpassword)
  | none =>
    cases hd : presentKey defaults.key with
    | some k =>
      rw [auth_resolve_defaultKey hk hd]
      exact .defaultKey (hk ▸ hown) (hd ▸ hdefault)
    | none =>
      rw [hk, hd] at hkeys
      cases hp : present login.password with
      | some p =>
        rw [auth_resolve_password hk hd hp]
        exact .password hkeys (hp ▸ hpassword)
      | none =>
        rw [auth_resolve_nothing hk hd hp]
        exact .nothing hkeys (hp ▸ hpassword)

/-- No two proofs of identity are allowed for a login. -/
theorem Proves.eq_resolve {auth : Auth} (h : Proves login defaults auth) :
    auth = (resolve login defaults).auth := by
  cases h with
  | ownKey hkey hunlocks =>
    rw [auth_resolve_ownKey ((first_presentKey _).unique hkey), hunlocks.unique
      ((first_present login.keyPassword).append (first_present login.password))]
  | defaultKey hkeyless hkey =>
    rw [auth_resolve_defaultKey ((first_presentKey _).unique hkeyless)
      ((first_presentKey _).unique hkey)]
  | password hkeyless hpassword =>
    obtain ⟨hk, hd⟩ := Option.or_eq_none_iff.mp ((first_keys login defaults).unique hkeyless)
    rw [auth_resolve_password hk hd ((first_present _).unique hpassword)]
  | nothing hkeyless hpasswordless =>
    obtain ⟨hk, hd⟩ := Option.or_eq_none_iff.mp ((first_keys login defaults).unique hkeyless)
    rw [auth_resolve_nothing hk hd ((first_present _).unique hpasswordless)]

theorem password_eq_some_iff {c : Credentials} : c.password = some p ↔ c.auth = .password p := by
  rw [password]
  cases c.auth <;> simp

theorem prescribed_resolve (login : Login) (defaults : Defaults) :
    Prescribed login defaults (resolve login defaults) where
  username := by
    have hroot : First "" [some "root"] (some superuser) := .found (by decide)
    have hname := ((first_present login.username).append (first_present defaults.user)).append hroot
    rwa [username_resolve, ← Option.or_some]
  key := by
    rw [privateKey_resolve]
    exact first_keys login defaults
  auth := proves_resolve login defaults
  enabled := by
    rw [isEnabled_resolve, (first_keys login defaults).exists_iff,
      (first_present login.password).exists_iff, Option.isSome_or, Bool.or_eq_true]
  escalates := bne_iff_ne
  passwords := by
    intro _
    rw [sudoPassword_resolve, loginPassword_resolve]
    exact ⟨first_present _, first_present _⟩
  disabled := by
    intro hnone
    have hproves := proves_resolve login defaults
    rw [hnone] at hproves
    cases hproves with
    | nothing _ hpasswordless =>
      rw [sudoPassword_resolve, (first_present _).unique hpasswordless]
  password := by
    intro p
    rw [password_eq_some_iff, iff_self_and]
    intro hauth
    have hproves := proves_resolve login defaults
    rw [hauth] at hproves
    cases hproves with
    | password _ hpassword => exact hpassword

theorem Prescribed.unique {c c' : Credentials} (h : Prescribed login defaults c)
    (h' : Prescribed login defaults c') : c = c' := by
  have husername : c.username = c'.username := Option.some.inj (h.username.unique h'.username)
  have hauth : c.auth = c'.auth := h.auth.eq_resolve.trans h'.auth.eq_resolve.symm
  have hsudo : c.sudoPassword = c'.sudoPassword := by
    by_cases hnone : c.auth = .none
    · rw [h.disabled hnone, h'.disabled (hauth ▸ hnone)]
    · exact (h.passwords hnone).1.unique (h'.passwords (hauth ▸ hnone)).1
  obtain ⟨username, auth, sudoPassword⟩ := c
  obtain rfl : username = c'.username := husername
  obtain rfl : auth = c'.auth := hauth
  obtain rfl : sudoPassword = c'.sudoPassword := hsudo
  rfl

/-- The secrets of the instance and those of the defaults do not mix: the defaults have no part in
the instance's key and its passphrase nor in the password, and the instance's secrets have none in
the default key and its passphrase. -/
structure SecretsApart (login : Login) (defaults : Defaults) : Prop where
  ownKey : ∀ defaults' k, First [] [login.key] (some k) →
    (resolve login defaults').auth = (resolve login defaults).auth
  defaultKey : ∀ login' k, First [] [login.key] none → First [] [login'.key] none →
    First [] [defaults.key] (some k) →
      (resolve login' defaults).auth = (resolve login defaults).auth
  passwords : ∀ defaults',
    (resolve login defaults').sudoPassword = (resolve login defaults).sudoPassword ∧
      (resolve login defaults').loginPassword = (resolve login defaults).loginPassword

theorem secretsApart (login : Login) (defaults : Defaults) : SecretsApart login defaults where
  ownKey := by
    intro defaults' k hkey
    have hown := (first_presentKey _).unique hkey
    rw [auth_resolve_ownKey hown, auth_resolve_ownKey hown]
  defaultKey := by
    intro login' k hkeyless hkeyless' hkey
    have hdefault := (first_presentKey _).unique hkey
    rw [auth_resolve_defaultKey ((first_presentKey _).unique hkeyless) hdefault,
      auth_resolve_defaultKey ((first_presentKey _).unique hkeyless') hdefault]
  passwords := by
    intro defaults'
    simp only [sudoPassword_resolve, loginPassword_resolve, and_self]

/-- The rules give each login one set of credentials, which is the one that is resolved, and the
secrets of the two sides stay apart. -/
theorem resolve_prescribed (login : Login) (defaults : Defaults) :
    (∀ c, Prescribed login defaults c ↔ c = resolve login defaults) ∧
      SecretsApart login defaults := by
  refine ⟨?_, secretsApart login defaults⟩
  intro c
  constructor
  · intro h
    exact h.unique (prescribed_resolve login defaults)
  · rintro rfl
    exact prescribed_resolve login defaults

/-- The login of an instance without a key. -/
def keyless : Login := ⟨some "", some "tiger", some [], some "inner"⟩

/-- Defaults with a key. -/
def keyed : Defaults := ⟨some "ops", some [0x6B], some "outer"⟩

/-- Without a key of its own an instance is logged in to with the default key. Neither its password
nor its key password unlocks that key, and its password still serves for escalation. -/
theorem keyless_prescribed (c : Credentials) :
    Prescribed keyless keyed c ↔ c = ⟨"ops", .key [0x6B] (some "outer"), some "tiger"⟩ :=
  (resolve_prescribed keyless keyed).1 c

end FaultDrill.Credentials
