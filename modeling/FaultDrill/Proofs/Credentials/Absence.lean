import FaultDrill.Proofs.Credentials.Precedence
/-!
# Empty values of a login

An empty user name, password or key counts as absent wherever it stands, and so does an empty key
password of an instance: without them the same credentials are resolved, and nothing in these is
empty. The passphrase of the default key is taken as it is. So the rule holds exactly where the
default key is not used with an empty passphrase (`emptyIsAbsent_iff`); where it is, the credentials
say that the key has a passphrase, and it is empty.
-/
namespace FaultDrill

theorem Auth.kind_eq_passphrase_iff {auth : Auth} :
    auth.kind = "private key (passphrase)" ↔ ∃ k p, auth = .key k (some p) := by
  cases auth with
  | none => simp [kind]
  | password _ => simp [kind]
  | key k passphrase => cases passphrase <;> simp [kind]

namespace Credentials

variable {login : Login} {defaults : Defaults} {k : List UInt8} {p : String}

/-! ## Without empty values -/

/-- A value, unless it is empty. -/
def unlessEmpty [DecidableEq α] (empty : α) (v : Option α) : Option α :=
  if v = some empty then none else v

/-- A login without its empty values. -/
def Login.pruned (login : Login) : Login where
  username := unlessEmpty "" login.username
  password := unlessEmpty "" login.password
  key := unlessEmpty [] login.key
  keyPassword := unlessEmpty "" login.keyPassword

/-- Defaults without their empty values. -/
def Defaults.pruned (defaults : Defaults) : Defaults where
  user := unlessEmpty "" defaults.user
  key := unlessEmpty [] defaults.key
  keyPassphrase := unlessEmpty "" defaults.keyPassphrase

theorem first_unlessEmpty [DecidableEq α] {empty : α} {v r : Option α}
    (h : First empty [v] r) : First empty [unlessEmpty empty v] r := by
  rw [unlessEmpty]
  split
  case isTrue hv =>
    cases h with
    | found hne => exact absurd (Option.some.inj hv) hne
    | passed _ hrest => exact .passed (.inl rfl) hrest
  case isFalse => exact h

@[simp] theorem present_unlessEmpty (t : Option String) : present (unlessEmpty "" t) = present t :=
  (first_present _).unique (first_unlessEmpty (first_present t))

@[simp] theorem presentKey_unlessEmpty (k : Option (List UInt8)) :
    presentKey (unlessEmpty [] k) = presentKey k :=
  (first_presentKey _).unique (first_unlessEmpty (first_presentKey k))

/-- Of all empty values only the passphrase of the default key is told from an absent one. -/
theorem resolve_pruned (login : Login) (defaults : Defaults) :
    resolve login.pruned defaults.pruned =
      resolve login { defaults with keyPassphrase := unlessEmpty "" defaults.keyPassphrase } := by
  simp only [resolve, Login.pruned, Defaults.pruned, present_unlessEmpty, presentKey_unlessEmpty]

/-! ## The rule and its exception -/

/-- Credentials without an empty value, the passphrase apart. -/
structure Filled (c : Credentials) : Prop where
  username : c.username ≠ ""
  key : c.privateKey ≠ some []
  password : c.password ≠ some ""
  sudoPassword : c.sudoPassword ≠ some ""
  loginPassword : c.loginPassword ≠ some ""

/-- An empty value counts as absent for a login: it makes no difference to the credentials, and they
have no empty value. They are said to have a passphrase only where there is one to be used. -/
structure EmptyIsAbsent (login : Login) (defaults : Defaults) : Prop where
  pruned : resolve login.pruned defaults.pruned = resolve login defaults
  filled : (resolve login defaults).Filled
  passphrase : ∀ k, (resolve login defaults).auth ≠ .key k (some "")
  kind : (resolve login defaults).auth.kind = "private key (passphrase)" →
    ∃ k p, (resolve login defaults).auth = .key k (some p) ∧ p ≠ ""

/-- The default key is used, and the default passphrase is empty. -/
structure EmptyPassphrase (login : Login) (defaults : Defaults) (k : List UInt8) : Prop where
  keyless : First [] [login.key] none
  key : First [] [defaults.key] (some k)
  passphrase : defaults.keyPassphrase = some ""

theorem filled_resolve (login : Login) (defaults : Defaults) :
    (resolve login defaults).Filled where
  username := (prescribed_resolve login defaults).username.ne_empty
  key := by
    intro hkey
    exact (hkey ▸ (prescribed_resolve login defaults).key).ne_empty rfl
  password := by
    intro hpassword
    exact (((prescribed_resolve login defaults).password _).mp hpassword).2.ne_empty rfl
  sudoPassword := by
    rw [sudoPassword_resolve]
    intro hpassword
    exact (present_eq_some_iff.mp hpassword).2 rfl
  loginPassword := by
    rw [loginPassword_resolve]
    intro hpassword
    exact (present_eq_some_iff.mp hpassword).2 rfl

/-- The credentials have an empty passphrase exactly where the default one is empty and used. -/
theorem auth_eq_empty_iff :
    (resolve login defaults).auth = .key k (some "") ↔ EmptyPassphrase login defaults k := by
  constructor
  · intro hauth
    have hproves := proves_resolve login defaults
    rw [hauth] at hproves
    generalize hpassphrase : some "" = passphrase at hproves
    cases hproves with
    | ownKey _ hunlocks => exact absurd rfl (hpassphrase ▸ hunlocks).ne_empty
    | defaultKey hkeyless hkey => exact ⟨hkeyless, hkey, hpassphrase.symm⟩
  · intro h
    rw [auth_resolve_defaultKey ((first_presentKey _).unique h.keyless)
      ((first_presentKey _).unique h.key), h.passphrase]

/-- An empty default passphrase that is not used makes no difference. -/
theorem resolve_pruned_of_unused (h : ∀ k, ¬ EmptyPassphrase login defaults k) :
    resolve login.pruned defaults.pruned = resolve login defaults := by
  rw [resolve_pruned, unlessEmpty]
  split
  case isTrue hempty =>
    rw [resolve, resolve]
    cases hown : presentKey login.key with
    | some _ => rfl
    | none =>
      cases hdefault : presentKey defaults.key with
      | some k =>
        refine absurd ?_ (h k)
        exact ⟨hown ▸ first_presentKey _, hdefault ▸ first_presentKey _, hempty⟩
      | none => cases present login.password <;> rfl
  case isFalse => rfl

theorem resolve_pruned_of_empty (h : EmptyPassphrase login defaults k) :
    resolve login.pruned defaults.pruned =
      { resolve login defaults with auth := .key k none } := by
  have hown := (first_presentKey _).unique h.keyless
  have hdefault := (first_presentKey _).unique h.key
  rw [resolve_pruned, unlessEmpty, if_pos h.passphrase, resolve, resolve]
  simp only [hown, hdefault]
  rfl

theorem emptyIsAbsent_of_unused (h : ∀ k, ¬ EmptyPassphrase login defaults k) :
    EmptyIsAbsent login defaults where
  pruned := resolve_pruned_of_unused h
  filled := filled_resolve login defaults
  passphrase := by
    intro k hauth
    exact h k (auth_eq_empty_iff.mp hauth)
  kind := by
    intro hkind
    obtain ⟨k, p, hauth⟩ := Auth.kind_eq_passphrase_iff.mp hkind
    refine ⟨k, p, hauth, ?_⟩
    rintro rfl
    exact h k (auth_eq_empty_iff.mp hauth)

/-- Empty values count as absent exactly where the default key is not used with an empty passphrase.
Where it is, all but the passphrase is as it would be without empty values; the key is said to have
a passphrase, which is empty. -/
theorem emptyIsAbsent_iff (login : Login) (defaults : Defaults) :
    (EmptyIsAbsent login defaults ↔ ∀ k, ¬ EmptyPassphrase login defaults k) ∧
      ∀ k, EmptyPassphrase login defaults k →
        (resolve login defaults).auth = .key k (some "") ∧
          (resolve login defaults).auth.kind = "private key (passphrase)" ∧
          (resolve login defaults).Filled ∧
          resolve login.pruned defaults.pruned =
            { resolve login defaults with auth := .key k none } := by
  constructor
  · constructor
    · intro habsent k hempty
      exact habsent.passphrase k (auth_eq_empty_iff.mpr hempty)
    · exact emptyIsAbsent_of_unused
  · intro k hempty
    have hauth := auth_eq_empty_iff.mpr hempty
    exact ⟨hauth, Auth.kind_eq_passphrase_iff.mpr ⟨k, "", hauth⟩, filled_resolve login defaults,
      resolve_pruned_of_empty hempty⟩

/-! ## A default key with an empty passphrase -/

/-- The login of an instance about which nothing is known. -/
def unknown : Login := ⟨none, none, none, none⟩

/-- Defaults with a key and its passphrase. -/
def keyWith (passphrase : Option String) : Defaults := ⟨none, some [0x4B], passphrase⟩

theorem unknown_emptyPassphrase : EmptyPassphrase unknown (keyWith (some "")) [0x4B] where
  keyless := .passed (.inl rfl) .nothing
  key := .found (by decide)
  passphrase := rfl

/-- The same key is used with an empty passphrase and with none, as it was configured, and only the
absent one counts as absent. -/
theorem keyWith_emptyIsAbsent :
    EmptyIsAbsent unknown (keyWith none) ∧
      resolve unknown (keyWith (some "")) = ⟨"root", .key [0x4B] (some ""), none⟩ ∧
      resolve unknown.pruned (keyWith (some "")).pruned = ⟨"root", .key [0x4B] none, none⟩ :=
  ⟨(emptyIsAbsent_iff _ _).1.mpr fun _ h => Option.some_ne_none _ h.passphrase.symm, rfl,
    ((emptyIsAbsent_iff _ _).2 _ unknown_emptyPassphrase).2.2.2⟩

/-- Credentials with an empty passphrase are said to have one. -/
theorem emptyPassphrase_shown :
    ¬ EmptyIsAbsent unknown (keyWith (some "")) ∧
      (resolve unknown (keyWith (some ""))).auth = .key [0x4B] (some "") ∧
      (resolve unknown (keyWith (some ""))).auth.kind = "private key (passphrase)" ∧
      (resolve unknown.pruned (keyWith (some "")).pruned).auth.kind = "private key" :=
  ⟨fun h => h.passphrase [0x4B] rfl, rfl, rfl, rfl⟩

end Credentials

end FaultDrill
