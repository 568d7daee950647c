import FaultDrill.Script
import FaultDrill.Text.Quoted
/-!
# Credentials

How to log in to an instance. What the catalog says about the instance is merged with the defaults
of the configuration: user name and key may come from either, a password only from the instance.
Without a key and a password the credentials are disabled and no login is tried. An empty text or
key counts as absent, save that the passphrase of the default key is taken as it is.
-/
namespace FaultDrill

/-- The user that needs no escalation. -/
def superuser : String := "root"

/-- What proves the user's identity. -/
inductive Auth where
  | none
  | password (p : String)
  | key (k : List UInt8) (passphrase : Option String)
  deriving DecidableEq, Repr, Inhabited

/-- The kind of proof, without its secrets. -/
def Auth.kind : Auth → String
  | none => "none"
  | password _ => "password"
  | key _ (some _) => "private key (passphrase)"
  | key _ Option.none => "private key"

/-- A user with a proof of identity. -/
structure Credentials where
  username : String
  auth : Auth
  /-- The password for escalation, if one is known. -/
  sudoPassword : Option String
  deriving DecidableEq, Repr, Inhabited

namespace Credentials

/-- Credentials that log in nowhere. -/
def disabled (username : String) : Credentials := ⟨username, .none, none⟩

/-- Credentials with a password, which also serves for escalation. -/
def withPassword (username password : String) : Credentials :=
  ⟨username, .password password, some password⟩

/-- Credentials with a private key. -/
def withKey (username : String) (key : List UInt8) (passphrase : Option String) : Credentials :=
  ⟨username, .key key passphrase, none⟩

/-- Whether a login can be tried. -/
def isEnabled (c : Credentials) : Bool :=
  match c.auth with
  | .none => false
  | _ => true

/-- Whether scripts need to escalate: the user is not the superuser. -/
def escalates (c : Credentials) : Bool := c.username != superuser

/-- The password that proves the identity. -/
def password (c : Credentials) : Option String :=
  match c.auth with
  | .password p => some p
  | _ => none

/-- The user's password, whatever proves the identity. -/
def loginPassword (c : Credentials) : Option String := c.password.or c.sudoPassword

/-- The key that proves the identity. -/
def privateKey (c : Credentials) : Option (List UInt8) :=
  match c.auth with
  | .key k _ => some k
  | _ => none

/-- The diagnostic form, without secrets. -/
def diagnostic (c : Credentials) : String :=
  Text.Quoted.record "CredentialSet" [
    ("username", Text.Quoted.quote c.username),
    ("auth", "Auth(" ++ c.auth.kind ++ ")"),
    ("sudo", toString c.escalates)]

/-! ## Merging -/

/-- What the catalog says about an instance's login. -/
structure Login where
  username : Option String
  password : Option String
  key : Option (List UInt8)
  keyPassword : Option String
  deriving DecidableEq, Repr, Inhabited

/-- What the configuration says about logins. -/
structure Defaults where
  user : Option String
  key : Option (List UInt8)
  keyPassphrase : Option String
  deriving DecidableEq, Repr, Inhabited

/-- The diagnostic form of a secret: whether there is one. -/
def redacted (secret : Option α) : String :=
  Text.Quoted.option (fun _ => Text.Quoted.quote "<redacted>") secret

/-- The diagnostic form of defaults, without secrets. -/
def Defaults.diagnostic (d : Defaults) : String :=
  Text.Quoted.record "GlobalSshDefaults" [
    ("user", Text.Quoted.option Text.Quoted.quote d.user),
    ("key", redacted d.key)]

/-- A text that is there and not empty. -/
def present (s : Option String) : Option String := s.filter (· != "")

/-- A key that is there and not empty. -/
def presentKey (k : Option (List UInt8)) : Option (List UInt8) := k.filter (!·.isEmpty)

/-- The credentials for an instance. Its own key is unlocked by its key password or else its
password, the default key by the default passphrase. -/
def resolve (login : Login) (defaults : Defaults) : Credentials :=
  let username := ((present login.username).or (present defaults.user)).getD superuser
  let password := present login.password
  match presentKey login.key, presentKey defaults.key, password with
  | some key, _, password =>
    { withKey username key ((present login.keyPassword).or password) with sudoPassword := password }
  | none, some key, password =>
    { withKey username key defaults.keyPassphrase with sudoPassword := password }
  | none, none, some password => withPassword username password
  | none, none, none => disabled username

/-! ## Running a script -/

/-- The command that runs a script as a user, and its input. The script comes in on standard input;
where a password is needed and known, it is the line before. -/
def invocation (c : Credentials) (s : Script) : String × List UInt8 :=
  let body := Text.Utf8.bytes s.body
  if !c.escalates then ("/bin/sh -s", body)
  else match c.sudoPassword with
    | some p => ("sudo -S -p '' /bin/sh -s", Text.Utf8.bytes p ++ 0x0A :: body)
    | none => ("sudo -n /bin/sh -s", body)

end Credentials
end FaultDrill
