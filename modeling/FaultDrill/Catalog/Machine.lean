import FaultDrill.Credentials
/-!
# Machines

A machine is an instance that a catalog describes: where it is reached and how to log in. A key file
that could not be read leaves a note in its place; the machine stays in the catalog.
-/
namespace FaultDrill

/-- An instance that a catalog describes. -/
structure Machine where
  id : String
  host : String
  username : Option String
  password : Option String
  /-- The path of the key file, as the catalog has it. -/
  keyPath : Option String
  key : Option (List UInt8)
  keyPassword : Option String
  /-- Why the key file could not be read. -/
  keyError : Option String
  port : Nat
  deriving DecidableEq, Repr, Inhabited

namespace Machine

/-- The port where none is given. -/
def defaultPort : Nat := 22

/-- A machine without a login. -/
def bare (id host : String) : Machine :=
  ⟨id, host, none, none, none, none, none, none, defaultPort⟩

/-- The machine with a key. -/
def withKey (m : Machine) (path : String) (key : List UInt8) : Machine :=
  { m with keyPath := some path, key := some key }

/-- The machine with a key file that cannot be read. -/
def withKeyError (m : Machine) (path reason : String) : Machine :=
  { m with keyPath := some path, key := none, keyError := some reason }

/-- Host and port. -/
def endpoint (m : Machine) : String := m.host ++ ":" ++ toString m.port

/-- What the catalog says about the login. -/
def login (m : Machine) : Credentials.Login := ⟨m.username, m.password, m.key, m.keyPassword⟩

/-- The diagnostic form, without secrets. -/
def diagnostic (m : Machine) : String :=
  let option := Text.Quoted.option Text.Quoted.quote
  Text.Quoted.record "LocalInstance" [
    ("id", Text.Quoted.quote m.id), ("endpoint", Text.Quoted.quote m.endpoint),
    ("username", option m.username),
    ("private_key_path", option m.keyPath), ("key_error", option m.keyError)]

end Machine
end FaultDrill
