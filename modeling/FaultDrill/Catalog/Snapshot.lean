import FaultDrill.Catalog.Machine
import FaultDrill.Group
import FaultDrill.Json.Reader
/-!
# Catalog documents

A catalog document is a JSON list of groups, each with an id and its instances. Ids are not blank;
group ids are distinct, and so are instance ids over the whole document. Every instance has an
address or a host name, and no port is zero. A snapshot is what such a document says.
-/
namespace FaultDrill.Catalog
open Document

/-- An instance as the document has it. -/
structure InstanceEntry where
  id : String
  ipAddress : Option String
  hostname : Option String
  username : Option String
  password : Option String
  keyPath : Option String
  keyPassword : Option String
  port : Option Nat
  deriving DecidableEq, Repr

/-- A group as the document has it. -/
structure GroupEntry where
  id : String
  instances : List InstanceEntry
  deriving DecidableEq, Repr

/-- Reads an instance. -/
def InstanceEntry.reader : Reader InstanceEntry :=
  (InstanceEntry.mk <$> Form.required "id" Reader.text <*>
    Form.optional "ipAddress" Reader.text <*> Form.optional "hostname" Reader.text <*>
    Form.optional "username" Reader.text <*> Form.optional "userpass" Reader.text <*>
    Form.optional "privateKeyFilePath" Reader.text <*>
    Form.optional "privateKeyFilePassword" Reader.text <*>
    Form.optional "sshPort" (Reader.natural 65535)).reader .ignored

/-- Reads a group. -/
def GroupEntry.reader : Reader GroupEntry :=
  (GroupEntry.mk <$> Form.required "id" Reader.text <*>
    Form.defaulting "instances" [] (Reader.list InstanceEntry.reader)).reader .ignored

/-- Why a document is no catalog. -/
inductive Fault where
  | notGroups (why : Document.Fault)
  | blankGroup
  | duplicateGroup (id : String)
  | blankInstance (group : String)
  | noAddress (group id : String)
  | portZero (group id : String)
  | duplicateInstance (id : String)
  deriving DecidableEq, Repr

/-- What went wrong, the outermost description first. -/
def Fault.chain : Fault → List String
  | notGroups why => ["catalog is not a list of instance groups", why.message]
  | blankGroup => ["instance group with empty id"]
  | duplicateGroup id => ["duplicate instance group '" ++ id ++ "'"]
  | blankInstance group => [within group, "instance with empty id"]
  | noAddress group id =>
    [within group, "instance '" ++ id ++ "' has neither ipAddress nor hostname"]
  | portZero group id => [within group, "instance '" ++ id ++ "' has sshPort 0"]
  | duplicateInstance id => ["instance '" ++ id ++ "' appears more than once"]
where
  /-- The description of the place of a fault. -/
  within (group : String) : String := "in instance group '" ++ group ++ "'"

/-- What a catalog says: the groups, and the machines in the order of the document. -/
structure Snapshot where
  groups : List Group
  machines : List Machine
  deriving DecidableEq, Repr, Inhabited

/-- The snapshot of no document. -/
def Snapshot.empty : Snapshot := ⟨[], []⟩

/-- The machine with an id. -/
def Snapshot.machine? (s : Snapshot) (id : String) : Option Machine := s.machines.find? (·.id == id)

/-- A text that is there and not blank. -/
def notBlank (s : Option String) : Option String := s.filter (!Text.allBlank ·)

/-- Reads the bytes of key files, or says why not. -/
abbrev KeyStore := String → Except String (List UInt8)

/-- The machine of an entry; its key is read now. -/
def InstanceEntry.machine (keys : KeyStore) (group : String) (e : InstanceEntry) :
    Except Fault Machine := do
  if Text.allBlank e.id then throw (.blankInstance group)
  match (notBlank e.ipAddress).or (notBlank e.hostname) with
  | none => throw (.noAddress group e.id)
  | some host =>
    let port := e.port.getD Machine.defaultPort
    if port = 0 then throw (.portZero group e.id)
    let keyPath := notBlank e.keyPath
    let read := keyPath.map keys
    return {
      id := e.id
      host := Text.trim host
      username := e.username
      password := e.password
      keyPath
      key := read.bind fun r => r.toOption
      keyPassword := e.keyPassword
      keyError := read.bind fun r => match r with
        | .ok _ => none
        | .error why => some why
      port }

/-- Adds the instances of a group, one by one, to the machines and to the members of the group. -/
def addInstances (keys : KeyStore) :
    List InstanceEntry → (machines : List Machine) → (g : Group) →
    Except Fault (List Machine × Group)
  | [], machines, g => .ok (machines, g)
  | e :: es, machines, g => do
    let m ← e.machine keys g.name
    if machines.any (·.id == m.id) then throw (.duplicateInstance m.id)
    addInstances keys es (machines ++ [m]) (g.add m.id)

/-- Adds groups to a snapshot, one by one. -/
def Snapshot.addGroups (keys : KeyStore) : List GroupEntry → Snapshot → Except Fault Snapshot
  | [], s => .ok s
  | g :: gs, s => do
    if Text.allBlank g.id then throw .blankGroup
    if s.groups.any (·.name == g.id) then throw (.duplicateGroup g.id)
    let (machines, group) ← addInstances keys g.instances s.machines (.empty g.id .localMachines)
    addGroups keys gs ⟨s.groups ++ [group], machines⟩

/-- The snapshot of a document. -/
def Snapshot.parse (keys : KeyStore) (content : String) : Except Fault Snapshot :=
  match Json.read (Reader.list GroupEntry.reader) content with
  | .error why => .error (.notGroups why)
  | .ok entries => Snapshot.addGroups keys entries .empty

end FaultDrill.Catalog
