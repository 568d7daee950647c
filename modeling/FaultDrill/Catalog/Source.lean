import FaultDrill.FileTree
import FaultDrill.Fault
/-!
# Catalog locations

A location is the path of a file, an address on the network, or the name of a catalog that comes with
the program. A file wins, and then an address whose host answers.
-/
namespace FaultDrill.Catalog

/-- An address on the network, as it is displayed. -/
structure Address where
  scheme : String
  text : String
  deriving DecidableEq, Repr, Inhabited

/-- Why a document cannot be had from the network; each with what the network says of it. -/
inductive Web.Trouble where
  /-- There is nothing to ask with. -/
  | noClient (reason : String)
  /-- No answer, or one that tells of a failure. -/
  | noAnswer (reasons : List String)
  /-- An answer whose document cannot be read. -/
  | noText (reasons : List String)
  deriving DecidableEq, Repr

/-- The network as it is now. -/
structure Web where
  /-- The address that a location is, if it is one. -/
  address? : (location : String) → Option Address
  /-- Whether the host of an address answers, whatever it says. -/
  answers : Address → Bool
  /-- The document at an address. -/
  get : Address → Except Web.Trouble String
  deriving Inhabited

namespace Web

/-- The network for a program that is on none. -/
def offline : Web where
  address? _ := none
  answers _ := false
  get _ := .error (.noClient "no network")

/-- The address of a location, if a document may be had from there. -/
def probe (web : Web) (location : String) : Option Address :=
  (web.address? location).filter fun a =>
    (a.scheme == "http" || a.scheme == "https") && web.answers a

/-- The descriptions of why there is no document from an address, the outermost first. -/
def Trouble.chain (a : Address) : Trouble → List String
  | noClient reason => ["building http client: " ++ reason]
  | noAnswer reasons => ("fetching catalog " ++ a.text) :: reasons
  | noText reasons => ("reading catalog body from " ++ a.text) :: reasons

end Web

/-- Where a catalog is read from. -/
inductive Source where
  | file (path : String)
  | url (address : Address)
  | embedded (name content : String)
  deriving DecidableEq, Repr, Inhabited

/-- The catalog that comes with the program. -/
def exampleContent : String := String.join (lines.map (· ++ "\n"))
where
  lines : List String := [
    "[",
    "    \x7b",
    "        \"id\": \"appServers\",",
    "        \"instances\": [",
    "            \x7b",
    "                \"id\": \"instance1\",",
    "                \"ipAddress\": \"127.0.0.2\",",
    "                \"username\": \"foo\",",
    "                \"userpass\": \"bar\",",
    "                \"sshPort\": 22",
    "            \x7d,",
    "            \x7b",
    "                \"id\": \"instance2\",",
    "                \"hostname\": \"devtest.example.internal\",",
    "                \"username\": \"deploy\",",
    "                \"userpass\": \"d3pl0y\"",
    "            \x7d",
    "        ]",
    "    \x7d,",
    "    \x7b",
    "        \"id\": \"dbServers\",",
    "        \"instances\": [",
    "            \x7b",
    "                \"id\": \"instance4\",",
    "                \"ipAddress\": \"127.0.0.5\",",
    "                \"username\": \"scott\",",
    "                \"userpass\": \"tiger\",",
    "                \"sshPort\": 2222",
    "            \x7d",
    "        ]",
    "    \x7d",
    "]"]

/-- The catalogs that come with the program, by name. -/
def embeddedCatalogs : List (String × String) := [("instance_catalog.example.json", exampleContent)]

/-- The names of the catalogs that come with the program. -/
def embeddedNames : List String := embeddedCatalogs.map (·.1)

/-- The name that a location asks for: without one of the marks in front and without slashes. -/
def embeddedName (location : String) : String :=
  let cs := location.toList
  let cs := match Text.after? "embedded:".toList cs, Text.after? "classpath:".toList cs with
    | some rest, _ => rest
    | none, some rest => rest
    | none, none => cs
  String.ofList (cs.dropWhile (· == '/'))

namespace Source

/-- The source that a location names. -/
def resolve (files : FileTree) (web : Web) (location : String) : Except Fault Source :=
  if files.exists location then .ok (.file location)
  else match web.probe location with
    | some a => .ok (.url a)
    | none =>
      match embeddedCatalogs.find? (·.1 == embeddedName location) with
      | some (name, content) => .ok (.embedded name content)
      | none => .error (.catalogUnresolved location)

/-- The source in messages. -/
def display : Source → String
  | file path => "file:" ++ path
  | url a => a.text
  | embedded name _ => "embedded:" ++ name

/-- The content of the source now, or the descriptions of why it cannot be read. -/
def read (files : FileTree) (web : Web) : Source → Except (List String) String
  | file path =>
    (files.readText path).mapError fun why => ["reading catalog " ++ path, why.message]
  | url a => (web.get a).mapError (Web.Trouble.chain a)
  | embedded _ content => .ok content

end Source
end FaultDrill.Catalog
