import FaultDrill.Path
import FaultDrill.Text.Utf8
/-!
# Files and directories

The files a program sees: entries at locations, and the location of the working directory. A path is
walked part by part, so that every directory on the way has to exist.
-/
namespace FaultDrill

/-- Names from the root to a file or directory, the innermost first. -/
abbrev Location := List String

/-- What stands at a location. -/
inductive Entry where
  | directory
  | file (content : List UInt8)
  deriving DecidableEq, Repr

/-- Files and directories, the newest entry of a location first. The root always exists. -/
structure FileTree where
  entries : List (Location × Entry)
  /-- The working directory. -/
  here : Location
  deriving Repr, Inhabited

namespace FileTree

/-- Why a file operation fails. -/
inductive Fault where
  | notFound
  | denied
  | alreadyThere
  | notDirectory
  | isDirectory
  | nameTooLong
  | nulByte
  | notText
  deriving DecidableEq, Repr

/-- The wording of a fault. -/
def Fault.message : Fault → String
  | notFound => "No such file or directory (os error 2)"
  | denied => "Permission denied (os error 13)"
  | alreadyThere => "File exists (os error 17)"
  | notDirectory => "Not a directory (os error 20)"
  | isDirectory => "Is a directory (os error 21)"
  | nameTooLong => "File name too long (os error 36)"
  | nulByte => "file name contained an unexpected NUL byte"
  | notText => "stream did not contain valid UTF-8"

/-- The directories from a location up to the root. -/
def chain : Location → List (Location × Entry)
  | [] => []
  | name :: outer => (name :: outer, .directory) :: chain outer

/-- A tree with nothing in its working directory. -/
def bare (here : Location) : FileTree := ⟨chain here, here⟩

/-- What stands at a location. -/
def at? (t : FileTree) (l : Location) : Option Entry :=
  if l.isEmpty then some .directory else t.entries.lookup l

/-- The tree with another entry at a location. -/
def set (t : FileTree) (l : Location) (e : Entry) : FileTree :=
  { t with entries := (l, e) :: t.entries.filter (·.1 != l) }

/-- The tree without a location and all below it. -/
def erase (t : FileTree) (l : Location) : FileTree :=
  { t with entries := t.entries.filter fun (k, _) => !l.isSuffixOf k }

/-- One part further from a location. -/
def step (t : FileTree) (l : Location) (part : String) : Except Fault Location :=
  match t.at? l with
  | some .directory =>
    if part = "." then .ok l
    else if part = ".." then .ok l.tail
    else if 255 < part.utf8ByteSize then .error .nameTooLong
    else if (t.at? (part :: l)).isSome then .ok (part :: l)
    else .error .notFound
  | some (.file _) => .error .notDirectory
  | none => .error .notFound

/-- The location that parts lead to. -/
def walk (t : FileTree) : Location → List String → Except Fault Location
  | l, [] => .ok l
  | l, part :: more => do
    let l ← t.step l part
    t.walk l more

/-- The names to walk along a path. -/
def route (path : String) : List String :=
  (Path.pieces path).filterMap fun cs => if cs.isEmpty then none else some (String.ofList cs)

/-- Where a path starts. -/
def origin (t : FileTree) (path : String) : Location := if Path.isAbsolute path then [] else t.here

/-- Whether a slash stands behind the last name. -/
def endsInSlash (path : String) : Bool := path.toList.getLast? == some '/'

/-- Texts that are no path at all. -/
def refuse (path : String) : Except Fault Unit :=
  if path.toList.contains '\x00' then .error .nulByte
  else if path = "" then .error .notFound
  else if 4096 ≤ path.utf8ByteSize then .error .nameTooLong
  else .ok ()

/-- The location that a path leads to. A slash at its end asks for a directory. -/
def resolve (t : FileTree) (path : String) : Except Fault Location := do
  refuse path
  let l ← t.walk (t.origin path) (route path)
  match t.at? l with
  | some (.file _) => if endsInSlash path then .error .notDirectory else .ok l
  | _ => .ok l

/-- What a path leads to. -/
def find (t : FileTree) (path : String) : Except Fault Entry := do
  let l ← t.resolve path
  match t.at? l with
  | some e => .ok e
  | none => .error .notFound

/-- Whether a path leads anywhere. -/
def «exists» (t : FileTree) (path : String) : Bool := (t.find path).toBool

/-- Whether a path leads to a directory. -/
def isDirectory (t : FileTree) (path : String) : Bool :=
  match t.find path with
  | .ok .directory => true
  | _ => false

/-- The bytes of a file. -/
def read (t : FileTree) (path : String) : Except Fault (List UInt8) := do
  match ← t.find path with
  | .file content => .ok content
  | .directory => .error .isDirectory

/-- The text of a file. -/
def readText (t : FileTree) (path : String) : Except Fault String := do
  match Text.Utf8.string? (← t.read path) with
  | some s => .ok s
  | none => .error .notText

/-- Where a new entry of the given path would stand: the location, which may be taken already. -/
def target (t : FileTree) (path : String) : Except Fault Location := do
  refuse path
  match (route path).reverse with
  | [] => .ok []
  | last :: outer =>
    if last = "." || last = ".." then t.walk (t.origin path) (route path)
    else
      let l ← t.walk (t.origin path) outer.reverse
      match t.at? l with
      | some .directory => if 255 < last.utf8ByteSize then .error .nameTooLong else .ok (last :: l)
      | _ => .error .notDirectory

/-- The location of the file to be written at a path, with its bytes so far; a file is made where
there is none. -/
def create (t : FileTree) (path : String) : Except Fault (Location × List UInt8) := do
  let l ← t.target path
  if endsInSlash path then .error .isDirectory
  else match t.at? l with
    | some .directory => .error .isDirectory
    | some (.file content) => .ok (l, content)
    | none => .ok (l, [])

/-- The tree after a file was written. -/
def write (t : FileTree) (path : String) (content : List UInt8) : Except Fault FileTree := do
  let (l, _) ← t.create path
  return t.set l (.file content)

/-- The tree after bytes were added to a file, which is made if there is none. -/
def append (t : FileTree) (path : String) (content : List UInt8) : Except Fault FileTree := do
  let (l, old) ← t.create path
  return t.set l (.file (old ++ content))

/-- The tree after bytes were added to a file that exists. -/
def extend (t : FileTree) (path : String) (content : List UInt8) : Except Fault FileTree := do
  let l ← t.resolve path
  match t.at? l with
  | some (.file old) => return t.set l (.file (old ++ content))
  | some .directory => .error .isDirectory
  | none => .error .notFound

/-- The tree with a new directory. -/
def makeDirectory (t : FileTree) (path : String) : Except Fault FileTree := do
  let l ← t.target path
  if (t.at? l).isSome then .error .alreadyThere else return t.set l .directory

/-- The tree with a directory at the first of the paths; the following ones are the directories
around it, made from the outside as far as they are missing. -/
def makeAll (t : FileTree) : List String → Except Fault FileTree
  | [] => .error .notFound
  | path :: around =>
    if path = "" then .ok t
    else match t.makeDirectory path with
      | .ok t => .ok t
      | .error .notFound =>
        match t.makeAll around with
        | .error e => .error e
        | .ok t =>
          match t.makeDirectory path with
          | .ok t => .ok t
          | .error e => if t.isDirectory path then .ok t else .error e
      | .error e => if t.isDirectory path then .ok t else .error e

/-- The tree with a directory at a path and with those around it. -/
def makeDirectories (t : FileTree) (path : String) : Except Fault FileTree :=
  t.makeAll (Path.ancestors path)

/-- The tree without what a path leads to. -/
def remove (t : FileTree) (path : String) : Except Fault FileTree := do
  return t.erase (← t.resolve path)

end FileTree
end FaultDrill
