import FaultDrill.Text.Blank
/-!
# Paths

A path is a text whose parts stand between slashes. Empty parts and the part `.` (except in front)
do not count. These functions look at the text only; `FileTree` says where a path leads.
-/
namespace FaultDrill.Path

/-- A part of a path that counts. -/
inductive Part where
  /-- The slash in front of an absolute path. -/
  | root
  /-- A `.` in front of a relative path. -/
  | here
  /-- The part `..`. -/
  | up
  | name (cs : List Char)
  deriving DecidableEq, Repr

/-- Whether a path starts at the root. -/
def isAbsolute (p : String) : Bool := p.toList.head? == some '/'

/-- The parts between slashes, the empty ones included. -/
def pieces (p : String) : List (List Char) := Text.splitAtChar '/' p.toList

/-- The parts of a path that count. -/
def parts (p : String) : List Part :=
  let pieces := pieces p
  let front : List Part :=
    if isAbsolute p then [.root] else if pieces.head? == some ['.'] then [.here] else []
  front ++ pieces.filterMap fun cs =>
    if cs = [] || cs = ['.'] then none
    else if cs = ['.', '.'] then some .up
    else some (.name cs)

/-- One path after another. An absolute path stands for itself. -/
def join (base p : String) : String :=
  if isAbsolute p || base = "" then p
  else if base.toList.getLast? == some '/' then base ++ p
  else base ++ "/" ++ p

/-- The text of a path without its last part that counts and the slashes before it, given the text
in reverse; and whether there was such a part. -/
def dropLast : List Char → Option (List Char)
  | rev =>
    let rev := dropIdle rev.length rev
    match rev with
    | [] => none
    | ['/'] => none
    | _ =>
      let rest := rev.dropWhile (· != '/')
      some (dropIdle rest.length rest)
where
  /-- Removes slashes and parts `.` at the end that do not count: a slash that is not the root, and
  a `.` behind a slash. -/
  dropIdle : Nat → List Char → List Char
    | 0, rev => rev
    | fuel + 1, rev =>
      match rev with
      | ['/'] => rev
      | '/' :: more => dropIdle fuel more
      | '.' :: '/' :: more => dropIdle fuel ('/' :: more)
      | _ => rev

/-- The path without its last part; nothing when it has no part but the root. -/
def parent? (p : String) : Option String :=
  (dropLast p.toList.reverse).map fun rev => String.ofList rev.reverse

/-- The path and what remains of it as parts are taken away from its end. -/
def ancestors (p : String) : List String := go (p.length + 1) p
where
  /-- Each parent is shorter than its path. -/
  go : Nat → String → List String
    | 0, _ => []
    | fuel + 1, p =>
      p :: match parent? p with
        | some q => go fuel q
        | none => []

/-- The last part, when it is a name. -/
def fileName? (p : String) : Option (List Char) :=
  match (parts p).getLast? with
  | some (.name cs) => some cs
  | _ => none

/-- A name cut at its last dot: what precedes it and what follows. A dot in front does not cut. -/
def splitName (cs : List Char) : List Char × Option (List Char) :=
  let rev := cs.reverse
  let after := rev.takeWhile (· != '.')
  match rev.drop after.length with
  | _ :: before => if before.isEmpty then (cs, none) else (before.reverse, some after.reverse)
  | [] => (cs, none)

/-- The last name without its extension. -/
def stem? (p : String) : Option String := (fileName? p).map fun cs => String.ofList (splitName cs).1

/-- The extension of the last name: what follows its last dot. -/
def extension? (p : String) : Option String :=
  (fileName? p).bind fun cs => (splitName cs).2.map String.ofList

/-- A path text without blanks around it, a leading `~/` replaced by the home directory if there is
one. -/
def expandHome (home : Option String) (p : String) : String :=
  let cs := Text.trimChars p.toList
  match home, Text.after? ['~', '/'] cs with
  | some home, some rest => join home (String.ofList rest)
  | _, _ => String.ofList cs

end FaultDrill.Path
