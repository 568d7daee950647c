import FaultDrill.Ledger.Journal
import FaultDrill.FileTree
import FaultDrill.Fault
/-!
# Ledgers

A ledger keeps the events of all attempts, in memory or in a journal file. It answers whether a
group's window is spent. Nothing in it is ever changed or removed.
-/
namespace FaultDrill

/-- Where events are kept. -/
inductive LedgerMode where
  | memory
  | file (path : String)
  deriving DecidableEq, Repr, Inhabited

/-- Reads a mode: empty, `memory` or `mem` in any case, or else the path of a file. -/
def LedgerMode.parse (raw : String) : LedgerMode :=
  let raw := Text.trim raw
  if ["", "memory", "mem"].contains (Text.lowerAscii raw) then .memory else .file raw

/-- A ledger: the events in memory, oldest first, or the path of its file. -/
inductive Ledger where
  | memory (events : List Event)
  | file (path : String)
  deriving DecidableEq, Repr, Inhabited

namespace Ledger

/-- The fault of a file that does not work as a ledger. -/
def unavailable (path : String) (why : FileTree.Fault) : Fault :=
  .ledgerUnavailable (path ++ ": " ++ why.message)

/-- Opens a ledger. The file and the directories around it are made where they are missing. -/
def openFile (files : FileTree) (path : String) : Except Fault (Ledger × FileTree) :=
  let opened : Except FileTree.Fault FileTree := do
    let files ← match Path.parent? path with
      | some parent => if parent = "" then pure files else files.makeDirectories parent
      | none => pure files
    files.append path []
  match opened with
  | .ok files => .ok (.file path, files)
  | .error why => .error (unavailable path why)

/-- Opens the ledger of a mode; one in memory is empty. -/
def «open» (files : FileTree) : LedgerMode → Except Fault (Ledger × FileTree)
  | .memory => .ok (.memory [], files)
  | .file path => openFile files path

/-- All events, oldest first. -/
def events (files : FileTree) : Ledger → Except Fault (List Event)
  | memory es => .ok es
  | file path => do
    let bytes ← (files.read path).mapError (unavailable path)
    match Journal.events bytes with
    | some es => .ok es
    | none => .error (unavailable path .notText)

/-- Whether an event spends the window of a group that begins at `start`. -/
def hasRecent (files : FileTree) (l : Ledger) (group : String) (start : Instant) :
    Except Fault Bool := do
  let es ← l.events files
  return es.any (·.countsFor group start)

/-- Adds an event at the end. -/
def append (files : FileTree) (l : Ledger) (e : Event) : Except Fault (Ledger × FileTree) :=
  match l with
  | memory es => .ok (.memory (es ++ [e]), files)
  | file path =>
    let extended : Except FileTree.Fault FileTree := do
      files.extend path (Journal.addition (← files.read path) e)
    match extended with
    | .ok files => .ok (l, files)
    | .error why => .error (unavailable path why)

end Ledger
end FaultDrill
