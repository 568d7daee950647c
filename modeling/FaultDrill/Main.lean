import FaultDrill.CommandLine.Paths
import FaultDrill.Schedule.Pace
import Std.Time.DateTime.Timestamp
/-!
# The program

Reads the command line, the clock and the files that the request names, carries the request out, and
writes back the files that changed. The program logs in nowhere, is on no network, and lets groups
take their turns one after the other.
-/
open FaultDrill

namespace FaultDrill.Program

/-- What stands at a path: the content of a file, or a directory. -/
def look (path : String) : IO (Option Entry) := do
  try
    return some (.file (← IO.FS.readBinFile path).toList)
  catch e =>
    match e with
    | .inappropriateType _ 21 _ => return some .directory
    | _ => return none

/-- Adds what stands at a path, and at the directories around it. -/
def fetch (files : FileTree) (path : String) : IO FileTree := do
  let mut files := files
  for around in (Path.ancestors path).reverse do
    match ← look around with
    | some .directory => files := (files.makeDirectories around).toOption.getD files
    | some (.file content) => files := (files.write around content).toOption.getD files
    | none => files := (files.remove around).toOption.getD files
  return files

/-- Adds the files that a request names; `rounds` times, so that files named in files are found. -/
def fetchAll (home : Option String) (r : CommandLine.Request) :
    (rounds : Nat) → FileTree → IO FileTree
  | 0, files => return files
  | rounds + 1, files => do
    fetchAll home r rounds (← (r.paths files home).foldlM fetch files)

/-- The path of a location. -/
def pathOf (l : Location) : String := "/" ++ "/".intercalate l.reverse

/-- Writes the files that changed. -/
def store (before after : FileTree) : IO Unit := do
  for (l, e) in after.entries do
    if before.at? l != some e then
      match e with
      | .directory => IO.FS.createDirAll (pathOf l)
      | .file content =>
        IO.FS.createDirAll (pathOf l.tail)
        IO.FS.writeBinFile (pathOf l) ⟨content.toArray⟩

/-- The instant now. -/
def now : IO Instant := do
  let n := (← Std.Time.Timestamp.now).toNanosecondsSinceUnixEpoch.val
  return ⟨n / 1000000000, (n % 1000000000).toNat⟩

/-- A seed that nobody chose. -/
def entropy : IO UInt64 := do
  let bytes ← IO.getRandomBytes 8
  return bytes.toList.foldl (fun n b => n * 256 + b.toUInt64) 0

/-- Says why a run failed, and gives its exit code. -/
def fail (chain : CommandLine.Chain) : IO UInt32 := do
  IO.eprint (CommandLine.failureText chain)
  return 1

/-- The pace of cycles that are due some time after the last one was started. -/
def paceOf (started : IO.Ref Nat) (every : Span) :
    Pace (StateT (Engine.Running (Site Unit)) IO) where
  isStopped := return false
  isDue := do return decide ((← started.get) + every.millis ≤ (← IO.monoMsNow))
  nap := do
    let left := (← started.get) + every.millis - (← IO.monoMsNow)
    IO.sleep (UInt32.ofNat (min Pace.longestNap left))

/-- Runs a schedule: before each cycle the files are read, behind it they are written. -/
def follow (home : Option String) (r : CommandLine.Request) (color : Bool)
    (drill : CommandLine.Drill Unit) (every : Span) (cycles : Option Nat) : IO UInt32 := do
  let started ← IO.mkRef (← IO.monoMsNow)
  let cycle : StateT (Engine.Running (Site Unit)) IO (Except Fault CycleReport) := do
    started.set (← IO.monoMsNow)
    let running ← get
    let files ← fetchAll home r 2 running.world.files
    let world := { running.world with files }
    let (result, running) := drill.engine.cycle (← now) { running with world }
    store files running.world.files
    set running
    return result
  let schedule := (paceOf started every).schedule (Pace.napsIn every.millis) cycle fun report =>
    IO.print (Report.cycle color report)
  let (ending, _) ← (schedule.run cycles CommandLine.endless).run drill.running
  match CommandLine.lastWords ending with
  | .ok text =>
    IO.print text
    return 0
  | .error chain => fail chain

/-- Carries out a request. -/
def perform (r : CommandLine.Request) : IO UInt32 := do
  let home := (← IO.getEnv "HOME").filter (· != "")
  let here := (FileTree.route (← IO.currentDir).toString).reverse
  let files ← fetchAll home r 3 (FileTree.bare here)
  let color := false
  let world : CommandLine.World := ⟨files, .offline, home, ← entropy, color⟩
  let out := CommandLine.Outside.still (← now)
  match r.command with
  | .run o cycles interval =>
    match CommandLine.startSchedule out world r.config o interval with
    | .error chain => fail chain
    | .ok (drill, every) =>
      store files drill.running.world.files
      follow home r color drill every cycles
  | _ =>
    let answer := r.perform out world
    store files answer.files
    IO.print (String.join answer.printed)
    match answer.failure with
    | some chain => fail chain
    | none => return 0

end FaultDrill.Program

/-- Runs the program. -/
def main (words : List String) : IO UInt32 := do
  match CommandLine.Request.read words with
  | .error stop =>
    IO.print stop.printed
    return UInt32.ofNat stop.code
  | .ok request => Program.perform request
