import FaultDrill.FileTree
/-!
# Scripts and disruptions

A disruption either asks the backend to terminate an instance or runs a script on it. A script is
built in or read from a file when the disruption is configured.
-/
namespace FaultDrill

/-- A script and the label that its runs are recorded under. -/
structure Script where
  label : String
  body : String
  deriving DecidableEq, Repr, Inhabited

/-- How an instance is disrupted. -/
inductive Disruption where
  | terminate
  | script (s : Script)
  deriving DecidableEq, Repr, Inhabited

/-- What a disruption is recorded as. -/
def Disruption.label : Disruption → String
  | terminate => "terminate"
  | script s => s.label

namespace Script

/-- Lines, each with its line end. -/
def ofLines (lines : List String) : String := String.join (lines.map (· ++ "\n"))

/-- Halts the machine. -/
def shutdown : Script where
  label := "shutdown"
  body := ofLines [
    "#!/bin/sh",
    "# Halt the machine. Detached so the ssh session can report success first.",
    "nohup sh -c 'sleep 2; shutdown -h now || poweroff' >/dev/null 2>&1 &",
    "exit 0"]

/-- Keeps every core busy. -/
def burnCpu : Script where
  label := "burn-cpu"
  body := ofLines [
    "#!/bin/sh",
    "# Pin every core with a busy loop until the machine is recycled.",
    "cores=$(nproc 2>/dev/null || echo 1)",
    "i=0",
    "while [ \"$i\" -lt \"$cores\" ]; do",
    "    nohup sh -c 'while :; do :; done' >/dev/null 2>&1 &",
    "    i=$((i + 1))",
    "done",
    "exit 0"]

/-- Kills application runtimes. -/
def killProcesses : Script where
  label := "kill-processes"
  body := ofLines [
    "#!/bin/sh",
    "# Kill the usual application runtimes.",
    "for name in java python python3 node ruby; do",
    "    pkill -KILL -x \"$name\" 2>/dev/null",
    "done",
    "exit 0"]

/-- The scripts that need no file. -/
def builtins : List Script := [shutdown, burnCpu, killProcesses]

/-- The labels of the built-in scripts. -/
def builtinNames : List String := builtins.map (·.label)

/-- The built-in script of a name. -/
def builtin? (name : String) : Option Script := builtins.find? (·.label == name)

end Script

namespace Disruption

/-- Why a text names no disruption. -/
inductive Fault where
  /-- The file of a script cannot be read. -/
  | unreadable (path : String) (why : FileTree.Fault)
  /-- The text is neither `terminate` nor a built-in script nor a script file. -/
  | unknown (raw : String)
  deriving DecidableEq, Repr

/-- What went wrong, the outermost description first. -/
def Fault.chain : Fault → List String
  | unreadable path why => ["reading disruption script " ++ path, why.message]
  | unknown raw =>
    ["unknown disruption '" ++ raw ++ "' (expected terminate, " ++
      String.intercalate ", " Script.builtinNames ++ ", or script:<path>)"]

/-- The file that a script's path names, seen from a base directory. -/
def scriptPath (home : Option String) (base path : String) : String :=
  Path.join base (Path.expandHome home path)

/-- Reads a disruption: `terminate`, the name of a built-in script, or `script:` and the path of a
file. Names are taken in any case. -/
def parse (files : FileTree) (home : Option String) (base raw : String) : Except Fault Disruption :=
  let raw := Text.trim raw
  if Text.lowerAscii raw = "terminate" then .ok .terminate
  else match Text.after? "script:".toList raw.toList with
    | some path =>
      let path := scriptPath home base (String.ofList path)
      match files.readText path with
      | .ok body => .ok (.script ⟨(Path.stem? path).getD "script", body⟩)
      | .error why => .error (.unreadable path why)
    | none =>
      match Script.builtin? (Text.lowerAscii raw) with
      | some s => .ok (.script s)
      | none => .error (.unknown raw)

end Disruption

/-- Reads the bytes of a private key file; a leading `~/` is the home directory,
if there is one. -/
def readKeyFile (files : FileTree) (home : Option String) (path : String) :
    Except (String × FileTree.Fault) (List UInt8) :=
  let path := Path.expandHome home path
  (files.read path).mapError fun why => (path, why)

/-- The descriptions of a key file that cannot be read, the outermost first. -/
def keyFaultChain (fault : String × FileTree.Fault) : List String :=
  ["unable to read ssh key " ++ fault.1, fault.2.message]

end FaultDrill
