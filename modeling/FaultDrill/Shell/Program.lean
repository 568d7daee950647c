import FaultDrill.FileTree
import FaultDrill.Shell.Escape
import FaultDrill.Shell.Script
import FaultDrill.Span
/-!
# Programs

The programs that need nothing but their arguments and a look at the files: they succeed, fail,
print, compare, test a file or wait. What a program prints is kept until it ends; one that prints more
than can be kept waits for ever.
-/
namespace FaultDrill.Shell

/-- What a running program has done so far. -/
structure Progress where
  output : List UInt8
  diagnostics : List UInt8
  /-- How long it waited, in milliseconds. -/
  waited : Nat
  /-- Whether it waits for ever. -/
  isBlocked : Bool
  /-- The status of the last command. -/
  status : Nat
  deriving DecidableEq, Repr, Inhabited

namespace Progress

/-- Nothing was done. -/
def start : Progress := ⟨[], [], 0, false, 0⟩

/-- How many bytes of an output can be kept. -/
def capacity : Nat := 65536

/-- Writes to an output. -/
def write (target : Target) (bytes : List UInt8) (p : Progress) : Progress :=
  match target with
  | .output =>
    let output := p.output ++ bytes
    { p with output, isBlocked := p.isBlocked || decide (capacity < output.length) }
  | .diagnostics =>
    let diagnostics := p.diagnostics ++ bytes
    { p with diagnostics, isBlocked := p.isBlocked || decide (capacity < diagnostics.length) }
  | .nowhere => p

/-- Sets the status. -/
def withStatus (n : Nat) (p : Progress) : Progress := { p with status := n }

end Progress

/-- Where the two outputs of a command go. -/
structure Outputs where
  output : Target
  diagnostics : Target

/-- The outputs after redirections, in their order. -/
def redirected (redirects : List (Nat × Target)) : Outputs :=
  redirects.foldl (fun o (n, target) =>
    let target := match target with
      | .output => o.output
      | .diagnostics => o.diagnostics
      | .nowhere => .nowhere
    if n = 2 then { o with diagnostics := target } else { o with output := target })
    ⟨.output, .diagnostics⟩

/-- What is tested about a path, and whether it holds; none for an unknown test. -/
def testPath (files : FileTree) (test path : String) : Option Bool :=
  let found := (files.find path).toOption
  match test with
  | "-e" => some found.isSome
  | "-f" => some (found.any fun e => e != .directory)
  | "-d" => some (found == some .directory)
  | "-s" => some (found.any fun e => e != .file [])
  | _ => none

/-- What is compared or tested, and whether it holds; none for a malformed comparison. -/
def compare (files : FileTree) : List String → Option Bool
  | [] => some false
  | [a] => some (a != "")
  | ["!", a] => some (a == "")
  | ["-n", a] => some (a != "")
  | ["-z", a] => some (a == "")
  | [test, path] => testPath files test path
  | [a, "=", b] => some (a == b)
  | [a, "!=", b] => some (a != b)
  | _ => none

/-- The status of a comparison. -/
def compareStatus (files : FileTree) (args : List String) : Nat :=
  match compare files args with
  | some true => 0
  | some false => 1
  | none => 2

/-- The milliseconds that a wait asks for. -/
def waitOf (args : List String) : Option Nat :=
  match args with
  | [arg] => (Span.parse arg).toOption.map (·.millis)
  | _ => none

/-- The bytes that a copy of the front of `/dev/zero` makes, as far as it matters how many. -/
def zeros (count : String) : List UInt8 :=
  List.replicate (min (count.toNat?.getD 0) (Progress.capacity + 1)) 0

/-- The name of a program without the directory it is in. -/
def programName (word : String) : String :=
  match Text.after? "/bin/".toList word.toList, Text.after? "/usr/bin/".toList word.toList with
  | some name, _ => String.ofList name
  | none, some name => String.ofList name
  | none, none => word

/-- Runs a program that needs no shell; none if there is no such program. -/
def simpleProgram (files : FileTree) (o : Outputs) (p : Progress) (name : String)
    (args : List String) : Option Progress :=
  match name, args with
  | "true", _ => some (p.withStatus 0)
  | "false", _ => some (p.withStatus 1)
  | "echo", "-n" :: args => some ((p.write o.output (echoed false args)).withStatus 0)
  | "echo", args => some ((p.write o.output (echoed true args)).withStatus 0)
  | "printf", format :: args =>
    some ((p.write o.output (printed args.length format.toList args)).withStatus 0)
  | "test", args => some (p.withStatus (compareStatus files args))
  | "[", args => some (p.withStatus (compareStatus files args.dropLast))
  | "sleep", args =>
    match waitOf args with
    | some ms => some ({ p with waited := p.waited + ms }.withStatus 0)
    | none => some (p.withStatus 1)
  | "cat", [] => some (p.withStatus 0)
  | "head", ["-c", count, "/dev/zero"] => some ((p.write o.output (zeros count)).withStatus 0)
  | _, _ => none

end FaultDrill.Shell
