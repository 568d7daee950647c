import FaultDrill.Client
import FaultDrill.FileTree
import FaultDrill.Shell.Program
/-!
# Commands of a provider

A provider's command is a program with arguments: one that needs nothing but its arguments and a
look at the files, or the shell with a script made of such commands. Any other program counts as
missing; a file can never be run.
-/
namespace FaultDrill.Shell

/-- What a command leads to. -/
inductive Next where
  | goOn (p : Progress)
  /-- The program ends, with a status unless it was killed. -/
  | halt (status : Option Nat) (p : Progress)
  deriving Repr

/-- The parameters of a script: its name and its arguments. -/
abbrev Parameters := List String

/-- The word that stands for the shell's own process. -/
def ownProcess : String := "$$"

/-- The value of a parameter. -/
def valueOf (parameters : Parameters) (status : Nat) (name : Char) : String :=
  match name with
  | '$' => ownProcess
  | '?' => toString status
  | '#' => toString (parameters.length - 1)
  | '@' => " ".intercalate parameters.tail
  | '*' => " ".intercalate parameters.tail
  | d => (parameters[d.toNat - '0'.toNat]?).getD ""

/-- A text split at blanks. -/
def fields (s : String) : List (List Char) :=
  (s.toList.splitBy fun a b => Text.isBlank a == Text.isBlank b).filter fun run =>
    !run.any Text.isBlank

/-- The words that a word becomes. The pending word is none until something has to stand in it. -/
def expand (value : Char → String) : (pending : Option (List Char)) → List Part → List String
  | pending, [] => (pending.map String.ofList).toList
  | pending, .plain cs :: more => expand value (some (pending.getD [] ++ cs)) more
  | pending, .parameter true name :: more =>
    expand value (some (pending.getD [] ++ (value name).toList)) more
  | pending, .parameter false name :: more =>
    match (fields (value name)).reverse with
    | [] => expand value pending more
    | [one] => expand value (some (pending.getD [] ++ one)) more
    | last :: before =>
      match before.reverse with
      | [] => expand value (some last) more
      | first :: middle =>
        String.ofList (pending.getD [] ++ first) :: middle.map String.ofList ++
          expand value (some last) more

/-- Ends the program with the status it has. -/
def Progress.halt (p : Progress) : Next := .halt (some p.status) p

/-- The message about a command that the shell does not find. -/
def notFound (parameters : Parameters) (name : String) : List UInt8 :=
  Text.Utf8.bytes (parameters.headD "sh" ++ ": 1: " ++ name ++ ": not found\n")

/-- The ways to ask for a signal that ends a process. -/
def killings : List (List String) :=
  [[], ["-9"], ["-KILL"], ["-s", "KILL"], ["-15"], ["-TERM"], ["-s", "TERM"]]

mutual

/-- Runs the commands of a script one after the other. -/
def runCommands (files : FileTree) (depth : Nat) (parameters : Parameters) :
    List Command → Progress → Next
  | [], p => p.halt
  | c :: more, p =>
    let skipped := match c.link with
      | .always => false
      | .ifSucceeded => p.status != 0
      | .ifFailed => p.status == 0
    if skipped then runCommands files depth parameters more p
    else
      let words := c.words.flatMap (expand (valueOf parameters p.status) none)
      match runWords files depth parameters (redirected c.redirects) words p with
      | .goOn p => runCommands files depth parameters more p
      | stop => stop
termination_by cs => (depth, 1, cs.length)

/-- Runs one command of a script, as deep as the bound allows. -/
def runWords (files : FileTree) (depth : Nat) (parameters : Parameters) (o : Outputs)
    (words : List String) (p : Progress) : Next :=
  match words with
  | [] => .goOn (p.withStatus 0)
  | ":" :: _ => .goOn (p.withStatus 0)
  | ["exit"] => p.halt
  | "exit" :: status :: _ => .halt (some ((status.toNat?.getD 2) % 256)) p
  | "kill" :: args =>
    if killings.contains args.dropLast && args.getLast? == some ownProcess then .halt none p
    else .goOn (p.withStatus 1)
  | "exec" :: name :: args =>
    match simpleProgram files o p (programName name) args with
    | some p => p.halt
    | none => .halt (some 127) (p.write o.diagnostics (notFound parameters name))
  | name :: args =>
    match simpleProgram files o p (programName name) args with
    | some p => .goOn p
    | none =>
      match depth, programName name, args with
      | depth + 1, "sh", "-c" :: script :: inner =>
        let parameters := if inner.isEmpty then ["sh"] else inner
        match runCommands files depth parameters (commands script) p with
        | .halt status p => .goOn (p.withStatus (status.getD 137))
        | .goOn p => .goOn p
      | _, _, _ => .goOn ((p.write o.diagnostics (notFound parameters name)).withStatus 127)
termination_by (depth, 0, 0)

end

/-- How deep shells may stand in shells. -/
def maxDepth : Nat := 16

/-- Why a program that is not known here cannot be started. A name with a slash is a path. -/
def refusal (files : FileTree) (name : String) : String :=
  if name = "." || name = ".." then FileTree.Fault.denied.message
  else if name.toList.contains '/' then
    match files.find name with
    | .ok _ => FileTree.Fault.denied.message
    | .error why => why.message
  else FileTree.Fault.notFound.message

/-- Runs a program to its end; a fault if it cannot be started. -/
def runProgram (files : FileTree) : List String → Except String Next
  | [] => .error "empty command"
  | name :: args =>
    if (name :: args).any fun word => word.toList.contains '\x00' then
      .error "nul byte found in provided data"
    else match simpleProgram files (redirected []) .start (programName name) args with
      | some p => .ok p.halt
      | none =>
        match programName name, args with
        | "sh", "-c" :: script :: inner =>
          .ok (runCommands files maxDepth (if inner.isEmpty then ["sh"] else inner) (commands script)
            .start)
        | _, _ => .error (refusal files name)

/-- How often a running program is looked at, in milliseconds. -/
def interval : Nat := 20

/-- Whether a program that waits as long as given is stopped: it is looked at when it starts and
once in every interval, and stopped when it is still running at the first look at or after the
limit. -/
def isStopped (waited : Nat) (limit : Span) : Bool :=
  if limit.millis = 0 then true
  else decide ((limit.millis + interval - 1) / interval * interval ≤ waited)

/-- How a command ends. -/
def run (files : FileTree) (command : List String) (limit : Span) : CommandEnd :=
  match runProgram files command with
  | .error reason => .notStarted reason
  | .ok next =>
    let (status, p) := match next with
      | .halt status p => (status, p)
      | .goOn p => (some p.status, p)
    if p.isBlocked || isStopped p.waited limit then .timedOut
    else .ended (status.map fun n => (n : Int)) p.diagnostics

/-- Runs commands where the state has these files; the state does not change. -/
def runner (files : σ → FileTree) : CommandRunner σ := fun command limit s =>
  (run (files s) command limit, s)

end FaultDrill.Shell
