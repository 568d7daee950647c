import FaultDrill.Catalog
import FaultDrill.Report.Style
import FaultDrill.Verdict
/-!
# Reports for people

Cycles, histories, catalogs and credentials as lines of text. Nothing here shows a secret.
-/
namespace FaultDrill.Report
open Style

/-- The text of a list of lines. -/
def unlines (lines : List String) : String := String.join (lines.map (· ++ "\n"))

/-- The two lines above a report: an empty one and the title. -/
def heading (color : Bool) (title : String) : List String :=
  ["", paint color (strong .cyan) ("=== " ++ title ++ " ===")]

/-! ## Cycles -/

/-- The style of a verdict. -/
def verdictStyle : Verdict → Style
  | .disrupted _ .succeeded => strong .red
  | .disrupted _ .skipped => plain .yellow
  | .disrupted _ .unsupported => plain .yellow
  | .disrupted _ .failed => plain .magenta
  | .disrupted _ .timedOut => plain .magenta
  | .leashed _ => plain .blue
  | .deadlineExceeded => plain .yellow
  | _ => faint

/-- The line of a group. -/
def groupLine (color : Bool) (g : GroupReport) : String :=
  "  " ++ paint color bright g.group ++ " [" ++ g.kind.display ++ "] (" ++ toString g.members ++
    " members): " ++ paint color (verdictStyle g.verdict) g.verdict.describe

/-- A length of time in seconds, with two places. -/
def seconds (ms : Int) : String :=
  ((Binary64.ofRatio (decide (ms < 0)) ms.natAbs 1).div (.ofNat 1000)).fixed 2

/-- The lines about the groups of a cycle. -/
def groupLines (color : Bool) (r : CycleReport) : List String :=
  if r.groups.isEmpty then [paint color (plain .yellow) "No instance groups found"]
  else
    let disrupted := r.disruptions.length
    [paint color (strong .yellow) "GROUPS"] ++ r.groups.map (groupLine color) ++ ["",
      if disrupted = 0 then paint color (plain .green) "No instances disrupted"
      else "  Disrupted: " ++ paint color (strong .red) (toString disrupted)]

/-- The report of a cycle. -/
def cycle (color : Bool) (r : CycleReport) : String :=
  unlines <| heading color "CHAOS-WARDEN CYCLE REPORT" ++ [
    "  Started: " ++ r.startedAt.message ++ "  Window start: " ++ r.windowStart.message,
    "  Duration: " ++ seconds (Instant.millisBetween r.startedAt r.finishedAt) ++ "s",
    ""] ++ groupLines color r

/-! ## Histories -/

/-- The style of an outcome. -/
def outcomeStyle : Outcome → Style
  | .succeeded => plain .green
  | .failed => plain .red
  | .timedOut => plain .red
  | .skipped => plain .yellow
  | .unsupported => plain .yellow

/-- The lines of an event: a second one for its detail. -/
def eventLines (color : Bool) (e : Event) : List String :=
  ("  " ++ paint color faint e.time.plain ++ " " ++
    paint color (outcomeStyle e.outcome) e.outcome.display ++ " " ++ paint color bright e.group ++
    "/" ++ e.instanceId ++ " via " ++ e.disruption) ::
  (e.detail.map fun d => "      " ++ paint color faint d).toList

/-- The report of a history. -/
def history (color : Bool) (events : List Event) : String :=
  unlines <| heading color "CHAOS EVENT HISTORY" ++
    if events.isEmpty then [paint color (plain .green) "No events recorded"]
    else events.flatMap (eventLines color) ++ ["  Total: " ++ toString events.length]

/-! ## Catalogs -/

/-- The line of a machine. -/
def machineLine (color : Bool) (m : Machine) : String :=
  "    - " ++ m.id ++ " " ++ m.endpoint ++ " user=" ++ m.username.getD "-" ++
    if m.keyPath.isSome then paint color faint " key" else ""

/-- The lines of a group of a catalog. -/
def memberLines (color : Bool) (s : Catalog.Snapshot) (g : Group) : List String :=
  ("  " ++ paint color bright g.name ++ " (" ++ toString g.members.length ++ " instances)") ::
  g.members.map fun id =>
    match s.machine? id with
    | some m => machineLine color m
    | none => "    - " ++ id

/-- The report of a catalog. -/
def catalog (color : Bool) (source : Catalog.Source) (s : Catalog.Snapshot) : String :=
  unlines <| heading color "INSTANCE CATALOG" ++ ["  Source: " ++ source.display] ++
    if s.groups.isEmpty then [paint color (plain .yellow) "No instance groups found"]
    else s.groups.flatMap (memberLines color s)

/-! ## Credentials -/

/-- What proves the identity, and the style it is shown in. -/
def authText : Auth → Style × String
  | .none => (plain .red, "none (disabled)")
  | .password _ => (plain .green, "password")
  | .key _ (some _) => (plain .green, "private key (passphrase set)")
  | .key _ none => (plain .green, "private key")

/-- The report of an instance's credentials. -/
def credentials (color : Bool) (id : String) (c : Credentials) : String :=
  let (style, auth) := authText c.auth
  unlines <| heading color "RESOLVED CREDENTIALS" ++ [
    "  Instance: " ++ paint color bright id,
    "  User: " ++ c.username,
    "  Auth: " ++ paint color style auth,
    "  Login password: " ++ if c.loginPassword.isSome then "known" else "none",
    "  Sudo: " ++ toString c.escalates ++ if c.sudoPassword.isSome then " (password known)" else ""]

end FaultDrill.Report
