import FaultDrill.Proofs.Credentials.Precedence
import FaultDrill.Proofs.Text.Utf8
/-!
# The input of a script's run

The password for escalation and the script share one input: `sudo` takes the first line of it, and
the shell runs what follows. The two are told apart by a line end alone, so the shell runs the script
and nothing else exactly where no line end stands within the password (`runsBodyAlone_iff`). A
password of several lines is cut at the first: the shell runs the other lines before the script.
-/
namespace FaultDrill.Credentials
open Text

/-! ## Lines of bytes -/

/-- The byte of a line end. -/
def lineEnd : UInt8 := 0x0A

/-- The first line of an input up to and with its line end, and what follows it. -/
def splitLine : List UInt8 → List UInt8 × List UInt8
  | [] => ([], [])
  | b :: bs => if b = lineEnd then ([b], bs) else (b :: (splitLine bs).1, (splitLine bs).2)

theorem splitLine_append {line : List UInt8} (h : lineEnd ∉ line) (rest : List UInt8) :
    splitLine (line ++ lineEnd :: rest) = (line ++ [lineEnd], rest) := by
  induction line with
  | nil => rfl
  | cons b bs ih =>
    rw [List.mem_cons, not_or] at h
    rw [List.cons_append, splitLine, if_neg (Ne.symm h.1), ih h.2]
    rfl

theorem lineEnd_mem_encode {cs : List Char} : lineEnd ∈ Utf8.encode cs ↔ '\n' ∈ cs := by
  constructor
  · intro h
    exact Utf8.mem_of_mem_encode h rfl (by decide)
  · intro h
    exact List.mem_flatMap.mpr ⟨'\n', h, by decide⟩

/-! ## What a run is given -/

/-- The command of an escalation that takes its password from the input. -/
def sudoByInput : String := "sudo -S -p '' /bin/sh -s"

/-- What the shell of a command reads of an input. -/
def shellReads (command : String) (input : List UInt8) : List UInt8 :=
  if command = sudoByInput then (splitLine input).2 else input

/-- The shell runs the script and nothing else: an escalation by input finds the login's password on
the first line and the script behind it, and every other command finds the script. -/
def RunsBodyAlone (login : Login) (defaults : Defaults) (s : Script) : Prop :=
  let (command, input) := invocation (resolve login defaults) s
  (command = sudoByInput → ∃ p, login.password = some p ∧
    splitLine input = (Utf8.bytes p ++ [lineEnd], Utf8.bytes s.body)) ∧
  (command ≠ sudoByInput → input = Utf8.bytes s.body)

/-- A password that `sudo` is given: that of a user who is not the superuser. -/
structure GivesPassword (login : Login) (defaults : Defaults) (p : String) : Prop where
  escalates : (resolve login defaults).escalates = true
  password : login.password = some p
  nonempty : p ≠ ""

variable {login : Login} {defaults : Defaults} {p : String}

theorem invocation_of_gives (h : GivesPassword login defaults p) (s : Script) :
    invocation (resolve login defaults) s =
      (sudoByInput, Utf8.bytes p ++ lineEnd :: Utf8.bytes s.body) := by
  have hpassword : present login.password = some p :=
    present_eq_some_iff.mpr ⟨h.password, h.nonempty⟩
  rw [invocation, h.escalates, sudoPassword_resolve, hpassword]
  rfl

/-- Where `sudo` is given no password, or not called at all, the input is the script. -/
theorem invocation_of_gives_none (h : ∀ p, ¬ GivesPassword login defaults p) (s : Script) :
    (invocation (resolve login defaults) s).1 ≠ sudoByInput ∧
      (invocation (resolve login defaults) s).2 = Utf8.bytes s.body := by
  have hshell : "/bin/sh -s" ≠ sudoByInput := by decide
  have hsudo : "sudo -n /bin/sh -s" ≠ sudoByInput := by decide
  rw [invocation, sudoPassword_resolve]
  cases hescalates : (resolve login defaults).escalates with
  | false => exact ⟨hshell, rfl⟩
  | true =>
    cases hpassword : present login.password with
    | none => exact ⟨hsudo, rfl⟩
    | some p =>
      obtain ⟨hp, hne⟩ := present_eq_some_iff.mp hpassword
      exact absurd ⟨hescalates, hp, hne⟩ (h p)

/-! ## Passwords of one line and of several -/

/-- A password of one line is all that stands before the script. -/
theorem splitLine_password (h : '\n' ∉ p.toList) (body : List UInt8) :
    splitLine (Utf8.bytes p ++ lineEnd :: body) = (Utf8.bytes p ++ [lineEnd], body) :=
  splitLine_append (fun hmem => h (lineEnd_mem_encode.mp hmem)) body

/-- Of a password of several lines the first alone stands on the first line. -/
theorem splitLine_lines {line : List Char} (h : '\n' ∉ line) (rest : List Char)
    (body : List UInt8) :
    splitLine (Utf8.bytes (String.ofList (line ++ '\n' :: rest)) ++ lineEnd :: body) =
      (Utf8.encode line ++ [lineEnd], Utf8.encode rest ++ lineEnd :: body) := by
  have hbytes : Utf8.bytes (String.ofList (line ++ '\n' :: rest)) =
      Utf8.encode line ++ lineEnd :: Utf8.encode rest := by
    rw [Utf8.bytes, String.toList_ofList, Utf8.encode_append, Utf8.encode_cons]
    rfl
  rw [hbytes, List.append_assoc, List.cons_append]
  exact splitLine_append (fun hmem => h (lineEnd_mem_encode.mp hmem)) _

theorem splitLine_ne_of_mem (h : '\n' ∈ p.toList) (body body' : List UInt8) :
    splitLine (Utf8.bytes p ++ lineEnd :: body) ≠ (Utf8.bytes p ++ [lineEnd], body') := by
  obtain ⟨line, rest, hp, hline⟩ := List.eq_append_cons_of_mem h
  obtain rfl : p = String.ofList (line ++ '\n' :: rest) := by rw [← hp, String.ofList_toList]
  intro heq
  rw [splitLine_lines hline, Utf8.bytes, String.toList_ofList, Prod.mk.injEq] at heq
  have hsame := Utf8.encode_inj (List.append_inj_left' heq.1 rfl)
  have hlength := congrArg List.length hsame
  rw [List.length_append, List.length_cons] at hlength
  omega

theorem runsBodyAlone_of_gives (h : GivesPassword login defaults p) (s : Script) :
    RunsBodyAlone login defaults s ↔ '\n' ∉ p.toList := by
  rw [RunsBodyAlone, invocation_of_gives h]
  constructor
  · rintro ⟨hsudo, -⟩ hmem
    obtain ⟨q, hq, hsplit⟩ := hsudo rfl
    obtain rfl : p = q := Option.some.inj (h.password.symm.trans hq)
    exact splitLine_ne_of_mem hmem _ _ hsplit
  · intro hline
    exact ⟨fun _ => ⟨p, h.password, splitLine_password hline _⟩, fun hother => absurd rfl hother⟩

theorem runsBodyAlone_of_gives_none (h : ∀ p, ¬ GivesPassword login defaults p) (s : Script) :
    RunsBodyAlone login defaults s := by
  obtain ⟨hcommand, hinput⟩ := invocation_of_gives_none h s
  exact ⟨fun hsudo => absurd hsudo hcommand, fun _ => hinput⟩

/-- The shell runs the script alone exactly where no line end stands within the password that `sudo`
is given. Where one does, the shell runs what follows the first line of the password, and then the
script. -/
theorem runsBodyAlone_iff (login : Login) (defaults : Defaults) (s : Script) :
    (RunsBodyAlone login defaults s ↔
      ∀ p, GivesPassword login defaults p → '\n' ∉ p.toList) ∧
    ∀ line rest, '\n' ∉ line →
      GivesPassword login defaults (String.ofList (line ++ '\n' :: rest)) →
      shellReads (invocation (resolve login defaults) s).1
          (invocation (resolve login defaults) s).2 =
        Utf8.encode rest ++ lineEnd :: Utf8.bytes s.body := by
  constructor
  · constructor
    · intro halone p hp
      exact (runsBodyAlone_of_gives hp s).mp halone
    · intro hline
      by_cases hgives : ∃ p, GivesPassword login defaults p
      · obtain ⟨p, hp⟩ := hgives
        exact (runsBodyAlone_of_gives hp s).mpr (hline p hp)
      · exact runsBodyAlone_of_gives_none (not_exists.mp hgives) s
  · intro line rest hline hgives
    rw [invocation_of_gives hgives, shellReads, if_pos rfl, splitLine_lines hline]

/-! ## A password of two lines -/

/-- The login of a user with a password. -/
def scott (password : String) : Login := ⟨some "scott", some password, none, none⟩

/-- No defaults for logins. -/
def noDefaults : Defaults := ⟨none, none, none⟩

/-- A script that does nothing. -/
def idle : Script := ⟨"idle", "exit 0\n"⟩

theorem scott_gives {password : String} (h : password ≠ "") :
    GivesPassword (scott password) noDefaults password := by
  have hpassword : present (scott password).password = some password :=
    present_eq_some_iff.mpr ⟨rfl, h⟩
  refine ⟨?_, rfl, h⟩
  rw [resolve, hpassword]
  rfl

/-- With a password of one line the script runs alone; a second line runs before it. -/
theorem scott_runsBodyAlone :
    RunsBodyAlone (scott "tiger") noDefaults idle ∧
      shellReads (invocation (resolve (scott "tiger\nreboot") noDefaults) idle).1
          (invocation (resolve (scott "tiger\nreboot") noDefaults) idle).2 =
        Utf8.encode "reboot".toList ++ lineEnd :: Utf8.bytes idle.body := by
  refine ⟨(runsBodyAlone_iff _ _ _).1.mpr ?_, ?_⟩
  · intro p hp
    obtain rfl : "tiger" = p := Option.some.inj hp.password
    decide
  · exact (runsBodyAlone_iff _ _ _).2 "tiger".toList "reboot".toList (by decide)
      (scott_gives (by decide))

/-- The second line of a password is run by the shell of an enabled login. -/
theorem scott_runs_reboot :
    (resolve (scott "tiger\nreboot") noDefaults).isEnabled = true ∧
      invocation (resolve (scott "tiger\nreboot") noDefaults) idle =
        (sudoByInput, Utf8.bytes "tiger\nreboot\nexit 0\n") ∧
      shellReads sudoByInput (Utf8.bytes "tiger\nreboot\nexit 0\n") =
        Utf8.bytes "reboot\nexit 0\n" ∧
      ¬ RunsBodyAlone (scott "tiger\nreboot") noDefaults idle :=
  ⟨by decide, by decide, by decide,
    fun h => (runsBodyAlone_of_gives (scott_gives (by decide)) idle).mp h (by decide)⟩

end FaultDrill.Credentials
