import QuotientScoring.Engine.DeadChecks

/-! How the output of a command is judged over SSH, and over WinRM.

The same command can be given to either kind of check, with the output it is to have:
an exact one or, with `UseRegex`, a pattern. A WinRM check compares the output as it is
told (`winRM_reportsPass_iff`). An SSH check looks for a pattern, or for the text it is
to contain, but an exact output it never looks at, so the two agree on an output only
where it is the right one: `judgedAlike_iff`. -/
namespace QuotientScoring.Checks
open DB GoText GoTime Replace Attempts

/-- The command of an SSH check, for a WinRM check. -/
def CommandData.forWinRM (r : CommandData) : WinCommandData := ⟨r.useRegex, r.command, r.output⟩

/-- The check as `Service.Run` has it, with the team's identifier in the target. -/
def Ssh.atTarget (teamIdentifier : GoString) (c : Ssh) : Ssh :=
  {c with target := replaceAll (str "_") teamIdentifier c.target}

def WinRM.atTarget (teamIdentifier : GoString) (c : WinRM) : WinRM :=
  {c with target := replaceAll (str "_") teamIdentifier c.target}

variable (compiles : Compiles) (pkg : Packages) (teamID roundID : Nat) (teamIdentifier : GoString)

/-- The check logs in and runs the command, which has nothing to say on its error stream, and
there is time left. -/
structure Ssh.Receives (c : Ssh) (b : Behaviour) (r : CommandData) : Prop where
  drawn : pick c.command b.draw = some r
  loggedIn : Passes (c.connect pkg b)
  silent : b.stderr = []
  inTime : c.waits pkg b + b.took < seconds c.timeout

structure WinRM.Receives (c : WinRM) (b : Behaviour) (r : WinCommandData) : Prop where
  drawn : pick c.command b.draw = some r
  supplied : Passes (c.someCreds b.credsDraw)
  loggedIn : pkg.call (.newClient c.target c.port c.encrypted (seconds c.timeout)) b.client = .ok ()
  ran : pkg.call (.runShell c.target c.port c.encrypted r.command) b.runShell = .ok ()
  silent : b.stderr = []
  inTime : b.took < seconds c.timeout

/-- An output that is as it should be: it matches the pattern or, trimmed, it is the text. -/
def CommandData.Accepts (r : CommandData) (stdout : GoString) : Prop :=
  if r.useRegex then compiles r.output = true ∧ pkg.isMatch r.output stdout = true
  else trimSpace stdout = r.output

/-- A command that is to contain a text passes exactly if it does, and for any other the SSH check
passes exactly if the output is accepted, as does every WinRM check that receives it. -/
def JudgedAlike (c : Ssh) (b : Behaviour) (r : CommandData) : Prop :=
  if r.contains then
    ((Runner.ssh c).ReportsPass compiles pkg teamID roundID teamIdentifier b ↔
      r.output <:+: b.stdout)
  else
    ((Runner.ssh c).ReportsPass compiles pkg teamID roundID teamIdentifier b ↔
      r.Accepts compiles pkg b.stdout) ∧
    ∀ (w : WinRM) (seen : Behaviour), (w.atTarget teamIdentifier).Receives pkg seen r.forWinRM →
      seen.stdout = b.stdout →
      ((Runner.winRM w).ReportsPass compiles pkg teamID roundID teamIdentifier seen ↔
        r.Accepts compiles pkg b.stdout)

variable {compiles pkg teamID roundID teamIdentifier}

/-- What an SSH check makes of the output it receives. -/
theorem ssh_reportsPass_iff {c : Ssh} {b : Behaviour} {r : CommandData}
    (h : (c.atTarget teamIdentifier).Receives pkg b r) :
    (Runner.ssh c).ReportsPass compiles pkg teamID roundID teamIdentifier b ↔
      r.test compiles pkg b = .ok () := by
  have hintime : ((Runner.ssh c).atTarget teamIdentifier).waits pkg b + b.took <
      seconds (Runner.ssh c).service.timeout := h.inTime
  obtain ⟨cred, hcred⟩ := h.loggedIn
  rw [Runner.reportsPass_iff, and_iff_right hintime]
  show Passes ((c.atTarget teamIdentifier).definition compiles pkg b) ↔ _
  rw [Ssh.definition, hcred, h.drawn]
  simp

/-- The three ways an SSH check tests an output, one of which does not look at it. -/
theorem CommandData.test_eq_ok_iff {b : Behaviour} {r : CommandData} (hsilent : b.stderr = []) :
    r.test compiles pkg b = .ok () ↔
      if r.contains then r.output <:+: b.stdout
      else
        r.useRegex = true → compiles r.output = true ∧ pkg.isMatch r.output b.stdout = true := by
  unfold CommandData.test
  split
  · exact require_eq_ok
  · split
    · rename_i hregex
      simp [bind_eq_ok, hregex]
    · rename_i hexact
      simp [hsilent, hexact]

/-- A WinRM check with an output to look for accepts what it should. -/
theorem winRM_reportsPass_iff {c : WinRM} {b : Behaviour} {r : CommandData}
    (h : (c.atTarget teamIdentifier).Receives pkg b r.forWinRM) (houtput : r.output ≠ []) :
    (Runner.winRM c).ReportsPass compiles pkg teamID roundID teamIdentifier b ↔
      r.Accepts compiles pkg b.stdout := by
  obtain ⟨cred, hcred⟩ := h.supplied
  have hpasses : Passes ((c.atTarget teamIdentifier).definition compiles pkg b) ↔
      r.forWinRM.test compiles pkg b = .ok () := by
    rw [WinRM.definition, hcred, h.drawn]
    simp only [passes_bind, exists_unit, Except.ok.injEq, exists_eq_left', orFail_eq_ok,
      require_eq_ok, h.loggedIn, h.ran, h.silent, true_and, passes_ok, and_true]
  rw [Runner.reportsPass_iff_passes (r := .winRM c) rfl h.inTime]
  exact hpasses.trans (WinCommandData.test_eq_ok.trans (or_iff_right houtput))

/-- Where a command has an output to look for, it is judged as it should be exactly if the SSH check
is told to look for a part of it or a pattern, or the output is the right one. -/
theorem judgedAlike_iff {c : Ssh} {b : Behaviour} {r : CommandData}
    (h : (c.atTarget teamIdentifier).Receives pkg b r) (houtput : r.output ≠ []) :
    JudgedAlike compiles pkg teamID roundID teamIdentifier c b r ↔
      r.contains = true ∨ r.useRegex = true ∨ trimSpace b.stdout = r.output := by
  have hwinRM : ∀ (w : WinRM) (seen : Behaviour),
      (w.atTarget teamIdentifier).Receives pkg seen r.forWinRM → seen.stdout = b.stdout →
      ((Runner.winRM w).ReportsPass compiles pkg teamID roundID teamIdentifier seen ↔
        r.Accepts compiles pkg b.stdout) := by
    intro w seen hseen hstdout
    rw [← hstdout]
    exact winRM_reportsPass_iff hseen houtput
  rw [JudgedAlike, ssh_reportsPass_iff h, CommandData.test_eq_ok_iff h.silent,
    and_iff_left hwinRM]
  cases hcontains : r.contains with
  | true => simp
  | false =>
    unfold CommandData.Accepts
    cases hregex : r.useRegex with
    | true => simp
    | false => simp

/-! ### A web server that is down -/

/-- The state of the web server is to be `active`. -/
def activeCommand : CommandData :=
  { useRegex := false, contains := false, command := str "systemctl is-active nginx"
    output := str "active" }

def activeCheck : Ssh :=
  { name := str "box-ssh", display := str "ssh", credLists := [str "users.credlist"], port := 22
    points := 1, timeout := 30, slaPenalty := 5, slaThreshold := 5, target := str "10.100.1_.2"
    serviceType := str "Ssh", attempts := 1, taskCredentials := [⟨str "alice", str "secret"⟩]
    command := [activeCommand] }

theorem active_receives (stdout : GoString) :
    (activeCheck.atTarget (str "01")).Receives Engine.plainPackages {stdout := stdout}
      activeCommand where
  drawn := rfl
  loggedIn := ⟨⟨str "alice", str "secret"⟩, rfl⟩
  silent := rfl
  inTime := by
    show max (seconds 30) 0 / 8 + ((0 : Nat) : Int) < seconds 30
    decide

theorem judged_active :
    JudgedAlike (fun _ => true) Engine.plainPackages 1 7 (str "01") activeCheck
      {stdout := str "active\n"} activeCommand :=
  (judgedAlike_iff (active_receives _) (by decide +kernel)).mpr
    (.inr (.inr (by decide +kernel)))

/-- The SSH check passes although the server answers that it is not. -/
theorem inactive_passed :
    ¬ JudgedAlike (fun _ => true) Engine.plainPackages 1 7 (str "01") activeCheck
      {stdout := str "inactive\n"} activeCommand := by
  intro hjudged
  have hpasses : (Runner.ssh activeCheck).ReportsPass (fun _ => true) Engine.plainPackages 1 7
      (str "01") {stdout := str "inactive\n"} :=
    (ssh_reportsPass_iff (active_receives _)).mpr rfl
  have haccepts : trimSpace (str "inactive\n") = str "active" := hjudged.1.mp hpasses
  exact absurd haccepts (by decide +kernel)

end QuotientScoring.Checks
