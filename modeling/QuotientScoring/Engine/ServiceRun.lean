import QuotientScoring.Engine.RunnerPanics
import QuotientScoring.Lib.Handover

/-! `Service.Run`, step by step.

`Service.run` says what a run results in when it is known how long the definition takes. Here
the definition, the timer and `Run` itself go on as they like: the definition sends its
result on a channel without a buffer and then does what it has deferred, and `Run`
receives it or returns when the timer has fired. That is a handover (`Runner.job`).

Every such run ends with one result on the channel `resultsChan`. But a definition that `Run`
no longer waits for never gets past its send, and what it has deferred is never done:
`service_run_clean_iff`. -/
namespace QuotientScoring.Checks
open DB GoText GoTime Attempts Transition Handover

/-! ### The results of a run -/

namespace Service
variable (service : Service) (teamID roundID : Nat)

def checkResult : Engine.Result where
  serviceName := service.name
  teamID := teamID
  status := false
  debug := []
  error := []
  points := service.points.toInt
  serviceType := service.serviceType
  roundID := roundID

/-- The one result a definition sends, unless it panics. -/
def response (definition : Attempted GoString) : Option Engine.Result :=
  match definition with
  | .ok debug => some {service.checkResult teamID roundID with status := true, debug := debug}
  | .error (.failed error debug) =>
    some {service.checkResult teamID roundID with error := error, debug := debug}
  | .error .panicked => none

/-- The result without a response. -/
def timedOut : Engine.Result :=
  {service.checkResult teamID roundID with error := str "check timeout exceeded"}

variable {service teamID roundID} {definition : Attempted GoString}

theorem run_eq {took : Int} :
    service.run teamID roundID definition took =
      if took < seconds service.timeout then service.response teamID roundID definition
      else some (service.timedOut teamID roundID) := rfl

theorem response_eq_none :
    service.response teamID roundID definition = none ↔ Panics definition := by
  unfold response
  split <;> simp

end Service

/-! ### What a definition defers -/

/-- What a definition has deferred, by what it closes. -/
inductive Cleanup where
  /-- The context of a command. -/
  | cancel
  /-- The directory `/tmp`. -/
  | closeRoot
  /-- The temporary file is closed and removed. -/
  | removeTmpfile (name : GoString)
  | closeTmpfileRead
  | closeConn
  | closeClient
  | quit
  | logout
  | logoff
  | umount
  | closeFile
  | closeWriter
  | closeDB
  | closeRows
  | closeSession
  | closeBody
deriving DecidableEq

/-- What is deferred behind a call, which is reached only if the call does not fail. -/
def behind {ε α : Type} (call : Except ε α) (rest : List Cleanup) : List Cleanup :=
  match call with
  | .ok _ => rest
  | .error _ => []

section
variable (pkg : Packages) (teamID roundID : Nat) (b : Behaviour)

def Custom.deferred (c : Custom) : List Cleanup :=
  let tmpfile := tmpfileName teamID roundID c.name b.unixNano
  behind (c.credsOr ⟨[], []⟩ b.credsDraw) <|
    .cancel :: behind b.openRoot (
      .closeRoot :: behind (pkg.call (.create tmpfile) b.create) (
        .removeTmpfile tmpfile :: behind b.openTmp [.closeTmpfileRead]))

def Ftp.deferred (c : Ftp) : List Cleanup :=
  behind (pkg.call (.dial false c.address (seconds c.timeout)) b.dial) <|
    .quit :: behind (c.credsOr ⟨str "anonymous", str "anonymous"⟩ b.credsDraw) (behind b.login (
      match pick c.file b.draw with
      | none => []
      | some _ => behind b.openFile [.closeFile]))

def Imap.deferred (c : Imap) : List Cleanup :=
  behind (pkg.call (.dial c.encrypted c.address (seconds c.timeout)) b.dial) <|
    .closeClient :: if c.credLists = [] then []
      else behind (c.someCreds b.credsDraw) (behind b.login [.logout])

def Ldap.deferred (c : Ldap) : List Cleanup :=
  behind (c.someCreds b.credsDraw) <|
    behind (pkg.call (.dialURL c.url (seconds c.timeout)) b.dial) [.closeConn]

def Pop3.deferred (c : Pop3) : List Cleanup :=
  behind (pkg.call (.newConn c.target c.port c.encrypted) b.dial) [.quit]

/-- The login is that of the credentials drawn. -/
def Smb.deferred (c : Smb) : List Cleanup :=
  match c.credsOr ⟨str "guest", []⟩ b.credsDraw with
  | .error _ => []
  | .ok cred =>
    behind (pkg.call (.dial false c.address 0) b.dial) <|
      .closeConn :: behind (pkg.call (.smbDial cred.username cred.password) b.login) (
        .logoff :: match pick c.file b.draw with
          | none => []
          | some file =>
            behind (pkg.call (.mount c.address c.share) b.mount) (
              .umount :: behind (pkg.call (.openFile file.name) b.openFile) [.closeFile]))

def Smtp.deferred (c : Smtp) : List Cleanup :=
  match c.someCreds b.credsDraw, c.someCreds b.toDraw with
  | .ok cred, .ok toCred =>
    behind (pkg.call (.dial c.encrypted c.address (seconds c.timeout)) b.dial) <|
      .closeConn :: behind b.client (
        .quit :: behind (c.logIn b (cred.username ++ c.domain) cred.password) (
          behind (validateLine (cred.username ++ c.domain) b.mail) (
            behind (validateLine (toCred.username ++ c.domain) b.rcpt) (
              behind b.data [.closeWriter]))))
  | _, _ => []

def Sql.deferred (c : Sql) : List Cleanup :=
  match c.someCreds b.credsDraw with
  | .error _ => []
  | .ok cred =>
    let q := (pick c.query b.draw).getD ⟨false, [], [], []⟩
    let dsn := c.dsn cred q
    behind (pkg.call (.openDB c.kind dsn) (.ok () : Answer Unit)) <|
      .closeDB :: behind (pkg.call (.pingDB c.kind dsn) b.login) (
        if q.command = [] then []
        else behind (pkg.call (.queryDB c.kind dsn q.command) b.query) [.closeRows])

/-- The connections of the bad attempts are closed at once. -/
def Ssh.deferred (c : Ssh) : List Cleanup :=
  behind (c.someCreds b.credsDraw) <|
    behind (c.signer pkg) <|
      behind (pkg.call (.dial false c.address (seconds c.timeout)) b.dial) <|
        .closeConn :: behind b.session [.closeSession]

def Vnc.deferred (c : Vnc) : List Cleanup :=
  behind (c.someCreds b.credsDraw) <|
    behind (pkg.call (.dial false c.address 0) b.dial) <|
      .closeConn :: behind b.client [.closeClient]

/-- The body of a response with another status than is wanted stays open. -/
def Web.deferred (c : Web) : List Cleanup :=
  match pick c.url b.draw with
  | none => []
  | some u =>
    match c.parsedURL pkg u with
    | .error _ => []
    | .ok url =>
      behind (pkg.call (.newRequest url.text) (.ok () : Answer Unit)) <|
        match pkg.call (.doRequest url.text (seconds c.timeout)) b.response with
        | .error _ => []
        | .ok resp =>
          if u.status = 0 ∨ resp.statusCode = u.status then [.closeBody] else []

namespace Runner

/-- What the definition of a check has deferred when it sends its result, the first first. -/
def deferred : Runner → List Cleanup
  | custom c => c.deferred pkg teamID roundID b
  | ftp c => c.deferred pkg b
  | imap c => c.deferred pkg b
  | ldap c => c.deferred pkg b
  | pop3 c => c.deferred pkg b
  | smb c => c.deferred pkg b
  | smtp c => c.deferred pkg b
  | sql c => c.deferred pkg b
  | ssh c => c.deferred pkg b
  | vnc c => c.deferred pkg b
  | web c => c.deferred pkg b
  | dns _ | ping _ | rdp _ | tcp _ | winRM _ => []

/-- `Run` and the goroutine of the definition it starts. -/
def job (compiles : Compiles) (teamIdentifier : GoString) (r : Runner) :
    Job Engine.Result Cleanup :=
  let r := r.atTarget teamIdentifier
  { result := r.service.response teamID roundID
      (r.definition compiles pkg teamID roundID teamIdentifier b)
    late := r.service.timedOut teamID roundID
    deferred := r.deferred pkg teamID roundID b }

end Runner

end

/-! ### Every schedule -/

/-- One result is put: that of the definition, or that of a check without a response. -/
def OneResult (job : Job Engine.Result Cleanup) (s : State Engine.Result Cleanup) : Prop :=
  ∃ result, s.put = [result] ∧
    (job.result = some result ∨ result = job.late ∧ result.status = false ∧
      result.error = str "check timeout exceeded")

/-- The definition has finished, and has done what it deferred. -/
def CleanedUp (job : Job Engine.Result Cleanup) (s : State Engine.Result Cleanup) : Prop :=
  s.worker = .finished ∧ s.cleaned = job.deferred.reverse

section
variable {compiles : Compiles} {pkg : Packages} {teamID roundID : Nat} {teamIdentifier : GoString}
variable {b : Behaviour} {r : Runner}

theorem job_result_ne_none : (r.job pkg teamID roundID b compiles teamIdentifier).result ≠ none ↔
    ¬Panics ((r.atTarget teamIdentifier).definition compiles pkg teamID roundID teamIdentifier b) :=
  not_congr Service.response_eq_none

theorem oneResult_of_put {s : State Engine.Result Cleanup}
    (h : ∃ result, s.put = [result] ∧
      ((r.job pkg teamID roundID b compiles teamIdentifier).result = some result ∨
        result = (r.job pkg teamID roundID b compiles teamIdentifier).late)) :
    OneResult (r.job pkg teamID roundID b compiles teamIdentifier) s := by
  obtain ⟨result, hput, hsome | rfl⟩ := h
  · exact ⟨result, hput, .inl hsome⟩
  · exact ⟨_, hput, .inr ⟨rfl, rfl, rfl⟩⟩

/-- What `Runner.run` results in is put by the schedule in which the timer fires when the time
is over. -/
theorem run_scheduled {result : Engine.Result}
    (h : r.run compiles pkg teamID roundID teamIdentifier b = some result) :
    ∃ actions s, Run (handover (r.job pkg teamID roundID b compiles teamIdentifier)) {} actions s ∧
      s.put = [result] := by
  unfold Runner.run at h
  rw [Service.run_eq] at h
  split at h
  · exact ⟨_, _, run_received h, rfl⟩
  · obtain rfl := Option.some.inj h
    exact ⟨_, _, run_late, rfl⟩

/-- However the definition, the timer and `Run` take turns, it is over after so many steps, and no
more than one result is put. When nothing can go on, one result is put unless the definition
panicked, and the definition has cleaned up exactly if it did not and the timer was not chosen. -/
theorem service_run_clean_iff {actions : List Handover.Action} {s : State Engine.Result Cleanup}
    (hrun : Run (handover (r.job pkg teamID roundID b compiles teamIdentifier)) {} actions s) :
    let job := r.job pkg teamID roundID b compiles teamIdentifier
    let definition :=
      (r.atTarget teamIdentifier).definition compiles pkg teamID roundID teamIdentifier b
    actions.length ≤ job.deferred.length + 6 ∧ (s.put = [] ∨ OneResult job s) ∧
      ((handover job).Stuck s → (¬Panics definition → OneResult job s) ∧
        (OneResult job s ∧ CleanedUp job s ↔ ¬Panics definition ∧ .giveUp ∉ actions)) := by
  intro job definition
  refine ⟨length_le hrun, ?_, fun hstuck => ?_⟩
  · rcases put_of_run hrun with hnone | hput
    · exact .inl hnone
    · exact .inr (oneResult_of_put hput)
  · have hone : ¬Panics definition → OneResult job s := fun hpanic =>
      oneResult_of_put (put_of_stuck hrun hstuck (job_result_ne_none.mpr hpanic))
    refine ⟨hone, ?_⟩
    rw [← job_result_ne_none, ← finished_iff hrun hstuck]
    exact and_iff_right_of_imp
      (fun hclean => hone (job_result_ne_none.mp ((finished_iff hrun hstuck).mp hclean).1))

end

/-! ### A custom check -/

/-- A custom check, which waits thirty seconds for its command. -/
def customCheck : Runner :=
  .custom
    { name := str "box-custom", display := str "custom", points := 1, timeout := 30
      target := str "10.0.0.1", serviceType := str "Custom", attempts := 1
      command := str "./check.sh TARGET" }

/-- The job of a custom check of team 1 in round 7, when all goes well. -/
def customJob : Job Engine.Result Cleanup :=
  customCheck.job Engine.plainPackages 1 7 {} (fun _ => true) (str "01")

theorem customJob_responds : customJob.result ≠ none := by
  decide +kernel

/-- `Run` receives the response, and the temporary file is removed. -/
theorem custom_cleaned_up : ∃ actions s, Run (handover customJob) {} actions s ∧
    OneResult customJob s ∧ CleanedUp customJob s ∧
    .removeTmpfile (str "custom-check-7-1-box-custom-0") ∈ s.cleaned := by
  obtain ⟨result, hresult⟩ := Option.ne_none_iff_exists'.mp customJob_responds
  obtain ⟨actions, s, hrun, hstuck, hnever, -⟩ := exists_run_received hresult
  obtain ⟨-, -, hend⟩ := service_run_clean_iff hrun
  obtain ⟨hone, hclean⟩ := (hend hstuck).2.mpr
    ⟨job_result_ne_none.mp customJob_responds, hnever⟩
  refine ⟨actions, s, hrun, hone, hclean, ?_⟩
  rw [hclean.2]
  decide +kernel

/-- The timer fires before the command ends: the response is not received, and the temporary file
stays where it is. -/
theorem custom_left_behind : ∃ actions s, Run (handover customJob) {} actions s ∧
    (handover customJob).Stuck s ∧ ¬CleanedUp customJob s ∧
    .removeTmpfile (str "custom-check-7-1-box-custom-0") ∈ customJob.deferred ∧
    s.cleaned = [] := by
  obtain ⟨result, hresult⟩ := Option.ne_none_iff_exists'.mp customJob_responds
  obtain ⟨actions, s, hrun, hstuck, -, hsending, hcleaned⟩ := exists_run_late hresult
  refine ⟨actions, s, hrun, hstuck, fun hclean => ?_, by decide +kernel, hcleaned⟩
  rw [CleanedUp, hsending] at hclean
  cases hclean.1

end QuotientScoring.Checks
