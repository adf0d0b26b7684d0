import QuotientScoring.Engine.PassingRuns
import QuotientScoring.Engine.Enqueue

/-! Checks that can never pass.

`Verify` asks for little of what a check needs to pass: most of it comes to light only
in a run, round after round. `can_pass_iff`: a check of an accepted configuration has
a behaviour of the target that makes it pass exactly if it `CanPass`, which is said
of its settings and the team's credentials alone. -/
namespace QuotientScoring.Checks
open DB GoText GoTime Replace Attempts

/-! ### Any check -/

namespace Runner
variable (compiles : Compiles) (pkg : Packages) (teamID roundID : Nat) (teamIdentifier : GoString)

/-- What a check needs to be able to pass. -/
def CanPass (r : Runner) : Prop :=
  0 < seconds r.service.timeout ∧
  match r with
  | custom c => c.CanPass compiles pkg teamID roundID teamIdentifier
  | dns c => c.CanPass pkg teamIdentifier
  | ftp c => c.CanPass compiles pkg
  | imap c => c.CanPass pkg
  | ldap c => c.CanPass pkg
  | ping c => c.CanPass pkg
  | pop3 c => c.CanPass pkg
  | rdp c => c.CanPass pkg
  | smb c => c.CanPass compiles pkg
  | smtp c => c.CanPass pkg
  | sql c => c.CanPass compiles pkg
  | ssh c => c.CanPass compiles pkg
  | tcp c => c.CanPass pkg
  | vnc c => c.CanPass pkg
  | web c => c.CanPass compiles pkg
  | winRM c => c.CanPass compiles pkg

/-- A result comes of the run, and it is a pass. -/
def ReportsPass (r : Runner) (b : Behaviour) : Prop :=
  ∃ result, r.run compiles pkg teamID roundID teamIdentifier b = some result ∧ result.status = true

variable {compiles pkg teamID roundID teamIdentifier}

/-- A run reports a pass exactly if its definition passes before the timer. -/
theorem run_passes {service : Service} {definition : Attempted GoString} {took : Int} :
    (∃ result, service.run teamID roundID definition took = some result ∧ result.status = true) ↔
      took < seconds service.timeout ∧ Passes definition := by
  unfold Service.run
  dsimp only
  split
  · rename_i hintime
    cases definition with
    | ok debug => simp [hintime]
    | error stop => cases stop <;> simp
  · rename_i hlate
    simp [hlate]

/-- A definition that waits less than there is time for. -/
theorem exists_in_time {definition : Behaviour → Attempted GoString} {needs : Prop}
    (h : PassesWhen definition needs) {waits : Behaviour → Int} {timeout : Int}
    (hwaits : ∀ b, 0 ≤ waits b ∧ (0 < timeout → waits b < timeout)) :
    (∃ b, waits b + b.took < timeout ∧ Passes (definition b)) ↔ 0 < timeout ∧ needs := by
  constructor
  · intro ⟨b, hintime, hpasses⟩
    have hnonneg := (hwaits b).1
    exact ⟨by omega, h.needed b hpasses⟩
  · intro ⟨hpos, hneeds⟩
    obtain ⟨b, htook, hpasses⟩ := h.enough hneeds
    have hlt := (hwaits b).2 hpos
    exact ⟨b, by omega, hpasses⟩

theorem ssh_waits (c : Ssh) (b : Behaviour) : 0 ≤ c.waits pkg b ∧
    (0 < seconds c.timeout → c.waits pkg b < seconds c.timeout) := by
  unfold Ssh.waits
  split
  · exact ⟨by omega, id⟩
  · split
    · exact ⟨by omega, id⟩
    · omega

/-- What acceptance promises a ping check. -/
def Counted (r : Runner) : Prop := ∀ c, r = ping c → c.count ≠ 0

theorem exists_definition_passes {r : Runner} (hsupplied : r.service.Supplied) (hcount : r.Counted) :
    (∃ b : Behaviour, r.waits pkg b + b.took < seconds r.service.timeout ∧
      Passes (r.definition compiles pkg teamID roundID teamIdentifier b)) ↔
      r.CanPass compiles pkg teamID roundID teamIdentifier := by
  have hnone : ∀ (timeout : Int) (b : Behaviour), (0 : Int) ≤ 0 ∧ (0 < timeout → 0 < timeout) :=
    fun _ _ => ⟨le_refl 0, id⟩
  cases r with
  | custom c => exact exists_in_time (custom_passesWhen c) (hnone _)
  | dns c => exact exists_in_time (dns_passesWhen c) (hnone _)
  | ftp c => exact exists_in_time (ftp_passesWhen hsupplied) (hnone _)
  | imap c => exact exists_in_time (imap_passesWhen hsupplied) (hnone _)
  | ldap c => exact exists_in_time (ldap_passesWhen c) (hnone _)
  | ping c => exact ping_in_time (hcount c rfl)
  | pop3 c => exact exists_in_time (pop3_passesWhen hsupplied) (hnone _)
  | rdp c => exact exists_in_time (rdp_passesWhen c) (hnone _)
  | smb c => exact exists_in_time (smb_passesWhen c) (hnone _)
  | smtp c => exact exists_in_time (smtp_passesWhen c) (hnone _)
  | sql c => exact exists_in_time (sql_passesWhen c) (hnone _)
  | ssh c => exact exists_in_time (ssh_passesWhen hsupplied) (ssh_waits c)
  | tcp c => exact exists_in_time (tcp_passesWhen c) (hnone _)
  | vnc c => exact exists_in_time (vnc_passesWhen hsupplied) (hnone _)
  | web c => exact exists_in_time (web_passesWhen c) (hnone _)
  | winRM c => exact exists_in_time (winRM_passesWhen hsupplied) (hnone _)

theorem service_atTarget (r : Runner) : (r.atTarget teamIdentifier).service =
    {r.service with target := replaceAll (str "_") teamIdentifier r.service.target} :=
  service_withService _ _

theorem reportsPass_iff {r : Runner} {b : Behaviour} :
    r.ReportsPass compiles pkg teamID roundID teamIdentifier b ↔
      (r.atTarget teamIdentifier).waits pkg b + b.took < seconds r.service.timeout ∧
        Passes ((r.atTarget teamIdentifier).definition compiles pkg teamID roundID teamIdentifier
          b) := by
  have htimeout : (r.atTarget teamIdentifier).service.timeout = r.service.timeout := by
    rw [service_atTarget]
  rw [← htimeout]
  exact run_passes

/-- Of a kind that waits for nothing but its answers. -/
theorem reportsPass_iff_passes {r : Runner} {b : Behaviour}
    (hwaits : (r.atTarget teamIdentifier).waits pkg b = 0)
    (hintime : b.took < seconds r.service.timeout) :
    r.ReportsPass compiles pkg teamID roundID teamIdentifier b ↔
      Passes ((r.atTarget teamIdentifier).definition compiles pkg teamID roundID teamIdentifier
        b) := by
  rw [reportsPass_iff, hwaits, zero_add, and_iff_right hintime]

theorem Counted.withService {r : Runner} (h : r.Counted) (service : Service) :
    (r.withService service).Counted := by
  intro c heq
  cases r with
  | ping c' =>
    obtain rfl := ping.inj heq
    exact h c' rfl
  | _ => cases heq

/-- A run that some behaviour makes pass, of a check with the credentials it is to have. -/
theorem exists_run_passes {r : Runner} (hsupplied : r.service.Supplied) (hcount : r.Counted) :
    (∃ (b : Behaviour) (result : Engine.Result),
      r.run compiles pkg teamID roundID teamIdentifier b = some result ∧ result.status = true) ↔
      (r.atTarget teamIdentifier).CanPass compiles pkg teamID roundID teamIdentifier := by
  have htarget : (r.atTarget teamIdentifier).service.Supplied := by
    rw [service_atTarget]
    exact hsupplied
  rw [← exists_definition_passes htarget (hcount.withService _)]
  exact exists_congr (fun b => run_passes)

/-- The kinds that fetch credentials whether there are credlists or not. -/
def needsCreds : Runner → Bool
  | ldap _ | smtp _ | sql _ | ssh _ | vnc _ | winRM _ => true
  | _ => false

theorem needsCreds_passes {r : Runner} (hneeds : r.needsCreds = true) {b : Behaviour}
    (h : Passes (r.definition compiles pkg teamID roundID teamIdentifier b)) :
    r.service.taskCredentials ≠ [] := by
  cases r with
  | ldap c | smtp c | sql c | vnc c | winRM c => exact Service.taskCredentials_of_passes h
  | ssh c =>
    obtain ⟨cred, hconnect, -⟩ := passes_bind.mp h
    exact Service.taskCredentials_of_passes ⟨cred, hconnect⟩
  | _ => cases hneeds

/-- Without credentials such a check fails, whatever the target does. -/
theorem fails_without_creds {r : Runner} (hneeds : r.needsCreds = true)
    (hnone : r.service.taskCredentials = []) (b : Behaviour) :
    ∀ result ∈ r.run compiles pkg teamID roundID teamIdentifier b, result.status = false := by
  intro result hresult
  by_contra hstatus
  obtain ⟨-, hpasses⟩ := run_passes.mp ⟨result, hresult, Bool.eq_true_of_not_eq_false hstatus⟩
  have hneeds' : (r.atTarget teamIdentifier).needsCreds = true := by
    cases r <;> first | rfl | cases hneeds
  apply needsCreds_passes hneeds' hpasses
  rw [service_atTarget]
  exact hnone

end Runner

end QuotientScoring.Checks

namespace QuotientScoring.Engine
open DB GoText Checks Config

/-- The credentials of a team's task, as the runner hands them on. -/
def handedCredentials (around : Surroundings) (team : TeamSchema) (check : Runner) :
    List TaskCredential :=
  (taskCredentials around team check).map (fun cred => ⟨cred.username, cred.password⟩)

/-- The check a runner runs for a team. -/
def taskRunner (around : Surroundings) (team : TeamSchema) (check : Runner) : Runner :=
  check.setTaskCredentials (handedCredentials around team check)

/-- Every credlist of the check is seeded for the team, and not empty. -/
def Seeded (around : Surroundings) (team : TeamSchema) (check : Runner) : Prop :=
  ∀ list ∈ check.service.credLists, ∃ creds,
    around.getTeamCredentials team.id list = some creds ∧ creds ≠ []

/-- Credentials come with a task: a file has no key for them. -/
def NoTaskCredentials (raw : ConfigSettings) : Prop :=
  ∀ r ∈ raw.written, r.service.taskCredentials = []

section
variable {around : Surroundings} {team : TeamSchema} {check : Runner}

theorem Seeded.taskCredentials_eq_nil (h : Seeded around team check) :
    taskCredentials around team check = [] ↔ check.service.credLists = [] := by
  constructor
  · intro hnone
    rw [taskCredentials, List.flatMap_eq_nil_iff] at hnone
    apply List.eq_nil_iff_forall_not_mem.mpr
    intro list hlist
    obtain ⟨creds, hcreds, hne⟩ := h list hlist
    have hempty := hnone list hlist
    rw [hcreds] at hempty
    exact hne hempty
  · intro hlists
    rw [taskCredentials, hlists]
    rfl

theorem service_taskRunner (hnone : check.service.taskCredentials = []) :
    (taskRunner around team check).service =
      {check.service with taskCredentials := handedCredentials around team check} := by
  unfold taskRunner Runner.setTaskCredentials
  split
  · rename_i hempty
    rw [hempty, ← hnone]
  · exact Runner.service_withService _ _

theorem Seeded.supplied (h : Seeded around team check) (hnone : check.service.taskCredentials = []) :
    (taskRunner around team check).service.Supplied := by
  rw [service_taskRunner hnone]
  exact List.map_eq_nil_iff.trans h.taskCredentials_eq_nil

end

/-- `Verify` fills in the count of a ping check. -/
theorem counted_of_checked {env : Environment} {args : VerifyArgs} {raw check : Runner}
    (h : Checked env args raw check) : check.Counted := by
  obtain ⟨verified, hverify, lists, rfl⟩ := h
  apply Runner.Counted.withService
  intro c heq
  have htype := (Runner.verify_service hverify).1
  rw [heq] at htype
  cases raw with
  | ping c' =>
    have hverified := congrArg Prod.fst (Option.some.inj hverify)
    rw [heq] at hverified
    obtain rfl := Runner.ping.inj hverified
    dsimp only
    split
    · decide
    · assumption
  | _ => simp [Runner.typeName] at htype

/-- For every check of an accepted configuration, and every team whose credlists for it are
seeded and not empty: some behaviour of the target makes the check pass exactly if it
can pass by its settings and credentials. -/
theorem can_pass_iff {env : Environment} {raw conf : ConfigSettings} (h : Accepts env raw conf)
    (hfile : NoTaskCredentials raw) {check : Runner} (hcheck : check ∈ conf.allChecks)
    {around : Surroundings} {team : TeamSchema} (hseeded : Seeded around team check)
    (pkg : Packages) (roundID : Nat) :
    (∃ (b : Behaviour) (result : Result), (taskRunner around team check).run env.compiles pkg team.id
      roundID team.identifier b = some result ∧ result.status = true) ↔
      ((taskRunner around team check).atTarget team.identifier).CanPass env.compiles pkg team.id
        roundID team.identifier := by
  obtain ⟨r, hr, box, hchecked⟩ := h.accepted.exists_written hcheck
  have hnone : check.service.taskCredentials = [] := by
    obtain ⟨name, display, port, lists, hservice⟩ := hchecked.service
    rw [hservice]
    exact hfile r hr
  have hcounted : (taskRunner around team check).Counted := by
    unfold taskRunner Runner.setTaskCredentials
    split
    · exact counted_of_checked hchecked
    · exact (counted_of_checked hchecked).withService _
  exact Runner.exists_run_passes (hseeded.supplied hnone) hcounted

/-! ### A file with a credlist, and one without -/

/-- Packages that refuse no address, with a regular expression of letters only read as it is. -/
def plainPackages : Packages where
  refuses
    | .newPinger [] => some (str "addr cannot be empty")
    | _ => none
  regexpError _ := []
  isMatch pattern text := pattern <:+: text
  sha256 _ := List.replicate 32 0
  fqdn s := if [46] <:+ s then s else s ++ [46]
  parseURL _ := none
  readFile _ := .error (str "no such file or directory")
  parsePrivateKey _ := .error (str "ssh: no key found")
  quoting := shellQuoting
  sprintf _ _ := []
  duration _ := []
  pings := 5

/-- An FTP check that logs in with the users of a credlist and reads a note. -/
def noteFile : ConfigSettings :=
  { smallFile {} {ftp := [{credLists := [str "users"], file := [⟨str "note", [], str "hello"⟩]}]} with
    credlistSettings := [{credlistName := str "users", credlistPath := str "users.credlist"}] }

def noteCheck : Runner :=
  .ftp
    { name := str "box-ftp", display := str "ftp", credLists := [str "users.credlist"], port := 21
      points := 1, timeout := 30, slaPenalty := 5, slaThreshold := 5, target := str "10.0.0.1"
      serviceType := str "Ftp", attempts := 1, file := [⟨str "note", [], str "hello"⟩] }

/-- One user is seeded for every team. -/
def usersAround : Surroundings :=
  { Surroundings.plain with
    getTeamCredentials := fun _ list =>
      if list = str "users.credlist" then some [⟨str "alice", str "secret"⟩] else none }

/-- A server that lets her in and has the note makes the check pass. -/
theorem note_can_pass : ∃ (b : Behaviour) (result : Result),
    (taskRunner usersAround ⟨1, [], str "01", true⟩ noteCheck).run Environment.plain.compiles
      plainPackages 1 7 (str "01") b = some result ∧ result.status = true := by
  have haccepted : Accepts .plain noteFile (setConfig .plain {} noteFile) := by decide +kernel
  have hfile : NoTaskCredentials noteFile := by
    have hwritten : noteFile.written =
        [.ftp {credLists := [str "users"], file := [⟨str "note", [], str "hello"⟩]}] := by
      decide +kernel
    intro r hr
    rw [hwritten, List.mem_singleton] at hr
    subst hr
    rfl
  have hcheck : noteCheck ∈ (setConfig .plain {} noteFile).allChecks := by decide +kernel
  have hseeded : Seeded usersAround ⟨1, [], str "01", true⟩ noteCheck := by
    intro list hlist
    obtain rfl := List.mem_singleton.mp hlist
    exact ⟨[⟨str "alice", str "secret"⟩], by decide +kernel, by decide +kernel⟩
  apply (can_pass_iff haccepted hfile hcheck hseeded plainPackages 7).mpr
  have htarget : (taskRunner usersAround ⟨1, [], str "01", true⟩ noteCheck).atTarget (str "01") =
      noteCheck.setTaskCredentials [⟨str "alice", str "secret"⟩] := by decide +kernel
  rw [htarget]
  refine ⟨by decide +kernel, rfl, .inr ⟨_, List.mem_singleton.mpr rfl, ?_⟩⟩
  show if str "hello" ≠ [] then Findable _ _ _ else _
  rw [if_pos (by decide +kernel)]
  exact ⟨rfl, str "hello", by decide +kernel⟩

/-- An SMTP check of a file without credlists is accepted, and no team ever passes it. -/
theorem smtp_dead :
    let raw := smallFile {} {smtp := [{}]}
    let conf := setConfig .plain {} raw
    Accepts .plain raw conf ∧ NoTaskCredentials raw ∧ ∃ check ∈ conf.allChecks,
      ∀ (around : Surroundings) (team : TeamSchema), Seeded around team check ∧
        ∀ (pkg : Packages) (roundID : Nat) (b : Behaviour),
          ∀ result ∈ (taskRunner around team check).run Environment.plain.compiles pkg team.id
            roundID team.identifier b, result.status = false := by
  intro raw conf
  have hcheck : (.smtp
      { name := str "box-smtp", display := str "smtp", port := 25, points := 1, timeout := 30
        slaPenalty := 5, slaThreshold := 5, target := str "10.0.0.1", serviceType := str "Smtp"
        attempts := 1 } : Runner) ∈ conf.allChecks := by decide +kernel
  have hfile : NoTaskCredentials raw := by
    have hwritten : raw.written = [.smtp {}] := by decide +kernel
    intro r hr
    rw [hwritten, List.mem_singleton] at hr
    subst hr
    rfl
  refine ⟨by decide +kernel, hfile, _, hcheck, ?_⟩
  intro around team
  refine ⟨fun list hlist => absurd hlist (List.not_mem_nil), fun pkg roundID b => ?_⟩
  exact Runner.fails_without_creds rfl rfl b

end QuotientScoring.Engine
