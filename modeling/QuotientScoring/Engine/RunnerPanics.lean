import QuotientScoring.Engine.DeadChecks

/-! Runs that take the runner down.

A run panics where a draw has nothing to draw from, where a regular expression is
compiled that does not compile, or at the first column of a row that has none. `Verify`
guards the draws of Dns and Web checks, and the expressions of Ssh and WinRM checks.
An Sql check compiles the output of its query whether it is to be used as an expression
or not, and `Verify` looks only at the ones that are: `runner_panics_iff`. -/
namespace QuotientScoring.Checks
open DB GoText GoTime Attempts

/-! ### Panics -/

section
variable {α β : Type}

def Panics (run : Attempted α) : Prop := run = .error .panicked

@[simp] theorem not_panics_ok (a : α) : ¬Panics (.ok a : Attempted α) := by
  intro h
  cases h

@[simp] theorem not_panics_failed (error debug : GoString) :
    ¬Panics (.error (.failed error debug) : Attempted α) := by
  intro h
  cases h

@[simp] theorem panics_panicked : Panics (.error .panicked : Attempted α) := rfl

@[simp] theorem panics_bind {run : Attempted α} {next : α → Attempted β} :
    Panics (run >>= next) ↔ Panics run ∨ ∃ a, run = .ok a ∧ Panics (next a) :=
  bind_eq_error

/-- A test before the rest of a run. -/
theorem panics_unless {p : Prop} [Decidable p] {a : α} {run : Attempted α} :
    Panics (if p then .ok a else run) ↔ ¬p ∧ Panics run := by
  split <;> simp [*]

@[simp] theorem not_panics_orFail {answer : Answer α} {error : GoString}
    {debug : GoString → GoString} : ¬Panics (orFail answer error debug) := by
  cases answer <;> simp [orFail]

@[simp] theorem not_panics_require {passed : Prop} [Decidable passed] {error debug : GoString} :
    ¬Panics (require passed error debug) := by
  unfold require
  split <;> simp

@[simp] theorem panics_mustCompile {compiles : Compiles} {pattern : GoString} :
    Panics (mustCompile compiles pattern) ↔ compiles pattern = false := by
  unfold mustCompile
  split <;> simp [*]

@[simp] theorem not_panics_findRegex {compiles : Compiles} {pkg : Packages}
    {pattern text error notFound debug : GoString} :
    ¬Panics (findRegex compiles pkg pattern text error notFound debug) := by
  unfold findRegex
  split <;> simp

@[simp] theorem not_panics_someCreds {service : Service} {draw : Nat} :
    ¬Panics (service.someCreds draw) :=
  not_panics_orFail

@[simp] theorem not_panics_credsOr {service : Service} {anonymous : TaskCredential} {draw : Nat} :
    ¬Panics (service.credsOr anonymous draw) := by
  unfold Service.credsOr
  split <;> simp

end

/-! ### What `Verify` guards -/

/-- There is something to draw from, and what is compiled compiles. -/
def Guarded (compiles : Compiles) : Runner → Prop
  | .dns c => c.record ≠ []
  | .web c => c.url ≠ []
  | .sql c => ∀ q ∈ c.query, q.useRegex = true → compiles q.output = true
  | .ssh c => ∀ r ∈ c.command, r.useRegex = true → compiles r.output = true
  | .winRM c => ∀ r ∈ c.command, r.useRegex = true → compiles r.output = true
  | _ => True

theorem Guarded.withService {compiles : Compiles} {r : Runner} (h : Guarded compiles r)
    (service : Service) : Guarded compiles (r.withService service) := by
  cases r <;> exact h

theorem guarded_of_verify {compiles : Compiles} {args : VerifyArgs} {raw r : Runner}
    (h : raw.verify compiles args = some (r, none)) : Guarded compiles r := by
  cases raw with
  | dns c =>
    simp only [Runner.verify, Dns.verify] at h
    split at h
    · cases h
    · obtain ⟨rfl, -⟩ := Prod.mk.inj (Option.some.inj h)
      assumption
  | web c =>
    simp only [Runner.verify, Web.verify] at h
    obtain ⟨rfl, hnone⟩ := Prod.mk.inj (Option.some.inj h)
    intro hurl
    simp at hurl
    simp [hurl] at hnone
  | sql c =>
    obtain ⟨v, hv, heq⟩ := Option.map_eq_some_iff.mp h
    obtain ⟨rfl, -⟩ := Prod.mk.inj heq
    simp only [Sql.verify, Option.ite_none_right_eq_some, Option.some.injEq] at hv
    obtain ⟨hall, rfl⟩ := hv
    intro q hq hregex
    simpa [hregex] using List.all_eq_true.mp hall q hq
  | ssh c =>
    obtain ⟨v, hv, heq⟩ := Option.map_eq_some_iff.mp h
    obtain ⟨rfl, hnone⟩ := Prod.mk.inj heq
    simp only [Ssh.verify] at hv
    split at hv
    · obtain rfl := Option.some.inj hv
      cases hnone
    · simp only [Option.ite_none_right_eq_some, Option.some.injEq] at hv
      obtain ⟨hall, rfl⟩ := hv
      intro r hr hregex
      simpa [hregex] using List.all_eq_true.mp hall r hr
  | winRM c =>
    obtain ⟨v, hv, heq⟩ := Option.map_eq_some_iff.mp h
    obtain ⟨rfl, -⟩ := Prod.mk.inj heq
    simp only [WinRM.verify, Option.ite_none_right_eq_some, Option.some.injEq] at hv
    obtain ⟨hall, rfl⟩ := hv
    intro r hr hregex
    simpa [hregex] using List.all_eq_true.mp hall r hr
  | _ =>
    obtain ⟨rfl, -⟩ := Prod.mk.inj (Option.some.inj h)
    trivial

/-! ### Sql checks -/

section
variable (pkg : Packages) (b : Behaviour)

/-- The first column is what the query looks for. -/
def QueryData.Finds (q : QueryData) (first : GoString) : Prop :=
  if q.useRegex then pkg.isMatch q.output first = true else trimSpace first = q.output

/-- A row without columns comes before the search is over. -/
def QueryData.ReachesEmptyRow (q : QueryData) (rows : List (Answer (List GoString))) : Prop :=
  ∃ before rest, rows = before ++ .ok [] :: rest ∧
    ∀ row ∈ before, ∃ first more, row = .ok (first :: more) ∧ ¬q.Finds pkg first

/-- The run comes to look for the output of the query that is drawn. -/
structure Sql.LooksFor (c : Sql) (cred : TaskCredential) (q : QueryData) : Prop where
  credDrawn : pick c.taskCredentials b.credsDraw = some cred
  queryDrawn : (pick c.query b.draw).getD ⟨false, [], [], []⟩ = q
  opened : pkg.Allows (.openDB c.kind (c.dsn cred q))
  reached : pkg.Allows (.pingDB c.kind (c.dsn cred q))
  login : b.login = .ok ()
  command : q.command ≠ []
  queried : pkg.Allows (.queryDB c.kind (c.dsn cred q) q.command)
  answered : b.query = .ok ()
  output : q.output ≠ []

variable {pkg b} (compiles : Compiles)

theorem reachesEmptyRow_cons {q : QueryData} {row : Answer (List GoString)}
    {rest : List (Answer (List GoString))} : q.ReachesEmptyRow pkg (row :: rest) ↔
      row = .ok [] ∨ (∃ first more, row = .ok (first :: more) ∧ ¬q.Finds pkg first) ∧
        q.ReachesEmptyRow pkg rest := by
  constructor
  · rintro ⟨before, tail, heq, hbefore⟩
    cases before with
    | nil => exact .inl (List.cons.inj heq).1
    | cons head before =>
      obtain ⟨rfl, rfl⟩ := List.cons.inj heq
      exact .inr ⟨hbefore row (List.mem_cons_self ..), before, tail, rfl,
        fun r hr => hbefore r (List.mem_cons_of_mem _ hr)⟩
  · rintro (rfl | ⟨hrow, before, tail, rfl, hbefore⟩)
    · exact ⟨[], rest, rfl, by simp⟩
    · exact ⟨row :: before, tail, rfl, List.forall_mem_cons.mpr ⟨hrow, hbefore⟩⟩

theorem panics_scanRows {q : QueryData} {creds : GoString}
    {rows : List (Answer (List GoString))} :
    Panics (q.scanRows pkg b creds rows) ↔ q.ReachesEmptyRow pkg rows := by
  induction rows with
  | nil => simp [QueryData.scanRows, QueryData.ReachesEmptyRow]
  | cons row rest ih =>
    rw [QueryData.scanRows, reachesEmptyRow_cons, ← ih, panics_bind]
    cases row with
    | error err => simp
    | ok values =>
      cases values with
      | nil => simp
      | cons first more =>
        by_cases hregex : q.useRegex = true
        · by_cases hmatch : pkg.isMatch q.output first = true
          · simp [QueryData.Finds, hregex, hmatch]
          · simp [QueryData.Finds, hregex, hmatch]
        · by_cases hequal : trimSpace first = q.output
          · simp [QueryData.Finds, hregex, hequal]
          · simp [QueryData.Finds, hregex, hequal]

/-- An Sql check panics where it looks for an output that does not compile, or comes to a row
without columns. -/
theorem panics_sql (c : Sql) : Panics (c.definition compiles pkg b) ↔
    ∃ cred q, c.LooksFor pkg b cred q ∧
      (compiles q.output = false ∨ b.columns = .ok () ∧ q.ReachesEmptyRow pkg b.rows) := by
  unfold Sql.definition
  simp only [panics_bind, not_panics_someCreds, Service.someCreds_eq_ok, false_or,
    not_panics_orFail, orFail_eq_ok, call_eq_ok, exists_unit, and_true, panics_unless,
    panics_mustCompile, mustCompile_eq_ok, panics_scanRows]
  constructor
  · rintro ⟨cred, hcred, hopen, ⟨hping, hlogin⟩, hcommand, ⟨hquery, hanswered⟩, houtput, hstop⟩
    refine ⟨cred, _, ⟨hcred, rfl, hopen, hping, hlogin, hcommand, hquery, hanswered, houtput⟩, ?_⟩
    rcases hstop with hbad | ⟨-, hrows⟩
    · exact .inl hbad
    · exact .inr hrows
  · rintro ⟨cred, q, hlooks, hstop⟩
    obtain ⟨hcred, rfl, hopen, hping, hlogin, hcommand, hquery, hanswered, houtput⟩ := hlooks
    refine ⟨cred, hcred, hopen, ⟨hping, hlogin⟩, hcommand, ⟨hquery, hanswered⟩, houtput, ?_⟩
    rcases hstop with hbad | hrows
    · exact .inl hbad
    · by_cases hcompiles : compiles ((pick c.query b.draw).getD ⟨false, [], [], []⟩).output = true
      · exact .inr ⟨hcompiles, hrows⟩
      · exact .inl (Bool.eq_false_iff.mpr hcompiles)

end

/-! ### The other kinds -/

section
variable {compiles : Compiles} (pkg : Packages) (teamID roundID : Nat) (teamIdentifier : GoString)
variable (b : Behaviour)

@[simp] theorem not_panics_exited {exit : Answer Unit} {formedCommand out : GoString} :
    ¬Panics (exited exit formedCommand out) := by
  cases exit <;> simp [exited]

@[simp] theorem not_panics_customTest {c : Custom} {formedCommand out : GoString} :
    ¬Panics (c.test compiles pkg formedCommand out) := by
  unfold Custom.test
  split <;> simp

@[simp] theorem not_panics_testContent {compileError name regex hash content : GoString}
    {sameHash : Prop} [Decidable sameHash] {hashDebug : GoString} :
    ¬Panics (testContent compiles pkg compileError name regex hash content sameHash hashDebug) := by
  unfold testContent
  split
  · simp
  · split <;> simp

@[simp] theorem not_panics_mailAccount {service : Service} {domain : GoString} :
    ¬Panics (mailAccount b service domain) := by
  simp [mailAccount]

@[simp] theorem not_panics_pingTest {c : Ping} : ¬Panics (c.test pkg b) := by
  unfold Ping.test
  split <;> simp

@[simp] theorem not_panics_logIn {c : Smtp} {username password : GoString} :
    ¬Panics (c.logIn b username password) := by
  unfold Smtp.logIn
  split <;> simp

@[simp] theorem not_panics_signer {c : Ssh} : ¬Panics (c.signer pkg) := by
  unfold Ssh.signer
  split <;> simp

@[simp] theorem not_panics_connect {c : Ssh} : ¬Panics (c.connect pkg b) := by
  simp [Ssh.connect]

@[simp] theorem not_panics_urlTest {u : UrlData} {requestURL page : GoString} :
    ¬Panics (u.test compiles pkg requestURL page) := by
  unfold UrlData.test
  split <;> simp

theorem not_panics_commandTest {r : CommandData}
    (h : r.useRegex = true → compiles r.output = true) : ¬Panics (r.test compiles pkg b) := by
  unfold CommandData.test
  split
  · simp
  · split
    · simp [h ‹_›]
    · simp

theorem not_panics_winCommandTest {r : WinCommandData}
    (h : r.useRegex = true → compiles r.output = true) : ¬Panics (r.test compiles pkg b) := by
  unfold WinCommandData.test
  split
  · simp
  · split
    · simp [h ‹_›]
    · simp

/-- A run of any other kind that `Verify` has guarded does not panic. -/
theorem not_panics_definition {r : Runner} (h : Guarded compiles r) (hsql : ∀ c, r ≠ .sql c) :
    ¬Panics (r.definition compiles pkg teamID roundID teamIdentifier b) := by
  cases r with
  | custom c => simp [Runner.definition, Custom.definition]
  | dns c =>
    show ¬Panics (c.definition pkg teamIdentifier b)
    unfold Dns.definition
    cases hpick : pick c.record b.draw with
    | none => exact absurd (pick_eq_none.mp hpick) h
    | some record =>
      simp only [panics_bind, not_panics_orFail, not_panics_require, false_or, exists_unit]
      rintro ⟨answers, -, -, hfound⟩
      revert hfound
      split <;> simp
  | ftp c =>
    show ¬Panics (c.definition compiles pkg b)
    unfold Ftp.definition
    cases pick c.file b.draw <;> simp [FtpFile.test]
  | imap c =>
    show ¬Panics (c.definition pkg b)
    unfold Imap.definition
    split <;> simp
  | ldap c => simp [Runner.definition, Ldap.definition]
  | ping c => simp [Runner.definition, Ping.definition]
  | pop3 c =>
    show ¬Panics (c.definition pkg b)
    unfold Pop3.definition
    split <;> simp
  | rdp c => simp [Runner.definition, Rdp.definition]
  | smb c =>
    show ¬Panics (c.definition compiles pkg b)
    unfold Smb.definition
    cases pick c.file b.draw <;> simp [SmbFile.test]
  | smtp c => simp [Runner.definition, Smtp.definition]
  | sql c => exact absurd rfl (hsql c)
  | ssh c =>
    show ¬Panics (c.definition compiles pkg b)
    unfold Ssh.definition
    cases hpick : pick c.command b.draw with
    | none => simp
    | some r => simp [not_panics_commandTest pkg b (h r (mem_of_pick hpick))]
  | tcp c => simp [Runner.definition, Tcp.definition]
  | vnc c => simp [Runner.definition, Vnc.definition]
  | web c =>
    show ¬Panics (c.definition compiles pkg b)
    unfold Web.definition
    cases hpick : pick c.url b.draw with
    | none => exact absurd (pick_eq_none.mp hpick) h
    | some u => simp
  | winRM c =>
    show ¬Panics (c.definition compiles pkg b)
    unfold WinRM.definition
    cases hpick : pick c.command b.draw with
    | none => simp
    | some r => simp [not_panics_winCommandTest pkg b (h r (mem_of_pick hpick))]

end

end QuotientScoring.Checks

namespace QuotientScoring.Engine
open DB GoText Checks Config

/-- The run of an Sql check comes neither to an output that does not compile nor to a row
without columns; of any other kind there is nothing to ask. -/
def SqlSafe (compiles : Compiles) (pkg : Packages) (b : Behaviour) (r : Runner) : Prop :=
  ∀ c cred q, r = .sql c → c.LooksFor pkg b cred q →
    compiles q.output = true ∧ ¬(b.columns = .ok () ∧ q.ReachesEmptyRow pkg b.rows)

theorem guarded_of_checked {env : Environment} {args : VerifyArgs} {raw check : Runner}
    (h : Checked env args raw check) : Guarded env.compiles check := by
  obtain ⟨verified, hverify, lists, rfl⟩ := h
  exact (guarded_of_verify hverify).withService _

/-- What a runner runs is as guarded as the check it was given. -/
theorem guarded_run {compiles : Compiles} {check : Runner} (h : Guarded compiles check)
    (creds : List TaskCredential) (teamIdentifier : GoString) :
    Guarded compiles ((check.setTaskCredentials creds).atTarget teamIdentifier) := by
  apply Guarded.withService
  unfold Runner.setTaskCredentials
  split
  · exact h
  · exact h.withService _

/-- Of the checks of an accepted configuration, whatever credentials come with the task and
whatever the target does, only the run of an Sql check can panic, and exactly at an output
that does not compile or at a row without columns. -/
theorem runner_panics_iff {env : Environment} {raw conf : ConfigSettings} (h : Accepts env raw conf)
    {check : Runner} (hcheck : check ∈ conf.allChecks) (creds : List TaskCredential)
    (pkg : Packages) (teamID roundID : Nat) (teamIdentifier : GoString) (b : Behaviour) :
    let r := (check.setTaskCredentials creds).atTarget teamIdentifier
    ¬Panics (r.definition env.compiles pkg teamID roundID teamIdentifier b) ↔
      SqlSafe env.compiles pkg b r := by
  intro r
  obtain ⟨written, -, box, hchecked⟩ := h.accepted.exists_written hcheck
  have hguarded : Guarded env.compiles r :=
    guarded_run (guarded_of_checked hchecked) creds teamIdentifier
  by_cases hsql : ∃ c, r = .sql c
  · obtain ⟨c, hc⟩ := hsql
    rw [hc]
    show ¬Panics (c.definition env.compiles pkg b) ↔ _
    rw [panics_sql]
    constructor
    · intro hnone c' cred q heq hlooks
      obtain rfl := Runner.sql.inj heq
      refine ⟨?_, fun hempty => hnone ⟨cred, q, hlooks, .inr hempty⟩⟩
      by_contra hcompiles
      exact hnone ⟨cred, q, hlooks, .inl (Bool.eq_false_iff.mpr hcompiles)⟩
    · rintro hsafe ⟨cred, q, hlooks, hstop⟩
      obtain ⟨hcompiles, hrows⟩ := hsafe c cred q rfl hlooks
      rcases hstop with hbad | hempty
      · rw [hcompiles] at hbad
        cases hbad
      · exact hrows hempty
  · exact iff_of_true
      (not_panics_definition pkg teamID roundID teamIdentifier b hguarded
        (fun c hc => hsql ⟨c, hc⟩))
      (fun c _ _ heq _ => absurd ⟨c, heq⟩ hsql)

/-- The FTP check of the note, with the server at its best. -/
theorem note_run_safe :
    ¬Panics (((noteCheck.setTaskCredentials [⟨str "alice", str "secret"⟩]).atTarget
      (str "01")).definition Environment.plain.compiles plainPackages 1 7 (str "01") {}) := by
  have haccepted : Accepts .plain noteFile (setConfig .plain {} noteFile) := by decide +kernel
  have hcheck : noteCheck ∈ (setConfig .plain {} noteFile).allChecks := by decide +kernel
  have htype : ((noteCheck.setTaskCredentials [⟨str "alice", str "secret"⟩]).atTarget
      (str "01")).typeName = "Ftp" := by decide +kernel
  refine (runner_panics_iff haccepted hcheck [⟨str "alice", str "secret"⟩] plainPackages 1 7
    (str "01") {}).mpr (fun c cred q heq _ => ?_)
  rw [heq] at htype
  simp [Runner.typeName] at htype

/-- A parenthesis that is not closed does not compile. -/
def strictEnvironment : Environment :=
  {Environment.plain with compiles := fun regex => regex != str "("}

/-- An Sql check that wants a row to be exactly an open parenthesis. -/
def parenthesisFile : ConfigSettings :=
  { smallFile {}
      { sql :=
          [ { credLists := [str "users"]
              query := [⟨false, str "SELECT sign", str "signs", str "("⟩] } ] } with
    credlistSettings := [{credlistName := str "users", credlistPath := str "users.credlist"}] }

/-- It is accepted, and takes the runner down once the database answers. -/
theorem parenthesis_panics :
    Accepts strictEnvironment parenthesisFile (setConfig strictEnvironment {} parenthesisFile) ∧
    ∃ check ∈ (setConfig strictEnvironment {} parenthesisFile).allChecks,
      Panics (((check.setTaskCredentials [⟨str "alice", str "secret"⟩]).atTarget
        (str "01")).definition strictEnvironment.compiles plainPackages 1 7 (str "01")
          {rows := [.ok [str "("]]}) := by
  refine ⟨by decide +kernel, .sql
    { name := str "box-sql", display := str "sql", credLists := [str "users.credlist"]
      port := 3306, points := 1, timeout := 30, slaPenalty := 5, slaThreshold := 5
      target := str "10.0.0.1", serviceType := str "Sql", attempts := 1, kind := str "mysql"
      query := [⟨false, str "SELECT sign", str "signs", str "("⟩] }, by decide +kernel, ?_⟩
  apply (panics_sql strictEnvironment.compiles _).mpr
  refine ⟨⟨str "alice", str "secret"⟩, ⟨false, str "SELECT sign", str "signs", str "("⟩, ?_,
    .inl ?_⟩
  · exact
      { credDrawn := by decide +kernel
        queryDrawn := by decide +kernel
        opened := rfl
        reached := rfl
        login := rfl
        command := by decide +kernel
        queried := rfl
        answered := rfl
        output := by decide +kernel }
  · decide +kernel

end QuotientScoring.Engine
