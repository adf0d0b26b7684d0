import QuotientScoring.Engine.Seeding
import QuotientScoring.WWW.Teams

/-! Whether a password request is answered.

The engine makes a mutex for every team that a call of `Start` finds, and locks the
mutex of whichever team a request is for. Authorisation lets an admin name any team,
and lets a user that no team is named after name team 0. A request for a team without
a mutex panics and gets no answer: `pcr_answered_iff`. -/
namespace QuotientScoring.WWW
open DB Engine GoText Decimal Config Program Transition

/-- The data of an answer. The names that were skipped are in it if there are any. -/
structure PcrData where
  message : GoString
  count : Nat
  skipped : Option (List GoString)
deriving DecidableEq

variable (conf : ConfigSettings) (teamSite : TeamSite) (session : Session) (scan : Scan)
  (faults : List (Option GoString)) (site : CredentialSite)

/-- `CreatePcr`, with what the engine makes of it; `none` is a panic. -/
def answerCreatePcr (form : Option PcrForm) : Option (Except HttpError PcrData) :=
  match createPcr conf {teamSite with db := site.db.toDatabase} session form with
  | .error err => some (.error err)
  | .ok update =>
    match (exec (updateCredentials site update.teamID update.credlistPath update.usernames
      update.passwords) ⟨site.db, faults⟩).1 with
    | .ok none => none
    | .ok (some (updatedCount, skippedUsernames, none)) =>
      some (.ok ⟨str "PCR updated successfully", updatedCount,
        if skippedUsernames.length > 0 then some skippedUsernames else none⟩)
    | _ => some (.error ⟨500, str "Error updating PCR"⟩)

/-- `ResetPcr`, and the message of its answer. -/
def answerResetPcr (form : Option PcrForm) : Option (Except HttpError GoString) :=
  match resetPcr conf {teamSite with db := site.db.toDatabase} session form with
  | .error err => some (.error err)
  | .ok reset =>
    match (exec (resetCredentials scan site reset.teamID reset.credlistPath reset.changedBy)
      ⟨site.db, faults⟩).1 with
    | .ok none => none
    | .ok (some ()) => some (.ok (str "PCR reset successfully"))
    | .error _ => some (.error ⟨500, str "Error resetting PCR"⟩)

/-- The text names a team, and the session is an admin's, or teams may change their own
credentials and it is the id of the team with the user's name, or 0 where there is none. -/
def Authorised (db : Database) (teamID : GoString) (id : Nat) : Prop :=
  parseUint 64 teamID = some id ∧ (.admin ∈ session.roles ∨ conf.miscSettings.easyPCR = true ∧
    teamSite.fails .getTeamByUsername = none ∧
    teamID = decimal (getTeamByUsername db session.username).id)

/-- The teams added in a run. -/
def addedTeams (actions : List CredentialAction) : List TeamSchema :=
  actions.filterMap fun action =>
    match action with
    | .addTeam team => some team
    | _ => none

/-- Since the last restart, a `Start` whose first query succeeded has found a team of this id. -/
def Started (teams : List TeamSchema) (actions : List CredentialAction) (id : Nat) : Prop :=
  ∃ before scan faults after, actions = before ++ .seed scan faults :: after ∧
    .restart ∉ after ∧ (∀ e, faults.head? ≠ some (some e)) ∧
    ∃ team ∈ teams ++ addedTeams before, team.id = id

variable {conf teamSite session scan faults site} {records : GoString → List (List GoString)}
  {actions : List CredentialAction} {teams : List TeamSchema} {id : Nat}

/-! ### The mutexes -/

theorem ensureCredentialsSeeded_mutexes (scan : Scan) (faults : List (Option GoString))
    (site : CredentialSite) :
    (ensureCredentialsSeeded records scan faults site).2.mutexes =
      match faults with
      | some _ :: _ => site.mutexes
      | _ => (getTeams site.db.toDatabase).map TeamSchema.id ++ site.mutexes := by
  match faults with
  | [] => rfl
  | none :: _ => rfl
  | some _ :: _ => rfl

/-- The last action of a run makes the difference. -/
theorem started_snoc (action : CredentialAction) :
    Started teams (actions ++ [action]) id ↔
      action ≠ .restart ∧ Started teams actions id ∨
      ∃ scan faults, action = .seed scan faults ∧ (∀ e, faults.head? ≠ some (some e)) ∧
        ∃ team ∈ teams ++ addedTeams actions, team.id = id := by
  constructor
  · rintro ⟨before, scan, faults, after, hactions, hrestart, hfaults, hteam⟩
    rcases List.eq_nil_or_concat after with rfl | ⟨after, last, rfl⟩
    · obtain ⟨rfl, hlast⟩ := List.append_inj' hactions rfl
      obtain rfl := (List.cons.inj hlast).1
      exact .inr ⟨scan, faults, rfl, hfaults, hteam⟩
    · rw [List.concat_eq_append, ← List.cons_append, ← List.append_assoc] at hactions
      obtain ⟨rfl, hlast⟩ := List.append_inj' hactions rfl
      obtain rfl := (List.cons.inj hlast).1
      rw [List.concat_eq_append, List.mem_append, not_or] at hrestart
      refine .inl ⟨fun h => hrestart.2 ?_, before, scan, faults, after, rfl, hrestart.1, hfaults, hteam⟩
      rw [h]
      exact List.mem_singleton_self _
  · rintro (⟨hne, before, scan, faults, after, rfl, hrestart, hfaults, hteam⟩ |
      ⟨scan, faults, rfl, hfaults, hteam⟩)
    · refine ⟨before, scan, faults, after ++ [action], by simp, ?_, hfaults, hteam⟩
      intro h
      rcases List.mem_append.mp h with h | h
      · exact hrestart h
      · exact hne (List.mem_singleton.mp h).symm
    · exact ⟨actions, scan, faults, [], rfl, List.not_mem_nil, hfaults, hteam⟩

theorem writable_database : Writable (fun db db' => db'.toDatabase = db.toDatabase) where
  refl _ := rfl
  trans _ _ _ h h' := h'.trans h
  save _ _ := rfl
  log _ _ := rfl

/-- The teams and the mutexes are those that a run left. -/
def LeftBy (teams : List TeamSchema) (actions : List CredentialAction) (site : CredentialSite) :
    Prop :=
  site.db.teams = teams ++ addedTeams actions ∧ ∀ id, id ∈ site.mutexes ↔ Started teams actions id

/-- An action that is neither a start nor the end of the process leaves the mutexes alone. -/
theorem LeftBy.quiet {site' : CredentialSite} {action : CredentialAction}
    (h : LeftBy teams actions site)
    (hteams : site'.db.teams = site.db.teams ++ addedTeams [action])
    (hmutexes : site'.mutexes = site.mutexes) (hrestart : action ≠ .restart)
    (hseed : ∀ scan faults, action ≠ .seed scan faults) :
    LeftBy teams (actions ++ [action]) site' := by
  have hadded : addedTeams (actions ++ [action]) = addedTeams actions ++ addedTeams [action] :=
    List.filterMap_append
  refine ⟨?_, fun id => ?_⟩
  · rw [hteams, h.1, hadded, List.append_assoc]
  · rw [hmutexes, h.2, started_snoc]
    simp [hrestart, hseed]

theorem LeftBy.restart (h : LeftBy teams actions site) :
    LeftBy teams (actions ++ [.restart]) {site with mutexes := []} := by
  refine ⟨?_, fun id => ?_⟩
  · show site.db.teams = _
    rw [h.1]
    simp [addedTeams]
  · rw [started_snoc]
    refine iff_of_false List.not_mem_nil ?_
    simp

/-- A start adds the mutexes of the teams it lists. -/
theorem LeftBy.seed (h : LeftBy teams actions site) (scan : Scan)
    (faults : List (Option GoString)) :
    LeftBy teams (actions ++ [.seed scan faults])
      (ensureCredentialsSeeded records scan faults site).2 := by
  have hext : Extends records site.db (ensureCredentialsSeeded records scan faults site).2.db :=
    (ensureCredentialsSeeded_spec scan faults site rfl).1
  refine ⟨?_, fun id => ?_⟩
  · rw [hext.database, h.1]
    simp [addedTeams]
  · rw [started_snoc, ensureCredentialsSeeded_mutexes, ← h.2, ← h.1]
    match faults with
    | [] => simp [mem_getTeams, or_comm]
    | none :: rest => simp [mem_getTeams, or_comm]
    | some e :: rest => simp

/-- A run of the process has the teams it began with and those added, and a mutex for each
team that was there at one of its starts. -/
theorem mutexes_of_run {site₀ : CredentialSite} (hstart : site₀.mutexes = [])
    (hrun : Run (credentialRuns records) site₀ actions site) :
    LeftBy site₀.db.teams actions site := by
  induction hrun with
  | nil =>
    refine ⟨(List.append_nil _).symm, fun id => iff_of_false ?_ ?_⟩
    · rw [hstart]
      exact List.not_mem_nil
    · rintro ⟨before, scan, faults, after, h, -⟩
      simp at h
  | @snoc actions s₁ _ action _ hstep ih =>
    obtain rfl := Option.some.inj hstep
    cases action with
    | addTeam team => exact ih.quiet rfl rfl (by simp) (by simp)
    | configure credlists => exact ih.quiet (List.append_nil _).symm rfl (by simp) (by simp)
    | restart => exact ih.restart
    | update teamID name usernames passwords faults =>
      have hdb := keeps_updateCredentials writable_database s₁ teamID name usernames passwords
        ⟨s₁.db, faults⟩
      refine ih.quiet ?_ rfl (by simp) (by simp)
      exact (congrArg Database.teams hdb).trans (List.append_nil _).symm
    | reset scan teamID name changedBy faults =>
      have hdb := keeps_resetCredentials writable_database scan s₁ teamID name changedBy
        ⟨s₁.db, faults⟩
      refine ih.quiet ?_ rfl (by simp) (by simp)
      exact (congrArg Database.teams hdb).trans (List.append_nil _).symm
    | seed scan faults => exact ih.seed scan faults

/-! ### The answers -/

theorem pcrTeam_eq_ok {db : Database} {refusal teamID : GoString} :
    pcrTeam conf {teamSite with db := db} session refusal teamID = .ok id ↔
      Authorised conf teamSite session db teamID id := by
  unfold pcrTeam Authorised
  by_cases hadmin : .admin ∈ session.roles
  · cases parseUint 64 teamID <;> simp [hadmin]
  · cases heasy : conf.miscSettings.easyPCR with
    | false => simp [hadmin]
    | true =>
      cases hfails : teamSite.fails .getTeamByUsername with
      | some err => simp [hadmin]
      | none =>
        by_cases hown : teamID = decimal (getTeamByUsername db session.username).id
        · simp only [hadmin, hown, if_false, if_true, ne_eq, not_true_eq_false, Option.isSome_none,
            Bool.false_eq_true, false_or, and_true]
          cases parseUint 64 (decimal (getTeamByUsername db session.username).id) <;> simp
        · simp [hadmin, hown]

/-- What stands behind the two checks is reached, and only the second one panics. -/
theorem behind_checks_panics {α : Type} {refusal body : Queries (Option α)} {teamID : Nat}
    {credlistName : GoString} (hrefusal : (exec refusal ⟨site.db, faults⟩).1 ≠ .ok none)
    (hbody : (exec body ⟨site.db, faults⟩).1 ≠ .ok none) :
    (exec (if !site.credlistPaths.contains credlistName then refusal
      else if !site.mutexes.contains teamID then pure none
      else body) ⟨site.db, faults⟩).1 = .ok none ↔
        credlistName ∈ site.credlistPaths ∧ teamID ∉ site.mutexes := by
  by_cases hlist : credlistName ∈ site.credlistPaths
  · rw [if_neg (by simpa using hlist)]
    by_cases hmutex : teamID ∈ site.mutexes
    · rw [if_neg (by simpa using hmutex)]
      exact iff_of_false hbody (fun h => h.2 hmutex)
    · rw [if_pos (by simpa using hmutex)]
      exact iff_of_true rfl ⟨hlist, hmutex⟩
  · rw [if_pos (by simpa using hlist)]
    exact iff_of_false hrefusal (fun h => hlist h.1)

theorem updateCredentials_panics (teamID : Nat) (credlistName : GoString)
    (usernames passwords : List GoString) :
    (exec (updateCredentials site teamID credlistName usernames passwords) ⟨site.db, faults⟩).1 =
      .ok none ↔ credlistName ∈ site.credlistPaths ∧ teamID ∉ site.mutexes := by
  refine behind_checks_panics (fun h => nomatch h) ?_
  split
  · exact fun h => nomatch h
  · rw [exec_bind]
    split
    · exact fun h => nomatch h
    · exact fun h => nomatch h

theorem resetCredentials_panics (teamID : Nat) (credlistName changedBy : GoString) :
    (exec (resetCredentials scan site teamID credlistName changedBy) ⟨site.db, faults⟩).1 =
      .ok none ↔ credlistName ∈ site.credlistPaths ∧ teamID ∉ site.mutexes := by
  refine behind_checks_panics (fun h => nomatch h) ?_
  rw [exec_bind]
  split
  · exact fun h => nomatch h
  · exact fun h => nomatch h

/-- The form is for a team that the session may name, of a configured credlist, and the team has no
mutex. -/
def Unlockable (conf : ConfigSettings) (teamSite : TeamSite) (session : Session)
    (site : CredentialSite) (form : Option PcrForm) : Prop :=
  ∃ body id, form = some body ∧ Authorised conf teamSite session site.db.toDatabase body.teamID id ∧
    body.credlistPath ∈ site.credlistPaths ∧ id ∉ site.mutexes

theorem unlockable_iff {body : PcrForm}
    (h : Authorised conf teamSite session site.db.toDatabase body.teamID id) :
    Unlockable conf teamSite session site (some body) ↔
      body.credlistPath ∈ site.credlistPaths ∧ id ∉ site.mutexes := by
  constructor
  · intro hunlockable
    obtain ⟨body', id', hbody, h', hrest⟩ := hunlockable
    obtain rfl := Option.some.inj hbody
    obtain rfl := Option.some.inj (h.1.symm.trans h'.1)
    exact hrest
  · intro hrest
    exact ⟨body, id, rfl, h, hrest⟩

theorem not_unlockable_of_error {body : PcrForm} {refusal : GoString} {err : HttpError}
    (h : pcrTeam conf {teamSite with db := site.db.toDatabase} session refusal body.teamID =
      .error err) : ¬Unlockable conf teamSite session site (some body) := by
  intro hunlockable
  obtain ⟨body', id, hbody, hauthorised, -⟩ := hunlockable
  obtain rfl := Option.some.inj hbody
  rw [pcrTeam_eq_ok.mpr hauthorised] at h
  cases h

theorem answerCreatePcr_eq_none {form : Option PcrForm} :
    answerCreatePcr conf teamSite session faults site form = none ↔
      Unlockable conf teamSite session site form := by
  cases form with
  | none => simp [answerCreatePcr, createPcr, Unlockable]
  | some body =>
    cases hteam : pcrTeam conf {teamSite with db := site.db.toDatabase} session
      (str "PCR not allowed") body.teamID with
    | error err => simp [answerCreatePcr, createPcr, hteam, not_unlockable_of_error hteam]
    | ok id =>
      rw [unlockable_iff (pcrTeam_eq_ok.mp hteam),
        ← @updateCredentials_panics faults site id body.credlistPath body.usernames body.passwords]
      simp only [answerCreatePcr, createPcr, hteam]
      split <;> simp_all

theorem answerResetPcr_eq_none {form : Option PcrForm} :
    answerResetPcr conf teamSite session scan faults site form = none ↔
      Unlockable conf teamSite session site form := by
  cases form with
  | none => simp [answerResetPcr, resetPcr, Unlockable]
  | some body =>
    cases hteam : pcrTeam conf {teamSite with db := site.db.toDatabase} session
      (str "PCR reset not allowed") body.teamID with
    | error err => simp [answerResetPcr, resetPcr, hteam, not_unlockable_of_error hteam]
    | ok id =>
      rw [unlockable_iff (pcrTeam_eq_ok.mp hteam),
        ← @resetCredentials_panics scan faults site id body.credlistPath session.username]
      simp only [answerResetPcr, resetPcr, hteam]
      split <;> simp_all

/-- The body, if it can be read, is for nobody the session may name, or for a credlist that is not
configured, or for a team that a `Start` of the process has found. -/
def Answerable (conf : ConfigSettings) (teamSite : TeamSite) (session : Session)
    (site : CredentialSite) (teams : List TeamSchema) (actions : List CredentialAction)
    (form : Option PcrForm) : Prop :=
  ∀ body id, form = some body → Authorised conf teamSite session site.db.toDatabase body.teamID id →
    body.credlistPath ∈ site.credlistPaths → Started teams actions id

/-- In every state of every run of the process, a request is answered exactly if no panic lies
behind what authorisation lets it name. -/
theorem pcr_answered_iff {site₀ : CredentialSite} (hstart : site₀.mutexes = [])
    (hrun : Run (credentialRuns records) site₀ actions site) (conf : ConfigSettings)
    (teamSite : TeamSite) (session : Session) (scan : Scan) (faults : List (Option GoString))
    (form : Option PcrForm) :
    ((answerCreatePcr conf teamSite session faults site form).isSome ↔
      Answerable conf teamSite session site site₀.db.teams actions form) ∧
    ((answerResetPcr conf teamSite session scan faults site form).isSome ↔
      Answerable conf teamSite session site site₀.db.teams actions form) := by
  have hmutexes := (mutexes_of_run hstart hrun).2
  have hanswerable : ¬Unlockable conf teamSite session site form ↔
      Answerable conf teamSite session site site₀.db.teams actions form := by
    simp only [Unlockable, Answerable, ← hmutexes, not_exists, not_and, not_not]
  rw [← hanswerable]
  refine ⟨?_, ?_⟩
  · rw [← @answerCreatePcr_eq_none conf teamSite session faults]
    exact Option.isSome_iff_ne_none
  · rw [← @answerResetPcr_eq_none conf teamSite session scan faults]
    exact Option.isSome_iff_ne_none

/-- Team 1, which the start has found, changes a password. -/
theorem pcr_answered_own :
    let site := freshSite.step twoRecords (.seed Scan.plain [])
    (answerCreatePcr {miscSettings := {easyPCR := true}} {now := 0, started := true, db := {}}
      ⟨[116], [.team]⟩ [] site (some ⟨[49], [108], [[97]], [[120]]⟩)).isSome := by
  intro site
  have hrun : Run (credentialRuns twoRecords) freshSite [.seed Scan.plain []] site :=
    Run.of_execute rfl
  refine (pcr_answered_iff rfl hrun _ _ _ Scan.plain [] _).1.mpr fun body id hbody hauthorised _ => ?_
  obtain rfl := Option.some.inj hbody
  have hid : parseUint 64 [49] = some 1 := by decide +kernel
  obtain rfl := Option.some.inj (hid.symm.trans hauthorised.1)
  refine ⟨[], Scan.plain, [], [], rfl, List.not_mem_nil, ?_, ⟨1, [116], [49], true⟩,
    List.mem_singleton_self _, rfl⟩
  intro e h
  cases h

/-- An admin names a team that does not exist; a user no team is named after names team 0; and
before the first start, a team names itself. -/
theorem pcr_unanswered :
    let conf : ConfigSettings := {miscSettings := {easyPCR := true}}
    let teamSite : TeamSite := {now := 0, started := true, db := {}}
    let site := freshSite.step twoRecords (.seed Scan.plain [])
    Run (credentialRuns twoRecords) freshSite [.seed Scan.plain []] site ∧
    answerCreatePcr conf teamSite ⟨[114], [.admin]⟩ [] site (some ⟨[55], [108], [[97]], [[120]]⟩) = none ∧
    answerResetPcr conf teamSite ⟨[114], [.inject]⟩ Scan.plain [] site (some ⟨[48], [108], [], []⟩) =
      none ∧
    answerResetPcr conf teamSite ⟨[116], [.team]⟩ Scan.plain [] freshSite
      (some ⟨[49], [108], [], []⟩) = none := by
  refine ⟨Run.of_execute rfl, by decide +kernel, by decide +kernel, by decide +kernel⟩

end QuotientScoring.WWW
