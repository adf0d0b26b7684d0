import QuotientScoring.Lib.Rows
import QuotientScoring.WWW.Teams

/-! What a team can learn about the others.

A team's pages are answered by five handlers, and each keeps to the team's own rows in its
own way: by the id the user name has, by the number in the path, by the name the row's team
has, or by going through a list. `team_isolated`: a local session with no role but team is
answered alike in two states that agree on teams, rounds and injects and on what is the
team's own, whatever the rows, counters and files of other teams are. -/
namespace QuotientScoring.WWW
open DB GoText GoTime GoPath Config

variable (conf : ConfigSettings) (site : TeamSite) (session : Session)

/-- The handler `GetTeams`: the teams a session is shown. -/
def handleGetTeams : Except HttpError (List TeamSchema) :=
  if (site.fails .getTeams).isSome then .error ⟨500, str "Error retrieving teams"⟩
  else
    let teams := getTeams site.db
    if .admin ∈ session.roles then .ok teams
    else
      let teamToShow : Except HttpError (Option TeamSchema) :=
        match oidcUserInfo conf site session.username with
        | some userInfo => .ok (mapOIDCUserToTeam conf teams userInfo.groups)
        | none =>
          if (site.fails .getTeamByUsername).isSome then .error ⟨500, str "Error retrieving team"⟩
          else
            let me := getTeamByUsername site.db session.username
            .ok (if me.id ≠ 0 then some me else none)
      match teamToShow with
      | .error err => .error err
      | .ok none => .ok []
      | .ok (some teamToShow) =>
        match teams.find? (fun team => team.id = teamToShow.id) with
        | some team => .ok [team]
        | none => .ok teams

/-- Everything the handlers of a team's pages read. -/
structure PageState where
  cwd : List Elem := []
  now : Int := 0
  started : Bool
  db : Database
  injects : List InjectSchema := []
  submissions : List SubmissionSchema := []
  files : Files := ∅
  uptimePerService : UptimeMap := ∅
  store : OidcStore := ∅
  provider : OidcProvider := fun _ _ => []
  teamFails : TeamQuery → Option GoString := fun _ => none
  submissionFails : SubmissionQuery → Option GoString := fun _ => none

def PageState.teamSite (s : PageState) : TeamSite where
  now := s.now
  started := s.started
  db := s.db
  uptimePerService := s.uptimePerService
  store := s.store
  provider := s.provider
  fails := s.teamFails

def PageState.injectSite (s : PageState) : InjectSite where
  cwd := s.cwd
  now := s.now
  db := s.db
  injects := s.injects
  submissions := s.submissions
  fails := s.submissionFails

/-- The states agree on what all teams share, and on the rows, the counters and the files of one
team. -/
structure AgreeFor (t : Nat) (a b : PageState) : Prop where
  cwd : a.cwd = b.cwd
  now : a.now = b.now
  started : a.started = b.started
  teamFails : a.teamFails = b.teamFails
  submissionFails : a.submissionFails = b.submissionFails
  teams : a.db.teams = b.db.teams
  rounds : a.db.rounds = b.db.rounds
  injects : a.injects = b.injects
  checks : a.db.checks.filter (fun check => check.teamID = t) =
    b.db.checks.filter (fun check => check.teamID = t)
  slas : a.db.slas.filter (fun sla => sla.teamID = t) = b.db.slas.filter (fun sla => sla.teamID = t)
  submissions : a.submissions.filter (fun submission => submission.teamID = t) =
    b.submissions.filter (fun submission => submission.teamID = t)
  uptimes : a.uptimePerService.lookup t = b.uptimePerService.lookup t
  files : ∀ submission : SubmissionSchema, submission.teamID = t →
    a.files.lookup (submissionDir a.cwd submission, submission.submissionFileName) =
      b.files.lookup (submissionDir b.cwd submission, submission.submissionFileName)

/-- The session is a local one of the team, with no other role. The middleware makes no session
without a name. -/
structure LocalTeam (s : PageState) (session : Session) (team : TeamSchema) : Prop where
  roles : session.roles = [.team]
  named : session.username ≠ []
  unknown : s.store.lookup session.username = none
  mem : team ∈ s.db.teams
  name : team.name = session.username

variable {conf site session} {a b : PageState} {team : TeamSchema}

/-! ### Whose session it is -/

theorem LocalTeam.not_admin (h : LocalTeam a session team) : .admin ∉ session.roles := by
  rw [h.roles]
  decide

theorem LocalTeam.not_inject (h : LocalTeam a session team) : .inject ∉ session.roles := by
  rw [h.roles]
  decide

/-- The tables say the same of the other state. -/
theorem LocalTeam.agree {t : Nat} (h : LocalTeam a session team) (hagree : AgreeFor t a b)
    (hstore : b.store.lookup session.username = none) : LocalTeam b session team :=
  ⟨h.roles, h.named, hstore, hagree.teams ▸ h.mem, h.name⟩

/-- A name the store does not have is not an OIDC user. -/
theorem LocalTeam.oidcUserInfo (h : LocalTeam a session team) :
    WWW.oidcUserInfo conf a.teamSite session.username = none := by
  simp only [WWW.oidcUserInfo, getOIDCUserInfo, PageState.teamSite, h.unknown]
  rfl

theorem AgreeFor.getTeams {t : Nat} (h : AgreeFor t a b) : DB.getTeams a.db = DB.getTeams b.db := by
  rw [DB.getTeams, DB.getTeams, h.teams]

theorem AgreeFor.getTeamByUsername {t : Nat} (h : AgreeFor t a b) (name : GoString) :
    DB.getTeamByUsername a.db name = DB.getTeamByUsername b.db name := by
  rw [DB.getTeamByUsername, DB.getTeamByUsername, h.getTeams]

theorem LocalTeam.id (h : LocalTeam a session team) (hkeys : KeyedTeams a.db) :
    (DB.getTeamByUsername a.db session.username).id = team.id :=
  (getTeamByUsername_id hkeys h.mem).mpr h.name

/-! ### The list of teams -/

theorem handleGetTeams_agree {t : Nat} (ha : LocalTeam a session team)
    (hb : LocalTeam b session team) (hagree : AgreeFor t a b) :
    handleGetTeams conf a.teamSite session = handleGetTeams conf b.teamSite session := by
  unfold handleGetTeams
  rw [ha.oidcUserInfo, hb.oidcUserInfo]
  simp only [PageState.teamSite, hagree.teamFails, hagree.getTeams, hagree.getTeamByUsername]
  rfl

/-! ### Services -/

theorem getUserTeamID_local (ha : LocalTeam a session team) :
    getUserTeamID conf a.teamSite session.username =
      match a.teamFails .getTeamByUsername with
      | some err => .error err
      | none =>
        let me := DB.getTeamByUsername a.db session.username
        if me.id = 0 then .error (str "user not associated with any team") else .ok me.id := by
  unfold getUserTeamID
  rw [ha.oidcUserInfo]
  rfl

theorem servicesTeam_agree {t : Nat} (ha : LocalTeam a session team)
    (hb : LocalTeam b session team) (hagree : AgreeFor t a b) (path : GoString) :
    servicesTeam conf a.teamSite session path = servicesTeam conf b.teamSite session path := by
  have hid : getUserTeamID conf a.teamSite session.username =
      getUserTeamID conf b.teamSite session.username := by
    rw [getUserTeamID_local ha, getUserTeamID_local hb, hagree.teamFails, hagree.getTeamByUsername]
  unfold servicesTeam
  rw [hid]
  simp only [PageState.teamSite, hagree.started]

/-- The services that are shown are the team's. -/
theorem servicesTeam_local (ha : LocalTeam a session team) (hkeys : KeyedTeams a.db)
    {path : GoString} {teamID : Nat} (h : servicesTeam conf a.teamSite session path = .ok teamID) :
    teamID = team.id := by
  unfold servicesTeam at h
  split at h
  · cases h
  · split at h
    · cases h
    · rw [if_neg ha.not_admin] at h
      split at h
      · cases h
      · rename_i myTeamID hmine
        split at h
        · cases h
        · rename_i hown
          obtain rfl := Except.ok.inj h
          rw [not_not.mp hown, ← ha.id hkeys]
          rw [getUserTeamID_local ha] at hmine
          split at hmine
          · cases hmine
          · dsimp only at hmine
            split at hmine
            · cases hmine
            · exact (Except.ok.inj hmine).symm

theorem serviceSummary_agree {t : Nat} (hagree : AgreeFor t a b) (name : GoString) :
    serviceSummary a.teamSite t name = serviceSummary b.teamSite t name := by
  have huptime : a.uptimePerService.get t name = b.uptimePerService.get t name := by
    rw [GoMap₂.get, GoMap₂.get, GoMap₂.find?, GoMap₂.find?, hagree.uptimes]
  have hslas := Rows.filter_congr_of_imp
    (p := fun sla : SLASchema => decide (sla.teamID = t ∧ sla.serviceName = name))
    (fun sla hsla => by simpa using (of_decide_eq_true hsla).1) hagree.slas
  have hchecks := fun id => Rows.filter_congr_of_imp
    (p := fun check : ServiceCheckSchema =>
      decide (check.roundID = id ∧ check.teamID = t ∧ check.serviceName = name))
    (fun check hcheck => by simpa using (of_decide_eq_true hcheck).2.1) hagree.checks
  simp only [serviceSummary, PageState.teamSite, huptime, hslas, hchecks, hagree.rounds]

theorem getTeamSummary_agree (ha : LocalTeam a session team) (hb : LocalTeam b session team)
    (hkeys : KeyedTeams a.db) (hagree : AgreeFor team.id a b) (path : GoString) :
    getTeamSummary conf a.teamSite session path = getTeamSummary conf b.teamSite session path := by
  unfold getTeamSummary
  rw [← servicesTeam_agree ha hb hagree path]
  cases hteam : servicesTeam conf a.teamSite session path with
  | error err => rfl
  | ok teamID =>
    obtain rfl := servicesTeam_local ha hkeys hteam
    have hsummary : serviceSummary a.teamSite team.id = serviceSummary b.teamSite team.id := by
      funext name
      exact serviceSummary_agree hagree name
    have hfails : a.teamSite.fails = b.teamSite.fails := hagree.teamFails
    have hchecks : a.teamSite.db.checks.filter (fun check => check.teamID = team.id) =
        b.teamSite.db.checks.filter (fun check => check.teamID = team.id) := hagree.checks
    simp only [hsummary, hfails, hchecks]

theorem getServiceAll_agree (ha : LocalTeam a session team) (hb : LocalTeam b session team)
    (hkeys : KeyedTeams a.db) (hagree : AgreeFor team.id a b) (path serviceID : GoString) :
    getServiceAll conf a.teamSite session path serviceID =
      getServiceAll conf b.teamSite session path serviceID := by
  unfold getServiceAll
  rw [← servicesTeam_agree ha hb hagree path]
  cases hteam : servicesTeam conf a.teamSite session path with
  | error err => rfl
  | ok teamID =>
    obtain rfl := servicesTeam_local ha hkeys hteam
    have hfails : a.teamSite.fails = b.teamSite.fails := hagree.teamFails
    have hchecks : a.teamSite.db.checks.filter (fun check =>
          check.teamID = team.id ∧ check.serviceName = serviceID) =
        b.teamSite.db.checks.filter (fun check =>
          check.teamID = team.id ∧ check.serviceName = serviceID) :=
      Rows.filter_congr_of_imp
        (fun check hcheck => by simpa using (of_decide_eq_true hcheck).1) hagree.checks
    simp only [hfails, hchecks]

/-! ### Injects and submissions -/

/-- A row's team has the user's name exactly if it is the team's own row. -/
theorem teamName_eq_iff (ha : LocalTeam a session team) (hkeys : KeyedTeams a.db)
    (submission : SubmissionSchema) :
    teamName a.db submission = session.username ↔ submission.teamID = team.id := by
  unfold teamName
  constructor
  · intro h
    cases hfind : a.db.teams.find? (fun team => team.id = submission.teamID) with
    | none =>
      rw [hfind] at h
      exact absurd h.symm ha.named
    | some other =>
      rw [hfind] at h
      have hname : other.name = team.name := h.trans ha.name.symm
      have hid : other.id = submission.teamID := by simpa using List.find?_some hfind
      rw [← hid, hkeys.names other (List.mem_of_find?_eq_some hfind) team ha.mem hname]
  · intro h
    cases hfind : a.db.teams.find? (fun team => team.id = submission.teamID) with
    | none =>
      have hnone := List.find?_eq_none.mp hfind team ha.mem
      simp [h] at hnone
    | some other =>
      have hid : other.id = submission.teamID := by simpa using List.find?_some hfind
      have hother := hkeys.ids other (List.mem_of_find?_eq_some hfind) team ha.mem (hid.trans h)
      rw [hother]
      exact ha.name

theorem getInjects_agree (ha : LocalTeam a session team) (hb : LocalTeam b session team)
    (hkeys : KeyedTeams a.db) (hagree : AgreeFor team.id a b) :
    getInjects a.injectSite session = getInjects b.injectSite session := by
  have hkeys' : KeyedTeams b.db := by
    obtain ⟨hpos, hbigint, hids, hnames⟩ := hkeys
    rw [hagree.teams] at hpos hbigint hids hnames
    exact ⟨hpos, hbigint, hids, hnames⟩
  have hown : ∀ inject : InjectSchema,
      (getSubmissionsForInject a.submissions inject.id).filter (fun submission =>
        teamName a.db submission = session.username) =
      (getSubmissionsForInject b.submissions inject.id).filter (fun submission =>
        teamName b.db submission = session.username) := by
    intro inject
    simp only [getSubmissionsForInject, List.filter_filter, teamName_eq_iff ha hkeys,
      teamName_eq_iff hb hkeys']
    apply Rows.filter_congr_of_imp _ hagree.submissions
    intro submission h
    exact (Bool.and_eq_true_iff.mp h).1
  simp only [getInjects, PageState.injectSite, if_neg ha.not_admin, hown, hagree.submissionFails,
    hagree.injects, hagree.now]
  rfl

/-- The file is looked for in a directory of the team. -/
theorem safeOpenFile_agree {t : Nat} (hagree : AgreeFor t a b) (injectID version : Nat)
    (name : GoString) :
    safeOpenFile a.injectSite a.files (str "submissions" ++ slash :: subDir injectID t version) name =
      safeOpenFile b.injectSite b.files (str "submissions" ++ slash :: subDir injectID t version)
        name := by
  have hfile := hagree.files ⟨t, injectID, 0, name, version⟩ rfl
  rw [← locate_subDir, ← locate_subDir] at hfile
  unfold safeOpenFile
  split
  · exact hfile
  · rfl

theorem downloadSubmissionFile_agree (ha : LocalTeam a session team) (hkeys : KeyedTeams a.db)
    (hagree : AgreeFor team.id a b) (id path version : GoString) :
    downloadSubmissionFile a.injectSite a.files session id path version =
      downloadSubmissionFile b.injectSite b.files session id path version := by
  have hfails : a.injectSite.fails = b.injectSite.fails := hagree.submissionFails
  have hme : (DB.getTeamByUsername a.injectSite.db session.username).id = team.id := ha.id hkeys
  have hme' : (DB.getTeamByUsername b.injectSite.db session.username).id = team.id := by
    rw [← hme]
    exact congrArg TeamSchema.id (hagree.getTeamByUsername session.username).symm
  have hsubmission : ∀ injectID version : Nat,
      (getSubmissionsForInject a.injectSite.submissions injectID).find? (fun s =>
        s.injectID = injectID ∧ s.teamID = team.id ∧ s.version = version) =
      (getSubmissionsForInject b.injectSite.submissions injectID).find? (fun s =>
        s.injectID = injectID ∧ s.teamID = team.id ∧ s.version = version) := by
    intro injectID version
    simp only [getSubmissionsForInject, List.find?_filter]
    apply Rows.find?_congr_of_imp _ hagree.submissions
    intro submission h
    simp only [decide_eq_true_eq] at h ⊢
    exact h.2.2.1
  unfold downloadSubmissionFile
  rw [hfails, hme, hme']
  split
  · rfl
  · rename_i injectID _
    split
    · rfl
    · rename_i teamID _
      split
      · rfl
      · rename_i version _
        by_cases hown : team.id = teamID
        · subst hown
          simp only [hsubmission, safeOpenFile_agree hagree]
        · have hgate : .admin ∉ session.roles ∧ .inject ∉ session.roles ∧ team.id ≠ teamID :=
            ⟨ha.not_admin, ha.not_inject, hown⟩
          simp only [if_pos hgate]

/-! ### Two runs -/

/-- A local session of a team is answered alike, for every request, whatever belongs to other
teams. -/
theorem team_isolated (hkeys : KeyedTeams a.db) (hlocal : LocalTeam a session team)
    (hstore : b.store.lookup session.username = none) (hagree : AgreeFor team.id a b) :
    handleGetTeams conf a.teamSite session = handleGetTeams conf b.teamSite session ∧
    (∀ path, getTeamSummary conf a.teamSite session path =
      getTeamSummary conf b.teamSite session path) ∧
    (∀ path serviceID, getServiceAll conf a.teamSite session path serviceID =
      getServiceAll conf b.teamSite session path serviceID) ∧
    getInjects a.injectSite session = getInjects b.injectSite session ∧
    ∀ id path version, downloadSubmissionFile a.injectSite a.files session id path version =
      downloadSubmissionFile b.injectSite b.files session id path version := by
  have hlocal' := hlocal.agree hagree hstore
  refine ⟨handleGetTeams_agree hlocal hlocal' hagree, fun path => ?_, fun path serviceID => ?_, ?_,
    fun id path version => ?_⟩
  · exact getTeamSummary_agree hlocal hlocal' hkeys hagree path
  · exact getServiceAll_agree hlocal hlocal' hkeys hagree path serviceID
  · exact getInjects_agree hlocal hlocal' hkeys hagree
  · exact downloadSubmissionFile_agree hlocal hkeys hagree id path version

/-- A state with two teams, the first of which has passed a check and handed a submission in. -/
def withRival (checks : List ServiceCheckSchema) (submissions : List SubmissionSchema) :
    PageState where
  now := 1
  started := true
  db := {
    teams := [⟨1, str "team01", str "01", true⟩, ⟨2, str "team02", str "02", true⟩]
    rounds := [1]
    checks := ⟨1, 1, str "ssh", 5, true, [], []⟩ :: checks }
  injects := [⟨1, 0, 1⟩]
  submissions := ⟨1, 1, 0, str "report.pdf", 1⟩ :: submissions

/-- The first team is not told what the second one has done. -/
theorem team_isolated_rival :
    let a := withRival [] []
    let b := withRival [⟨2, 1, str "ssh", 5, false, [], str "creds root:hunter2"⟩]
      [⟨2, 1, 0, str "plan.pdf", 1⟩]
    let session : Session := ⟨str "team01", [.team]⟩
    a.db ≠ b.db ∧ a.submissions ≠ b.submissions ∧
      (∀ path serviceID, getServiceAll {} a.teamSite session path serviceID =
        getServiceAll {} b.teamSite session path serviceID) ∧
      ∀ id path version, downloadSubmissionFile a.injectSite a.files session id path version =
        downloadSubmissionFile b.injectSite b.files session id path version := by
  intro a b session
  have hkeys : KeyedTeams a.db :=
    ⟨by decide +kernel, by decide +kernel, by decide +kernel, by decide +kernel⟩
  have hlocal : LocalTeam a session ⟨1, str "team01", str "01", true⟩ :=
    ⟨rfl, by decide +kernel, rfl, by decide +kernel, rfl⟩
  have hagree : AgreeFor 1 a b :=
    ⟨rfl, rfl, rfl, rfl, rfl, rfl, rfl, rfl, by decide +kernel, rfl, by decide +kernel, rfl,
      fun _ _ => rfl⟩
  have hisolated := @team_isolated {} session a b ⟨1, str "team01", str "01", true⟩ hkeys hlocal rfl
    hagree
  exact ⟨by decide +kernel, by decide +kernel, hisolated.2.2.1, hisolated.2.2.2.2⟩

end QuotientScoring.WWW
