import QuotientScoring.WWW.Teams

/-! Whether the handlers agree on the team of a session.

The handlers of credentials and of submissions look the team up by the user name;
those of services ask the OIDC store first and go by groups. `teams_agree_iff`: all
act for one team, or none of them for any, exactly if the store does not know the
name, or the groups name first the team that has the user's name (and the number of
that team fits the routes that name it, and a user with the inject role has no other
team's submissions to read). -/
namespace QuotientScoring.WWW
open DB GoText GoTime GoPath Config Decimal

/-- The handlers that act for a session's own team. -/
inductive TeamHandler where
  | createPcr
  | resetPcr
  | createSubmission
  | getInjects
  | downloadSubmissionFile
  | getTeamSummary
  | getServiceAll
deriving DecidableEq

variable (conf : ConfigSettings) (site : TeamSite) (session : Session)

/-- There is a request, and a state of the tables of injects and submissions, in which the handler
changes, stores or shows what belongs to the team. -/
def ActsFor (teamID : Nat) : TeamHandler → Prop
  | .createPcr => ∃ form update, createPcr conf site session form = .ok update ∧
      update.teamID = teamID
  | .resetPcr => ∃ form reset, resetPcr conf site session form = .ok reset ∧ reset.teamID = teamID
  | .createSubmission => ∃ (injects : InjectSite) (files files' : Files) (id : GoString) (form : Form)
      (submission : SubmissionSchema), injects.db = site.db ∧
      createSubmission injects files session id form =
        (injects.submissions ++ [submission], files', .ok ()) ∧ submission.teamID = teamID
  | .getInjects => ∃ (injects : InjectSite) (data : List (InjectSchema × List SubmissionSchema)),
      injects.db = site.db ∧ getInjects injects session = .ok data ∧
      ∃ shown ∈ data, ∃ submission ∈ shown.2, submission.teamID = teamID
  | .downloadSubmissionFile => ∃ (injects : InjectSite) (files : Files) (id team version : GoString)
      (file : SubmissionFile), injects.db = site.db ∧ parseUint 32 team = some teamID ∧
      downloadSubmissionFile injects files session id team version = .ok file
  | .getTeamSummary => ∃ path summaries,
      getTeamSummary conf site session path = .ok (teamID, summaries)
  | .getServiceAll => ∃ path serviceID checks,
      getServiceAll conf site session path serviceID = .ok (teamID, checks)

/-- All handlers act for one and the same team, or none of them for any. -/
def OneTeam : Prop :=
  ∃ own : Option TeamSchema, (∀ team, own = some team → team ∈ site.db.teams) ∧
    ∀ handler, ∀ team ∈ site.db.teams, ActsFor conf site session team.id handler ↔ own = some team

/-! ### The team that groups name -/

/-- The pattern is for the group, and the last two bytes of the group are the number in the name
of the team. -/
structure Names (group pattern : GoString) (team : TeamSchema) : Prop where
  base : trimSuffix pattern (str "*") <+: group
  long : 2 ≤ group.length
  number : ∃ num, atoi (group.drop (group.length - 2)) = some num ∧
    team.name = str "team" ++ sprintf02 num

/-- The groups with the patterns, in the order they are tried. -/
def groupPatterns (groups : List GoString) : List (GoString × GoString) :=
  groups.flatMap (fun group => conf.oidcSettings.oidcTeamGroups.map (fun pattern => (group, pattern)))

/-- The first group and pattern that name a team name this one. -/
def FirstNamed (groups : List GoString) (team : TeamSchema) : Prop :=
  ∃ before group pattern after, groupPatterns conf groups = before ++ (group, pattern) :: after ∧
    Names group pattern team ∧
    ∀ tried ∈ before, ∀ other ∈ site.db.teams, ¬Names tried.1 tried.2 other

variable {conf site session}

theorem names_of_teamOfGroup {teams : List TeamSchema} {group pattern : GoString}
    {team : TeamSchema} (h : teamOfGroup teams group pattern = some team) :
    team ∈ teams ∧ Names group pattern team := by
  unfold teamOfGroup at h
  dsimp only at h
  split at h
  · rename_i hgroup
    split at h
    · cases h
    · rename_i num hnum
      have hname : team.name = str "team" ++ sprintf02 num := by simpa using List.find?_some h
      exact ⟨List.mem_of_find?_eq_some h, hgroup.1, hgroup.2, num, hnum, hname⟩
  · cases h

theorem teamOfGroup_eq_none {teams : List TeamSchema} {group pattern : GoString} :
    teamOfGroup teams group pattern = none ↔ ∀ team ∈ teams, ¬Names group pattern team := by
  constructor
  · intro hnone team hmem hnames
    obtain ⟨hbase, hlong, num, hnum, hname⟩ := hnames
    simp only [teamOfGroup, hbase, hlong, and_self, if_true, hnum] at hnone
    exact absurd (decide_eq_true hname) (List.find?_eq_none.mp hnone team hmem)
  · intro hall
    cases hteam : teamOfGroup teams group pattern with
    | none => rfl
    | some team =>
      obtain ⟨hmem, hnames⟩ := names_of_teamOfGroup hteam
      exact absurd hnames (hall team hmem)

theorem teamOfGroup_eq_some (hkeys : KeyedTeams site.db) {group pattern : GoString}
    {team : TeamSchema} : teamOfGroup (getTeams site.db) group pattern = some team ↔
      team ∈ site.db.teams ∧ Names group pattern team := by
  constructor
  · intro h
    obtain ⟨hmem, hnames⟩ := names_of_teamOfGroup h
    exact ⟨mem_getTeams.mp hmem, hnames⟩
  · intro ⟨hmem, hbase, hlong, num, hnum, hname⟩
    simp only [teamOfGroup, hbase, hlong, and_self, if_true, hnum]
    exact (find?_getTeams_eq_some hkeys).mpr ⟨hmem, hname⟩

/-- The two loops are one over groups and patterns. -/
theorem mapOIDCUserToTeam_eq (teams : List TeamSchema) (groups : List GoString) :
    mapOIDCUserToTeam conf teams groups =
      (groupPatterns conf groups).findSome? (fun tried => teamOfGroup teams tried.1 tried.2) := by
  induction groups with
  | nil => rfl
  | cons group rest ih =>
    rw [groupPatterns, List.flatMap_cons, List.findSome?_append, List.findSome?_map,
      ← groupPatterns, ← ih, mapOIDCUserToTeam, List.findSome?_cons]
    simp only [Function.comp_def]
    cases conf.oidcSettings.oidcTeamGroups.findSome? (fun pattern => teamOfGroup teams group pattern) <;>
      rfl

theorem mapOIDCUserToTeam_eq_some (hkeys : KeyedTeams site.db) {groups : List GoString}
    {team : TeamSchema} : mapOIDCUserToTeam conf (getTeams site.db) groups = some team ↔
      team ∈ site.db.teams ∧ FirstNamed conf site groups team := by
  rw [mapOIDCUserToTeam_eq, List.findSome?_eq_some_iff]
  constructor
  · intro ⟨before, (group, pattern), after, hsplit, hteam, hbefore⟩
    obtain ⟨hmem, hnames⟩ := (teamOfGroup_eq_some hkeys).mp hteam
    exact ⟨hmem, before, group, pattern, after, hsplit, hnames, fun tried htried other hother =>
      teamOfGroup_eq_none.mp (hbefore tried htried) other (mem_getTeams.mpr hother)⟩
  · intro ⟨hmem, before, group, pattern, after, hsplit, hnames, hbefore⟩
    exact ⟨before, (group, pattern), after, hsplit, (teamOfGroup_eq_some hkeys).mpr ⟨hmem, hnames⟩,
      fun tried htried => teamOfGroup_eq_none.mpr (fun other hother =>
        hbefore tried htried other (mem_getTeams.mp hother))⟩

/-! ### Whom each handler acts for -/

/-- The competition has started, every call of the database answers, and teams may change their
own credentials; the session is not an admin's. -/
structure Open (conf : ConfigSettings) (site : TeamSite) (session : Session) : Prop where
  started : site.started = true
  answers : ∀ query, site.fails query = none
  easyPCR : conf.miscSettings.easyPCR = true
  admin : .admin ∉ session.roles

/-- Teams change the credentials of the team with the user's name. -/
theorem pcrTeam_of_eq_ok (hopen : Open conf site session) {refusal teamID : GoString} {id : Nat}
    (h : pcrTeam conf site session refusal teamID = .ok id) :
    id = (getTeamByUsername site.db session.username).id := by
  simp only [pcrTeam, hopen.admin, hopen.easyPCR, hopen.answers, if_false, if_true,
    Option.isSome_none, Bool.false_eq_true] at h
  split at h
  · cases h
  · rename_i hown
    rw [not_not.mp hown, parseUint_decimal] at h
    split at h
    · cases h
    · rename_i hparse
      split at hparse
      · obtain rfl := Option.some.inj hparse
        exact (Except.ok.inj h).symm
      · cases hparse

theorem pcrTeam_own (hopen : Open conf site session) (refusal : GoString)
    (hlt : (getTeamByUsername site.db session.username).id < 2 ^ 64) :
    pcrTeam conf site session refusal (decimal (getTeamByUsername site.db session.username).id) =
      .ok (getTeamByUsername site.db session.username).id := by
  simp only [pcrTeam, hopen.admin, hopen.easyPCR, hopen.answers, if_false, if_true,
    Option.isSome_none, Bool.false_eq_true, ne_eq, not_true_eq_false, parseUint_decimal, hlt]

variable {team : TeamSchema}

/-- Some form is taken for a team exactly if the team has the user's name. -/
theorem pcrTeam_iff (hopen : Open conf site session) (hkeys : KeyedTeams site.db)
    (hmem : team ∈ site.db.teams) (refusal : GoString) :
    (∃ teamID, pcrTeam conf site session refusal teamID = .ok team.id) ↔
      team.name = session.username := by
  rw [← getTeamByUsername_id hkeys hmem]
  constructor
  · intro ⟨teamID, h⟩
    exact (pcrTeam_of_eq_ok hopen h).symm
  · intro hid
    have hbigint := hkeys.bigint team hmem
    rw [← hid] at hbigint ⊢
    exact ⟨_, pcrTeam_own hopen refusal (by omega)⟩

theorem exists_createPcr {id : Nat} :
    (∃ form update, createPcr conf site session form = .ok update ∧ update.teamID = id) ↔
      ∃ teamID, pcrTeam conf site session (str "PCR not allowed") teamID = .ok id := by
  constructor
  · rintro ⟨form, update, hupdate, rfl⟩
    unfold createPcr at hupdate
    split at hupdate
    · cases hupdate
    · split at hupdate
      · cases hupdate
      · rename_i hpcr
        obtain rfl := Except.ok.inj hupdate
        exact ⟨_, hpcr⟩
  · intro ⟨teamID, hpcr⟩
    exact ⟨some {teamID := teamID, credlistPath := []}, _, by simp only [createPcr, hpcr]; rfl, rfl⟩

theorem exists_resetPcr {id : Nat} :
    (∃ form reset, resetPcr conf site session form = .ok reset ∧ reset.teamID = id) ↔
      ∃ teamID, pcrTeam conf site session (str "PCR reset not allowed") teamID = .ok id := by
  constructor
  · rintro ⟨form, reset, hreset, rfl⟩
    unfold resetPcr at hreset
    split at hreset
    · cases hreset
    · split at hreset
      · cases hreset
      · rename_i hpcr
        obtain rfl := Except.ok.inj hreset
        exact ⟨_, hpcr⟩
  · intro ⟨teamID, hpcr⟩
    exact ⟨some {teamID := teamID, credlistPath := []}, _, by simp only [resetPcr, hpcr]; rfl, rfl⟩

/-- Both handlers of credentials act for the team with the user's name. -/
theorem actsFor_pcr (hopen : Open conf site session) (hkeys : KeyedTeams site.db)
    (hmem : team ∈ site.db.teams) :
    (ActsFor conf site session team.id .createPcr ↔ team.name = session.username) ∧
      (ActsFor conf site session team.id .resetPcr ↔ team.name = session.username) :=
  ⟨exists_createPcr.trans (pcrTeam_iff hopen hkeys hmem _),
    exists_resetPcr.trans (pcrTeam_iff hopen hkeys hmem _)⟩

/-- One inject that is open, and the submissions to it. -/
def oneInject (db : Database) (submissions : List SubmissionSchema) : InjectSite where
  cwd := []
  now := 1
  db := db
  injects := [⟨1, 0, 1⟩]
  submissions := submissions

/-- An upload is stored under the team with the user's name. -/
theorem actsFor_createSubmission (hkeys : KeyedTeams site.db) (hmem : team ∈ site.db.teams) :
    ActsFor conf site session team.id .createSubmission ↔ team.name = session.username := by
  constructor
  · rintro ⟨injects, files, files', id, form, submission, hdb, hcreate, hteam⟩
    apply (getTeamByUsername_id hkeys hmem).mp
    rw [← hteam, ← hdb]
    unfold createSubmission at hcreate
    split at hcreate
    · simp at hcreate
    · rename_i row contents hnew
      have hrow := (newSubmission_eq_ok hnew).2
      split at hcreate
      · simp at hcreate
      · dsimp only at hcreate
        split at hcreate
        · simp at hcreate
        · have hlast := List.append_cancel_left (Prod.mk.inj hcreate).1
          obtain rfl := (List.cons.inj hlast).1
          exact hrow.symm
  · intro hname
    have hid := (getTeamByUsername_id hkeys hmem).mpr hname
    have hnew : newSubmission (oneInject site.db []) session (decimal 1) (.upload (str "a") []) =
        .ok (⟨team.id, 1, 1, str "a", 0⟩, []) := by
      simp [newSubmission, parseUint_decimal, oneInject, hid]
    have hforeign : ForeignKeys (oneInject site.db []) ⟨team.id, 1, 1, str "a", 0⟩ :=
      ⟨⟨team, hmem, rfl⟩, ⟨1, 0, 1⟩, by simp [oneInject], rfl⟩
    have hfile : Creatable (str "a") := by decide +kernel
    let row := SubmissionSchema.beforeCreate ⟨team.id, 1, 1, str "a", 0⟩ []
    have hcreate : ∃ files', createSubmission (oneInject site.db []) ∅ session (decimal 1)
        (.upload (str "a") []) = ([row], files', .ok ()) := by
      simp only [createSubmission, hnew, hforeign, saveFile_eq, SubmissionSchema.beforeCreate, hfile,
        if_true, not_true_eq_false, or_false]
      exact ⟨_, rfl⟩
    obtain ⟨files', hcreate⟩ := hcreate
    exact ⟨oneInject site.db [], ∅, files', _, _, row, rfl, hcreate, rfl⟩

/-- The submissions shown are those of the team with the user's name. -/
theorem actsFor_getInjects (hadmin : .admin ∉ session.roles) (hkeys : KeyedTeams site.db)
    (hmem : team ∈ site.db.teams) :
    ActsFor conf site session team.id .getInjects ↔ team.name = session.username := by
  have hteam : ∀ submission : SubmissionSchema, submission.teamID = team.id →
      teamName site.db submission = team.name := by
    intro submission hid
    cases hfind : site.db.teams.find? (fun other => other.id = submission.teamID) with
    | none =>
      have hnone := List.find?_eq_none.mp hfind team hmem
      simp [hid] at hnone
    | some other =>
      have hother : other.id = submission.teamID := by simpa using List.find?_some hfind
      have hsame := hkeys.ids other (List.mem_of_find?_eq_some hfind) team hmem (hother.trans hid)
      rw [teamName, hfind, hsame]
      rfl
  constructor
  · rintro ⟨injects, data, hdb, hdata, shown, hshown, submission, hsubmission, hid⟩
    unfold getInjects at hdata
    simp only [hadmin, if_false] at hdata
    split at hdata
    · cases hdata
    · split at hdata
      · cases hdata
      · obtain rfl := Except.ok.inj hdata
        obtain ⟨inject, _, rfl⟩ := List.mem_map.mp hshown
        have hname := (List.mem_filter.mp hsubmission).2
        rw [hdb, hteam submission hid] at hname
        exact of_decide_eq_true hname
  · intro hname
    have hdata : getInjects (oneInject site.db [⟨team.id, 1, 0, [], 1⟩]) session =
        .ok [(⟨1, 0, 1⟩, [⟨team.id, 1, 0, [], 1⟩])] := by
      simp [getInjects, oneInject, hadmin, getSubmissionsForInject, hteam, hname]
    exact ⟨oneInject site.db [⟨team.id, 1, 0, [], 1⟩], _, rfl, hdata, _, List.mem_cons_self ..,
      _, List.mem_cons_self .., rfl⟩

/-- The submissions that can be downloaded are those of the team with the user's name, and with the
inject role those of every team, if the route can name it. -/
theorem actsFor_downloadSubmissionFile (hadmin : .admin ∉ session.roles)
    (hkeys : KeyedTeams site.db) (hmem : team ∈ site.db.teams) :
    ActsFor conf site session team.id .downloadSubmissionFile ↔
      (.inject ∈ session.roles ∨ team.name = session.username) ∧ team.id < 2 ^ 32 := by
  constructor
  · rintro ⟨injects, files, id, path, version, file, hdb, hpath, hfile⟩
    obtain ⟨teamID, hteam, hread⟩ := mayRead_of_download hfile
    rw [hpath] at hteam
    obtain rfl := Option.some.inj hteam
    refine ⟨?_, parseUint_lt hpath⟩
    obtain h | h | h := hread
    · exact absurd h hadmin
    · exact .inl h
    · rw [hdb] at h
      exact .inr ((getTeamByUsername_id hkeys hmem).mp h)
  · intro ⟨hleave, hlt⟩
    let row : SubmissionSchema := ⟨team.id, 1, 0, str "a", 1⟩
    have hroute : Routable row :=
      ⟨show 1 < 2 ^ 32 by decide, hlt, show 0 < 1 by decide, show 1 < 2 ^ 32 by decide⟩
    have hread : MayRead (oneInject site.db [row]) session row.teamID :=
      .inr (hleave.imp id (getTeamByUsername_id hkeys hmem).mpr)
    have hcreatable : Creatable (str "a") := by decide +kernel
    have hfile := downloadSubmissionFile_row (fun _ => rfl) hread hroute (List.mem_singleton.mpr rfl)
      (fun other hother _ _ => List.mem_singleton.mp hother) hcreatable
      (AList.lookup_insert (a := (submissionDir [] row, str "a")) (b := []) ∅)
    exact ⟨oneInject site.db [row], _, _, _, _, _, rfl, by rw [parseUint_decimal, if_pos hlt], hfile⟩

/-- The team whose services are shown: the one that the groups name first, for a user the store
knows, and the one with the user's name otherwise. -/
def ServedAs (conf : ConfigSettings) (site : TeamSite) (username : GoString) (team : TeamSchema) :
    Prop :=
  match oidcUserInfo conf site username with
  | some userInfo => FirstNamed conf site userInfo.groups team
  | none => team.name = username

theorem getUserTeamID_eq_ok (hanswers : ∀ query, site.fails query = none)
    (hkeys : KeyedTeams site.db) (hmem : team ∈ site.db.teams) {username : GoString} :
    getUserTeamID conf site username = .ok team.id ↔ ServedAs conf site username team := by
  unfold getUserTeamID ServedAs
  cases oidcUserInfo conf site username with
  | some userInfo =>
    simp only [hanswers]
    constructor
    · intro h
      split at h
      · rename_i other hother
        obtain ⟨hmem', hnamed⟩ := (mapOIDCUserToTeam_eq_some hkeys).mp hother
        rw [← hkeys.ids other hmem' team hmem (Except.ok.inj h)]
        exact hnamed
      · cases h
    · intro hnamed
      rw [(mapOIDCUserToTeam_eq_some hkeys).mpr ⟨hmem, hnamed⟩]
  | none =>
    simp only [hanswers]
    rw [← getTeamByUsername_id hkeys hmem]
    have hpos := hkeys.pos team hmem
    constructor
    · intro h
      split at h
      · cases h
      · exact Except.ok.inj h
    · intro hid
      rw [hid, if_neg (by omega)]

theorem servicesTeam_eq_ok (hopen : Open conf site session) {path : GoString} {teamID : Nat} :
    servicesTeam conf site session path = .ok teamID ↔
      parseUint 32 path = some teamID ∧ getUserTeamID conf site session.username = .ok teamID := by
  simp only [servicesTeam, hopen.started, checkCompetitionStarted_true, hopen.admin, if_false]
  cases parseUint 32 path with
  | none => simp
  | some parsed =>
    cases getUserTeamID conf site session.username with
    | error err => simp
    | ok myTeamID =>
      by_cases h : parsed = myTeamID
      · simp [h]
      · simp only [ne_eq, h, not_false_eq_true, if_true, reduceCtorEq, Option.some.injEq,
          Except.ok.injEq, false_iff]
        rintro ⟨rfl, rfl⟩
        exact h rfl

/-- Some path is answered for a team exactly if the user is served as the team and the route can
name it. -/
theorem servicesTeam_iff (hopen : Open conf site session) (hkeys : KeyedTeams site.db)
    (hmem : team ∈ site.db.teams) :
    (∃ path, servicesTeam conf site session path = .ok team.id) ↔
      team.id < 2 ^ 32 ∧ ServedAs conf site session.username team := by
  rw [← getUserTeamID_eq_ok hopen.answers hkeys hmem]
  constructor
  · intro ⟨path, h⟩
    obtain ⟨hpath, hteam⟩ := (servicesTeam_eq_ok hopen).mp h
    exact ⟨parseUint_lt hpath, hteam⟩
  · intro ⟨hlt, hteam⟩
    exact ⟨decimal team.id, (servicesTeam_eq_ok hopen).mpr
      ⟨by rw [parseUint_decimal, if_pos hlt], hteam⟩⟩

theorem exists_getTeamSummary (hopen : Open conf site session) {id : Nat} :
    (∃ path summaries, getTeamSummary conf site session path = .ok (id, summaries)) ↔
      ∃ path, servicesTeam conf site session path = .ok id := by
  have hanswers : (site.fails .getTeamSummary).isSome = false := by rw [hopen.answers]; rfl
  constructor
  · intro ⟨path, summaries, h⟩
    unfold getTeamSummary at h
    split at h
    · cases h
    · rename_i hteam
      rw [if_neg (by simp [hanswers])] at h
      obtain ⟨rfl, -⟩ := Prod.mk.inj (Except.ok.inj h)
      exact ⟨path, hteam⟩
  · intro ⟨path, hteam⟩
    exact ⟨path, _, by
      simp only [getTeamSummary, hteam, hanswers, Bool.false_eq_true, if_false]
      rfl⟩

theorem exists_getServiceAll (hopen : Open conf site session) {id : Nat} :
    (∃ path serviceID checks, getServiceAll conf site session path serviceID = .ok (id, checks)) ↔
      ∃ path, servicesTeam conf site session path = .ok id := by
  have hanswers : (site.fails .getServiceAllChecksByTeam).isSome = false := by rw [hopen.answers]; rfl
  constructor
  · intro ⟨path, serviceID, checks, h⟩
    unfold getServiceAll at h
    split at h
    · cases h
    · rename_i hteam
      rw [if_neg (by simp [hanswers])] at h
      obtain ⟨rfl, -⟩ := Prod.mk.inj (Except.ok.inj h)
      exact ⟨path, hteam⟩
  · intro ⟨path, hteam⟩
    exact ⟨path, [], _, by
      simp only [getServiceAll, hteam, hanswers, Bool.false_eq_true, if_false]
      rfl⟩

/-- Both handlers of services act for the team the user is served as, if the route can name it. -/
theorem actsFor_services (hopen : Open conf site session) (hkeys : KeyedTeams site.db)
    (hmem : team ∈ site.db.teams) :
    (ActsFor conf site session team.id .getTeamSummary ↔
      team.id < 2 ^ 32 ∧ ServedAs conf site session.username team) ∧
    (ActsFor conf site session team.id .getServiceAll ↔
      team.id < 2 ^ 32 ∧ ServedAs conf site session.username team) :=
  ⟨(exists_getTeamSummary hopen).trans (servicesTeam_iff hopen hkeys hmem),
    (exists_getServiceAll hopen).trans (servicesTeam_iff hopen hkeys hmem)⟩

/-! ### One team -/

variable (conf site session)

/-- The team with the user's name is one that the routes can name, and for a user the OIDC store
knows it is the first that the groups name. To a user with the inject role no other team's
submissions can be shown, because there is no other team that the routes can name. -/
structure NamedAlike : Prop where
  routable : ∀ team ∈ site.db.teams, team.name = session.username → team.id < 2 ^ 32
  groups : ∀ userInfo, oidcUserInfo conf site session.username = some userInfo →
    ∀ team ∈ site.db.teams, team.id < 2 ^ 32 →
      (FirstNamed conf site userInfo.groups team ↔ team.name = session.username)
  alone : .inject ∈ session.roles →
    ∀ team ∈ site.db.teams, team.id < 2 ^ 32 → team.name = session.username

variable {conf site session}

theorem NamedAlike.served (h : NamedAlike conf site session) (hmem : team ∈ site.db.teams) :
    team.id < 2 ^ 32 ∧ ServedAs conf site session.username team ↔ team.name = session.username := by
  have hgroups := h.groups
  unfold ServedAs
  cases hinfo : oidcUserInfo conf site session.username with
  | none => exact ⟨And.right, fun hname => ⟨h.routable team hmem hname, hname⟩⟩
  | some userInfo =>
    constructor
    · intro ⟨hlt, hnamed⟩
      exact (hgroups userInfo hinfo team hmem hlt).mp hnamed
    · intro hname
      have hlt := h.routable team hmem hname
      exact ⟨hlt, (hgroups userInfo hinfo team hmem hlt).mpr hname⟩

/-- For every content of the team table and the OIDC store, all handlers act for one team of the
session, or none for any, exactly if its name and its groups name the same team. -/
theorem teams_agree_iff (hopen : Open conf site session) (hkeys : KeyedTeams site.db) :
    OneTeam conf site session ↔ NamedAlike conf site session := by
  constructor
  · intro ⟨own, _, hacts⟩
    -- the handlers of credentials say which team it is
    have hown : ∀ team ∈ site.db.teams, own = some team ↔ team.name = session.username := by
      intro team hmem
      rw [← hacts .createPcr team hmem]
      exact (actsFor_pcr hopen hkeys hmem).1
    have hlt : ∀ team ∈ site.db.teams, team.name = session.username → team.id < 2 ^ 32 := by
      intro team hmem hname
      have hdownload := (hacts .downloadSubmissionFile team hmem).mpr ((hown team hmem).mpr hname)
      exact ((actsFor_downloadSubmissionFile hopen.admin hkeys hmem).mp hdownload).2
    have halone : .inject ∈ session.roles →
        ∀ team ∈ site.db.teams, team.id < 2 ^ 32 → team.name = session.username := by
      intro hinject team hmem hteam
      rw [← hown team hmem, ← hacts .downloadSubmissionFile team hmem]
      exact (actsFor_downloadSubmissionFile hopen.admin hkeys hmem).mpr ⟨.inl hinject, hteam⟩
    refine ⟨hlt, fun userInfo hinfo team hmem hteam => ?_, halone⟩
    have hserved : ServedAs conf site session.username team ↔
        FirstNamed conf site userInfo.groups team := by
      simp only [ServedAs, hinfo]
    rw [← hown team hmem, ← hserved, ← hacts .getTeamSummary team hmem,
      (actsFor_services hopen hkeys hmem).1]
    exact ⟨fun h => ⟨hteam, h⟩, And.right⟩
  · intro halike
    refine ⟨(getTeams site.db).find? (fun team => team.name = session.username), ?_, ?_⟩
    · intro team hteam
      exact ((find?_getTeams_eq_some hkeys).mp hteam).1
    · intro handler team hmem
      have hfind : (getTeams site.db).find? (fun team => team.name = session.username) = some team ↔
          team.name = session.username := by
        rw [find?_getTeams_eq_some hkeys]
        exact ⟨And.right, fun hname => ⟨hmem, hname⟩⟩
      rw [hfind]
      cases handler with
      | createPcr => exact (actsFor_pcr hopen hkeys hmem).1
      | resetPcr => exact (actsFor_pcr hopen hkeys hmem).2
      | createSubmission => exact actsFor_createSubmission hkeys hmem
      | getInjects => exact actsFor_getInjects hopen.admin hkeys hmem
      | downloadSubmissionFile =>
        rw [actsFor_downloadSubmissionFile hopen.admin hkeys hmem]
        constructor
        · intro ⟨hleave, hlt⟩
          exact hleave.elim (fun hinject => halike.alone hinject team hmem hlt) id
        · intro hname
          exact ⟨.inr hname, halike.routable team hmem hname⟩
      | getTeamSummary =>
        rw [(actsFor_services hopen hkeys hmem).1]
        exact halike.served hmem
      | getServiceAll =>
        rw [(actsFor_services hopen hkeys hmem).2]
        exact halike.served hmem

/-! ### Two users of the provider -/

/-- A file with the groups of the teams. -/
def oidcFile : ConfigSettings :=
  { smallFile {easyPCR := true} {} with
    team := [⟨str "team02", str "x"⟩]
    oidcSettings :=
      { oidcEnabled := true
        oidcIssuerURL := str "https://sso"
        oidcClientID := str "quotient"
        oidcClientSecret := str "secret"
        oidcRedirectURL := str "https://quotient/auth/oidc/callback"
        oidcTeamGroups := [str "Blue*"] } }

def twoTeams : Database :=
  {teams := [⟨1, str "team01", str "01", true⟩, ⟨2, str "team02", str "02", true⟩]}

theorem keyedTeams_twoTeams : KeyedTeams twoTeams where
  pos := by decide +kernel
  bigint := by decide +kernel
  ids := by decide +kernel
  names := by decide +kernel

/-- A user of the provider in the group of the first team. -/
def signedIn (username : GoString) : TeamSite where
  now := 0
  started := true
  db := twoTeams
  store := (∅ : OidcStore).insert username
    ⟨⟨username, [str "Staff", str "Blue_Team01"], [.team], 3600, []⟩, some 3600⟩

theorem open_signedIn (username : GoString) :
    Open (setConfig .plain {} oidcFile) (signedIn username) ⟨username, [.team]⟩ where
  started := rfl
  answers _ := rfl
  easyPCR := by decide +kernel
  admin := by simp

/-- A user of the provider named like the team of the group. -/
theorem teams_agree_named_alike :
    OneTeam (setConfig .plain {} oidcFile) (signedIn (str "team01")) ⟨str "team01", [.team]⟩ := by
  have hkeys : KeyedTeams (signedIn (str "team01")).db := keyedTeams_twoTeams
  refine (teams_agree_iff (open_signedIn (str "team01")) hkeys).mpr
    ⟨by decide +kernel, ?_, fun hinject => by simp at hinject⟩
  have hinfo : (oidcUserInfo (setConfig .plain {} oidcFile) (signedIn (str "team01"))
      (str "team01")).map OidcUserInfo.groups = some [str "Staff", str "Blue_Team01"] := by
    decide +kernel
  have hmap : mapOIDCUserToTeam (setConfig .plain {} oidcFile) (getTeams (signedIn (str "team01")).db)
      [str "Staff", str "Blue_Team01"] = some ⟨1, str "team01", str "01", true⟩ := by
    decide +kernel
  intro userInfo huser team hmem _
  rw [huser, Option.map_some] at hinfo
  rw [Option.some.inj hinfo]
  constructor
  · intro hnamed
    have hteam := (mapOIDCUserToTeam_eq_some hkeys).mpr ⟨hmem, hnamed⟩
    rw [hmap] at hteam
    obtain rfl := Option.some.inj hteam
    rfl
  · intro hname
    have hteam := hkeys.names _ ((mapOIDCUserToTeam_eq_some hkeys).mp hmap).1 team hmem hname.symm
    rw [← hteam]
    exact ((mapOIDCUserToTeam_eq_some hkeys).mp hmap).2

/-- A user of the provider named otherwise sees the services of the group's team, and may neither
change its credentials nor submit for it. -/
theorem teams_disagree :
    let conf := setConfig .plain {} oidcFile
    let session : Session := ⟨str "alice", [.team]⟩
    Accepts .plain oidcFile conf ∧ Open conf (signedIn (str "alice")) session ∧
      KeyedTeams (signedIn (str "alice")).db ∧ ¬OneTeam conf (signedIn (str "alice")) session := by
  intro conf session
  have hopen : Open conf (signedIn (str "alice")) session := open_signedIn (str "alice")
  have hkeys : KeyedTeams (signedIn (str "alice")).db := keyedTeams_twoTeams
  refine ⟨by decide +kernel, hopen, hkeys, ?_⟩
  intro ⟨own, _, hacts⟩
  have hmem : ⟨1, str "team01", str "01", true⟩ ∈ (signedIn (str "alice")).db.teams :=
    List.mem_cons_self ..
  have hid : getUserTeamID conf (signedIn (str "alice")) session.username = .ok 1 := by
    decide +kernel
  have hserved := (getUserTeamID_eq_ok hopen.answers hkeys hmem).mp hid
  have hshown := (actsFor_services hopen hkeys hmem).1.mpr ⟨by decide, hserved⟩
  have hchanged := (hacts .createPcr _ hmem).mpr ((hacts .getTeamSummary _ hmem).mp hshown)
  have hname := (actsFor_pcr hopen hkeys hmem).1.mp hchanged
  simp [session] at hname

end QuotientScoring.WWW
