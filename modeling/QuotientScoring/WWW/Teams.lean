import QuotientScoring.DB.Counters
import QuotientScoring.WWW.OIDC
import QuotientScoring.WWW.Submissions

/-! Which team a session is.

The handlers of credentials and of submissions look a session's team up by its user
name. The handlers of services ask the OIDC store first: a user it knows has the team
that the groups name, whatever the user name. -/
namespace QuotientScoring.WWW
open DB GoText GoTime Config Decimal

/-- The calls of the database. -/
inductive TeamQuery where
  | getTeams
  | getTeamByUsername
  | getTeamSummary
  | getServiceAllChecksByTeam
deriving DecidableEq

/-- What the handlers find. -/
structure TeamSite where
  now : Int
  started : Bool
  db : Database
  uptimePerService : UptimeMap := ∅
  store : OidcStore := ∅
  provider : OidcProvider := fun _ _ => []
  fails : TeamQuery → Option GoString := fun _ => none

variable (conf : ConfigSettings) (site : TeamSite) (session : Session)

/-- The team that a group has the number of, if the pattern is for it. -/
def teamOfGroup (teams : List TeamSchema) (group pattern : GoString) : Option TeamSchema :=
  let basePattern := trimSuffix pattern (str "*")
  if basePattern <+: group ∧ 2 ≤ group.length then
    match atoi (group.drop (group.length - 2)) with
    | none => none
    | some num => teams.find? (fun team => team.name = str "team" ++ sprintf02 num)
  else none

def mapOIDCUserToTeam (teams : List TeamSchema) (userGroups : List GoString) : Option TeamSchema :=
  userGroups.findSome? (fun group =>
    conf.oidcSettings.oidcTeamGroups.findSome? (fun pattern => teamOfGroup teams group pattern))

/-- What `GetOIDCUserInfo` answers for the name. -/
def oidcUserInfo (username : GoString) : Option OidcUserInfo :=
  (getOIDCUserInfo conf site.provider site.now site.store username).1

def getUserTeamID (username : GoString) : Except GoString Nat :=
  match oidcUserInfo conf site username with
  | some userInfo =>
    match site.fails .getTeams with
    | some err => .error err
    | none =>
      match mapOIDCUserToTeam conf (getTeams site.db) userInfo.groups with
      | some team => .ok team.id
      | none => .error (str "OIDC user not mapped to any team")
  | none =>
    match site.fails .getTeamByUsername with
    | some err => .error err
    | none =>
      let me := getTeamByUsername site.db username
      if me.id = 0 then .error (str "user not associated with any team") else .ok me.id

/-! ### Services -/

/-- The beginning of both handlers of services: the team that is asked for, if the session may
see it. -/
def servicesTeam (teamID : GoString) : Except HttpError Nat :=
  match checkCompetitionStarted site.started (some session) with
  | .error err => .error err
  | .ok () =>
    match parseUint 32 teamID with
    | none => .error ⟨400, str "Invalid team ID"⟩
    | some teamID =>
      if .admin ∈ session.roles then .ok teamID
      else
        match getUserTeamID conf site session.username with
        | .error _ => .error ⟨403, str "Forbidden"⟩
        | .ok myTeamID => if teamID ≠ myTeamID then .error ⟨403, str "Forbidden"⟩ else .ok teamID

/-- A check without its debug text and its error. -/
def scrubbed (check : ServiceCheckSchema) : ServiceCheckSchema :=
  {check with debug := [], error := []}

structure ServiceSummary where
  serviceName : GoString
  slaCount : Nat
  last10Rounds : List RoundSchema
  uptime : Float

/-- The summary of one service of a team. -/
def serviceSummary (teamID : Nat) (name : GoString) : ServiceSummary :=
  let uptime := site.uptimePerService.get teamID name
  { serviceName := name
    slaCount := (site.db.slas.filter (fun sla => sla.teamID = teamID ∧ sla.serviceName = name)).length
    last10Rounds := ((site.db.rounds.insertionSort (fun a b => b ≤ a)).take 10).map (fun id =>
      ⟨id, (site.db.checks.filter (fun check =>
        check.roundID = id ∧ check.teamID = teamID ∧ check.serviceName = name)).map scrubbed⟩)
    uptime := Float.ofInt uptime.passedChecks / Float.ofInt uptime.totalChecks }

/-- The team and its services. A number that JSON has no text for leaves the body empty. -/
def getTeamSummary (teamID : GoString) : Except HttpError (Nat × Option (List ServiceSummary)) :=
  match servicesTeam conf site session teamID with
  | .error err => .error err
  | .ok teamID =>
    if (site.fails .getTeamSummary).isSome then .error ⟨500, str "Error retrieving team summary"⟩
    else
      let names := ((site.db.checks.filter (fun check => check.teamID = teamID)).map
        ServiceCheckSchema.serviceName).dedup
      let summaries := names.map (serviceSummary site teamID)
      .ok (teamID,
        if summaries.all (fun summary => summary.uptime.isFinite) then some summaries else none)

/-- The team and the checks of one of its services, the last round's first. -/
def getServiceAll (teamID serviceID : GoString) :
    Except HttpError (Nat × List ServiceCheckSchema) :=
  match servicesTeam conf site session teamID with
  | .error err => .error err
  | .ok teamID =>
    if (site.fails .getServiceAllChecksByTeam).isSome then
      .error ⟨500, str "Error retrieving service data"⟩
    else
      let service := (site.db.checks.filter (fun check =>
        check.teamID = teamID ∧ check.serviceName = serviceID)).insertionSort
          (fun a b => b.roundID ≤ a.roundID)
      .ok (teamID, if .admin ∉ session.roles ∧
          (.red ∈ session.roles ∨ conf.miscSettings.showDebugToBlueTeam = false) then
        service.map scrubbed else service)

/-! ### Credentials -/

/-- The body of a password change. -/
structure PcrForm where
  teamID : GoString
  credlistPath : GoString
  usernames : List GoString := []
  passwords : List GoString := []
deriving DecidableEq

/-- What `UpdateCredentials` is called with. -/
structure PcrUpdate where
  teamID : Nat
  credlistPath : GoString
  usernames : List GoString
  passwords : List GoString
deriving DecidableEq

/-- What `ResetCredentials` is called with. -/
structure PcrReset where
  teamID : Nat
  credlistPath : GoString
  changedBy : GoString
deriving DecidableEq

/-- The team whose credentials a form is for, if the session may change them; `refusal` is the
answer where teams may not change credentials themselves. -/
def pcrTeam (refusal teamID : GoString) : Except HttpError Nat :=
  let parsed : Except HttpError Nat :=
    match parseUint 64 teamID with
    | none => .error ⟨400, str "Invalid team ID"⟩
    | some id => .ok id
  if .admin ∈ session.roles then parsed
  else if conf.miscSettings.easyPCR then
    if (site.fails .getTeamByUsername).isSome then .error ⟨500, str "Error looking up team"⟩
    else
      let me := getTeamByUsername site.db session.username
      if teamID ≠ decimal me.id then .error ⟨403, str "PCR not allowed"⟩ else parsed
  else .error ⟨403, refusal⟩

/-- A body that cannot be read is `none`. -/
def createPcr (form : Option PcrForm) : Except HttpError PcrUpdate :=
  match form with
  | none => .error ⟨400, str "Invalid request body"⟩
  | some form =>
    match pcrTeam conf site session (str "PCR not allowed") form.teamID with
    | .error err => .error err
    | .ok id => .ok ⟨id, form.credlistPath, form.usernames, form.passwords⟩

def resetPcr (form : Option PcrForm) : Except HttpError PcrReset :=
  match form with
  | none => .error ⟨400, str "Invalid request body"⟩
  | some form =>
    match pcrTeam conf site session (str "PCR reset not allowed") form.teamID with
    | .error err => .error err
    | .ok id => .ok ⟨id, form.credlistPath, session.username⟩

end QuotientScoring.WWW
