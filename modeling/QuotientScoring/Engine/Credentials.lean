import QuotientScoring.DB.Seeding
import QuotientScoring.Engine.Config
import QuotientScoring.Lib.Decimal
import QuotientScoring.Lib.Transition

/-! Credentials are seeded, changed and reset.

`records` is what each credlist file holds. A call of the engine is a program over
the credential tables, cut short by whatever fails; the configuration and the map of
mutexes are the engine's own, and a team without a mutex makes the caller panic on a
nil pointer before anything is read. -/
namespace QuotientScoring.Engine
open DB GoText Decimal Program Transition

variable (records : GoString → List (List GoString))

/-! ### EnsureCredentialsSeeded -/

def safeOpenInDir : Queries Unit := do
  wrap (str "failed to open root directory: " ++ ·) (select (fun _ => ()))
  select (fun _ => ())

/-- A credlist file is opened, read and seeded. -/
def seedCredlist (credlistPath : GoString) : Queries Unit := do
  wrap (str "failed to open credlist file " ++ credlistPath ++ str ": " ++ ·) safeOpenInDir
  let contents ← wrap (str "failed to read credlist file " ++ credlistPath ++ str ": " ++ ·)
    (select (fun _ => records credlistPath))
  wrap (str "failed to seed original credentials for " ++ credlistPath ++ str ": " ++ ·)
    (seedOriginalCredentials credlistPath contents)

def seedTeam (scan : Scan) (team : TeamSchema) : Queries Unit :=
  wrap (str "failed to seed credentials for team " ++ decimal team.id ++ str ": " ++ ·)
    (seedTeamCredentials scan team.id)

/-- A team is seeded if it has no row at all. -/
def seedNewTeam (scan : Scan) (team : TeamSchema) : Queries Unit := do
  let creds ← wrap (str "failed to get credentials for team " ++ decimal team.id ++ str ": " ++ ·)
    (getAllTeamCredentials scan team.id)
  if creds.length = 0 then seedTeam scan team

/-- A credlist is seeded, and all teams with it, if it has no original at all. -/
def seedNewCredlist (scan : Scan) (teams : List TeamSchema) (credlistPath : GoString) :
    Queries Unit := do
  let origCreds ← wrap
    (str "failed to check original credentials for " ++ credlistPath ++ str ": " ++ ·)
    (getOriginalCredentials scan credlistPath)
  if origCreds.length = 0 then
    seedCredlist records credlistPath
    teams.forM (seedTeam scan)

/-- `EnsureCredentialsSeeded`, once it has the teams. -/
def seedCredentials (scan : Scan) (credlistPaths : List GoString) (teams : List TeamSchema) :
    Queries Unit := do
  let seeded ← wrap (str "failed to check if credentials are seeded: " ++ ·) isCredentialsSeeded
  if !seeded then
    credlistPaths.forM (seedCredlist records)
    teams.forM (seedTeam scan)
  else
    teams.forM (seedNewTeam scan)
    credlistPaths.forM (seedNewCredlist records scan teams)

/-- The tables, the configured credlists and the teams that have a mutex. -/
structure CredentialSite where
  db : CredentialDatabase
  credlists : List Config.Credlist
  mutexes : List Nat := []
deriving DecidableEq

def CredentialSite.credlistPaths (site : CredentialSite) : List GoString :=
  site.credlists.map Config.Credlist.credlistPath

/-- The faults still to come are those of this call. -/
def ensureCredentialsSeeded (scan : Scan) (faults : List (Option GoString))
    (site : CredentialSite) : Except GoString Unit × CredentialSite :=
  match exec (wrap (str "failed to get teams: " ++ ·) (select (fun db => getTeams db.toDatabase)))
    ⟨site.db, faults⟩ with
  | (.error err, s) => (.error err, {site with db := s.state})
  | (.ok teams, s) =>
    let (result, s) := exec (seedCredentials records scan site.credlistPaths teams) s
    (result, {site with db := s.state, mutexes := teams.map TeamSchema.id ++ site.mutexes})

/-! ### UpdateCredentials and ResetCredentials -/

/-- The passwords are changed one by one, up to an error other than a missing row. -/
def updateEach (teamID : Nat) (credlistName changedBy : GoString) :
    List (GoString × GoString) → Nat → List GoString →
      Queries (Nat × List GoString × Option GoString)
  | [], updatedCount, skippedUsernames => pure (updatedCount, skippedUsernames, none)
  | (username, password) :: rest, updatedCount, skippedUsernames => do
    match ← attempt (updateCredential teamID credlistName username password changedBy) with
    | .ok () => updateEach teamID credlistName changedBy rest (updatedCount + 1) skippedUsernames
    | .error err =>
      if err = credentialNotFound then
        updateEach teamID credlistName changedBy rest updatedCount (skippedUsernames ++ [username])
      else pure (updatedCount, skippedUsernames, some err)

/-- The number of rows changed, the names that had none, and the error; `none` is a panic. -/
def updateCredentials (site : CredentialSite) (teamID : Nat) (credlistName : GoString)
    (usernames passwords : List GoString) :
    Queries (Option (Nat × List GoString × Option GoString)) :=
  if !site.credlistPaths.contains credlistName then
    pure (some (0, [], some (str "invalid credlist name")))
  else if !site.mutexes.contains teamID then pure none
  else if usernames.length ≠ passwords.length then
    pure (some (0, [], some (str "mismatched usernames and passwords")))
  else do
    let changedBy := str "team" ++ decimal teamID
    let updated ← updateEach teamID credlistName changedBy (usernames.zip passwords) 0 []
    pure (some updated)

/-- `none` is a panic. -/
def resetCredentials (scan : Scan) (site : CredentialSite) (teamID : Nat)
    (credlistName changedBy : GoString) : Queries (Option Unit) :=
  if !site.credlistPaths.contains credlistName then throw (str "invalid credlist name")
  else if !site.mutexes.contains teamID then pure none
  else do
    resetTeamCredlist scan teamID credlistName changedBy
    pure (some ())

/-! ### Runs -/

/-- A call carries the faults it meets and the order its queries list rows in. -/
inductive CredentialAction where
  | addTeam (team : TeamSchema)
  /-- A configuration with other credlists is loaded. -/
  | configure (credlists : List Config.Credlist)
  /-- The process starts anew, with no mutex. -/
  | restart
  | seed (scan : Scan) (faults : List (Option GoString))
  | update (teamID : Nat) (credlistName : GoString) (usernames passwords : List GoString)
      (faults : List (Option GoString))
  | reset (scan : Scan) (teamID : Nat) (credlistName changedBy : GoString)
      (faults : List (Option GoString))

def CredentialSite.step (site : CredentialSite) : CredentialAction → CredentialSite
  | .addTeam team => {site with db := {site.db with teams := site.db.teams ++ [team]}}
  | .configure credlists => {site with credlists := credlists}
  | .restart => {site with mutexes := []}
  | .seed scan faults => (ensureCredentialsSeeded records scan faults site).2
  | .update teamID credlistName usernames passwords faults =>
    {site with
      db := (exec (updateCredentials site teamID credlistName usernames passwords)
        ⟨site.db, faults⟩).2.state}
  | .reset scan teamID credlistName changedBy faults =>
    {site with
      db := (exec (resetCredentials scan site teamID credlistName changedBy)
        ⟨site.db, faults⟩).2.state}

/-- Runs from empty credential tables, with any teams and any configuration. -/
def credentialRuns : System CredentialSite CredentialAction where
  initial := fun site => site.db.originals = [] ∧ site.db.credentials = [] ∧ site.db.history = []
  step site action := some (site.step records action)

end QuotientScoring.Engine
