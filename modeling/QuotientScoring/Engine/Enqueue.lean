import QuotientScoring.Engine.Task
import QuotientScoring.Engine.Config

/-! The tasks `rvb` puts on the queue.

For every active team and every check of the configuration there is one task,
unless the check is not to run now, is disabled for the team, needs credentials
and has none, or cannot be written as JSON. The task carries the check itself,
as JSON, under the type and the name the check gives for itself. -/
namespace QuotientScoring.Engine
open DB Checks

/-- What `rvb` finds around it while it enqueues. The calls that can fail return
`none` when they do. -/
structure Surroundings where
  /-- When a team's check is looked at. -/
  now : TeamSchema → Runner → Int
  isTeamServiceEnabled : Nat → GoString → Option Bool
  getTeamCredentials : Nat → GoString → Option (List Credential)
  /-- `json.Marshal` of a check. -/
  marshal : Runner → Option (List UInt8)
  /-- Whether the JSON of the task for a team's check can be written. -/
  encodes : TeamSchema → Runner → Bool

/-- Everything is enabled, every JSON can be written, and there are no credentials. -/
def Surroundings.plain : Surroundings :=
  { now := fun _ _ => 0
    isTeamServiceEnabled := fun _ _ => some true
    getTeamCredentials := fun _ _ => some []
    marshal := fun _ => some []
    encodes := fun _ _ => true }

variable (around : Surroundings)

/-- The credentials of a check's credlists; a list that cannot be read is skipped. -/
def taskCredentials (team : TeamSchema) (check : Runner) : List Credential :=
  check.service.credLists.flatMap (fun list => (around.getTeamCredentials team.id list).getD [])

/-- A team's check is enqueued: none of the reasons to skip it holds. -/
def Enqueues (team : TeamSchema) (check : Runner) : Bool :=
  team.active && check.service.runnable (around.now team check) &&
  (around.isTeamServiceEnabled team.id check.service.name == some true) &&
  (around.marshal check).isSome &&
  (check.service.credLists == [] || taskCredentials around team check != []) &&
  around.encodes team check

/-- The task for a team's check. -/
def taskFor (round : Nat) (deadline : Int) (team : TeamSchema) (check : Runner) : Task :=
  { teamID := team.id
    teamIdentifier := team.identifier
    serviceType := check.service.serviceType
    serviceName := check.service.name
    deadline := deadline
    roundID := round
    attempts := check.service.attempts.toInt
    checkData := (around.marshal check).getD []
    credentials := taskCredentials around team check }

/-- The teams and checks, in the order of the loops. -/
def enqueued (teams : List TeamSchema) (allRunners : List Runner) : List (TeamSchema × Runner) :=
  teams.flatMap (fun team =>
    (allRunners.filter (Enqueues around team)).map (fun check => (team, check)))

theorem mem_enqueued {teams : List TeamSchema} {allRunners : List Runner} {team : TeamSchema}
    {check : Runner} : (team, check) ∈ enqueued around teams allRunners ↔
      (team ∈ teams ∧ check ∈ allRunners) ∧ Enqueues around team check = true := by
  simp [enqueued, and_assoc]

end QuotientScoring.Engine
