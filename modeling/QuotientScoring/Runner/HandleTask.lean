import QuotientScoring.Engine.Task
import QuotientScoring.Lib.GoText

/-! How a runner turns a task into the one result it pushes.

Each attempt ends with whatever the check reported or with the deadline; the
runner overwrites the identifying fields of what it got with the task's, and
stops at the first success or once the deadline is past. `handleTask_answers`:
whatever the checks report, the result pushed has the round, the team and the
service of the task. -/
namespace QuotientScoring.Runner
open DB Engine GoText

/-- One attempt: the result the check sent, or none if the deadline came first;
and whether the deadline was past when the attempt was over. -/
structure Attempt where
  reported : Option Result
  afterDeadline : Bool
deriving DecidableEq, Repr

def roundEnded : GoString := str "round ended before check completed"

def timeout : GoString := str "timeout"

/-- The identifying fields, from the task. -/
def identify (task : Task) (result : Result) : Result :=
  { result with
    teamID := task.teamID
    serviceName := task.serviceName
    serviceType := task.serviceType
    roundID := task.roundID }

def initialResult (task : Task) : Result :=
  { teamID := task.teamID
    serviceName := task.serviceName
    serviceType := task.serviceType
    roundID := task.roundID
    status := false
    debug := []
    error := []
    points := 0 }

/-- What the runner makes of one attempt, after the result so far. -/
def received (task : Task) (result : Result) (a : Attempt) : Result :=
  match a.reported with
  | some reported => identify task reported
  | none => identify task {result with status := false, debug := roundEnded, error := timeout}

/-- The attempt loop: failed attempts are discarded. -/
def attempt (task : Task) : Result → List Attempt → Result
  | result, [] => result
  | result, a :: rest =>
    let result := received task result a
    if result.status || a.afterDeadline then result else attempt task result rest

/-- The result pushed. No attempt is made when `task.attempts` is not positive. -/
def handleTask (task : Task) (attempts : List Attempt) : Result :=
  attempt task (initialResult task) (attempts.take task.attempts.toNat)

theorem received_answers (task : Task) (result : Result) (a : Attempt) :
    (received task result a).Answers task := by
  unfold received
  cases a.reported <;> exact ⟨rfl, rfl, rfl⟩

theorem attempt_answers (task : Task) (result : Result) (attempts : List Attempt)
    (h : result.Answers task) : (attempt task result attempts).Answers task := by
  induction attempts generalizing result with
  | nil => exact h
  | cons a rest ih =>
    have hreceived := received_answers task result a
    simp only [attempt]
    split
    · exact hreceived
    · exact ih _ hreceived

/-- The result pushed is one for the task. -/
theorem handleTask_answers (task : Task) (attempts : List Attempt) :
    (handleTask task attempts).Answers task :=
  attempt_answers task _ _ ⟨rfl, rfl, rfl⟩

end QuotientScoring.Runner
