import QuotientScoring.DB.Schema

/-! What travels on the two Redis lists: the engine's tasks and the runners'
results. Both are JSON objects that decode to the records below; a time is the
number of nanoseconds since the epoch. -/
namespace QuotientScoring.Engine
open DB

structure Credential where
  username : GoString
  password : GoString
deriving DecidableEq, Repr

structure Task where
  teamID : Nat
  teamIdentifier : GoString
  serviceType : GoString
  serviceName : GoString
  deadline : Int
  roundID : Nat
  attempts : Int
  checkData : List UInt8
  credentials : List Credential
deriving DecidableEq, Repr

/-- `checks.Result`, less the fields that only the task page shows. -/
structure Result where
  serviceName : GoString
  teamID : Nat
  status : Bool
  debug : GoString
  error : GoString
  points : Int
  serviceType : GoString
  roundID : Nat
deriving DecidableEq, Repr

/-- The team and the service a result is about. -/
def Result.key (result : Result) : Nat × GoString := (result.teamID, result.serviceName)

def Result.failed (result : Result) : Bool := !result.status

/-- The result is one for the task: it has its round, team and service. -/
structure Result.Answers (result : Result) (task : Task) : Prop where
  roundID : result.roundID = task.roundID
  teamID : result.teamID = task.teamID
  serviceName : result.serviceName = task.serviceName

end QuotientScoring.Engine
