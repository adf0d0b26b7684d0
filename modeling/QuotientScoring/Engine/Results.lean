import QuotientScoring.DB.Counters
import QuotientScoring.Engine.Sanitize
import QuotientScoring.Engine.Task

/-! What the engine does with the results of a round: one check row each, then
the uptime and SLA counters, and an SLA row for each counter that reaches the
threshold.

`processCollectedResults` is told what the database answers: whether `CreateRound`
commits, and whether each `CreateSLA` does. A refused round leaves everything as
it is; a refused SLA row is logged and forgotten, the counter starting again all
the same.

The lemmas say what one result does to one service's counters (its own pair of
keys, nothing else) and to the tables. -/
namespace QuotientScoring.Engine
open DB

/-- The settings of `MiscSettings` that scoring reads. -/
structure MiscConfig where
  slaThreshold : Int
  slaPenalty : Int
deriving DecidableEq, Repr

/-- The counters in memory, and the tables. -/
structure Scoring where
  uptimePerService : UptimeMap := ∅
  slaPerService : SLAMap := ∅
  db : Database := {}

/-- What the database answers to `CreateRound`, and to `CreateSLA` for the result
at each position. -/
structure Answers where
  createRound : Bool
  createSLA : Nat → Bool

/-- Every call succeeds. -/
def Answers.ok : Answers := ⟨true, fun _ => true⟩

/-- The row stored for a result. -/
def toSchema (round : Nat) (result : Result) : ServiceCheckSchema :=
  { teamID := result.teamID
    roundID := round
    serviceName := sanitizeDBString result.serviceName
    points := result.points
    result := result.status
    error := sanitizeDBString result.error
    debug := sanitizeDBString result.debug }

def recordUptime (m : UptimeMap) (result : Result) : UptimeMap :=
  let m := m.ensure result.teamID result.serviceName default
  let newUptime := m.get result.teamID result.serviceName
  let newUptime := if result.status then
    {newUptime with passedChecks := newUptime.passedChecks + 1} else newUptime
  m.put result.teamID result.serviceName {newUptime with totalChecks := newUptime.totalChecks + 1}

/-- The SLA part of the loop; `ok` is what the database answers if a row is created. -/
def recordSLA (conf : MiscConfig) (round : Nat) (ok : Bool) (st : Scoring) (result : Result) :
    Scoring :=
  let m := st.slaPerService.ensure result.teamID result.serviceName 0
  if result.status then {st with slaPerService := m.put result.teamID result.serviceName 0}
  else
    let m := m.put result.teamID result.serviceName (m.get result.teamID result.serviceName + 1)
    if m.get result.teamID result.serviceName ≥ conf.slaThreshold then
      let sla := ⟨result.teamID, round, result.serviceName, conf.slaPenalty⟩
      { st with
        slaPerService := m.put result.teamID result.serviceName 0
        db := if ok then createSLA st.db sla else st.db }
    else {st with slaPerService := m}

def processResult (conf : MiscConfig) (round : Nat) (ok : Bool) (st : Scoring) (result : Result) :
    Scoring :=
  recordSLA conf round ok {st with uptimePerService := recordUptime st.uptimePerService result} result

/-- The loop over the results, the first of them at position `i`. -/
def processResults (conf : MiscConfig) (round : Nat) (createSLA : Nat → Bool) :
    Nat → List Result → Scoring → Scoring
  | _, [], st => st
  | i, result :: rest, st =>
    processResults conf round createSLA (i + 1) rest
      (processResult conf round (createSLA i) st result)

/-- The tables once `CreateRound` has committed. -/
def saveRound (round : Nat) (results : List Result) (st : Scoring) : Scoring :=
  {st with db := DB.createRound st.db ⟨round, results.map (toSchema round)⟩}

def processCollectedResults (conf : MiscConfig) (answers : Answers) (currentRound : Nat)
    (results : List Result) (st : Scoring) : Scoring :=
  if results = [] then st
  else if answers.createRound then
    processResults conf currentRound answers.createSLA 0 results
      (saveRound currentRound results st)
  else st

/-! ### One result -/

theorem Result.key_eq {result : Result} {t : Nat} {n : GoString} :
    result.key = (t, n) ↔ result.teamID = t ∧ result.serviceName = n := by
  simp [Result.key]

/-- One more check of a service. -/
def addCheck (u : Uptime) (passed : Bool) : Uptime :=
  ⟨u.passedChecks + if passed then 1 else 0, u.totalChecks + 1⟩

/-- A result writes its own service's uptime. -/
theorem find?_recordUptime (m : UptimeMap) (result : Result) (t : Nat) (n : GoString) :
    (recordUptime m result).find? t n = if result.key = (t, n) then
      some (addCheck ((m.find? t n).getD default) result.status) else m.find? t n := by
  simp only [recordUptime, GoMap₂.get_ensure, GoMap₂.find?_put, GoMap₂.find?_ensure, Result.key_eq]
  by_cases h : result.teamID = t ∧ result.serviceName = n
  · obtain ⟨rfl, rfl⟩ := h
    cases hs : result.status <;> simp [addCheck]
  · simp [h]

variable (conf : MiscConfig) (round : Nat)

/-- What the SLA counter of a result's service does: the counter after the result,
and whether a row is due. -/
def slaTick (st : Scoring) (result : Result) : Int × Bool :=
  FailureRun.tick Result.failed conf.slaThreshold
    ((st.slaPerService.find? result.teamID result.serviceName).getD 0) result

/-- The row due. -/
def slaRow (result : Result) : SLASchema :=
  ⟨result.teamID, round, result.serviceName, conf.slaPenalty⟩

/-- A result writes its own service's SLA counter. -/
theorem find?_recordSLA (ok : Bool) (st : Scoring) (result : Result) (t : Nat) (n : GoString) :
    (recordSLA conf round ok st result).slaPerService.find? t n =
      if result.key = (t, n) then some (slaTick conf st result).1
      else st.slaPerService.find? t n := by
  cases hs : result.status
  · simp only [recordSLA, slaTick, FailureRun.tick, Result.failed, GoMap₂.get_ensure,
      GoMap₂.get_put_self, Result.key_eq, hs, Bool.false_eq_true, if_false, Bool.not_false, if_true]
    split <;> by_cases h : result.teamID = t ∧ result.serviceName = n <;>
      simp [h, GoMap₂.find?_put, GoMap₂.find?_ensure]
  · simp only [recordSLA, slaTick, FailureRun.tick, Result.failed, Result.key_eq, hs, if_true]
    by_cases h : result.teamID = t ∧ result.serviceName = n <;>
      simp [h, GoMap₂.find?_put, GoMap₂.find?_ensure]

@[simp] theorem uptime_recordSLA (ok : Bool) (st : Scoring) (result : Result) :
    (recordSLA conf round ok st result).uptimePerService = st.uptimePerService := by
  simp only [recordSLA]
  split
  · rfl
  · split <;> rfl

/-- A result writes at most one SLA row, and nothing else in the tables. -/
theorem db_recordSLA (ok : Bool) (st : Scoring) (result : Result) :
    (recordSLA conf round ok st result).db = {st.db with
      slas := st.db.slas ++ if ok && (slaTick conf st result).2 then
        [slaRow conf round result] else []} := by
  cases hs : result.status
  · simp only [recordSLA, slaTick, FailureRun.tick, Result.failed, GoMap₂.get_ensure,
      GoMap₂.get_put_self, hs, Bool.false_eq_true, if_false, Bool.not_false, if_true]
    split
    · cases ok <;> simp [createSLA, slaRow]
    · simp
  · simp [recordSLA, slaTick, FailureRun.tick, Result.failed, hs]

/-- The three of them, for the whole of a loop iteration. -/
theorem uptime_processResult (ok : Bool) (st : Scoring) (result : Result) (t : Nat) (n : GoString) :
    (processResult conf round ok st result).uptimePerService.find? t n =
      if result.key = (t, n) then
        some (addCheck ((st.uptimePerService.find? t n).getD default) result.status)
      else st.uptimePerService.find? t n := by
  rw [processResult, uptime_recordSLA, find?_recordUptime]

theorem sla_processResult (ok : Bool) (st : Scoring) (result : Result) (t : Nat) (n : GoString) :
    (processResult conf round ok st result).slaPerService.find? t n =
      if result.key = (t, n) then some (slaTick conf st result).1
      else st.slaPerService.find? t n :=
  find?_recordSLA ..

theorem db_processResult (ok : Bool) (st : Scoring) (result : Result) :
    (processResult conf round ok st result).db = {st.db with
      slas := st.db.slas ++ if ok && (slaTick conf st result).2 then
        [slaRow conf round result] else []} :=
  db_recordSLA ..

end QuotientScoring.Engine
