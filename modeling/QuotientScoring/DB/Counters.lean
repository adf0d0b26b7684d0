import QuotientScoring.DB.Schema
import QuotientScoring.Lib.FailureRun
import QuotientScoring.Lib.GoMap
import QuotientScoring.Lib.Rows

/-! The two counters a restarted engine rebuilds from the check table: how often
each service of each team passed, and how long its current run of failures is
modulo the SLA threshold. Each is a map of maps, by team and by service name.

`find?_loadUptimes` and `find?_loadSLAs` say what one team's service ends with:
it depends on that service's own rows alone, for the second counter on their
order. -/
namespace QuotientScoring.DB

structure Uptime where
  passedChecks : Int
  totalChecks : Int
deriving DecidableEq, Inhabited, Repr

abbrev UptimeMap := GoMap₂ Nat GoString Uptime

abbrev SLAMap := GoMap₂ Nat GoString Int

/-- The team and the service a check row is about. -/
def ServiceCheckSchema.key (check : ServiceCheckSchema) : Nat × GoString :=
  (check.teamID, check.serviceName)

/-- `SUM(CASE WHEN result = true THEN 1 ELSE 0 END)` and `COUNT(*)`. -/
def uptimeOf (rows : List ServiceCheckSchema) : Uptime :=
  ⟨(rows.map (fun check => if check.result then 1 else 0)).sum, rows.length⟩

def loadUptimes (rows : List ServiceCheckSchema) (uptimePerService : UptimeMap) : UptimeMap :=
  (Rows.groupBy ServiceCheckSchema.key uptimeOf rows).foldl
    (fun m g => (m.make g.1.1).put g.1.1 g.1.2 g.2) uptimePerService

/-- One row of the replay. Division by a zero threshold is a run-time panic. -/
def loadSLA (slaThreshold : Int) (m : SLAMap) (check : ServiceCheckSchema) : Option SLAMap :=
  let m := m.make check.teamID
  if check.result then some (m.put check.teamID check.serviceName 0)
  else if slaThreshold = 0 then none
  else some (m.put check.teamID check.serviceName
    ((m.get check.teamID check.serviceName + 1).tmod slaThreshold))

def loadSLAs (slaThreshold : Int) (rows : List ServiceCheckSchema) (slaPerService : SLAMap) :
    Option SLAMap :=
  rows.foldlM (loadSLA slaThreshold) slaPerService

/-! ### What one service ends with -/

theorem find?_loadUptimes (rows : List ServiceCheckSchema) (m : UptimeMap) (t : Nat)
    (n : GoString) :
    (loadUptimes rows m).find? t n =
      if (t, n) ∈ rows.map ServiceCheckSchema.key then
        some (uptimeOf (rows.filter (fun check => check.key = (t, n))))
      else m.find? t n := by
  have hfold := Rows.foldl_observe (fun m : UptimeMap => m.find? t n)
    (fun m (g : (Nat × GoString) × Uptime) => (m.make g.1.1).put g.1.1 g.1.2 g.2)
    (fun g => g.1 = (t, n)) (fun _ g => some g.2)
    (fun m g => by simp [GoMap₂.find?_put, Prod.ext_iff])
    (Rows.groupBy ServiceCheckSchema.key uptimeOf rows) m
  rw [loadUptimes, hfold, Rows.filter_groupBy]
  split <;> rfl

/-- A failed check. -/
def ServiceCheckSchema.failed (check : ServiceCheckSchema) : Bool := !check.result

theorem loadSLA_eq {slaThreshold : Int} (hT : 1 ≤ slaThreshold) (m : SLAMap)
    (check : ServiceCheckSchema) :
    loadSLA slaThreshold m check = some ((m.make check.teamID).put check.teamID check.serviceName
      (FailureRun.tickMod ServiceCheckSchema.failed slaThreshold
        ((m.find? check.teamID check.serviceName).getD 0) check)) := by
  have hne : slaThreshold ≠ 0 := by omega
  cases h : check.result <;>
    simp [loadSLA, FailureRun.tickMod, ServiceCheckSchema.failed, GoMap₂.get, h, hne]

/-- With a positive threshold the replay does not panic, and each service ends
with its current run of failures modulo the threshold. -/
theorem find?_loadSLAs {slaThreshold : Int} (hT : 1 ≤ slaThreshold)
    (rows : List ServiceCheckSchema) :
    ∃ m, loadSLAs slaThreshold rows ∅ = some m ∧ ∀ t n, m.find? t n =
      FailureRun.counter ServiceCheckSchema.failed slaThreshold
        (rows.filter (fun check => check.key = (t, n))) := by
  let step : SLAMap → ServiceCheckSchema → SLAMap := fun m check =>
    (m.make check.teamID).put check.teamID check.serviceName
      (FailureRun.tickMod ServiceCheckSchema.failed slaThreshold
        ((m.find? check.teamID check.serviceName).getD 0) check)
  have hpure : loadSLA slaThreshold = fun m check => some (step m check) :=
    funext fun m => funext fun check => loadSLA_eq hT m check
  refine ⟨rows.foldl step ∅, ?_, fun t n => ?_⟩
  · rw [loadSLAs, hpure]
    exact List.foldlM_pure
  · have hfold := Rows.foldl_observe (fun m : SLAMap => m.find? t n) step
      (fun check => check.key = (t, n))
      (fun o check =>
        some (FailureRun.tickMod ServiceCheckSchema.failed slaThreshold (o.getD 0) check))
      (fun m check => by
        by_cases h : check.key = (t, n)
        · obtain ⟨rfl, rfl⟩ : check.teamID = t ∧ check.serviceName = n := by
            simpa [ServiceCheckSchema.key] using h
          simp [step, ServiceCheckSchema.key]
        · have hne : ¬(check.teamID = t ∧ check.serviceName = n) := by
            simpa [ServiceCheckSchema.key] using h
          simp [step, GoMap₂.find?_put, hne, h])
      rows ∅
    rw [hfold, GoMap₂.find?_empty, FailureRun.foldl_tickMod _ _ hT]

end QuotientScoring.DB
