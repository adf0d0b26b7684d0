import QuotientScoring.Engine.Results
import QuotientScoring.Lib.GoJson

/-! What a runner writes into Redis, and what the engine reads.

A report is a `checks.Result` with all its fields, written as JSON. Its texts come from
whatever a check was shown: they may hold any bytes, and JSON holds characters only, so
that a byte that is part of none arrives as U+FFFD. What arrives loses its NUL bytes on
the way into a row and nothing else.

`report_stored`: no report is lost as malformed; team, round, status and points arrive as
they were sent, and a text as it was sent exactly when it can be stored. -/
namespace QuotientScoring.Runner
open DB Engine GoText GoJson Utf8

/-- `checks.Result`, with the fields that only the task page shows. -/
structure Report extends Result where
  target : GoString := []
  runnerID : GoString := []
  startTime : GoString := []
  endTime : GoString := []
  statusText : GoString := []
deriving DecidableEq, Repr

/-- The fields as their tags name them; all but the round are left out when they are empty. -/
def reportFields : List (StructField Report) :=
  [textField (str "name") (fun r => r.serviceName),
   textField (str "target") (fun r => r.target),
   uintField (str "team_id") (fun r => r.teamID) true,
   boolField (str "status") (fun r => r.status),
   textField (str "debug") (fun r => r.debug),
   textField (str "error") (fun r => r.error),
   intField (str "points") (fun r => r.points),
   textField (str "service_type") (fun r => r.serviceType),
   uintField (str "round_id") (fun r => r.roundID) false,
   textField (str "runner_id") (fun r => r.runnerID),
   textField (str "start_time") (fun r => r.startTime),
   textField (str "end_time") (fun r => r.endTime),
   textField (str "status_text") (fun r => r.statusText)]

/-- `json.Marshal` of a result. -/
def marshal (r : Report) : List UInt8 := print (.object (members reportFields r))

def readReport (members : List (GoString × Value)) : Option Report := do
  let serviceName ← readField storeText [] (str "name") members
  let target ← readField storeText [] (str "target") members
  let teamID ← readField storeUint 0 (str "team_id") members
  let status ← readField storeBool false (str "status") members
  let debug ← readField storeText [] (str "debug") members
  let error ← readField storeText [] (str "error") members
  let points ← readField storeInt 0 (str "points") members
  let serviceType ← readField storeText [] (str "service_type") members
  let roundID ← readField storeUint 0 (str "round_id") members
  let runnerID ← readField storeText [] (str "runner_id") members
  let startTime ← readField storeText [] (str "start_time") members
  let endTime ← readField storeText [] (str "end_time") members
  let statusText ← readField storeText [] (str "status_text") members
  some { serviceName, target, teamID, status, debug, error, points, serviceType, roundID, runnerID,
         startTime, endTime, statusText }

/-- `json.Unmarshal` into an empty result. -/
def unmarshal (data : List UInt8) : Option Report :=
  match parse data with
  | some (.object members) => readReport members
  | some .null => readReport []
  | _ => none

/-- The numbers are those of 64 bits. -/
structure Report.InRange (r : Report) : Prop where
  teamID : r.teamID < 2 ^ 64
  roundID : r.roundID < 2 ^ 64
  points : -2 ^ 63 ≤ r.points ∧ r.points < 2 ^ 63

/-- The report as it arrives. -/
def Report.arrived (r : Report) : Report where
  serviceName := replaceInvalid r.serviceName
  teamID := r.teamID
  status := r.status
  debug := replaceInvalid r.debug
  error := replaceInvalid r.error
  points := r.points
  serviceType := replaceInvalid r.serviceType
  roundID := r.roundID
  target := replaceInvalid r.target
  runnerID := replaceInvalid r.runnerID
  startTime := replaceInvalid r.startTime
  endTime := replaceInvalid r.endTime
  statusText := replaceInvalid r.statusText

theorem wellNamed_reportFields : WellNamed reportFields :=
  ⟨by decide +kernel, by decide +kernel⟩

/-- Each field is read from its own member. -/
theorem unmarshal_marshal {r : Report} (h : r.InRange) : unmarshal (marshal r) = some r.arrived := by
  have htext : ∀ {name get}, textField name get ∈ reportFields →
      readField storeText [] name (repairMembers (members reportFields r)) =
        some (replaceInvalid (get r)) :=
    fun hmem => readField_text wellNamed_reportFields r hmem
  have hmem : ∀ {i : Nat} {f : StructField Report}, reportFields[i]? = some f → f ∈ reportFields :=
    fun hi => List.mem_of_getElem? hi
  rw [unmarshal, marshal, parse_print]
  show readReport (repairMembers (members reportFields r)) = some r.arrived
  unfold readReport
  rw [htext (hmem (i := 0) rfl), htext (hmem (i := 1) rfl),
    readField_uint wellNamed_reportFields r (hmem (i := 2) rfl) h.teamID,
    readField_bool wellNamed_reportFields r (hmem (i := 3) rfl),
    htext (hmem (i := 4) rfl), htext (hmem (i := 5) rfl),
    readField_int wellNamed_reportFields r (hmem (i := 6) rfl) h.points.1 h.points.2,
    htext (hmem (i := 7) rfl),
    readField_uint wellNamed_reportFields r (hmem (i := 8) rfl) h.roundID,
    htext (hmem (i := 9) rfl), htext (hmem (i := 10) rfl), htext (hmem (i := 11) rfl),
    htext (hmem (i := 12) rfl)]
  rfl

/-! ### Into the table -/

/-- A text on its way from a runner into a row. -/
def storedText (s : GoString) : GoString := (replaceInvalid s).filter (fun b => b != 0)

theorem sanitizeDBString_replaceInvalid (s : GoString) :
    sanitizeDBString (replaceInvalid s) = storedText s := by
  rw [sanitizeDBString_eq]
  exact dropInvalid_of_valid (valid_filter_ne_zero (replaceInvalid_valid s))

theorem storable_storedText (s : GoString) : StorableText (storedText s) := by
  rw [← sanitizeDBString_replaceInvalid]
  exact storable_sanitizeDBString _

theorem storedText_eq_self_iff (s : GoString) : storedText s = s ↔ StorableText s := by
  constructor
  · intro h
    rw [← h]
    exact storable_storedText s
  · intro h
    have hvalid := (valid_iff s).mpr h.2
    rw [storedText, replaceInvalid_of_valid hvalid]
    refine List.filter_eq_self.mpr fun b hb => ?_
    have hne : b ≠ 0 := fun heq => h.1 (heq ▸ hb)
    simpa using hne

/-- The row of a report that has arrived. -/
theorem toSchema_arrived (round : Nat) (r : Report) :
    toSchema round r.arrived.toResult =
      { teamID := r.teamID
        roundID := round
        serviceName := storedText r.serviceName
        points := r.points
        result := r.status
        error := storedText r.error
        debug := storedText r.debug } := by
  simp only [toSchema, Report.arrived, sanitizeDBString_replaceInvalid]

/-- However the texts of some reports may look, the engine reads every one of them, in their
order; the row of each has its team, points and status and can be stored; and a text of it is
the one that the runner sent exactly when that can be stored. -/
theorem report_stored (round : Nat) (reports : List Report) (h : ∀ r ∈ reports, r.InRange) :
    (reports.map marshal).filterMap unmarshal = reports.map Report.arrived ∧
      (∀ r ∈ reports, r.arrived.roundID = r.roundID ∧
        toSchema round r.arrived.toResult =
          { teamID := r.teamID
            roundID := round
            serviceName := storedText r.serviceName
            points := r.points
            result := r.status
            error := storedText r.error
            debug := storedText r.debug }) ∧
      ∀ s, StorableText (storedText s) ∧ (storedText s = s ↔ StorableText s) := by
  refine ⟨?_, fun r _ => ⟨rfl, toSchema_arrived round r⟩,
    fun s => ⟨storable_storedText s, storedText_eq_self_iff s⟩⟩
  rw [List.filterMap_map, ← List.filterMap_eq_map]
  refine List.filterMap_congr fun r hr => ?_
  exact unmarshal_marshal (h r hr)

/-- A check that found bytes that are no text. -/
def garbledReport : Report where
  serviceName := str "web01-http"
  teamID := 3
  status := false
  debug := [104, 105, 0, 0xFF, 60]
  error := str "no match"
  points := 10
  serviceType := str "Web"
  roundID := 7

theorem report_stored_garbled :
    ([garbledReport].map marshal).filterMap unmarshal = [garbledReport].map Report.arrived ∧
      storedText garbledReport.debug = [104, 105, 0xEF, 0xBF, 0xBD, 60] :=
  ⟨(report_stored 7 [garbledReport] (by
    intro r hr
    obtain rfl := List.mem_singleton.mp hr
    exact ⟨by decide, by decide, by decide⟩)).1, by decide⟩

example : marshal garbledReport = str
    "\x7b\"name\":\"web01-http\",\"team_id\":3,\"debug\":\"hi\\u0000\\ufffd\\u003c\",\"error\":\"no match\",\"points\":10,\"service_type\":\"Web\",\"round_id\":7\x7d" := by
  decide +kernel

end QuotientScoring.Runner
