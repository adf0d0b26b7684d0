import QuotientScoring.Engine.History

/-! A restart between two rounds.

A fresh process has empty maps; `Start` fills them from the check table, the
uptimes by a query that counts, the SLA counters by replaying the rows it gets
back. `restart_invisible`: if the names are storable and each service's rows come
back in the order of its rounds, the counters after the restart are the ones the
old process held, and no later round can tell the two apart. -/
namespace QuotientScoring.Engine
open DB

/-- What a fresh process holds once `Start` has loaded the counters, `rows` being
what the query of `LoadSLAs` returns. Nothing if `LoadSLAs` panics. -/
def restart (conf : MiscConfig) (rows : List ServiceCheckSchema) (db : Database) :
    Option Scoring :=
  (loadSLAs conf.slaThreshold rows ∅).map (fun slaPerService =>
    { uptimePerService := loadUptimes db.checks ∅
      slaPerService := slaPerService
      db := db })

/-- The rows of each service come back in the order they were stored: its rounds',
one after another. -/
def ReturnedInRoundOrder (rows checks : List ServiceCheckSchema) : Prop :=
  ∀ key, rows.filter (fun check => check.key = key) = checks.filter (fun check => check.key = key)

/-- Every result has a service name the tables can hold. -/
def Storable (h : List Handed) : Prop :=
  ∀ x ∈ h, ∀ result ∈ x.results, sanitizeDBString result.serviceName = result.serviceName

instance (h : List Handed) : Decidable (Storable h) :=
  inferInstanceAs (Decidable (∀ x ∈ h, ∀ result ∈ x.results,
    sanitizeDBString result.serviceName = result.serviceName))

/-- Two engines no reader can tell apart: the same counters under every key, and
the same tables. -/
structure Scoring.Agrees (a b : Scoring) : Prop where
  uptime : ∀ t n, a.uptimePerService.find? t n = b.uptimePerService.find? t n
  sla : ∀ t n, a.slaPerService.find? t n = b.slaPerService.find? t n
  db : a.db = b.db

/-! ### The order of the rows -/

theorem returned_self (checks : List ServiceCheckSchema) : ReturnedInRoundOrder checks checks :=
  fun _ => rfl

/-! ### What is loaded -/

theorem row_key {e : Event} (h : sanitizeDBString e.result.serviceName = e.result.serviceName) :
    e.row.key = e.result.key := by
  simp [ServiceCheckSchema.key, Result.key, Event.row, toSchema, h]

/-- Under storable names a service's rows are its events' rows. -/
theorem filter_rows {events : List Event}
    (h : ∀ e ∈ events, sanitizeDBString e.result.serviceName = e.result.serviceName) (t : Nat)
    (n : GoString) :
    (events.map Event.row).filter (fun check => check.key = (t, n)) =
      (ofService t n events).map Event.row := by
  rw [List.filter_map, ofService]
  congr 1
  refine List.filter_congr fun e he => ?_
  simp [row_key (h e he)]

theorem Storable.events {h : List Handed} (hs : Storable h) :
    ∀ e ∈ eventsOf h, sanitizeDBString e.result.serviceName = e.result.serviceName := by
  intro e he
  obtain ⟨x, hx, he⟩ := List.mem_flatMap.mp he
  obtain ⟨result, hr, rfl⟩ := List.mem_map.mp he
  exact hs x hx result hr

/-- A service has a row exactly when it has an event. -/
theorem mem_rows_key {events : List Event}
    (h : ∀ e ∈ events, sanitizeDBString e.result.serviceName = e.result.serviceName) {t : Nat}
    {n : GoString} : (t, n) ∈ (events.map Event.row).map ServiceCheckSchema.key ↔
      ofService t n events ≠ [] := by
  rw [List.map_map, List.mem_map, ne_eq, ofService, List.filter_eq_nil_iff]
  constructor
  · rintro ⟨e, he, hkey⟩ hall
    exact hall e he (by simpa [row_key (h e he)] using hkey)
  · intro hne
    by_contra hall
    refine hne fun e he hkey => hall ⟨e, he, ?_⟩
    simpa [row_key (h e he)] using hkey

/-- The counters loaded from the rows of a list of events are those of the events. -/
theorem restart_counted {conf : MiscConfig} (hT : 1 ≤ conf.slaThreshold) {events : List Event}
    (hs : ∀ e ∈ events, sanitizeDBString e.result.serviceName = e.result.serviceName)
    {db : Database} (hdb : db.checks = events.map Event.row) {rows : List ServiceCheckSchema}
    (hrows : ReturnedInRoundOrder rows db.checks) :
    ∃ st, restart conf rows db = some st ∧ UptimeCounted events st.uptimePerService ∧
      SLACounted conf events st.slaPerService ∧ st.db = db := by
  obtain ⟨m, hm, hfind⟩ := find?_loadSLAs hT rows
  refine ⟨⟨loadUptimes db.checks ∅, m, db⟩, by rw [restart, hm]; rfl, ?_, ?_, rfl⟩
  · intro t n
    show (loadUptimes db.checks ∅).find? t n = _
    rw [find?_loadUptimes, hdb, filter_rows hs]
    by_cases hnil : ofService t n events = []
    · rw [if_neg (fun h => (mem_rows_key hs).mp h hnil), if_pos hnil, GoMap₂.find?_empty]
    · rw [if_pos ((mem_rows_key hs).mpr hnil), if_neg hnil]
  · intro t n
    rw [hfind, hrows (t, n), hdb, filter_rows hs]
    exact FailureRun.counter_map ..

/-! ### Later rounds -/

variable {conf : MiscConfig}

theorem Scoring.Agrees.slaTick {a b : Scoring} (h : a.Agrees b) (result : Result) :
    Engine.slaTick conf a result = Engine.slaTick conf b result := by
  rw [Engine.slaTick, Engine.slaTick, h.sla]

theorem Scoring.Agrees.processResult {a b : Scoring} (h : a.Agrees b) (round : Nat) (ok : Bool)
    (result : Result) : (processResult conf round ok a result).Agrees
      (processResult conf round ok b result) := by
  refine ⟨fun t n => ?_, fun t n => ?_, ?_⟩
  · rw [uptime_processResult, uptime_processResult, h.uptime]
  · rw [sla_processResult, sla_processResult, h.sla, h.slaTick]
  · rw [db_processResult, db_processResult, h.db, h.slaTick]

theorem Scoring.Agrees.processResults {a b : Scoring} (h : a.Agrees b) (round : Nat)
    (answers : Nat → Bool) (i : Nat) (results : List Result) :
    (processResults conf round answers i results a).Agrees
      (processResults conf round answers i results b) := by
  induction results generalizing i a b with
  | nil => exact h
  | cons result rest ih => exact ih (h.processResult round _ result) (i + 1)

theorem Scoring.Agrees.process {a b : Scoring} (h : a.Agrees b) (answers : Answers) (round : Nat)
    (results : List Result) : (processCollectedResults conf answers round results a).Agrees
      (processCollectedResults conf answers round results b) := by
  unfold processCollectedResults
  split
  · exact h
  · split
    · have hsave : (saveRound round results a).Agrees (saveRound round results b) :=
        ⟨h.uptime, h.sla, by rw [saveRound, saveRound, h.db]⟩
      exact hsave.processResults round _ 0 results
    · exact h

theorem Scoring.Agrees.processHistory {a b : Scoring} (h : a.Agrees b) (k : List Handed) :
    (processHistory conf k a).Agrees (processHistory conf k b) := by
  induction k generalizing a b with
  | nil => exact h
  | cons x rest ih => exact ih (h.process .ok x.round x.results)

/-- A restart after any history of storable rounds leaves the counters and the
tables as they were, and every continuation writes the same rows and ends with the
same counters as without it. -/
theorem restart_invisible (conf : MiscConfig) (hT : 1 ≤ conf.slaThreshold) (db : Database)
    (hdb : db.checks = []) (h : List Handed) (hs : Storable h) (rows : List ServiceCheckSchema)
    (hrows : ReturnedInRoundOrder rows (processHistory conf h {db := db}).db.checks) :
    ∃ st, restart conf rows (processHistory conf h {db := db}).db = some st ∧
      st.Agrees (processHistory conf h {db := db}) ∧
      ∀ k, (processHistory conf k st).Agrees
        (processHistory conf k (processHistory conf h {db := db})) := by
  have hchecks : (processHistory conf h {db := db}).db.checks = (eventsOf h).map Event.row := by
    rw [checks_history, hdb, List.nil_append]
  obtain ⟨st, hst, huptime, hsla, hsame⟩ := restart_counted hT hs.events hchecks hrows
  have hagrees : st.Agrees (processHistory conf h {db := db}) := by
    refine ⟨fun t n => ?_, fun t n => ?_, hsame⟩
    · rw [huptime, uptimeCounted_history h db]
    · rw [hsla, slaCounted_history hT h db]
  exact ⟨st, hst, hagrees, fun k => hagrees.processHistory k⟩

/-- Two failures, a restart, and the third failure still costs the penalty. -/
theorem restart_invisible_third_failure :
    let fail : Result := ⟨[119], 1, false, [], [], 0, [], 0⟩
    let live := processHistory ⟨3, 30⟩ [⟨1, [fail]⟩, ⟨2, [fail]⟩] {}
    ∃ st, restart ⟨3, 30⟩ live.db.checks live.db = some st ∧
      (processHistory ⟨3, 30⟩ [⟨3, [fail]⟩] st).db.slas = [⟨1, 3, [119], 30⟩] := by
  intro fail live
  obtain ⟨st, hst, _, hk⟩ := restart_invisible ⟨3, 30⟩ (by decide) {} rfl
    [⟨1, [fail]⟩, ⟨2, [fail]⟩] (by decide) live.db.checks (returned_self _)
  refine ⟨st, hst, ?_⟩
  rw [(hk [⟨3, [fail]⟩]).db]
  decide

end QuotientScoring.Engine
