import QuotientScoring.Engine.Restart

/-! The uptimes in memory and the uptimes in the tables.

The check table is keyed by the sanitized service name, the map by the name as it
came, and `GetTeamSummary` looks the names of the table up in the map.
`uptime_stored_iff`: the two agree, and no reader divides by zero, exactly when
every service name counted is one that sanitizing leaves alone. A name it changes
gives the table a name the map has no entry for. -/
namespace QuotientScoring.Engine
open DB

/-- What `GetTeamSummary` reads for a service name of the table: a missing entry
is the zero value. Its uptime is the quotient of the two fields. -/
def summaryUptime (st : Scoring) (teamID : Nat) (name : GoString) : Uptime :=
  st.uptimePerService.get teamID name

/-- Counts that a percentage can be taken of. -/
structure Divisible (u : Uptime) : Prop where
  passed : 0 ≤ u.passedChecks
  le : u.passedChecks ≤ u.totalChecks
  total : 1 ≤ u.totalChecks

/-- The map holds what `LoadUptimes` would compute from the table; what
`GetTeamSummary` reads for a name of the table and what `GetUptimeStatus` reads
for an entry of the map can be divided. -/
structure UptimeStored (st : Scoring) : Prop where
  same : ∀ t n, st.uptimePerService.find? t n = (loadUptimes st.db.checks ∅).find? t n
  table : ∀ check ∈ st.db.checks, Divisible (summaryUptime st check.teamID check.serviceName)
  entries : ∀ t n u, st.uptimePerService.find? t n = some u → Divisible u

theorem uptimeOf_bounds (rows : List ServiceCheckSchema) :
    0 ≤ (uptimeOf rows).passedChecks ∧
      (uptimeOf rows).passedChecks ≤ (uptimeOf rows).totalChecks := by
  induction rows with
  | nil => exact ⟨Int.le_refl _, Int.le_refl _⟩
  | cons check rest ih =>
    simp only [uptimeOf, List.map_cons, List.sum_cons, List.length_cons] at ih ⊢
    cases check.result <;> simp <;> omega

theorem divisible_uptimeOf {rows : List ServiceCheckSchema} (h : rows ≠ []) :
    Divisible (uptimeOf rows) := by
  obtain ⟨hpassed, hle⟩ := uptimeOf_bounds rows
  refine ⟨hpassed, hle, ?_⟩
  have hlen := List.length_pos_iff.mpr h
  show (1 : Int) ≤ (rows.length : Int)
  omega

/-- Every entry of the map counts at least one check. -/
theorem UptimeCounted.divisible {events : List Event} {m : UptimeMap} (h : UptimeCounted events m)
    {t : Nat} {n : GoString} {u : Uptime} (hu : m.find? t n = some u) : Divisible u := by
  rw [h] at hu
  split at hu
  · cases hu
  · rename_i hne
    obtain rfl := Option.some.inj hu
    exact divisible_uptimeOf (by simpa using hne)

/-- The name of a stored row is one that sanitizing leaves alone. -/
theorem sanitizeDBString_of_row {events : List Event} {check : ServiceCheckSchema}
    (h : check ∈ events.map Event.row) :
    sanitizeDBString check.serviceName = check.serviceName := by
  obtain ⟨e, _, rfl⟩ := List.mem_map.mp h
  exact sanitizeDBString_sanitizeDBString _

/-- A name that sanitizing changes is a key of the map and of no row. -/
theorem UptimeStored.storable {conf : MiscConfig} {db : Database} {h : List Handed}
    (hchecks : (processHistory conf h {db := db}).db.checks = (eventsOf h).map Event.row)
    (hstored : UptimeStored (processHistory conf h {db := db})) : Storable h := by
  intro x hx result hr
  have hcount : UptimeCounted (eventsOf h)
      (processHistory conf h {db := db}).uptimePerService := uptimeCounted_history h db
  have hevent : (⟨x.round, result⟩ : Event) ∈
      ofService result.teamID result.serviceName (eventsOf h) := by
    refine List.mem_filter.mpr ⟨List.mem_flatMap.mpr ⟨x, hx, ?_⟩, by simp [Result.key]⟩
    exact List.mem_map.mpr ⟨result, hr, rfl⟩
  have hsome := hstored.same result.teamID result.serviceName
  rw [hcount, if_neg (List.ne_nil_of_mem hevent), find?_loadUptimes, hchecks] at hsome
  split at hsome
  · rename_i hmem
    obtain ⟨check, hcheck, hkey⟩ := List.mem_map.mp hmem
    have hname : check.serviceName = result.serviceName := congrArg Prod.snd hkey
    rw [← hname]
    exact sanitizeDBString_of_row hcheck
  · cases hsome

theorem Storable.uptimeStored {conf : MiscConfig} {db : Database} {h : List Handed}
    (hchecks : (processHistory conf h {db := db}).db.checks = (eventsOf h).map Event.row)
    (hs : Storable h) : UptimeStored (processHistory conf h {db := db}) := by
  have hcount : UptimeCounted (eventsOf h)
      (processHistory conf h {db := db}).uptimePerService := uptimeCounted_history h db
  refine ⟨fun t n => ?_, fun check hcheck => ?_, fun t n u hu => hcount.divisible hu⟩
  · rw [hcount, find?_loadUptimes, hchecks, filter_rows hs.events]
    simp only [mem_rows_key hs.events, GoMap₂.find?_empty]
    by_cases hnil : ofService t n (eventsOf h) = [] <;> simp [hnil]
  · rw [hchecks] at hcheck
    obtain ⟨e, he, rfl⟩ := List.mem_map.mp hcheck
    have hmem : e ∈ ofService e.row.teamID e.row.serviceName (eventsOf h) := by
      refine List.mem_filter.mpr ⟨he, ?_⟩
      simpa [ServiceCheckSchema.key] using (row_key (hs.events e he)).symm
    have hread : summaryUptime (processHistory conf h {db := db}) e.row.teamID
        e.row.serviceName = uptimeOf ((ofService e.row.teamID e.row.serviceName
          (eventsOf h)).map Event.row) := hcount.getD _ _
    rw [hread]
    exact divisible_uptimeOf (by simpa using List.ne_nil_of_mem hmem)

/-- After any rounds from empty maps and tables, whatever the results and with every
database call succeeding, the uptimes in memory are those in the tables exactly
when every service name is storable. -/
theorem uptime_stored_iff (conf : MiscConfig) (db : Database) (hdb : db.checks = [])
    (h : List Handed) : UptimeStored (processHistory conf h {db := db}) ↔ Storable h := by
  have hchecks : (processHistory conf h {db := db}).db.checks = (eventsOf h).map Event.row := by
    rw [checks_history, hdb, List.nil_append]
  exact ⟨fun hstored => hstored.storable hchecks, fun hs => hs.uptimeStored hchecks⟩

/-- A name with a NUL byte: the table has a name the map has no entry for, and its
uptime would be a quotient by zero. -/
theorem uptime_not_stored_nul :
    let h : List Handed := [⟨1, [⟨[119, 0], 1, true, [], [], 5, [], 1⟩]⟩]
    let st := processHistory ⟨3, 30⟩ h {}
    ¬UptimeStored st ∧ (∃ check ∈ st.db.checks, check.serviceName = [119]) ∧
      (summaryUptime st 1 [119]).totalChecks = 0 := by
  intro h st
  refine ⟨fun hstored => ?_, by decide, by decide⟩
  have hname := hstored.same 1 [119]
  revert hname
  decide

/-- A plain name: one check, counted and stored. -/
theorem uptime_stored_iff_plain_name :
    UptimeStored (processHistory ⟨3, 30⟩ [⟨1, [⟨[119], 1, true, [], [], 5, [], 1⟩]⟩] {}) :=
  (uptime_stored_iff ⟨3, 30⟩ {} rfl [⟨1, [⟨[119], 1, true, [], [], 5, [], 1⟩]⟩]).mpr (by decide)

end QuotientScoring.Engine
