import QuotientScoring.Engine.Results

/-! The order in which the results of a round arrive.

Results come back as the runners finish. Where no team's service has two of them, a
result reads and writes what no other one does, so the maps end with the same
entries in any order, and the same rows are written in another order. -/
namespace QuotientScoring.Engine
open DB

variable {conf : MiscConfig} {round : Nat}

/-- The loop over the results, when every row is created. -/
theorem processResults_ok (i : Nat) (results : List Result) (st : Scoring) :
    processResults conf round (fun _ => true) i results st =
      results.foldl (processResult conf round true) st := by
  induction results generalizing i st with
  | nil => rfl
  | cons result rest ih => exact ih (i + 1) _

/-! ### The maps -/

/-- Every result of a service counts its check. -/
theorem uptime_foldl (results : List Result) (st : Scoring) (t : Nat) (n : GoString) :
    (results.foldl (processResult conf round true) st).uptimePerService.find? t n =
      (results.filter (fun result => result.key = (t, n))).foldl
        (fun u result => some (addCheck (u.getD default) result.status))
        (st.uptimePerService.find? t n) :=
  Rows.foldl_observe (fun st : Scoring => st.uptimePerService.find? t n) _ _ _
    (fun st result => by simp [uptime_processResult]) results st

/-- Every result of a service moves its counter. -/
theorem sla_foldl (results : List Result) (st : Scoring) (t : Nat) (n : GoString) :
    (results.foldl (processResult conf round true) st).slaPerService.find? t n =
      (results.filter (fun result => result.key = (t, n))).foldl
        (fun c result =>
          some (FailureRun.tick Result.failed conf.slaThreshold (c.getD 0) result).1)
        (st.slaPerService.find? t n) := by
  refine Rows.foldl_observe (fun st : Scoring => st.slaPerService.find? t n) _ _ _
    (fun st result => ?_) results st
  show (processResult conf round true st result).slaPerService.find? t n = _
  rw [sla_processResult, slaTick]
  by_cases hkey : result.key = (t, n)
  · obtain ⟨ht, hn⟩ := Result.key_eq.mp hkey
    simp [hkey, ht, hn]
  · simp [hkey]

/-- A service without a result keeps its entries. -/
theorem find?_foldl_of_forall_ne {results : List Result} {t : Nat} {n : GoString}
    (hnone : ∀ result ∈ results, result.key ≠ (t, n)) (st : Scoring) :
    (results.foldl (processResult conf round true) st).uptimePerService.find? t n =
        st.uptimePerService.find? t n ∧
      (results.foldl (processResult conf round true) st).slaPerService.find? t n =
        st.slaPerService.find? t n := by
  have hfilter : results.filter (fun result => result.key = (t, n)) = [] :=
    List.filter_eq_nil_iff.mpr (fun result hresult => by simpa using hnone result hresult)
  rw [uptime_foldl, sla_foldl, hfilter]
  exact ⟨rfl, rfl⟩

theorem isSome_lookup_recordUptime (m : UptimeMap) (result : Result) (t : Nat) :
    ((recordUptime m result).lookup t).isSome =
      (decide (result.teamID = t) || (m.lookup t).isSome) := by
  rw [recordUptime, GoMap₂.isSome_lookup_put, GoMap₂.isSome_lookup_ensure, ← Bool.or_assoc,
    Bool.or_self]

theorem isSome_lookup_recordSLA (st : Scoring) (result : Result) (t : Nat) :
    ((recordSLA conf round true st result).slaPerService.lookup t).isSome =
      (decide (result.teamID = t) || (st.slaPerService.lookup t).isSome) := by
  unfold recordSLA
  dsimp only
  split
  · simp [GoMap₂.isSome_lookup_put, GoMap₂.isSome_lookup_ensure]
  · split <;> simp [GoMap₂.isSome_lookup_put, GoMap₂.isSome_lookup_ensure]

/-- A team has a map if it had one or has a result. -/
theorem isSome_lookup_foldl (results : List Result) (st : Scoring) (t : Nat) :
    ((results.foldl (processResult conf round true) st).uptimePerService.lookup t).isSome =
      (results.any (fun result => result.teamID = t) || (st.uptimePerService.lookup t).isSome) ∧
    ((results.foldl (processResult conf round true) st).slaPerService.lookup t).isSome =
      (results.any (fun result => result.teamID = t) || (st.slaPerService.lookup t).isSome) := by
  induction results generalizing st with
  | nil => exact ⟨rfl, rfl⟩
  | cons result rest ih =>
    obtain ⟨huptime, hsla⟩ := ih (processResult conf round true st result)
    rw [List.foldl_cons, huptime, hsla, processResult, uptime_recordSLA,
      isSome_lookup_recordUptime, isSome_lookup_recordSLA, List.any_cons]
    simp only [Bool.or_assoc, Bool.or_left_comm, and_self]

/-! ### The rows -/

/-- The SLA rows the results call for, from the counters before any of them. -/
def dueRows (conf : MiscConfig) (round : Nat) (st : Scoring) (results : List Result) :
    List SLASchema :=
  (results.filter (fun result => (slaTick conf st result).2)).map (slaRow conf round)

/-- A result leaves alone what the result of another service does. -/
theorem slaTick_processResult {st : Scoring} {result other : Result} (h : result.key ≠ other.key) :
    slaTick conf (processResult conf round true st result) other = slaTick conf st other := by
  have hkey : result.key ≠ (other.teamID, other.serviceName) := h
  rw [slaTick, sla_processResult, if_neg hkey, slaTick]

theorem slas_foldl {results : List Result} (hnd : (results.map Result.key).Nodup) (st : Scoring) :
    (results.foldl (processResult conf round true) st).db =
      {st.db with slas := st.db.slas ++ dueRows conf round st results} := by
  induction results generalizing st with
  | nil => simp [dueRows]
  | cons result rest ih =>
    obtain ⟨hnew, hrest⟩ := List.nodup_cons.mp hnd
    have htick : ∀ other ∈ rest,
        (slaTick conf (processResult conf round true st result) other).2 =
          (slaTick conf st other).2 := by
      intro other hother
      have hne : result.key ≠ other.key := fun heq => hnew (heq ▸ List.mem_map_of_mem hother)
      rw [slaTick_processResult hne]
    have hdue : dueRows conf round (processResult conf round true st result) rest =
        dueRows conf round st rest := by
      rw [dueRows, List.filter_congr htick, dueRows]
    rw [List.foldl_cons, ih hrest, hdue, db_processResult, dueRows, dueRows, List.filter_cons]
    cases (slaTick conf st result).2 <;> simp

/-! ### A round -/

/-- The same maps, and the same rows in some order. -/
structure Scoring.SameInAnyOrder (a b : Scoring) : Prop where
  uptime : a.uptimePerService.Same b.uptimePerService
  sla : a.slaPerService.Same b.slaPerService
  checks : a.db.checks.Perm b.db.checks
  slas : a.db.slas.Perm b.db.slas
  rounds : a.db.rounds = b.db.rounds
  teams : a.db.teams = b.db.teams

theorem processCollectedResults_ok {results : List Result} (h : results ≠ []) (st : Scoring) :
    processCollectedResults conf .ok round results st =
      results.foldl (processResult conf round true) (saveRound round results st) := by
  rw [processCollectedResults, if_neg h]
  exact processResults_ok 0 results _

/-- Results of distinct services leave the same maps and write the same rows in whatever order
they arrive, and services without a result keep their entries. -/
theorem arrival_order (conf : MiscConfig) (round : Nat) (st : Scoring) {results other : List Result}
    (hperm : results.Perm other) (hnd : (results.map Result.key).Nodup) :
    (processCollectedResults conf .ok round results st).SameInAnyOrder
      (processCollectedResults conf .ok round other st) ∧
    ∀ t n, (∀ result ∈ results, result.key ≠ (t, n)) →
      (processCollectedResults conf .ok round results st).uptimePerService.find? t n =
        st.uptimePerService.find? t n ∧
      (processCollectedResults conf .ok round results st).slaPerService.find? t n =
        st.slaPerService.find? t n := by
  by_cases hnil : results = []
  · subst hnil
    obtain rfl := List.nil_perm.mp hperm
    exact ⟨⟨⟨fun _ => rfl, fun _ _ => rfl⟩, ⟨fun _ => rfl, fun _ _ => rfl⟩, .rfl, .rfl, rfl, rfl⟩,
      fun _ _ _ => ⟨rfl, rfl⟩⟩
  have hnil' : other ≠ [] := fun h => hnil (List.perm_nil.mp (h ▸ hperm))
  have hnd' : (other.map Result.key).Nodup := (hperm.map _).nodup_iff.mp hnd
  have hany : ∀ t, results.any (fun result => result.teamID = t) =
      other.any (fun result => result.teamID = t) := fun t => hperm.any_eq
  rw [processCollectedResults_ok hnil, processCollectedResults_ok hnil']
  constructor
  · refine
      { uptime := ⟨fun t => ?_, fun t n => ?_⟩
        sla := ⟨fun t => ?_, fun t n => ?_⟩
        checks := ?_
        slas := ?_
        rounds := ?_
        teams := ?_ }
    · rw [(isSome_lookup_foldl _ _ t).1, (isSome_lookup_foldl _ _ t).1, hany]
      rfl
    · rw [uptime_foldl, uptime_foldl, Rows.filter_key_perm Result.key hperm hnd]
      rfl
    · rw [(isSome_lookup_foldl _ _ t).2, (isSome_lookup_foldl _ _ t).2, hany]
      rfl
    · rw [sla_foldl, sla_foldl, Rows.filter_key_perm Result.key hperm hnd]
      rfl
    · rw [slas_foldl hnd, slas_foldl hnd']
      exact ((hperm.map _).map _).append_left _
    · rw [slas_foldl hnd, slas_foldl hnd']
      exact ((hperm.filter _).map _).append_left _
    · rw [slas_foldl hnd, slas_foldl hnd']
      rfl
    · rw [slas_foldl hnd, slas_foldl hnd']
      rfl
  · intro t n hnone
    exact find?_foldl_of_forall_ne hnone (saveRound round results st)

/-- Two teams' results of one round, either way round. -/
theorem arrival_order_two_teams :
    let failed : Result := ⟨[104], 1, false, [], [], 1, [], 1⟩
    let passed : Result := ⟨[104], 2, true, [], [], 1, [], 1⟩
    (processCollectedResults ⟨1, 5⟩ .ok 1 [failed, passed] {}).SameInAnyOrder
      (processCollectedResults ⟨1, 5⟩ .ok 1 [passed, failed] {}) := by
  intro failed passed
  exact (arrival_order ⟨1, 5⟩ 1 {} (.swap passed failed []) (by decide)).1

end QuotientScoring.Engine
