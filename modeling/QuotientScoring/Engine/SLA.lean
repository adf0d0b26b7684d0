import QuotientScoring.Engine.History

/-! When an SLA row is written.

A team's service is charged once for every `SlaThreshold` consecutive failures
of its own results, however they are spread over the rounds: a round in which it
was not checked neither continues nor breaks a run. `violationRounds` reads the
rounds that charge it off the history; `sla_accounting` says that the rows
written are exactly one for each of them, and what the counter in memory is. -/
namespace QuotientScoring.Engine
open DB

/-- At most one result per team and service. -/
def Handed.OncePerService (x : Handed) : Prop := (x.results.map Result.key).Nodup

/-- The team's service failed in the round. -/
def Handed.failedIn (x : Handed) (t : Nat) (n : GoString) : Bool :=
  x.results.any (fun result => decide (result.key = (t, n)) && result.failed)

/-- The length of the run of failures the service's own results end with. -/
def failureRun (t : Nat) (n : GoString) (h : List Handed) : Nat :=
  FailureRun.current Event.failed (ofService t n (eventsOf h))

/-- The service failed in the last round, and its run of failures is a multiple
of the threshold. -/
def violated (threshold : Int) (t : Nat) (n : GoString) (h : List Handed) : Bool :=
  match h.getLast? with
  | none => false
  | some x => x.failedIn t n && decide (threshold ∣ (failureRun t n h : Int))

/-- The rounds at which the service is charged. -/
def violationRounds (threshold : Int) (t : Nat) (n : GoString) (h : List Handed) : List Nat :=
  (h.inits.filter (violated threshold t n)).filterMap (fun p => p.getLast?.map Handed.round)

theorem violationRounds_concat (threshold : Int) (t : Nat) (n : GoString) (h : List Handed)
    (x : Handed) : violationRounds threshold t n (h ++ [x]) = violationRounds threshold t n h ++
      if violated threshold t n (h ++ [x]) then [x.round] else [] := by
  simp only [violationRounds, FailureRun.inits_concat, List.filter_append, List.filterMap_append]
  congr 1
  cases hv : violated threshold t n (h ++ [x]) <;> simp [hv]

/-- A round has no event of the service, or exactly one. -/
theorem Handed.OncePerService.ofService {x : Handed} (h : x.OncePerService) (t : Nat)
    (n : GoString) :
    (Engine.ofService t n x.events = [] ∧ x.failedIn t n = false) ∨
      ∃ e : Event, Engine.ofService t n x.events = [e] ∧ e.round = x.round ∧
        e.result.key = (t, n) ∧ x.failedIn t n = e.failed := by
  obtain ⟨round, results⟩ := x
  simp only [OncePerService] at h
  simp only [Handed.events, failedIn]
  induction results with
  | nil => exact .inl ⟨rfl, rfl⟩
  | cons result rest ih =>
    obtain ⟨hnew, hrest⟩ := List.nodup_cons.mp h
    by_cases hkey : result.key = (t, n)
    · have hnone : ∀ r ∈ rest, r.key ≠ (t, n) := by
        intro r hr hrk
        exact hnew (List.mem_map.mpr ⟨r, hr, hrk.trans hkey.symm⟩)
      refine .inr ⟨⟨round, result⟩, ?_, rfl, hkey, ?_⟩
      · have hfilter : Engine.ofService t n (rest.map (fun result => ⟨round, result⟩)) = [] := by
          refine List.filter_eq_nil_iff.mpr fun e he => ?_
          obtain ⟨r, hr, rfl⟩ := List.mem_map.mp he
          simpa using hnone r hr
        rw [List.map_cons, ← List.singleton_append, ofService_append, hfilter,
          ofService_singleton, if_pos hkey, List.append_nil]
      · have hany : rest.any (fun r => decide (r.key = (t, n)) && r.failed) = false := by
          refine List.any_eq_false.mpr fun r hr => ?_
          simp [hnone r hr]
        simp [List.any_cons, hkey, hany, Event.failed]
    · rw [List.map_cons, ← List.singleton_append, ofService_append, ofService_singleton,
        if_neg hkey, List.nil_append, List.any_cons]
      simpa [hkey] using ih hrest

/-- The marks of a service's events are the rounds that charge it. -/
theorem marks_eq_violationRounds (conf : MiscConfig) (h : List Handed)
    (honce : ∀ x ∈ h, x.OncePerService) (t : Nat) (n : GoString) :
    (FailureRun.marks Event.failed conf.slaThreshold (ofService t n (eventsOf h))).map
        (Event.sla conf) =
      (violationRounds conf.slaThreshold t n h).map (fun round => ⟨t, round, n, conf.slaPenalty⟩) := by
  induction h using List.reverseRecOn with
  | nil => simp [eventsOf, ofService, violationRounds, violated]
  | append_singleton h x ih =>
    have hrun : failureRun t n (h ++ [x]) = FailureRun.current Event.failed
        (ofService t n (eventsOf h) ++ ofService t n x.events) := by
      rw [failureRun, eventsOf_concat, ofService_append]
    have hv : violated conf.slaThreshold t n (h ++ [x]) =
        (x.failedIn t n && decide (conf.slaThreshold ∣ (failureRun t n (h ++ [x]) : Int))) := by
      simp [violated]
    have ih := ih (fun y hy => honce y (List.mem_append_left _ hy))
    rw [eventsOf_concat, ofService_append, violationRounds_concat, hv, hrun]
    obtain ⟨hnil, hfail⟩ | ⟨e, he, hround, hkey, hfail⟩ :=
      (honce x (by simp)).ofService t n
    · rw [hnil, hfail]
      simpa using ih
    · obtain ⟨ht, hn⟩ := Result.key_eq.mp hkey
      have hdue : FailureRun.due Event.failed conf.slaThreshold (ofService t n (eventsOf h) ++ [e]) =
          (e.failed && decide (conf.slaThreshold ∣ (FailureRun.current Event.failed
            (ofService t n (eventsOf h) ++ [e]) : Int))) := by
        rw [FailureRun.due, FailureRun.current_concat]
        cases e.failed <;> simp
      rw [he, hfail, FailureRun.marks_concat, List.map_append, List.map_append, ih, hdue]
      congr 1
      split
      · simp [Event.sla, slaRow, ht, hn, hround]
      · rfl

/-- From empty maps and an empty SLA table, over any history in which no round has
two results for one service, the SLA rows of each service are one row for each
round that charges it, and the counter in memory is its run of failures modulo
the threshold. -/
theorem sla_accounting (conf : MiscConfig) (hT : 1 ≤ conf.slaThreshold) (db : Database)
    (hdb : db.slas = []) (h : List Handed) (honce : ∀ x ∈ h, x.OncePerService) (t : Nat)
    (n : GoString) :
    slasOf t n (processHistory conf h {db := db}).db =
        (violationRounds conf.slaThreshold t n h).map
          (fun round => ⟨t, round, n, conf.slaPenalty⟩) ∧
      (processHistory conf h {db := db}).slaPerService.get t n =
        (failureRun t n h : Int) % conf.slaThreshold := by
  constructor
  · rw [charged_history hT h hdb t n]
    exact marks_eq_violationRounds conf h honce t n
  · rw [GoMap₂.get, slaCounted_history hT h db]
    exact FailureRun.counter_getD ..

/-- Three failures in a row around a round without a check, threshold three: one
row, in the round of the third. -/
theorem sla_accounting_third_failure :
    let fail : Result := ⟨[119], 1, false, [], [], 0, [], 0⟩
    let h : List Handed := [⟨1, [fail]⟩, ⟨2, [fail]⟩, ⟨3, [{fail with teamID := 2}]⟩, ⟨4, [fail]⟩]
    slasOf 1 [119] (processHistory ⟨3, 30⟩ h {}).db = [⟨1, 4, [119], 30⟩] := by
  intro fail h
  have := (sla_accounting ⟨3, 30⟩ (by decide) {} rfl h (by
    intro x hx
    have : x = ⟨1, [fail]⟩ ∨ x = ⟨2, [fail]⟩ ∨ x = ⟨3, [{fail with teamID := 2}]⟩ ∨
      x = ⟨4, [fail]⟩ := by simpa [h] using hx
    rcases this with rfl | rfl | rfl | rfl <;> exact List.nodup_singleton _) 1 [119]).1
  rw [this]
  decide

end QuotientScoring.Engine
