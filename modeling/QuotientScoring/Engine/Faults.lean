import QuotientScoring.Engine.Restart
import QuotientScoring.Lib.Transition

/-! Faults while a round is being processed.

`CreateRound` commits the check rows of a round at once; the SLA rows follow one
call at a time, outside that transaction. `faults` takes these calls as steps:
any `CreateSLA` may fail, and the process may stop at any point and come back with
counters loaded from the tables.

A failed call is never repeated, and a restart counts the rows of the round it
interrupted without charging for them, so a crossed threshold can be lost for
good: `penalty_lost`. `sla_consistent_of_harmless` says that nothing else goes
wrong: in a run without failed calls, whose restarts interrupt no round that still
owes a penalty, the SLA rows are those the check rows call for whenever no round
is being processed. -/
namespace QuotientScoring.Engine
open DB Transition

/-- The engine between two database calls: the counters and tables, the round
being processed with the results not yet counted, and whether there was a fault
since that round, or the last one, was saved. -/
structure Machine where
  scoring : Scoring
  pending : Option Handed := none
  faulty : Bool := false

inductive FaultEvent where
  /-- `processCollectedResults` is called, and `CreateRound` answers. -/
  | handOver (x : Handed) (ok : Bool)
  /-- One result is counted; `ok` is what `CreateSLA` answers, if it is called. -/
  | count (ok : Bool)
  | finish
  /-- The process stops, and `Start` loads the counters, `LoadSLAs` getting these rows. -/
  | restart (rows : List ServiceCheckSchema)
deriving Repr

def faultStep (conf : MiscConfig) (s : Machine) : FaultEvent → Option Machine
  | .handOver x ok =>
    if s.pending.isSome then none
    else if x.results = [] ∨ ok = false then some s
    else some ⟨saveRound x.round x.results s.scoring, some x, false⟩
  | .count ok =>
    match s.pending with
    | some ⟨round, result :: rest⟩ =>
      some ⟨processResult conf round ok s.scoring result, some ⟨round, rest⟩, s.faulty || !ok⟩
    | _ => none
  | .finish =>
    match s.pending with
    | some ⟨_, []⟩ => some {s with pending := none}
    | _ => none
  | .restart rows => (restart conf rows s.scoring.db).map (fun scoring => ⟨scoring, none, true⟩)

def faults (conf : MiscConfig) : System Machine FaultEvent where
  initial := fun s => s.pending = none ∧ s.scoring.uptimePerService = ∅ ∧
    s.scoring.slaPerService = ∅ ∧ s.scoring.db.checks = [] ∧ s.scoring.db.slas = []
  step := faultStep conf

/-- A round has been processed without fault, and nothing happened since. -/
def Machine.Settled (s : Machine) : Prop := s.pending = none ∧ s.faulty = false

instance (s : Machine) : Decidable s.Settled := inferInstanceAs (Decidable (_ ∧ _))

/-! ### Uninterrupted, the steps are `processCollectedResults` -/

/-- The calls that count results one after another, the first at position `i`. -/
def counts (createSLA : Nat → Bool) : Nat → List Result → List FaultEvent
  | _, [] => [.finish]
  | i, _ :: rest => .count (createSLA i) :: counts createSLA (i + 1) rest

theorem replay_counts (conf : MiscConfig) (createSLA : Nat → Bool) (round i : Nat)
    (results : List Result) (st : Scoring) (faulty : Bool) :
    ∃ faulty', (faults conf).replay (fun _ _ => True) ⟨st, some ⟨round, results⟩, faulty⟩
      (counts createSLA i results) =
        some ⟨processResults conf round createSLA i results st, none, faulty'⟩ := by
  induction results generalizing i st faulty with
  | nil => exact ⟨faulty, rfl⟩
  | cons result rest ih => exact ih (i + 1) _ _

/-- What `processCollectedResults` does is what its steps do, if nothing comes
between them. -/
theorem replay_processCollectedResults (conf : MiscConfig) (answers : Answers) (round : Nat)
    (results : List Result) (st : Scoring) :
    ∃ actions faulty, (faults conf).replay (fun _ _ => True) ⟨st, none, false⟩
      (.handOver ⟨round, results⟩ answers.createRound :: actions) =
        some ⟨processCollectedResults conf answers round results st, none, faulty⟩ := by
  rw [processCollectedResults]
  by_cases hnil : results = []
  · exact ⟨[], false, by simp [System.replay, faults, faultStep, hnil]⟩
  · cases hok : answers.createRound
    · exact ⟨[], false, by simp [System.replay, faults, faultStep, hnil]⟩
    · obtain ⟨faulty, h⟩ := replay_counts conf answers.createSLA round 0 results
        (saveRound round results st) false
      refine ⟨counts answers.createSLA 0 results, faulty, ?_⟩
      rw [if_neg hnil, if_pos rfl, ← h]
      simp [System.replay, faults, faultStep, hnil]

/-! ### What the check rows call for -/

/-- The SLA row a check row calls for, if one is due at it. -/
def dueSLA (conf : MiscConfig) (check : ServiceCheckSchema) : SLASchema :=
  ⟨check.teamID, check.roundID, check.serviceName, conf.slaPenalty⟩

/-- The SLA rows a service's check rows call for. -/
def calledFor (conf : MiscConfig) (t : Nat) (n : GoString) (db : Database) : List SLASchema :=
  (FailureRun.marks ServiceCheckSchema.failed conf.slaThreshold
    (db.checks.filter (fun check => check.key = (t, n)))).map (dueSLA conf)

/-- Each service has exactly the SLA rows its check rows call for. -/
def Consistent (conf : MiscConfig) (db : Database) : Prop :=
  ∀ t n, (slasOf t n db).Perm (calledFor conf t n db)

/-- A service without rows has nothing to be consistent about. -/
instance (conf : MiscConfig) (db : Database) : Decidable (Consistent conf db) :=
  decidable_of_iff (∀ key ∈ db.checks.map ServiceCheckSchema.key ++
      db.slas.map (fun sla => (sla.teamID, sla.serviceName)),
    (slasOf key.1 key.2 db).Perm (calledFor conf key.1 key.2 db)) <| by
    refine ⟨fun h t n => ?_, fun h key _ => h key.1 key.2⟩
    by_cases hkey : (t, n) ∈ db.checks.map ServiceCheckSchema.key ++
        db.slas.map (fun sla => (sla.teamID, sla.serviceName))
    · exact h (t, n) hkey
    · rw [List.mem_append, not_or] at hkey
      obtain ⟨hchecks, hslas⟩ := hkey
      have hnone : slasOf t n db = [] := by
        refine List.filter_eq_nil_iff.mpr fun sla hsla hk => hslas ?_
        exact List.mem_map.mpr ⟨sla, hsla, Prod.ext_iff.mpr (of_decide_eq_true hk)⟩
      have hrows : db.checks.filter (fun check => check.key = (t, n)) = [] := by
        refine List.filter_eq_nil_iff.mpr fun check hc hk => hchecks ?_
        exact List.mem_map.mpr ⟨check, hc, of_decide_eq_true hk⟩
      rw [hnone, calledFor, hrows, FailureRun.marks_nil, List.map_nil]

/-- The last row completes a multiple of the threshold. -/
def completes (threshold : Int) (rows : List ServiceCheckSchema) : Bool :=
  match rows.getLast? with
  | none => false
  | some check =>
    FailureRun.due ServiceCheckSchema.failed threshold (rows.filter (fun c => c.key = check.key))

/-- Some row of `todo`, coming after those of `done`, completes a multiple. -/
def owed (threshold : Int) (done todo : List ServiceCheckSchema) : Bool :=
  todo.inits.any (fun l => decide (l ≠ []) && completes threshold (done ++ l))

/-- The number of rows saved and not yet counted. -/
def Machine.uncounted (s : Machine) : Nat := (s.pending.map (fun x => x.results.length)).getD 0

/-- The steps that lose no penalty: the names are storable, `CreateSLA` succeeds, and
a restart gets each service's rows back in round order, at a point where the rows
not yet counted owe no penalty. -/
def Harmless (conf : MiscConfig) (s : Machine) : FaultEvent → Prop
  | .handOver x _ => Storable [x]
  | .count ok => ok = true
  | .finish => True
  | .restart rows => ReturnedInRoundOrder rows s.scoring.db.checks ∧
      owed conf.slaThreshold (s.scoring.db.checks.rdrop s.uncounted)
        (s.scoring.db.checks.rtake s.uncounted) = false

instance (rows checks : List ServiceCheckSchema) : Decidable (ReturnedInRoundOrder rows checks) :=
  decidable_of_iff (∀ key ∈ (rows ++ checks).map ServiceCheckSchema.key,
    rows.filter (fun check => check.key = key) = checks.filter (fun check => check.key = key)) <| by
    refine ⟨fun h key => ?_, fun h key _ => h key⟩
    by_cases hkey : key ∈ (rows ++ checks).map ServiceCheckSchema.key
    · exact h key hkey
    · have hnone : ∀ l : List ServiceCheckSchema, (∀ check ∈ l, check ∈ rows ++ checks) →
          l.filter (fun check => check.key = key) = [] := by
        intro l hl
        refine List.filter_eq_nil_iff.mpr fun check hc hk => hkey ?_
        exact List.mem_map.mpr ⟨check, hl check hc, of_decide_eq_true hk⟩
      rw [hnone rows (fun _ => List.mem_append_left _), hnone checks (fun _ => List.mem_append_right _)]

instance (conf : MiscConfig) (s : Machine) : (a : FaultEvent) → Decidable (Harmless conf s a)
  | .handOver x _ => inferInstanceAs (Decidable (Storable [x]))
  | .count ok => inferInstanceAs (Decidable (ok = true))
  | .finish => .isTrue trivial
  | .restart _ => inferInstanceAs (Decidable (_ ∧ _))

/-! ### The invariant -/

/-- The events so far are those the counters and the SLA rows account for, and then
those of the round being processed. -/
structure Tracked (conf : MiscConfig) (done todo : List Event) (s : Machine) : Prop where
  rows : s.scoring.db.checks = (done ++ todo).map Event.row
  storable : ∀ e ∈ done ++ todo, sanitizeDBString e.result.serviceName = e.result.serviceName
  todo : todo = (s.pending.map Handed.events).getD []
  sla : SLACounted conf done s.scoring.slaPerService
  charged : Charged conf done s.scoring.db

variable {conf : MiscConfig}

/-- Whether a row is due at an event can be read off the check rows. -/
theorem completes_row {events : List Event} {e : Event}
    (hs : ∀ e' ∈ events ++ [e], sanitizeDBString e'.result.serviceName = e'.result.serviceName)
    {t : Nat} {n : GoString} (hkey : e.result.key = (t, n)) :
    completes conf.slaThreshold ((events ++ [e]).map Event.row) =
      FailureRun.due Event.failed conf.slaThreshold (ofService t n events ++ [e]) := by
  have hrow : e.row.key = (t, n) := (row_key (hs e (by simp))).trans hkey
  have hfilter := filter_rows hs t n
  rw [ofService_append, ofService_singleton, if_pos hkey] at hfilter
  have hlast : ((events ++ [e]).map Event.row).getLast? = some e.row := by simp
  rw [completes, hlast]
  show FailureRun.due _ _ (((events ++ [e]).map Event.row).filter (fun c => c.key = e.row.key)) = _
  rw [hrow, hfilter, FailureRun.due_map]
  rfl

/-- An event that completes no multiple calls for no row. -/
theorem Charged.skip {events : List Event} {db : Database} (h : Charged conf events db) (e : Event)
    (hs : ∀ e' ∈ events ++ [e], sanitizeDBString e'.result.serviceName = e'.result.serviceName)
    (hc : completes conf.slaThreshold ((events ++ [e]).map Event.row) = false) :
    Charged conf (events ++ [e]) db := by
  intro t n
  rw [h t n, ofService_append, ofService_singleton]
  by_cases hkey : e.result.key = (t, n)
  · rw [completes_row hs hkey] at hc
    rw [if_pos hkey, FailureRun.marks_concat, hc]
    simp
  · rw [if_neg hkey, List.append_nil]

theorem owed_concat (threshold : Int) (done todo : List ServiceCheckSchema)
    (check : ServiceCheckSchema) : owed threshold done (todo ++ [check]) =
      (owed threshold done todo || completes threshold (done ++ (todo ++ [check]))) := by
  simp [owed]

/-- Events that owe no penalty leave the SLA rows accounted for. -/
theorem Charged.skips {done todo : List Event} {db : Database} (h : Charged conf done db)
    (hs : ∀ e ∈ done ++ todo, sanitizeDBString e.result.serviceName = e.result.serviceName)
    (ho : owed conf.slaThreshold (done.map Event.row) (todo.map Event.row) = false) :
    Charged conf (done ++ todo) db := by
  induction todo using List.reverseRecOn with
  | nil => rwa [List.append_nil]
  | append_singleton todo e ih =>
    rw [List.map_append, List.map_singleton, owed_concat, Bool.or_eq_false_iff] at ho
    obtain ⟨ho, hc⟩ := ho
    rw [← List.append_assoc] at hs ⊢
    refine (ih (fun e' he' => hs e' (List.mem_append_left _ he')) ho).skip e hs ?_
    rw [← hc]
    simp

theorem Tracked.handOver {done todo : List Event} {s s' : Machine} (h : Tracked conf done todo s)
    {x : Handed} {ok : Bool} (hg : Harmless conf s (.handOver x ok))
    (hstep : faultStep conf s (.handOver x ok) = some s') :
    ∃ todo', Tracked conf done todo' s' := by
  rw [faultStep] at hstep
  split at hstep
  · cases hstep
  · rename_i hpending
    have hnil : todo = [] := by
      have hnone : s.pending = none := by simpa using hpending
      simpa [hnone] using h.todo
    subst hnil
    split at hstep
    · obtain rfl := Option.some.inj hstep
      exact ⟨_, h⟩
    · obtain rfl := Option.some.inj hstep
      refine ⟨x.events, ?_, ?_, rfl, h.sla, h.charged⟩
      · have hrows := h.rows
        rw [List.append_nil] at hrows
        simp [saveRound, createRound, hrows, Handed.events, Event.row, toSchema, Function.comp_def]
      · intro e he
        rcases List.mem_append.mp he with he | he
        · exact h.storable e (List.mem_append_left _ he)
        · exact hg.events e (by simpa [eventsOf] using he)

theorem Tracked.count (hT : 1 ≤ conf.slaThreshold) {done todo : List Event} {s s' : Machine}
    (h : Tracked conf done todo s) (hstep : faultStep conf s (.count true) = some s') :
    ∃ done' todo', Tracked conf done' todo' s' := by
  rw [faultStep] at hstep
  split at hstep
  · rename_i round result rest hpending
    obtain rfl := Option.some.inj hstep
    have htodo : todo = ⟨round, result⟩ :: Handed.events ⟨round, rest⟩ := by
      rw [h.todo, hpending]
      rfl
    have hsplit : (done ++ [⟨round, result⟩]) ++ Handed.events ⟨round, rest⟩ = done ++ todo := by
      rw [htodo, List.append_assoc, List.singleton_append]
    refine ⟨done ++ [⟨round, result⟩], Handed.events ⟨round, rest⟩, ?_, ?_, rfl, ?_, ?_⟩
    · rw [hsplit, ← h.rows, db_processResult]
    · rw [hsplit]
      exact h.storable
    · exact h.sla.processResult hT ⟨round, result⟩ true
    · exact h.charged.processResult h.sla hT ⟨round, result⟩
  · cases hstep

theorem Tracked.restart (hT : 1 ≤ conf.slaThreshold) {done todo : List Event} {s s' : Machine}
    (h : Tracked conf done todo s) {rows : List ServiceCheckSchema}
    (hg : Harmless conf s (.restart rows)) (hstep : faultStep conf s (.restart rows) = some s') :
    Tracked conf (done ++ todo) [] s' := by
  obtain ⟨hrows, howed⟩ := hg
  obtain ⟨st, hst, _, hsla, hdb⟩ := restart_counted hT h.storable h.rows hrows
  have hs' : s' = ⟨st, none, true⟩ := by
    rw [faultStep, hst] at hstep
    exact (Option.some.inj hstep).symm
  have hlen : s.uncounted = (todo.map Event.row).length := by
    rw [h.todo, Machine.uncounted]
    cases s.pending <;> simp [Handed.events]
  have hdone : s.scoring.db.checks.rdrop s.uncounted = done.map Event.row := by
    rw [h.rows, hlen, List.map_append]
    simp [List.rdrop]
  have htodo : s.scoring.db.checks.rtake s.uncounted = todo.map Event.row := by
    rw [h.rows, hlen, List.map_append]
    simp [List.rtake]
  rw [hdone, htodo] at howed
  subst hs'
  refine ⟨?_, ?_, rfl, ?_, ?_⟩
  · rw [List.append_nil, ← h.rows]
    exact congrArg Database.checks hdb
  · rw [List.append_nil]
    exact h.storable
  · exact hsla
  · show Charged conf (done ++ todo) st.db
    rw [hdb]
    exact h.charged.skips h.storable howed

/-- Every harmless step keeps the account. -/
theorem Tracked.step (hT : 1 ≤ conf.slaThreshold) {done todo : List Event} {s s' : Machine}
    {a : FaultEvent} (h : Tracked conf done todo s) (hg : Harmless conf s a)
    (hstep : faultStep conf s a = some s') : ∃ done' todo', Tracked conf done' todo' s' := by
  cases a with
  | handOver x ok => exact ⟨done, h.handOver hg hstep⟩
  | count ok =>
    obtain rfl : ok = true := hg
    exact h.count hT hstep
  | finish =>
    rw [faultStep] at hstep
    split at hstep
    · rename_i hpending
      obtain rfl := Option.some.inj hstep
      refine ⟨done, todo, h.rows, h.storable, ?_, h.sla, h.charged⟩
      simpa [hpending, Handed.events] using h.todo
    · cases hstep
  | restart rows => exact ⟨_, _, h.restart hT hg hstep⟩

/-- When no round is being processed, the account is the consistency of the tables. -/
theorem Tracked.consistent {done todo : List Event} {s : Machine} (h : Tracked conf done todo s)
    (hidle : s.pending = none) : Consistent conf s.scoring.db := by
  obtain rfl : todo = [] := by simpa [hidle] using h.todo
  intro t n
  have hs := h.storable
  have hrows := h.rows
  rw [List.append_nil] at hs hrows
  rw [h.charged t n, calledFor, hrows, filter_rows hs, FailureRun.marks_map, List.map_map]
  have hmap : ∀ e ∈ FailureRun.marks Event.failed conf.slaThreshold (ofService t n done),
      Event.sla conf e = dueSLA conf e.row := by
    intro e he
    have hmem := List.mem_of_mem_filter (FailureRun.mem_of_mem_marks _ he)
    simp [Event.sla, slaRow, dueSLA, Event.row, toSchema, hs e hmem]
  exact List.Perm.of_eq (List.map_congr_left hmap)

/-- In every run of harmless steps, from empty maps and tables, each service has
exactly the SLA rows its check rows call for, whenever no round is being processed. -/
theorem sla_consistent_of_harmless (conf : MiscConfig) (hT : 1 ≤ conf.slaThreshold) (s : Machine)
    (h : Reachable (faults conf) (Harmless conf) s) (hidle : s.pending = none) :
    Consistent conf s.scoring.db := by
  have hinv : ∃ done todo, Tracked conf done todo s := by
    refine h.invariant (I := fun s => ∃ done todo, Tracked conf done todo s) ?_ ?_
    · rintro s ⟨hpending, _, hsla, hchecks, hslas⟩
      refine ⟨[], [], by simp [hchecks], by simp, by simp [hpending], fun t n => ?_,
        charged_empty hslas⟩
      rw [hsla]
      rfl
    · rintro s a s' ⟨done, todo, htracked⟩ hg hstep
      exact htracked.step hT hg hstep
  obtain ⟨done, todo, htracked⟩ := hinv
  exact htracked.consistent hidle

/-- A failure of the one service there is. -/
def oneFailure : Result := ⟨[119], 1, false, [], [], 0, [], 0⟩

/-- A restart between the saving of a round and its first result, where no penalty is
owed: the next failure is the second in a row and is charged. -/
theorem sla_consistent_of_harmless_restart :
    ∃ s, Reachable (faults ⟨2, 30⟩) (Harmless ⟨2, 30⟩) s ∧ s.scoring.db.slas ≠ [] ∧
      Consistent ⟨2, 30⟩ s.scoring.db := by
  obtain ⟨s, hs, hidle, hslas⟩ := Reachable.exists_of_replay (S := faults ⟨2, 30⟩)
    (G := Harmless ⟨2, 30⟩) (fun s => s.pending = none ∧ s.scoring.db.slas ≠ []) ⟨{}, none, false⟩
    [.handOver ⟨1, [oneFailure]⟩ true, .restart [toSchema 1 oneFailure],
      .handOver ⟨2, [oneFailure]⟩ true, .count true, .finish]
    ⟨rfl, rfl, rfl, rfl, rfl⟩ (by decide)
  exact ⟨s, hs, hslas, sla_consistent_of_harmless ⟨2, 30⟩ (by decide) s hs hidle⟩

/-! ### Lost penalties -/

/-- The faults of a run: failed calls of `CreateSLA`, restarts, or both. -/
def Allowed (errors stops : Bool) (s : Machine) : FaultEvent → Prop
  | .count ok => errors = true ∨ ok = true
  | .restart rows => stops = true ∧ ReturnedInRoundOrder rows s.scoring.db.checks
  | _ => True

instance (errors stops : Bool) (s : Machine) :
    (a : FaultEvent) → Decidable (Allowed errors stops s a)
  | .count _ => inferInstanceAs (Decidable (_ ∨ _))
  | .restart _ => inferInstanceAs (Decidable (_ ∧ _))
  | .handOver _ _ => .isTrue trivial
  | .finish => .isTrue trivial

/-- A third round, in which the service is up. -/
def lastRound : List FaultEvent :=
  [.handOver ⟨3, [{oneFailure with status := true}]⟩ true, .count true, .finish]

/-- Two failures with threshold two, and a third round without fault. Whether the
penalty of the second fails to be written or the process stops before writing it,
it is never charged. -/
theorem penalty_lost :
    (∃ s, Reachable (faults ⟨2, 30⟩) (Allowed true false) s ∧ s.Settled ∧
      ¬Consistent ⟨2, 30⟩ s.scoring.db) ∧
    ∃ s, Reachable (faults ⟨2, 30⟩) (Allowed false true) s ∧ s.Settled ∧
      ¬Consistent ⟨2, 30⟩ s.scoring.db := by
  constructor
  · refine Reachable.exists_of_replay (fun s : Machine => s.Settled ∧ ¬Consistent ⟨2, 30⟩ s.scoring.db)
      ⟨{}, none, false⟩ ([.handOver ⟨1, [oneFailure]⟩ true, .count true, .finish,
        .handOver ⟨2, [oneFailure]⟩ true, .count false, .finish] ++ lastRound) ?_ ?_
    · exact ⟨rfl, rfl, rfl, rfl, rfl⟩
    · decide
  · refine Reachable.exists_of_replay (fun s : Machine => s.Settled ∧ ¬Consistent ⟨2, 30⟩ s.scoring.db)
      ⟨{}, none, false⟩ ([.handOver ⟨1, [oneFailure]⟩ true, .count true, .finish,
        .handOver ⟨2, [oneFailure]⟩ true, .restart [toSchema 1 oneFailure, toSchema 2 oneFailure]] ++ lastRound) ?_ ?_
    · exact ⟨rfl, rfl, rfl, rfl, rfl⟩
    · decide

end QuotientScoring.Engine
