import QuotientScoring.Engine.Results

/-! Rounds processed one after another.

A history is the list of the calls of `processCollectedResults`, each a round id
and the results handed over. Its *events* are the results of all its rounds, in
the order they are counted. The counters in memory and the tables are read off
the events of one service at a time: `UptimeCounted`, `SLACounted` and `Charged`
say how. One result keeps each of them, and `history_induction` carries what one
result keeps through a whole history. -/
namespace QuotientScoring.Engine
open DB

/-- One call of `processCollectedResults`. -/
structure Handed where
  round : Nat
  results : List Result
deriving DecidableEq, Repr

/-- The calls, with every database call succeeding. -/
def processHistory (conf : MiscConfig) (h : List Handed) (st : Scoring) : Scoring :=
  h.foldl (fun st x => processCollectedResults conf .ok x.round x.results st) st

theorem processHistory_append (conf : MiscConfig) (h k : List Handed) (st : Scoring) :
    processHistory conf (h ++ k) st = processHistory conf k (processHistory conf h st) :=
  List.foldl_append ..

/-! ### Events -/

/-- A result, in the round it was counted in. -/
structure Event where
  round : Nat
  result : Result
deriving DecidableEq, Repr

def Event.failed (e : Event) : Bool := e.result.failed

/-- The check row of an event. -/
def Event.row (e : Event) : ServiceCheckSchema := toSchema e.round e.result

/-- The SLA row of an event at which one is due. -/
def Event.sla (conf : MiscConfig) (e : Event) : SLASchema := slaRow conf e.round e.result

/-- The events of one service of one team. -/
def ofService (t : Nat) (n : GoString) (events : List Event) : List Event :=
  events.filter (fun e => e.result.key = (t, n))

def Handed.events (x : Handed) : List Event := x.results.map (fun result => ⟨x.round, result⟩)

def eventsOf (h : List Handed) : List Event := h.flatMap Handed.events

theorem eventsOf_concat (h : List Handed) (x : Handed) :
    eventsOf (h ++ [x]) = eventsOf h ++ x.events := by
  simp [eventsOf]

theorem ofService_append (t : Nat) (n : GoString) (a b : List Event) :
    ofService t n (a ++ b) = ofService t n a ++ ofService t n b :=
  List.filter_append ..

theorem ofService_singleton (t : Nat) (n : GoString) (e : Event) :
    ofService t n [e] = if e.result.key = (t, n) then [e] else [] := by
  by_cases h : e.result.key = (t, n) <;> simp [ofService, h]

/-! ### Counters and penalties -/

/-- The uptimes in memory are those of the events. -/
def UptimeCounted (events : List Event) (m : UptimeMap) : Prop :=
  ∀ t n, m.find? t n = if ofService t n events = [] then none else
    some (uptimeOf ((ofService t n events).map Event.row))

/-- The SLA counters in memory are those of the events. -/
def SLACounted (conf : MiscConfig) (events : List Event) (m : SLAMap) : Prop :=
  ∀ t n, m.find? t n =
    FailureRun.counter Event.failed conf.slaThreshold (ofService t n events)

/-- The SLA rows of one service of one team, in the order they were written. -/
def slasOf (t : Nat) (n : GoString) (db : Database) : List SLASchema :=
  db.slas.filter (fun sla => sla.teamID = t ∧ sla.serviceName = n)

/-- The SLA rows are those the events call for. -/
def Charged (conf : MiscConfig) (events : List Event) (db : Database) : Prop :=
  ∀ t n, slasOf t n db =
    (FailureRun.marks Event.failed conf.slaThreshold (ofService t n events)).map (Event.sla conf)

variable {conf : MiscConfig}

theorem charged_empty {db : Database} (hdb : db.slas = []) : Charged conf [] db :=
  fun _ _ => by simp [ofService, slasOf, hdb]

theorem uptimeOf_concat (rows : List ServiceCheckSchema) (check : ServiceCheckSchema) :
    uptimeOf (rows ++ [check]) = addCheck (uptimeOf rows) check.result := by
  simp [uptimeOf, addCheck]

theorem UptimeCounted.getD {events : List Event} {m : UptimeMap} (h : UptimeCounted events m)
    (t : Nat) (n : GoString) :
    (m.find? t n).getD default = uptimeOf ((ofService t n events).map Event.row) := by
  rw [h]
  split
  · rename_i hnil
    rw [hnil]
    rfl
  · rfl

theorem UptimeCounted.processResult {events : List Event} {st : Scoring}
    (h : UptimeCounted events st.uptimePerService) (e : Event) (ok : Bool) :
    UptimeCounted (events ++ [e])
      (processResult conf e.round ok st e.result).uptimePerService := by
  intro t n
  rw [uptime_processResult, ofService_append, ofService_singleton]
  by_cases hkey : e.result.key = (t, n)
  · rw [if_pos hkey, if_pos hkey, h.getD, if_neg (List.append_ne_nil_of_right_ne_nil _
      (List.cons_ne_nil _ _)), List.map_append, List.map_singleton, uptimeOf_concat]
    rfl
  · rw [if_neg hkey, if_neg hkey, List.append_nil, h]

/-- What the counter of an event's service does: it stands at the run of failures
modulo the threshold, and a row is due at the marks. -/
theorem SLACounted.slaTick_eq {events : List Event} {st : Scoring}
    (h : SLACounted conf events st.slaPerService) (hT : 1 ≤ conf.slaThreshold) (e : Event)
    (t : Nat) (n : GoString) (hkey : e.result.key = (t, n)) :
    slaTick conf st e.result =
      ((FailureRun.current Event.failed (ofService t n events ++ [e]) : Int) % conf.slaThreshold,
        FailureRun.due Event.failed conf.slaThreshold (ofService t n events ++ [e])) := by
  obtain ⟨ht, hn⟩ := Result.key_eq.mp hkey
  rw [slaTick, ht, hn, h, FailureRun.counter_getD, ← FailureRun.tick_current _ _ hT]
  rfl

theorem SLACounted.processResult {events : List Event} {st : Scoring}
    (h : SLACounted conf events st.slaPerService) (hT : 1 ≤ conf.slaThreshold) (e : Event)
    (ok : Bool) :
    SLACounted conf (events ++ [e])
      (processResult conf e.round ok st e.result).slaPerService := by
  intro t n
  rw [sla_processResult, ofService_append, ofService_singleton]
  by_cases hkey : e.result.key = (t, n)
  · rw [if_pos hkey, if_pos hkey, h.slaTick_eq hT e t n hkey, FailureRun.counter_concat]
  · rw [if_neg hkey, if_neg hkey, List.append_nil, h]

theorem Charged.processResult {events : List Event} {st : Scoring} (hc : Charged conf events st.db)
    (h : SLACounted conf events st.slaPerService) (hT : 1 ≤ conf.slaThreshold) (e : Event) :
    Charged conf (events ++ [e]) (processResult conf e.round true st e.result).db := by
  intro t n
  have hslas : slasOf t n (Engine.processResult conf e.round true st e.result).db =
      slasOf t n st.db ++ if (slaTick conf st e.result).2 = true ∧ e.result.key = (t, n) then
        [e.sla conf] else [] := by
    rw [db_processResult]
    simp only [slasOf, List.filter_append, Bool.true_and]
    congr 1
    by_cases hdue : (slaTick conf st e.result).2 = true
    · by_cases hkey : e.result.key = (t, n)
      · obtain ⟨ht, hn⟩ := Result.key_eq.mp hkey
        simp [hdue, hkey, slaRow, Event.sla, ht, hn]
      · have hne : ¬(e.result.teamID = t ∧ e.result.serviceName = n) :=
          fun hk => hkey (Result.key_eq.mpr hk)
        simpa [hdue, hkey, slaRow] using hne
    · simp [hdue]
  rw [hslas, ofService_append, ofService_singleton, hc t n]
  by_cases hkey : e.result.key = (t, n)
  · rw [if_pos hkey, FailureRun.marks_concat, h.slaTick_eq hT e t n hkey, List.map_append]
    simp only [hkey, and_true]
    split <;> rfl
  · simp [hkey]

/-! ### A round, and a history -/

/-- What a round does when every call succeeds: nothing if it has no results. -/
theorem process_ok (x : Handed) (st : Scoring) :
    processCollectedResults conf .ok x.round x.results st =
      if x.results = [] then st
      else processResults conf x.round (fun _ => true) 0 x.results
        (saveRound x.round x.results st) := rfl

/-- What survives the saving of a round and one counted result survives a history. -/
theorem history_induction {P : List Event → Scoring → Prop}
    (hsave : ∀ events st (x : Handed), P events st → P events (saveRound x.round x.results st))
    (hresult : ∀ events st e, P events st →
      P (events ++ [e]) (processResult conf e.round true st e.result))
    {st : Scoring} (hinit : P [] st) (h : List Handed) :
    P (eventsOf h) (processHistory conf h st) := by
  have hround : ∀ (x : Handed) (events : List Event) (i : Nat) (st : Scoring), P events st →
      P (events ++ x.events) (processResults conf x.round (fun _ => true) i x.results st) := by
    intro ⟨round, results⟩
    induction results with
    | nil =>
      intro events i st hP
      rw [Handed.events, List.map_nil, List.append_nil]
      exact hP
    | cons result rest ih =>
      intro events i st hP
      have hrest := ih _ (i + 1) _ (hresult events st ⟨round, result⟩ hP)
      rwa [List.append_assoc] at hrest
  induction h using List.reverseRecOn with
  | nil => exact hinit
  | append_singleton h x ih =>
    rw [processHistory_append, eventsOf_concat]
    show P _ (processCollectedResults conf .ok x.round x.results (processHistory conf h st))
    rw [process_ok]
    split
    · rename_i hnil
      rw [Handed.events, hnil, List.map_nil, List.append_nil]
      exact ih
    · exact hround x _ 0 _ (hsave _ _ x ih)

/-- From empty maps the uptimes are those of the events. -/
theorem uptimeCounted_history (h : List Handed) (db : Database) :
    UptimeCounted (eventsOf h) (processHistory conf h {db := db}).uptimePerService :=
  history_induction (P := fun events st => UptimeCounted events st.uptimePerService)
    (fun _ _ _ hP => hP) (fun _ _ e hP => hP.processResult e true) (fun _ _ => rfl) h

/-- From empty maps the SLA counters are those of the events. -/
theorem slaCounted_history (hT : 1 ≤ conf.slaThreshold) (h : List Handed) (db : Database) :
    SLACounted conf (eventsOf h) (processHistory conf h {db := db}).slaPerService :=
  history_induction (P := fun events st => SLACounted conf events st.slaPerService)
    (fun _ _ _ hP => hP) (fun _ _ e hP => hP.processResult hT e true) (fun _ _ => rfl) h

/-- From empty maps and an empty SLA table the SLA rows are those the events call for. -/
theorem charged_history (hT : 1 ≤ conf.slaThreshold) (h : List Handed) {db : Database}
    (hdb : db.slas = []) : Charged conf (eventsOf h) (processHistory conf h {db := db}).db :=
  (history_induction (P := fun events st =>
      SLACounted conf events st.slaPerService ∧ Charged conf events st.db)
    (fun _ _ _ hP => hP)
    (fun _ _ e hP => ⟨hP.1.processResult hT e true, hP.2.processResult hP.1 hT e⟩)
    ⟨fun _ _ => rfl, charged_empty hdb⟩ h).2

theorem checks_processResults (round : Nat) (answers : Nat → Bool) (i : Nat)
    (results : List Result) (st : Scoring) :
    (processResults conf round answers i results st).db.checks = st.db.checks := by
  induction results generalizing i st with
  | nil => rfl
  | cons result rest ih => rw [Engine.processResults, ih, db_processResult]

theorem checks_process (x : Handed) (st : Scoring) :
    (processCollectedResults conf .ok x.round x.results st).db.checks =
      st.db.checks ++ x.events.map Event.row := by
  rw [process_ok]
  split
  · rename_i hnil
    simp [Handed.events, hnil]
  · rw [checks_processResults]
    simp [saveRound, createRound, Handed.events, Event.row, toSchema, Function.comp_def]

/-- The check rows written are the events', in order. -/
theorem checks_history (h : List Handed) (st : Scoring) :
    (processHistory conf h st).db.checks = st.db.checks ++ (eventsOf h).map Event.row := by
  induction h using List.reverseRecOn with
  | nil => simp [processHistory, eventsOf]
  | append_singleton h x ih =>
    rw [processHistory_append, eventsOf_concat, List.map_append, ← List.append_assoc, ← ih]
    exact checks_process x _

end QuotientScoring.Engine
