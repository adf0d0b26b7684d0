import QuotientScoring.Engine.ResetFaults
import QuotientScoring.Engine.Restart
import QuotientScoring.Lib.Scoreboard
import QuotientScoring.Lib.Transition
import QuotientScoring.WWW.ExportScores
import Mathlib.Algebra.BigOperators.Ring.Finset

/-! What the score reports show is a scoreboard.

The engine keeps rows and counters, and every report makes its own numbers of them. Beside it
goes a `Board`, which only knows the outcomes: those of a round if the round is saved, and none at
first and after a reset. A restart is nothing to it.

`reports_refine`: with the SLA settings that there are, whatever rounds are saved or not and
wherever the engine is restarted or reset, the service scores, a team's score, the export and the
counters in memory all show the board. -/
namespace QuotientScoring.WWW
open DB Engine Transition Scoreboard

/-- The service that a result is about, and its outcome. -/
def outcomeOf (result : Result) : (Nat × GoString) × Outcome :=
  (result.key, if result.status then .passed result.points else .failed)

/-- `saved` is whether `CreateRound` commits, and `rows` what the query of `LoadSLAs` returns. -/
inductive ScoreAction where
  | round (x : Handed) (saved : Bool)
  | restart (rows : List ServiceCheckSchema)
  | reset

def resetScoring (st : Scoring) : Scoring := {db := truncate st.db}

/-- It is what a reset leaves. -/
theorem resetScores_scoring (s : ScoreSite) :
    let s' := (Program.exec resetScores ⟨s, []⟩).2.state
    (⟨s'.uptimePerService, s'.slaPerService, s'.db⟩ : Scoring) =
      resetScoring ⟨s.uptimePerService, s.slaPerService, s.db⟩ := rfl

section
variable (conf : MiscConfig)

def engineStep (st : Scoring) : ScoreAction → Option Scoring
  | .round x saved =>
    some (processCollectedResults conf ⟨saved, fun _ => true⟩ x.round x.results st)
  | .restart rows => restart conf rows st.db
  | .reset => some (resetScoring st)

def boardStep (b : Board (Nat × GoString)) : ScoreAction → Board (Nat × GoString)
  | .round x true => b.recordAll conf.slaThreshold (x.results.map outcomeOf)
  | .round _ false | .restart _ => b
  | .reset => .empty

/-- The engine, and the board beside it. -/
structure Scored where
  engine : Scoring
  board : Board (Nat × GoString)

/-- Before the first round. -/
def scoring : System Scored ScoreAction where
  initial s := s.engine.uptimePerService = ∅ ∧ s.engine.slaPerService = ∅ ∧
    s.engine.db.checks = [] ∧ s.engine.db.slas = [] ∧ s.board = .empty
  step s a := (engineStep conf s.engine a).map (fun st => ⟨st, boardStep conf s.board a⟩)

end

/-- The results have service names that the tables can hold, and the rows of each service come
back in the order of its rounds. -/
def Regular (s : Scored) : ScoreAction → Prop
  | .round x _ => ∀ result ∈ x.results, sanitizeDBString result.serviceName = result.serviceName
  | .restart rows => ReturnedInRoundOrder rows s.engine.db.checks
  | .reset => True

/-! ### Both count the same events -/

/-- What the engine keeps are the events that the board has. -/
structure Counts (conf : MiscConfig) (events : List Event) (s : Scored) : Prop where
  storable : ∀ e ∈ events, sanitizeDBString e.result.serviceName = e.result.serviceName
  checks : s.engine.db.checks = events.map Event.row
  uptime : UptimeCounted events s.engine.uptimePerService
  sla : SLACounted conf events s.engine.slaPerService
  charged : Charged conf events s.engine.db
  board : s.board =
    Board.empty.recordAll conf.slaThreshold (events.map (fun e => outcomeOf e.result))

variable {conf : MiscConfig} {s s' : Scored} {events : List Event}

/-- A round that is saved adds its events. -/
theorem Counts.round (hT : 1 ≤ conf.slaThreshold) (h : Counts conf events s) (x : Handed)
    (hx : ∀ result ∈ x.results, sanitizeDBString result.serviceName = result.serviceName) :
    Counts conf (events ++ x.events)
      ⟨processCollectedResults conf .ok x.round x.results s.engine,
        s.board.recordAll conf.slaThreshold (x.results.map outcomeOf)⟩ := by
  let P (more : List Event) (st : Scoring) : Prop :=
    UptimeCounted (events ++ more) st.uptimePerService ∧
      SLACounted conf (events ++ more) st.slaPerService ∧ Charged conf (events ++ more) st.db
  have hresult : ∀ more st e, P more st →
      P (more ++ [e]) (processResult conf e.round true st e.result) := by
    rintro more st e ⟨huptime, hsla, hcharged⟩
    simp only [P, ← List.append_assoc]
    exact ⟨huptime.processResult e true, hsla.processResult hT e true,
      hcharged.processResult hsla hT e⟩
  have hinit : P [] s.engine := by
    simp only [P, List.append_nil]
    exact ⟨h.uptime, h.sla, h.charged⟩
  have hevents : eventsOf [x] = x.events := List.append_nil _
  obtain ⟨huptime, hsla, hcharged⟩ :=
    hevents ▸ history_induction (P := P) (fun _ _ _ hP => hP) hresult hinit [x]
  refine ⟨?_, ?_, huptime, hsla, hcharged, ?_⟩
  · intro e he
    rcases List.mem_append.mp he with he | he
    · exact h.storable e he
    · obtain ⟨result, hresult, rfl⟩ := List.mem_map.mp he
      exact hx result hresult
  · show (processCollectedResults conf .ok x.round x.results s.engine).db.checks = _
    rw [checks_process, h.checks, List.map_append]
  · have houtcomes : x.events.map (fun e => outcomeOf e.result) = x.results.map outcomeOf := by
      rw [Handed.events, List.map_map]
      rfl
    rw [List.map_append, Board.recordAll_append, ← h.board, houtcomes]

theorem Counts.step (hT : 1 ≤ conf.slaThreshold) (h : Counts conf events s) {a : ScoreAction}
    (ha : Regular s a) (hstep : (scoring conf).step s a = some s') :
    ∃ events', Counts conf events' s' := by
  obtain ⟨st, hst, rfl⟩ := Option.map_eq_some_iff.mp hstep
  cases a with
  | round x saved =>
    obtain rfl := Option.some.inj hst
    cases saved with
    | true => exact ⟨_, h.round hT x ha⟩
    | false =>
      have hsame : processCollectedResults conf ⟨false, fun _ => true⟩ x.round x.results s.engine =
          s.engine := by
        unfold processCollectedResults
        split <;> rfl
      refine ⟨events, ?_⟩
      rw [hsame]
      exact h
  | restart rows =>
    obtain ⟨st', hst', huptime, hsla, hdb⟩ := restart_counted hT h.storable h.checks ha
    obtain rfl := Option.some.inj (hst'.symm.trans hst)
    exact ⟨events, h.storable, hdb ▸ h.checks, huptime, hsla, hdb ▸ h.charged, h.board⟩
  | reset =>
    obtain rfl := Option.some.inj hst
    refine ⟨[], ?_, rfl, fun _ _ => rfl, fun _ _ => rfl, charged_empty rfl, rfl⟩
    intro e he
    cases he

theorem counts_of_reachable (hT : 1 ≤ conf.slaThreshold)
    (h : Reachable (scoring conf) Regular s) : ∃ events, Counts conf events s := by
  refine h.invariant (I := fun s => ∃ events, Counts conf events s) ?_ ?_
  · rintro s ⟨huptime, hsla, hchecks, hslas, hboard⟩
    refine ⟨[], ?_, hchecks, ?_, ?_, charged_empty hslas, hboard⟩
    · intro e he
      cases he
    · rw [huptime]
      exact fun _ _ => rfl
    · rw [hsla]
      exact fun _ _ => rfl
  · rintro s a s' ⟨events, hevents⟩ ha hstep
    exact hevents.step hT ha hstep

/-! ### What a service shows -/

def eventOutcome (e : Event) : Outcome := (outcomeOf e.result).2

theorem fails_eventOutcome (e : Event) : (eventOutcome e).fails = e.failed := by
  rw [eventOutcome, outcomeOf, Event.failed, Result.failed]
  cases e.result.status <;> rfl

theorem points_eventOutcome (e : Event) : (eventOutcome e).points = e.row.scored := by
  rw [eventOutcome, outcomeOf, Event.row, ServiceCheckSchema.scored, toSchema]
  cases e.result.status <;> rfl

namespace Counts
variable (h : Counts conf events s) (t : Nat) (n : GoString)
include h

/-- A service stands as its events have it. -/
theorem standing : s.board.standing (t, n) =
    standingOf conf.slaThreshold ((ofService t n events).map eventOutcome) := by
  have hown : ((events.map (fun e => outcomeOf e.result)).filter (fun o => o.1 = (t, n))).map
      Prod.snd = (ofService t n events).map eventOutcome := by
    rw [List.filter_map, List.map_map]
    rfl
  rw [h.board, standing_recordAll, hown]

theorem mem_services : (t, n) ∈ s.board.services ↔ ofService t n events ≠ [] := by
  rw [h.board, mem_services_recordAll, ofService, ne_eq, List.filter_eq_nil_iff]
  simp [outcomeOf]

theorem points : ((s.engine.db.checks.filter (fun check => check.key = (t, n))).map
    ServiceCheckSchema.scored).sum = (s.board.standing (t, n)).points := by
  rw [h.standing t n, points_standingOf, h.checks, filter_rows h.storable, List.map_map,
    List.map_map]
  congr 1
  exact List.map_congr_left (fun e _ => (points_eventOutcome e).symm)

/-- One SLA row for a violation. -/
theorem slas : s.engine.db.slas.filter (fun sla => sla.key = (t, n)) =
    (FailureRun.marks Event.failed conf.slaThreshold (ofService t n events)).map
      (Event.sla conf) := by
  rw [← h.charged t n, slasOf]
  simp [SLASchema.key]

theorem violations : (s.engine.db.slas.filter (fun sla => sla.key = (t, n))).length =
    (s.board.standing (t, n)).violations := by
  rw [h.standing t n, violations_standingOf, h.slas t n, FailureRun.marks_map, List.length_map,
    List.length_map]
  simp only [fails_eventOutcome]

theorem penalty : ((s.engine.db.slas.filter (fun sla => sla.key = (t, n))).map
    SLASchema.penalty).sum = conf.slaPenalty * (s.board.standing (t, n)).violations := by
  have hsame : ∀ sla ∈ s.engine.db.slas.filter (fun sla => sla.key = (t, n)),
      sla.penalty = conf.slaPenalty := by
    intro sla hsla
    rw [h.slas t n] at hsla
    obtain ⟨e, -, rfl⟩ := List.mem_map.mp hsla
    rfl
  rw [List.map_congr_left hsame, ← h.violations t n]
  simp [Int.mul_comm]

theorem occurs : Occurs (t, n) s.engine.db ↔ (t, n) ∈ s.board.services := by
  rw [h.mem_services t n, Occurs, h.checks, mem_rows_key h.storable]
  refine or_iff_left_of_imp ?_
  intro hsla hnil
  obtain ⟨sla, hsla, hkey⟩ := List.mem_map.mp hsla
  have hrow : sla ∈ s.engine.db.slas.filter (fun sla => sla.key = (t, n)) :=
    List.mem_filter.mpr ⟨hsla, by simpa using hkey⟩
  rw [h.slas t n, hnil, FailureRun.marks_nil] at hrow
  cases hrow

end Counts

/-- The record of a service, as the board has it. -/
def boardRecord (conf : MiscConfig) (b : Board (Nat × GoString)) (key : Nat × GoString) :
    ServiceScoreData where
  teamID := key.1
  serviceName := key.2
  points := (b.standing key).points
  violations := (b.standing key).violations
  totalPenalty := conf.slaPenalty * (b.standing key).violations

theorem Counts.serviceScore (h : Counts conf events s) (key : Nat × GoString) :
    serviceScore key s.engine.db = boardRecord conf s.board key := by
  obtain ⟨t, n⟩ := key
  rw [DB.serviceScore, boardRecord, h.points, h.penalty, h.violations]

/-- Sums over a team's records are totals of the board. -/
theorem Counts.sum_teamRecords (h : Counts conf events s) (t : Nat) (f : Standing → Int)
    (g : ServiceScoreData → Int) (hg : ∀ key, g (boardRecord conf s.board key) =
      f (s.board.standing key)) :
    ((teamRecords t s.engine.db).map g).sum = s.board.total t f := by
  have hnd : ((teamRecords t s.engine.db).map ServiceScoreData.key).Nodup :=
    (nodup_keys_getServiceScores _).sublist (List.filter_sublist.map _)
  have hrecord : ∀ sd ∈ teamRecords t s.engine.db, g sd = f (s.board.standing sd.key) := by
    intro sd hsd
    have hsd := (mem_getServiceScores.mp (List.mem_filter.mp hsd).1).2
    rw [h.serviceScore] at hsd
    exact (congrArg g hsd).trans (hg sd.key)
  have hkeys : ((teamRecords t s.engine.db).map ServiceScoreData.key).toFinset =
      s.board.services.filter (fun key => key.1 = t) := by
    ext ⟨t', n⟩
    have hteam : (t', n) ∈ (teamRecords t s.engine.db).map ServiceScoreData.key ↔
        Occurs (t', n) s.engine.db ∧ t' = t := by
      rw [← mem_keys_getServiceScores, List.mem_map, List.mem_map]
      constructor
      · rintro ⟨sd, hsd, hkey⟩
        obtain ⟨hmem, ht⟩ := List.mem_filter.mp hsd
        have hid : sd.teamID = t' := congrArg Prod.fst hkey
        exact ⟨⟨sd, hmem, hkey⟩, hid ▸ of_decide_eq_true ht⟩
      · rintro ⟨⟨sd, hmem, hkey⟩, rfl⟩
        have hid : sd.teamID = t' := congrArg Prod.fst hkey
        exact ⟨sd, List.mem_filter.mpr ⟨hmem, decide_eq_true hid⟩, hkey⟩
    rw [List.mem_toFinset, hteam, h.occurs, Finset.mem_filter]
  rw [Board.total, ← hkeys, List.sum_toFinset _ hnd, List.map_map]
  exact congrArg List.sum (List.map_congr_left hrecord)

theorem Counts.uptimeOf (h : Counts conf events s) (t : Nat) (n : GoString) :
    uptimeOf ((ofService t n events).map Event.row) =
      ⟨(s.board.standing (t, n)).passed, (s.board.standing (t, n)).checked⟩ := by
  have hpassed : ∀ es : List Event,
      ((es.map Event.row).map (fun check => if check.result then (1 : Int) else 0)).sum =
        ((es.map eventOutcome).filter (fun o => !o.fails)).length := by
    intro es
    induction es with
    | nil => rfl
    | cons e rest ih =>
      rw [List.map_cons, List.map_cons, List.sum_cons, ih, List.map_cons, List.filter_cons,
        fails_eventOutcome]
      show (if e.result.status then (1 : Int) else 0) + _ = _
      cases hs : e.result.status <;> simp [Event.failed, Result.failed, hs, Int.add_comm]
  rw [DB.uptimeOf, h.standing t n, passed_standingOf, checked_standingOf, hpassed]
  simp

/-- The counters in memory. -/
theorem Counts.counters (h : Counts conf events s) (t : Nat) (n : GoString) :
    (s.engine.uptimePerService.find? t n = if (t, n) ∈ s.board.services then
      some ⟨(s.board.standing (t, n)).passed, (s.board.standing (t, n)).checked⟩ else none) ∧
    (s.engine.slaPerService.find? t n = if (t, n) ∈ s.board.services then
      some ((s.board.standing (t, n)).run % conf.slaThreshold) else none) := by
  have hrun : (s.board.standing (t, n)).run =
      FailureRun.current Event.failed (ofService t n events) := by
    rw [h.standing t n, run_standingOf, FailureRun.current_map]
    simp only [fails_eventOutcome]
  rw [h.uptime, h.sla, h.uptimeOf t n, FailureRun.counter, hrun]
  by_cases hnil : ofService t n events = []
  · have hnot : (t, n) ∉ s.board.services := fun hmem => (h.mem_services t n).mp hmem hnil
    simp only [if_pos hnil, if_neg hnot, and_self]
  · have hmem := (h.mem_services t n).mpr hnil
    simp only [if_neg hnil, if_pos hmem, and_self]

/-- A team, as the board has it. -/
theorem Counts.getTeamScore (h : Counts conf events s) (t : Nat) :
    getTeamScore s.engine.db t = (s.board.total t Standing.points,
      s.board.total t (fun standing => (standing.violations : Int)),
      conf.slaPenalty * s.board.total t (fun standing => (standing.violations : Int))) := by
  have hagrees := (agrees_teamScore t [] s.engine.db).team
  have hpoints := h.sum_teamRecords t Standing.points ServiceScoreData.points (fun _ => rfl)
  have hviolations := h.sum_teamRecords t (fun standing => (standing.violations : Int))
    ServiceScoreData.violations (fun _ => rfl)
  have hpenalty := h.sum_teamRecords t
    (fun standing => conf.slaPenalty * (standing.violations : Int)) ServiceScoreData.totalPenalty
    (fun _ => rfl)
  have hmul : s.board.total t (fun standing => conf.slaPenalty * (standing.violations : Int)) =
      conf.slaPenalty * s.board.total t (fun standing => (standing.violations : Int)) :=
    (Finset.mul_sum ..).symm
  rw [← hmul, ← hpoints, ← hviolations, ← hpenalty]
  exact hagrees.symm

/-- Whatever rounds are saved and wherever the engine is restarted or reset: the service scores are
the records of the board's services, in order; a team's score and its record in the export are its
totals on the board; the counters in memory are the board's; and a restart never fails. -/
theorem reports_refine (hT : 1 ≤ conf.slaThreshold) (h : Reachable (scoring conf) Regular s) :
    (getServiceScores s.engine.db).Pairwise ServiceScoreData.Before ∧
    (∀ sd, sd ∈ getServiceScores s.engine.db ↔
      sd.key ∈ s.board.services ∧ sd = boardRecord conf s.board sd.key) ∧
    (∀ t, getTeamScore s.engine.db t = (s.board.total t Standing.points,
      s.board.total t (fun standing => (standing.violations : Int)),
      conf.slaPenalty * s.board.total t (fun standing => (standing.violations : Int)))) ∧
    (∀ score ∈ exportScores s.engine.db,
      score.grossPoints = s.board.total score.teamID Standing.points ∧
      score.totalPoints = s.board.total score.teamID Standing.points -
        conf.slaPenalty * s.board.total score.teamID (fun standing => (standing.violations : Int)) ∧
      ∀ service ∈ score.services, service =
        toServiceScore (boardRecord conf s.board (score.teamID, service.serviceName))) ∧
    (∀ t n,
      (s.engine.uptimePerService.find? t n = if (t, n) ∈ s.board.services then
        some ⟨(s.board.standing (t, n)).passed, (s.board.standing (t, n)).checked⟩ else none) ∧
      (s.engine.slaPerService.find? t n = if (t, n) ∈ s.board.services then
        some ((s.board.standing (t, n)).run % conf.slaThreshold) else none)) ∧
    (∀ rows, Regular s (.restart rows) → (restart conf rows s.engine.db).isSome) := by
  obtain ⟨events, hevents⟩ := counts_of_reachable hT h
  refine ⟨sorted_getServiceScores _, ?_, hevents.getTeamScore, ?_, hevents.counters, ?_⟩
  · intro sd
    rw [mem_getServiceScores, hevents.serviceScore]
    exact and_congr_left (fun _ => hevents.occurs sd.teamID sd.serviceName)
  · intro score hscore
    obtain ⟨t, ht⟩ := mem_exportScores.mp hscore
    obtain ⟨team, -, rfl⟩ := Option.map_eq_some_iff.mp ht
    have hagrees := agrees_teamScore t team.name s.engine.db
    have hteam := hagrees.team.trans (hevents.getTeamScore t)
    obtain ⟨hgross, hrest⟩ := Prod.mk.inj hteam
    obtain ⟨-, hpenalty⟩ := Prod.mk.inj hrest
    refine ⟨hgross, ?_, ?_⟩
    · rw [hagrees.net, hgross, hpenalty]
      rfl
    · intro service hservice
      obtain ⟨sd, hsd, rfl⟩ := List.mem_map.mp hservice
      obtain ⟨hmem, hid⟩ := List.mem_filter.mp hsd
      have hrecord := (mem_getServiceScores.mp hmem).2
      rw [hevents.serviceScore] at hrecord
      have hkey : sd.key = (t, sd.serviceName) :=
        congrArg (fun id => (id, sd.serviceName)) (of_decide_eq_true hid)
      exact congrArg toServiceScore (hkey ▸ hrecord)
  · intro rows hrows
    obtain ⟨st, hst, -⟩ := restart_counted hT hevents.storable hevents.checks hrows
    rw [hst]
    rfl

def webCheck (passed : Bool) : Result := ⟨[119], 1, passed, [], [], 10, [], 0⟩

/-- A failure, a round that is not saved, a restart, and the second failure. -/
theorem reports_refine_restart :
    ∃ s, Reachable (scoring ⟨2, 30⟩) Regular s ∧ s.engine.db.slas = [⟨1, 3, [119], 30⟩] ∧
      getTeamScore s.engine.db 1 = (s.board.total 1 Standing.points,
        s.board.total 1 (fun standing => (standing.violations : Int)),
        30 * s.board.total 1 (fun standing => (standing.violations : Int))) := by
  have hplain : ∀ passed, ∀ result ∈ [webCheck passed],
      sanitizeDBString result.serviceName = result.serviceName := by decide
  have hstart : Reachable (scoring ⟨2, 30⟩) Regular ⟨{}, .empty⟩ :=
    .initial ⟨rfl, rfl, rfl, rfl, rfl⟩
  have hpass := hstart.step (a := ScoreAction.round ⟨1, [webCheck true]⟩ true) (hplain true) rfl
  have hfail := hpass.step (a := ScoreAction.round ⟨2, [webCheck false]⟩ true) (hplain false) rfl
  have hlost := hfail.step (a := ScoreAction.round ⟨3, [webCheck false]⟩ false) (hplain false) rfl
  have hrestart := hlost.step (a := ScoreAction.restart _) (returned_self _) rfl
  have hthird := hrestart.step (a := ScoreAction.round ⟨3, [webCheck false]⟩ true) (hplain false) rfl
  exact ⟨_, hthird, by decide, (reports_refine (by decide) hthird).2.2.1 1⟩

end QuotientScoring.WWW
