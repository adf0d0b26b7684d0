import QuotientScoring.DB.Counters
import QuotientScoring.DB.ScoreOverTime
import QuotientScoring.Lib.GoText
import QuotientScoring.Lib.Trail

/-! A reset of the scores that fails.

`ResetScores` empties the tables, the view and two Redis lists, one call after
another, then publishes its event and sets the engine's own fields. It returns at the
first of the four calls that fails and leaves what the ones before it have done; that
the event cannot be published it does not notice. `reset_all_or_nothing_iff` says when
a reset that fails has changed nothing. -/
namespace QuotientScoring.Engine
open DB GoText Program

/-- What `ResetScores` writes. -/
structure ScoreSite where
  db : Database
  cumulativeScores : List CumulativeScore
  tasks : List GoString
  results : List GoString
  published : Nat
  currentRound : Nat
  uptimePerService : UptimeMap
  slaPerService : SLAMap

abbrev ResetCalls (α : Type) := Program (Faulty ScoreSite GoString) GoString α

def scoreCall (f : ScoreSite → ScoreSite) : ResetCalls Unit := Program.call id (fun s => ((), f s))

/-- `Del` of a key. -/
def ScoreSite.del (s : ScoreSite) (key : GoString) : ScoreSite :=
  if key = str "tasks" then {s with tasks := []}
  else if key = str "results" then {s with results := []}
  else s

def truncateTables (s : ScoreSite) : ScoreSite := {s with db := truncate s.db}

/-- `REFRESH MATERIALIZED VIEW cumulative_scores` -/
def refreshView (s : ScoreSite) : ScoreSite :=
  {s with cumulativeScores := DB.cumulativeScores s.db.checks}

/-- `db.ResetScores` -/
def resetTables : ResetCalls Unit := do
  scoreCall truncateTables
  scoreCall refreshView

def keysToDelete : List GoString := [str "tasks", str "results"]

/-- The calls whose errors are looked at. -/
def clearScores : ResetCalls Unit := do
  wrap (str "failed to reset scores: " ++ ·) resetTables
  keysToDelete.forM fun key =>
    wrap (str "failed to clear Redis queue " ++ key ++ str ": " ++ ·) (scoreCall (fun s => s.del key))

/-- The engine's own fields. -/
def resetFields (s : ScoreSite) : ScoreSite :=
  {s with currentRound := 1, uptimePerService := ∅, slaPerService := ∅}

/-- The event, whether it can be published or not, and then the fields. -/
def finishReset : ResetCalls Unit := do
  let _ ← attempt (scoreCall (fun s => {s with published := s.published + 1}))
  modify (fun s => {s with state := resetFields s.state})

def resetScores : ResetCalls Unit := do
  clearScores
  finishReset

/-- What a reset is to leave. -/
structure Emptied (s : ScoreSite) : Prop where
  rounds : s.db.rounds = []
  checks : s.db.checks = []
  slas : s.db.slas = []
  cumulativeScores : s.cumulativeScores = []
  tasks : s.tasks = []
  results : s.results = []
  currentRound : s.currentRound = 1
  uptimePerService : s.uptimePerService = ∅
  slaPerService : s.slaPerService = ∅

/-- A reset that returns nil has emptied everything, and one that returns an error has changed
nothing. -/
def ResetWhole (s : ScoreSite) (run : Except GoString Unit × Faulty ScoreSite GoString) : Prop :=
  (run.1 = .ok () → Emptied run.2.state) ∧ ((∃ err, run.1 = .error err) → run.2.state = s)

/-! ### What the calls find -/

theorem trail_scoreCall (f : ScoreSite → ScoreSite) (s : ScoreSite) :
    Trail (scoreCall f) s [s] ((), f s) := Trail.call id _ s

theorem trail_resetTables (s : ScoreSite) :
    Trail resetTables s [s, truncateTables s] ((), refreshView (truncateTables s)) :=
  (trail_scoreCall truncateTables s).bind (trail_scoreCall refreshView _)

theorem trail_clearScores (s : ScoreSite) :
    Trail clearScores s
      [s, truncateTables s, refreshView (truncateTables s),
        (refreshView (truncateTables s)).del (str "tasks")]
      ((), ((refreshView (truncateTables s)).del (str "tasks")).del (str "results")) := by
  have hdel : ∀ s, Trail (keysToDelete.forM (fun key =>
      wrap (str "failed to clear Redis queue " ++ key ++ str ": " ++ ·)
        (scoreCall (fun s => s.del key)))) s [s, s.del (str "tasks")]
      ((), (s.del (str "tasks")).del (str "results")) := fun s =>
    Trail.forM keysToDelete
      (fun key _ s => Trail.wrap _ (trail_scoreCall (fun s => ScoreSite.del s key) s)) s
  exact (Trail.wrap _ (trail_resetTables s)).bind (hdel _)

@[simp] theorem cumulativeScores_nil : DB.cumulativeScores [] = [] := rfl

theorem str_tasks_ne_results : str "tasks" ≠ str "results" := by decide +kernel

theorem del_tasks (s : ScoreSite) : s.del (str "tasks") = {s with tasks := []} := by
  rw [ScoreSite.del, if_pos rfl]

theorem del_results (s : ScoreSite) : s.del (str "results") = {s with results := []} := by
  rw [ScoreSite.del, if_neg str_tasks_ne_results.symm, if_pos rfl]

/-! ### The reset -/

theorem exec_finishReset (s : Faulty ScoreSite GoString) :
    ∃ published faults, exec finishReset s =
      (.ok (), ⟨resetFields {s.state with published := published}, faults⟩) := by
  obtain ⟨state, faults⟩ := s
  match faults with
  | [] => exact ⟨_, _, rfl⟩
  | none :: rest => exact ⟨_, _, rfl⟩
  | some e :: rest => exact ⟨state.published, rest, rfl⟩

/-- Wherever a reset returns nil, it has emptied everything. -/
theorem emptied_of_ok {s : ScoreSite} {n : Nat} {e : GoString}
    (h : (exec resetScores ⟨s, failAt n e⟩).1 = .ok ()) :
    Emptied (exec resetScores ⟨s, failAt n e⟩).2.state := by
  have htrail := trail_clearScores s
  rw [del_tasks, del_results] at htrail
  rcases Nat.lt_or_ge n 4 with hlt | hge
  · obtain ⟨err, herr⟩ := htrail.cut n e _ (List.getElem?_eq_getElem hlt)
    rw [resetScores, exec_bind, herr] at h
    cases h
  · obtain ⟨m, rfl⟩ := Nat.exists_eq_add_of_le hge
    have hdone := htrail.done (failAt m e)
    obtain ⟨published, faults, hfinish⟩ := exec_finishReset
      ⟨{refreshView (truncateTables s) with tasks := [], results := []}, failAt m e⟩
    have hrun : exec resetScores ⟨s, failAt (4 + m) e⟩ = _ :=
      (congrArg (fun faults => exec resetScores ⟨s, faults⟩) (failAt_add 4 m e)).trans
        ((exec_bind_ok hdone).trans hfinish)
    rw [hrun]
    exact
      { rounds := rfl
        checks := rfl
        slas := rfl
        cumulativeScores := rfl
        tasks := rfl
        results := rfl
        currentRound := rfl
        uptimePerService := rfl
        slaPerService := rfl }

theorem truncateTables_eq_iff (s : ScoreSite) :
    truncateTables s = s ↔ s.db.rounds = [] ∧ s.db.checks = [] ∧ s.db.slas = [] := by
  obtain ⟨⟨teams, rounds, checks, slas⟩, view, tasks, results, published, round, uptimes, counts⟩ := s
  simp [truncateTables, truncate, eq_comm]

theorem refreshView_eq_iff (s : ScoreSite) :
    refreshView (truncateTables s) = s ↔
      (s.db.rounds = [] ∧ s.db.checks = [] ∧ s.db.slas = []) ∧ s.cumulativeScores = [] := by
  obtain ⟨⟨teams, rounds, checks, slas⟩, view, tasks, results, published, round, uptimes, counts⟩ := s
  simp [refreshView, truncateTables, truncate, eq_comm]

theorem del_eq_iff (s : ScoreSite) :
    {refreshView (truncateTables s) with tasks := []} = s ↔
      (s.db.rounds = [] ∧ s.db.checks = [] ∧ s.db.slas = []) ∧ s.cumulativeScores = [] ∧
        s.tasks = [] := by
  obtain ⟨⟨teams, rounds, checks, slas⟩, view, tasks, results, published, round, uptimes, counts⟩ := s
  simp [refreshView, truncateTables, truncate, eq_comm, and_assoc]

/-- The call `n` of a reset fails. The reset is whole exactly if all that the calls before it
empty was empty, or it does not notice. -/
theorem reset_all_or_nothing_iff (s : ScoreSite) (n : Nat) (e : GoString) :
    ResetWhole s (exec resetScores ⟨s, failAt n e⟩) ↔
      (1 ≤ n ∧ n ≤ 3 → s.db.rounds = [] ∧ s.db.checks = [] ∧ s.db.slas = []) ∧
      (2 ≤ n ∧ n ≤ 3 → s.cumulativeScores = []) ∧ (n = 3 → s.tasks = []) := by
  have hfinish : ∀ s' : Faulty ScoreSite GoString, ∃ b, (exec finishReset s').1 = .ok b := by
    intro s'
    obtain ⟨published, faults, h⟩ := exec_finishReset s'
    exact ⟨(), by rw [h]⟩
  have hcut := (trail_clearScores s).error_imp_iff (k := fun _ => finishReset) hfinish
    (fun s' => s' = s) n e
  have hwhole : ResetWhole s (exec resetScores ⟨s, failAt n e⟩) ↔
      ∀ found, [s, truncateTables s, refreshView (truncateTables s),
        (refreshView (truncateTables s)).del (str "tasks")][n]? = some found → found = s := by
    rw [← hcut]
    exact ⟨fun h => h.2, fun h => ⟨emptied_of_ok, h⟩⟩
  rw [hwhole, del_tasks]
  match n with
  | 0 => simp
  | 1 => simp [truncateTables_eq_iff]
  | 2 => simp [refreshView_eq_iff]
  | 3 => simp [del_eq_iff]
  | n + 4 => simp

/-- Del of `results` fails: tables, view and `tasks` are empty, the counters and the round are as
they were. -/
theorem reset_half_done :
    let s : ScoreSite :=
      { db := {rounds := [1], checks := [⟨1, 1, [119], 5, true, [], []⟩]}
        cumulativeScores := [⟨1, 1, 5⟩]
        tasks := [[116]]
        results := [[114]]
        published := 0
        currentRound := 2
        uptimePerService := (∅ : UptimeMap).put 1 [119] ⟨1, 1⟩
        slaPerService := ∅ }
    let run := exec resetScores ⟨s, failAt 3 [101]⟩
    (∃ err, run.1 = .error err) ∧ run.2.state ≠ s ∧ run.2.state.db.checks = [] ∧
      run.2.state.uptimePerService.get 1 [119] = ⟨1, 1⟩ ∧ run.2.state.currentRound = 2 := by
  refine ⟨⟨_, rfl⟩, fun h => ?_, rfl, rfl, rfl⟩
  have hrounds := congrArg (fun s => s.db.rounds) h
  revert hrounds
  decide +kernel

end QuotientScoring.Engine
