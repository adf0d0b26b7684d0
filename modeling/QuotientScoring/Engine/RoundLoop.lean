import QuotientScoring.Engine.Enqueue
import QuotientScoring.Engine.Results
import QuotientScoring.Engine.RoundTime

/-! The engine loop, with everything that can fail in a round.

`RoundAnswers` is what the program around one turn of the loop answers: the events on
its channels, the database, Redis, the random number. `rvb` is the round, and `turn`
the loop around it. A loop that ends is noticed by nobody: `Start` goes on waiting for
a reset either way.

`loop_survives_iff`: without a reset, the loop comes back to its wait after every
round exactly if `GetTeams` succeeds in all of them and there is a jitter to draw.
Whatever else fails costs a task, a result or a round. -/
namespace QuotientScoring.Engine
open DB GoText Checks

/-- What the collection gets in one turn of its loop. -/
inductive Delivery where
  /-- A message on the channel `events`. -/
  | event (payload : GoString)
  /-- `BLPop` gives up: `redis.Nil`. -/
  | timeout
  /-- `BLPop` fails, and the deadline has not passed. -/
  | failure
  /-- Fewer than two values. -/
  | short
  /-- The value is no result. -/
  | undecodable
  | result (result : Result)
deriving DecidableEq, Repr

/-- What is answered in one turn of the loop. `none` is an error. Only finitely many
deliveries come before the deadline of a round; the next `BLPop` finds its context
expired. -/
structure RoundAnswers where
  /-- The messages waiting on the loop's own channel. -/
  messages : List GoString := []
  now : Int := 0
  /-- What `rand.Intn` returns, if it does. -/
  intn : Int64 := 0
  getTeams : Option (List TeamSchema) := some []
  /-- `LLEN tasks`, zero where it fails. -/
  staleTasks : Nat := 0
  deleted : Bool := true
  around : Surroundings := .plain
  /-- Whether `RPUSH` of a task reaches Redis. -/
  pushed : Task → Bool := fun _ => true
  deliveries : List Delivery := []
  saved : Answers := .ok

/-- The fields of the engine that a round reads and writes, and the list `tasks`. -/
structure EngineState where
  currentRound : Nat
  nextRoundStartTime : Int := 0
  tasks : List Task := []
  scoring : Scoring := {}

/-! ### A round -/

/-- The collection: until there are as many results as tasks, or the deadline passes. -/
def collect (currentRound runners : Nat) :
    List Delivery → List Result → Except GoString (List Result)
  | [], results => if runners ≤ results.length then .ok results else .ok []
  | delivery :: rest, results =>
    if runners ≤ results.length then .ok results
    else match delivery with
      | .event payload =>
        if payload = str "reset" then .error (str "reset event received")
        else collect currentRound runners rest results
      | .timeout => .ok []
      | .failure | .short | .undecodable => collect currentRound runners rest results
      | .result result =>
        if result.roundID ≠ currentRound then collect currentRound runners rest results
        else collect currentRound runners rest (results ++ [result])

/-- How a call of a round ends. -/
inductive RoundEnd where
  | returned (err : Option GoString)
  | panicked
deriving DecidableEq, Repr

variable (conf : Config.ConfigSettings)

/-- The settings `processCollectedResults` reads. -/
def scoringSettings : MiscConfig :=
  ⟨conf.miscSettings.slaThreshold.toInt, conf.miscSettings.slaPenalty.toInt⟩

def koth (st : EngineState) : RoundEnd × EngineState := (.returned none, st)

def rvb (answers : RoundAnswers) (st : EngineState) : RoundEnd × EngineState :=
  if 2 * conf.miscSettings.jitter ≤ 0 then (.panicked, st) -- invalid argument to Intn
  else
    let randomJitter := answers.intn - conf.miscSettings.jitter
    let st := { st with
      nextRoundStartTime := nextRoundStartTime conf.miscSettings answers.now randomJitter }
    match answers.getTeams with
    | none => (.returned (some (str "failed to get teams")), st)
    | some teams =>
      let stale := if 0 < answers.staleTasks && answers.deleted then [] else st.tasks
      let tasks := (enqueued answers.around teams conf.allChecks).map (fun x =>
        taskFor answers.around st.currentRound st.nextRoundStartTime x.1 x.2)
      let st := {st with tasks := stale ++ tasks.filter answers.pushed}
      match collect st.currentRound tasks.length answers.deliveries [] with
      | .error err => (.returned (some err), st)
      | .ok results =>
        (.returned none, { st with
          scoring := processCollectedResults (scoringSettings conf) answers.saved st.currentRound
            results st.scoring })

/-! ### The loop -/

inductive LoopStatus where
  /-- Between two rounds. -/
  | waiting
  /-- The goroutine has returned. -/
  | ended
  /-- The process has panicked. -/
  | crashed
deriving DecidableEq, Repr

structure RoundLoop where
  status : LoopStatus := .waiting
  engine : EngineState

/-- The round logic the configuration asks for; another event type is only logged. -/
def roundLogic (answers : RoundAnswers) (st : EngineState) : RoundEnd × EngineState :=
  if conf.requiredSettings.eventType = str "koth" then koth st
  else if conf.requiredSettings.eventType = str "rvb" then rvb conf answers st
  else (.returned none, st)

/-- What the loop makes of the end of a round. -/
def afterRound : RoundEnd × EngineState → RoundLoop
  | (.panicked, st) => ⟨.crashed, st⟩
  | (.returned (some _), st) => ⟨.ended, st⟩
  | (.returned none, st) => ⟨.waiting, {st with currentRound := st.currentRound + 1}⟩

/-- From one wait to the next. Messages other than a reset are passed over. -/
def turn (answers : RoundAnswers) (loop : RoundLoop) : RoundLoop :=
  match loop.status with
  | .ended | .crashed => loop
  | .waiting =>
    if answers.messages.contains (str "reset") then {loop with status := .ended}
    else afterRound (roundLogic conf answers { loop.engine with
      nextRoundStartTime := answers.now + GoTime.seconds conf.miscSettings.delay })

/-- The loop after these turns. -/
def turns (rounds : List RoundAnswers) (loop : RoundLoop) : RoundLoop :=
  rounds.foldl (fun loop answers => turn conf answers loop) loop

/-! ### What ends the loop -/

/-- No reset is published. -/
structure NoReset (answers : RoundAnswers) : Prop where
  messages : str "reset" ∉ answers.messages
  deliveries : Delivery.event (str "reset") ∉ answers.deliveries

/-- Without a reset the collection ends with results, or none. -/
theorem collect_ok (currentRound runners : Nat) {deliveries : List Delivery}
    (h : Delivery.event (str "reset") ∉ deliveries) (results : List Result) :
    ∃ collected, collect currentRound runners deliveries results = .ok collected := by
  induction deliveries generalizing results with
  | nil =>
    rw [collect]
    split <;> exact ⟨_, rfl⟩
  | cons delivery rest ih =>
    obtain ⟨hhead, hrest⟩ : ¬Delivery.event (str "reset") = delivery ∧
      Delivery.event (str "reset") ∉ rest := by simpa using h
    unfold collect
    split
    · exact ⟨_, rfl⟩
    cases delivery with
    | event payload =>
      have hpayload : payload ≠ str "reset" := fun heq => hhead (by rw [heq])
      simpa only [if_neg hpayload] using ih hrest results
    | timeout => exact ⟨_, rfl⟩
    | failure | short | undecodable => exact ih hrest results
    | result result =>
      dsimp only
      split
      · exact ih hrest results
      · exact ih hrest (results ++ [result])

/-- `rvb` gets its teams, and there is a jitter to draw. -/
def Startable (answers : RoundAnswers) : Prop :=
  0 < 2 * conf.miscSettings.jitter ∧ answers.getTeams.isSome

/-- Without a reset, `rvb` returns nil exactly if it could start. -/
theorem rvb_returned_iff {answers : RoundAnswers} (h : NoReset answers) (st : EngineState) :
    (rvb conf answers st).1 = .returned none ↔ Startable conf answers := by
  unfold rvb Startable
  by_cases hjitter : 2 * conf.miscSettings.jitter ≤ 0
  · have hnot : ¬0 < 2 * conf.miscSettings.jitter := Int64.not_lt.mpr hjitter
    simp [hjitter, hnot]
  · have hpos : 0 < 2 * conf.miscSettings.jitter := Int64.not_le.mp hjitter
    cases hteams : answers.getTeams with
    | none => simp [hjitter]
    | some teams =>
      obtain ⟨collected, hcollect⟩ := collect_ok st.currentRound
        (enqueued answers.around teams conf.allChecks).length h.deliveries []
      simp [hjitter, hpos, hcollect]

theorem rvb_currentRound (answers : RoundAnswers) (st : EngineState) :
    (rvb conf answers st).2.currentRound = st.currentRound := by
  unfold rvb
  split
  · rfl
  · dsimp only
    split
    · rfl
    · split <;> rfl

/-- Every kind of round leaves the round number to the loop. -/
theorem roundLogic_currentRound (answers : RoundAnswers) (st : EngineState) :
    (roundLogic conf answers st).2.currentRound = st.currentRound := by
  unfold roundLogic
  split
  · rfl
  split
  · exact rvb_currentRound conf answers st
  · rfl

theorem roundLogic_returned_iff {answers : RoundAnswers} (h : NoReset answers) (st : EngineState) :
    (roundLogic conf answers st).1 = .returned none ↔
      (conf.requiredSettings.eventType = str "rvb" → Startable conf answers) := by
  unfold roundLogic
  by_cases hkoth : conf.requiredSettings.eventType = str "koth"
  · simp [hkoth, koth]
  by_cases hrvb : conf.requiredSettings.eventType = str "rvb"
  · rw [if_neg hkoth, if_pos hrvb, rvb_returned_iff conf h]
    simp [hrvb]
  · simp [hkoth, hrvb]

theorem afterRound_waiting_iff {r : RoundEnd × EngineState} :
    (afterRound r).status = .waiting ↔ r.1 = .returned none := by
  match r with
  | (.panicked, _) => simp [afterRound]
  | (.returned none, _) => simp [afterRound]
  | (.returned (some _), _) => simp [afterRound]

theorem afterRound_currentRound {r : RoundEnd × EngineState} (h : r.1 = .returned none) :
    (afterRound r).engine.currentRound = r.2.currentRound + 1 := by
  obtain ⟨_, st⟩ := r
  obtain rfl := h
  rfl

/-- A turn without a reset ends in the next wait exactly if its round could start. -/
theorem turn_waiting_iff {answers : RoundAnswers} (h : NoReset answers) (st : EngineState) :
    (turn conf answers ⟨.waiting, st⟩).status = .waiting ↔
      (conf.requiredSettings.eventType = str "rvb" → Startable conf answers) := by
  have hmessages : answers.messages.contains (str "reset") = false := by simpa using h.messages
  simp only [turn, hmessages]
  exact afterRound_waiting_iff.trans (roundLogic_returned_iff conf h _)

/-- Then the round number is one higher. -/
theorem turn_currentRound {answers : RoundAnswers} {st : EngineState}
    (h : (turn conf answers ⟨.waiting, st⟩).status = .waiting) :
    (turn conf answers ⟨.waiting, st⟩).engine.currentRound = st.currentRound + 1 := by
  unfold turn at h ⊢
  dsimp only at h ⊢
  split at h
  · cases h
  · rw [if_neg ‹_›, afterRound_currentRound (afterRound_waiting_iff.mp h),
      roundLogic_currentRound]

/-- A loop that has ended stays so. -/
theorem turns_of_not_waiting (rounds : List RoundAnswers) {loop : RoundLoop}
    (h : loop.status ≠ .waiting) : turns conf rounds loop = loop := by
  induction rounds with
  | nil => rfl
  | cons answers rest ih =>
    have hturn : turn conf answers loop = loop := by
      unfold turn
      split
      · rfl
      · rfl
      · exact absurd ‹_› h
    rw [turns, List.foldl_cons, hturn]
    exact ih

/-- The loop is at its wait again after these turns exactly if each of their rounds
could start, and then it has counted them all. -/
theorem turns_waiting_iff {rounds : List RoundAnswers} (h : ∀ answers ∈ rounds, NoReset answers)
    (st : EngineState) :
    ((turns conf rounds ⟨.waiting, st⟩).status = .waiting ∧
      (turns conf rounds ⟨.waiting, st⟩).engine.currentRound = st.currentRound + rounds.length) ↔
    (conf.requiredSettings.eventType = str "rvb" → ∀ answers ∈ rounds, Startable conf answers) := by
  induction rounds generalizing st with
  | nil => simp [turns]
  | cons answers rest ih =>
    have hturn := turn_waiting_iff conf (h answers (List.mem_cons_self ..)) st
    have hrest := fun a ha => h a (List.mem_cons_of_mem _ ha)
    have hround := @turn_currentRound conf answers st
    rw [turns, List.foldl_cons]
    rcases hs : turn conf answers ⟨.waiting, st⟩ with ⟨status, engine⟩
    rw [hs] at hturn hround
    by_cases hwait : status = .waiting
    · subst hwait
      have hih := ih hrest engine
      rw [turns, hround rfl, Nat.add_assoc, Nat.add_comm 1] at hih
      rw [List.length_cons, hih]
      have hfirst := hturn.mp rfl
      simp only [List.mem_cons, forall_eq_or_imp]
      exact ⟨fun hall hrvb => ⟨hfirst hrvb, hall hrvb⟩, fun hall hrvb => (hall hrvb).2⟩
    · have hstays : turns conf rest ⟨status, engine⟩ = ⟨status, engine⟩ :=
        turns_of_not_waiting conf rest hwait
      rw [turns] at hstays
      rw [hstays]
      refine ⟨fun hs => absurd hs.1 hwait, fun hall => absurd ?_ hwait⟩
      exact hturn.mpr fun hrvb => hall hrvb answers (List.mem_cons_self ..)

/-- Without a reset, the loop counts every round and comes back to its wait after each
of them exactly if, in a red-versus-blue event, `GetTeams` succeeds in every round and
there is a jitter to draw. -/
theorem loop_survives_iff {rounds : List RoundAnswers} (h : ∀ answers ∈ rounds, NoReset answers)
    (st : EngineState) :
    (∀ past, past <+: rounds →
      (turns conf past ⟨.waiting, st⟩).status = .waiting ∧
      (turns conf past ⟨.waiting, st⟩).engine.currentRound = st.currentRound + past.length) ↔
    (conf.requiredSettings.eventType = str "rvb" →
      ∀ answers ∈ rounds, 0 < 2 * conf.miscSettings.jitter ∧ answers.getTeams.isSome) := by
  constructor
  · intro hpast
    exact (turns_waiting_iff conf h st).mp (hpast rounds (List.prefix_refl _))
  · intro hall past hpre
    refine (turns_waiting_iff conf (fun answers ha => h answers (hpre.subset ha)) st).mpr ?_
    exact fun hrvb answers ha => hall hrvb answers (hpre.subset ha)

/-- Everything else fails in the first round: the database, Redis, and all that arrives. -/
def failingRound : RoundAnswers :=
  { getTeams := some [⟨1, [116], [49], true⟩]
    staleTasks := 1
    deleted := false
    around := {Surroundings.plain with isTeamServiceEnabled := fun _ _ => none}
    pushed := fun _ => false
    deliveries := [.failure, .short, .undecodable, .event (str "pause")]
    saved := ⟨false, fun _ => false⟩ }

def rvbSettings : Config.ConfigSettings :=
  { requiredSettings := {eventType := str "rvb"}
    miscSettings := {delay := 60, jitter := 5} }

theorem loop_survives_failures :
    (turns rvbSettings [failingRound, failingRound] ⟨.waiting, {currentRound := 1}⟩).status =
      .waiting := by
  have hreset : ∀ answers ∈ [failingRound, failingRound], NoReset answers := by
    have hone : NoReset failingRound := ⟨by decide +kernel, by decide +kernel⟩
    simpa using hone
  have hround : 0 < 2 * rvbSettings.miscSettings.jitter ∧ failingRound.getTeams.isSome :=
    ⟨by decide +kernel, rfl⟩
  exact ((loop_survives_iff rvbSettings hreset {currentRound := 1}).mpr
    (fun _ => by simpa using hround) _ (List.prefix_refl _)).1

/-- `GetTeams` fails once, and there is no second round. -/
theorem loop_ends_without_reset :
    ∃ rounds : List RoundAnswers, (∀ answers ∈ rounds, NoReset answers) ∧
      (turns rvbSettings rounds ⟨.waiting, {currentRound := 1}⟩).status = .ended ∧
      (turns rvbSettings rounds ⟨.waiting, {currentRound := 1}⟩).engine.currentRound = 1 := by
  refine ⟨[{getTeams := none}, {}], ?_, by decide +kernel, by decide +kernel⟩
  have hfirst : NoReset {getTeams := none} := ⟨by decide +kernel, by decide +kernel⟩
  have hsecond : NoReset {} := ⟨by decide +kernel, by decide +kernel⟩
  simpa using ⟨hfirst, hsecond⟩

end QuotientScoring.Engine
