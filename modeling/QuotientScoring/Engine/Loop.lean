import QuotientScoring.Engine.Results
import QuotientScoring.Runner.HandleTask

/-! The engine loop, the runners, and the two Redis lists between them.

A loop runs one round after another; `loopStep` is one step of it. Everything a
loop shares with the runners and with other loops is in `Shared`: the round
number, the lists, the tasks inside runners, the counters and the tables. Only the
engine's own code and `handleTask` put anything on the lists that is not garbage.

Each task on its way is a `Ticket`. It carries where the task came from, which no
code sees, so that a result can be traced back to the task it is for. -/
namespace QuotientScoring.Engine
open DB Runner

/-- Where a task was enqueued: the loop, the execution of `rvb`, and how often the
tables had been truncated. -/
structure Origin where
  loop : Nat
  exec : Nat
  epoch : Nat
deriving DecidableEq, Repr

/-- A task on its way. No two tickets ever enqueued have the same serial number. -/
structure Ticket where
  task : Task
  origin : Origin
  serial : Nat
deriving DecidableEq, Repr

/-- What is on the list `results`: bytes that are no result, or a result. -/
inductive Payload where
  | malformed
  | result (result : Result) (ticket : Ticket)
deriving DecidableEq, Repr

def Payload.ticket? : Payload → Option Ticket
  | .malformed => none
  | .result _ ticket => some ticket

@[simp] theorem Payload.ticket?_malformed : Payload.malformed.ticket? = none := rfl

@[simp] theorem Payload.ticket?_result (result : Result) (ticket : Ticket) :
    (Payload.result result ticket).ticket? = some ticket := rfl

/-- A result a loop has counted. -/
structure Collected where
  result : Result
  ticket : Ticket
deriving DecidableEq, Repr

/-- A saved round: the execution of `rvb` that saved it, and the tickets of its results. -/
structure Stored where
  round : Nat
  exec : Nat
  tickets : List Ticket
deriving DecidableEq, Repr

/-- What loops and runners share. Below `scoring`, the record of what happened: the
tickets enqueued, the executions of `rvb` begun, the truncations, the reset events
published, the saved rounds in the tables, and the tickets in the counters. -/
structure Shared where
  currentRound : Nat
  tasks : List Ticket := []
  inFlight : List Ticket := []
  results : List Payload := []
  scoring : Scoring := {}
  log : List Ticket := []
  execs : Nat := 0
  epoch : Nat := 0
  published : Nat := 0
  stored : List Stored := []
  counted : List Ticket := []

inductive Phase where
  /-- Between two rounds. -/
  | waiting
  /-- `rvb` is called, and has not cleared the stale tasks yet. -/
  | starting
  | enqueuing
  | collecting
  /-- `processCollectedResults` is about to be called. -/
  | processing
  /-- `rvb` has returned, and `CurrentRound` is about to be incremented. -/
  | finished
  | stopped
deriving DecidableEq, Repr

/-- In a call of `rvb`. -/
def Phase.inRound : Phase → Bool
  | .starting | .enqueuing | .collecting | .processing => true
  | .waiting | .finished | .stopped => false

/-- A loop: its phase, the local variables `runners` and `results` of `rvb`, the number
of its execution of `rvb`, and how many reset events had been published when the
loop and the execution subscribed to them. -/
structure Loop where
  phase : Phase := .waiting
  runners : Nat := 0
  results : List Collected := []
  exec : Nat := 0
  subscribed : Nat := 0
  roundSubscribed : Nat := 0
deriving DecidableEq, Repr

/-! ### The steps of a loop -/

inductive LoopEvent where
  | begin
  /-- `GetTeams` fails, and the loop ends. -/
  | teamsError
  /-- The stale tasks are cleared, if Redis says that there are any. -/
  | clear (deleted : Bool)
  /-- A task is enqueued; it is counted even if Redis never gets it. -/
  | enqueue (task : Task) (delivered : Bool)
  | collect
  | pop
  | timeout
  | complete
  | process (answers : Answers)
  | increment
deriving Inhabited

def beginRound (loop : Loop) (sh : Shared) : Loop × Shared :=
  ({ loop with
      phase := .starting
      runners := 0
      results := []
      exec := sh.execs
      roundSubscribed := sh.published },
    {sh with execs := sh.execs + 1})

/-- The ticket of a task that loop `k` enqueues. -/
def newTicket (k : Nat) (loop : Loop) (sh : Shared) (task : Task) : Ticket :=
  { task := {task with roundID := sh.currentRound}
    origin := ⟨k, loop.exec, sh.epoch⟩
    serial := sh.log.length }

def enqueueTask (k : Nat) (loop : Loop) (sh : Shared) (task : Task) (delivered : Bool) :
    Loop × Shared :=
  let ticket := newTicket k loop sh task
  ({loop with runners := loop.runners + 1},
    { sh with
      log := sh.log ++ [ticket]
      tasks := if delivered then sh.tasks ++ [ticket] else sh.tasks })

/-- What a loop makes of what it pops. -/
def receive (loop : Loop) (currentRound : Nat) : Payload → Loop
  | .malformed => loop
  | .result result ticket =>
    if result.roundID ≠ currentRound then loop -- Ignoring out of round result
    else {loop with results := loop.results ++ [⟨result, ticket⟩]}

def popResult (loop : Loop) (sh : Shared) : Loop × Shared :=
  match sh.results with
  | [] => (loop, sh)
  | payload :: rest => (receive loop sh.currentRound payload, {sh with results := rest})

/-- The results are saved: there are any, and `CreateRound` commits. -/
def saves (loop : Loop) (answers : Answers) : Bool := loop.results ≠ [] && answers.createRound

def processRound (conf : MiscConfig) (loop : Loop) (sh : Shared) (answers : Answers) :
    Loop × Shared :=
  let tickets := loop.results.map Collected.ticket
  let scoring := processCollectedResults conf answers sh.currentRound
    (loop.results.map Collected.result) sh.scoring
  ({loop with phase := .finished},
    if saves loop answers then
      { sh with
        scoring := scoring
        stored := sh.stored ++ [⟨sh.currentRound, loop.exec, tickets⟩]
        counted := sh.counted ++ tickets }
    else {sh with scoring := scoring})

/-- When a step can be taken. A round whose id the table has is refused. -/
def LoopEvent.Enabled (loop : Loop) (sh : Shared) : LoopEvent → Prop
  | .begin => loop.phase = .waiting
  | .teamsError => loop.phase = .starting
  | .clear _ => loop.phase = .starting
  | .enqueue _ _ => loop.phase = .enqueuing
  | .collect => loop.phase = .enqueuing
  | .pop => loop.phase = .collecting ∧ loop.results.length < loop.runners ∧ sh.results ≠ []
  | .timeout => loop.phase = .collecting ∧ loop.results.length < loop.runners
  | .complete => loop.phase = .collecting ∧ ¬loop.results.length < loop.runners
  | .process answers => loop.phase = .processing ∧
      (answers.createRound = true → sh.currentRound ∉ sh.scoring.db.rounds)
  | .increment => loop.phase = .finished

instance (loop : Loop) (sh : Shared) : (e : LoopEvent) → Decidable (e.Enabled loop sh)
  | .begin | .teamsError | .clear _ | .enqueue _ _ | .collect | .increment =>
    inferInstanceAs (Decidable (_ = _))
  | .pop | .timeout | .complete | .process _ => inferInstanceAs (Decidable (_ ∧ _))

/-- A loop that has finished a round can only go on to the next. -/
theorem phase_ne_finished {loop : Loop} {sh : Shared} {e : LoopEvent} (hen : e.Enabled loop sh)
    (h : e ≠ .increment) : loop.phase ≠ .finished := by
  intro hphase
  cases e <;> simp [LoopEvent.Enabled, hphase] at hen h

/-- One step of loop `k`. -/
def LoopEvent.effect (conf : MiscConfig) (k : Nat) (loop : Loop) (sh : Shared) :
    LoopEvent → Loop × Shared
  | .begin => beginRound loop sh
  | .teamsError => ({loop with phase := .stopped}, sh)
  | .clear deleted => ({loop with phase := .enqueuing}, if deleted then {sh with tasks := []} else sh)
  | .enqueue task delivered => enqueueTask k loop sh task delivered
  | .collect => ({loop with phase := .collecting}, sh)
  | .pop => popResult loop sh
  | .timeout => ({loop with phase := .processing, results := []}, sh)
  | .complete => ({loop with phase := .processing}, sh)
  | .process answers => processRound conf loop sh answers
  | .increment => ({loop with phase := .waiting}, {sh with currentRound := sh.currentRound + 1})

def loopStep (conf : MiscConfig) (k : Nat) (loop : Loop) (sh : Shared) (e : LoopEvent) :
    Option (Loop × Shared) :=
  if e.Enabled loop sh then some (e.effect conf k loop sh) else none

/-! ### The runners -/

inductive QueueEvent where
  /-- A runner pops a task. -/
  | take
  /-- A runner pushes the result of a task, after these attempts. -/
  | push (ticket : Ticket) (attempts : List Attempt)
  /-- A runner pushes nothing for a task. -/
  | drop (ticket : Ticket)
  | garbage
  /-- A payload is lost on its way out of Redis. -/
  | lose

def QueueEvent.Enabled (sh : Shared) : QueueEvent → Prop
  | .take => sh.tasks ≠ []
  | .push ticket _ => ticket ∈ sh.inFlight
  | .drop ticket => ticket ∈ sh.inFlight
  | .garbage => True
  | .lose => sh.results ≠ []

instance (sh : Shared) : (e : QueueEvent) → Decidable (e.Enabled sh)
  | .take | .lose => inferInstanceAs (Decidable (_ ≠ _))
  | .push _ _ | .drop _ => inferInstanceAs (Decidable (_ ∈ _))
  | .garbage => .isTrue trivial

def QueueEvent.effect (sh : Shared) : QueueEvent → Shared
  | .take =>
    match sh.tasks with
    | [] => sh
    | ticket :: rest => {sh with tasks := rest, inFlight := sh.inFlight ++ [ticket]}
  | .push ticket attempts =>
    { sh with
      inFlight := sh.inFlight.erase ticket
      results := sh.results ++ [.result (handleTask ticket.task attempts) ticket] }
  | .drop ticket => {sh with inFlight := sh.inFlight.erase ticket}
  | .garbage => {sh with results := sh.results ++ [.malformed]}
  | .lose => {sh with results := sh.results.tail}

def queueStep (sh : Shared) (e : QueueEvent) : Option Shared :=
  if e.Enabled sh then some (e.effect sh) else none

/-- What is popped touches nothing of a loop but its results. -/
theorem receive_frame (loop : Loop) (currentRound : Nat) (payload : Payload) :
    (receive loop currentRound payload).phase = loop.phase ∧
      (receive loop currentRound payload).exec = loop.exec ∧
      (receive loop currentRound payload).subscribed = loop.subscribed := by
  unfold receive
  split
  · exact ⟨rfl, rfl, rfl⟩
  · split <;> exact ⟨rfl, rfl, rfl⟩

theorem popResult_frame (loop : Loop) (sh : Shared) :
    (popResult loop sh).1.phase = loop.phase ∧ (popResult loop sh).1.exec = loop.exec ∧
      (popResult loop sh).1.subscribed = loop.subscribed := by
  cases h : sh.results <;> simp [popResult, h, receive_frame]

@[simp] theorem popResult_shared (loop : Loop) (sh : Shared) :
    (popResult loop sh).2 = {sh with results := sh.results.tail} := by
  cases h : sh.results <;> simp [popResult, h]
  rw [← h]

/-! ### Tickets on their way -/

/-- The tickets no loop has taken yet. -/
def Shared.outstanding (sh : Shared) : List Ticket :=
  sh.tasks ++ sh.inFlight ++ sh.results.filterMap Payload.ticket?

/-- Every result on the list is one for its ticket's task. -/
def Shared.Genuine (sh : Shared) : Prop :=
  ∀ result ticket, Payload.result result ticket ∈ sh.results → result.Answers ticket.task

theorem queueStep_eq_some {sh sh' : Shared} {e : QueueEvent} (h : queueStep sh e = some sh') :
    e.Enabled sh ∧ sh' = e.effect sh := by
  rw [queueStep] at h
  split at h
  · rename_i hen
    exact ⟨hen, (Option.some.inj h).symm⟩
  · cases h

theorem loopStep_eq_some {conf : MiscConfig} {k : Nat} {loop : Loop} {sh : Shared} {e : LoopEvent}
    {p : Loop × Shared} (h : loopStep conf k loop sh e = some p) :
    e.Enabled loop sh ∧ p = e.effect conf k loop sh := by
  rw [loopStep] at h
  split at h
  · rename_i hen
    exact ⟨hen, (Option.some.inj h).symm⟩
  · cases h

/-- Runners make no ticket: each is still on its way, or gone. -/
theorem count_outstanding_queue (sh : Shared) {e : QueueEvent} (hen : e.Enabled sh)
    (ticket : Ticket) : (e.effect sh).outstanding.count ticket ≤ sh.outstanding.count ticket := by
  cases e with
  | take =>
    cases htasks : sh.tasks with
    | nil => exact absurd htasks hen
    | cons t rest =>
      simp only [QueueEvent.effect, Shared.outstanding, htasks, List.count_append,
        List.count_cons, List.count_nil]
      omega
  | push t attempts =>
    -- the ticket leaves the runner and comes onto the list
    have hmoved : (sh.inFlight.erase t ++ [t]).count ticket = sh.inFlight.count ticket :=
      ((List.perm_append_singleton t _).trans (List.perm_cons_erase hen).symm).count_eq ticket
    simp only [List.count_append] at hmoved
    simp only [QueueEvent.effect, Shared.outstanding, List.count_append, List.filterMap_append,
      List.filterMap_cons, Payload.ticket?_result, List.filterMap_nil]
    omega
  | drop t =>
    have hle := (List.erase_sublist (a := t) (l := sh.inFlight)).count_le ticket
    simp only [QueueEvent.effect, Shared.outstanding, List.count_append]
    omega
  | garbage => simp [QueueEvent.effect, Shared.outstanding, List.filterMap_cons]
  | lose =>
    have hle := ((List.tail_sublist sh.results).filterMap Payload.ticket?).count_le ticket
    simp only [QueueEvent.effect, Shared.outstanding, List.count_append]
    omega

/-- Runners touch nothing but the lists and their own tasks. -/
theorem queue_frame (sh : Shared) (e : QueueEvent) : ∃ tasks inFlight results,
    e.effect sh = {sh with tasks := tasks, inFlight := inFlight, results := results} := by
  cases e with
  | take =>
    cases htasks : sh.tasks with
    | nil =>
      have hsame : QueueEvent.take.effect sh = sh := by simp [QueueEvent.effect, htasks]
      exact ⟨sh.tasks, sh.inFlight, sh.results, hsame⟩
    | cons t rest =>
      exact ⟨rest, sh.inFlight ++ [t], sh.results, by simp [QueueEvent.effect, htasks]⟩
  | _ => exact ⟨_, _, _, rfl⟩

@[simp] theorem queue_currentRound (sh : Shared) (e : QueueEvent) :
    (e.effect sh).currentRound = sh.currentRound := by
  obtain ⟨_, _, _, h⟩ := queue_frame sh e
  rw [h]

@[simp] theorem queue_log (sh : Shared) (e : QueueEvent) : (e.effect sh).log = sh.log := by
  obtain ⟨_, _, _, h⟩ := queue_frame sh e
  rw [h]

@[simp] theorem queue_stored (sh : Shared) (e : QueueEvent) :
    (e.effect sh).stored = sh.stored := by
  obtain ⟨_, _, _, h⟩ := queue_frame sh e
  rw [h]

/-- What is on the list after a step of a runner was there before, or has just been
pushed, or is garbage. -/
theorem mem_results_queue {sh : Shared} {e : QueueEvent} {payload : Payload}
    (h : payload ∈ (e.effect sh).results) : payload ∈ sh.results ∨ payload = .malformed ∨
      ∃ ticket attempts, e = .push ticket attempts ∧
        payload = .result (handleTask ticket.task attempts) ticket := by
  cases e with
  | take =>
    cases htasks : sh.tasks with
    | nil =>
      simp only [QueueEvent.effect, htasks] at h
      exact .inl h
    | cons t rest =>
      simp only [QueueEvent.effect, htasks] at h
      exact .inl h
  | push t attempts =>
    rcases List.mem_append.mp h with h | h
    · exact .inl h
    · exact .inr (.inr ⟨t, attempts, rfl, List.mem_singleton.mp h⟩)
  | drop t => exact .inl h
  | garbage =>
    rcases List.mem_append.mp h with h | h
    · exact .inl h
    · exact .inr (.inl (List.mem_singleton.mp h))
  | lose => exact .inl (List.mem_of_mem_tail h)

/-- Nor is anything a runner pushes a result for another task. -/
theorem Shared.Genuine.queue {sh : Shared} (h : sh.Genuine) (e : QueueEvent) :
    (e.effect sh).Genuine := by
  intro result ticket hmem
  rcases mem_results_queue hmem with hmem | hmem | ⟨t, attempts, _, hmem⟩
  · exact h result ticket hmem
  · cases hmem
  · obtain ⟨rfl, rfl⟩ := Payload.result.inj hmem
    exact Runner.handleTask_answers ticket.task attempts

theorem mem_outstanding_queue {sh : Shared} {e : QueueEvent} (hen : e.Enabled sh) {ticket : Ticket}
    (h : ticket ∈ (e.effect sh).outstanding) : ticket ∈ sh.outstanding := by
  have hle := count_outstanding_queue sh hen ticket
  have hpos := List.count_pos_iff.mpr h
  exact List.count_pos_iff.mp (by omega)

/-! ### What a loop does to them -/

/-- Clearing the stale tasks takes tickets off the way. -/
theorem count_outstanding_clear (sh : Shared) (ticket : Ticket) :
    ({sh with tasks := []} : Shared).outstanding.count ticket ≤ sh.outstanding.count ticket := by
  simp only [Shared.outstanding, List.count_append, List.count_nil]
  omega

/-- What is on the list after a pop was on it before. -/
theorem mem_results_popResult {loop : Loop} {sh : Shared} {payload : Payload}
    (h : payload ∈ (popResult loop sh).2.results) : payload ∈ sh.results := by
  rw [popResult_shared] at h
  exact List.mem_of_mem_tail h

/-- The only ticket a loop makes is that of the task it enqueues. -/
theorem mem_outstanding_loop (conf : MiscConfig) {k : Nat} {loop : Loop} {sh : Shared}
    {e : LoopEvent} {ticket : Ticket} (h : ticket ∈ (e.effect conf k loop sh).2.outstanding) :
    ticket ∈ sh.outstanding ∨
      ∃ task delivered, e = .enqueue task delivered ∧ ticket = newTicket k loop sh task := by
  cases e with
  | clear deleted =>
    cases deleted with
    | false => exact .inl h
    | true =>
      simp only [LoopEvent.effect, if_true, Shared.outstanding, List.nil_append] at h
      exact .inl (by simpa [Shared.outstanding] using .inr (by simpa using h))
  | enqueue task delivered =>
    cases delivered with
    | false => exact .inl h
    | true =>
      simp only [LoopEvent.effect, enqueueTask, Shared.outstanding, if_true, List.mem_append,
        List.mem_singleton] at h ⊢
      rcases h with ((h | h) | h) | h
      · exact .inl (.inl (.inl h))
      · exact .inr ⟨task, true, rfl, h⟩
      · exact .inl (.inl (.inr h))
      · exact .inl (.inr h)
  | pop =>
    left
    simp only [LoopEvent.effect, popResult_shared, Shared.outstanding, List.mem_append] at h ⊢
    exact h.imp_right (((List.tail_sublist _).filterMap _).mem ·)
  | process answers =>
    left
    simp only [LoopEvent.effect, processRound] at h
    split at h <;> exact h
  | _ => exact .inl h

/-- A loop puts nothing on the list of results. -/
theorem mem_results_loop {conf : MiscConfig} {k : Nat} {loop : Loop} {sh : Shared} {e : LoopEvent}
    {payload : Payload} (h : payload ∈ (e.effect conf k loop sh).2.results) :
    payload ∈ sh.results := by
  cases e with
  | clear deleted => cases deleted <;> exact h
  | pop => exact mem_results_popResult h
  | process answers =>
    simp only [LoopEvent.effect, processRound] at h
    split at h <;> exact h
  | _ => exact h

theorem Shared.Genuine.loop {sh : Shared} (h : sh.Genuine) (conf : MiscConfig) (k : Nat)
    (loop : Loop) (e : LoopEvent) : (e.effect conf k loop sh).2.Genuine :=
  fun result ticket hmem => h result ticket (mem_results_loop hmem)

/-- What a loop has counted after a step was counted before, or was the head of the
list and of the current round. -/
theorem mem_collected_loop (conf : MiscConfig) (k : Nat) (loop : Loop) (sh : Shared)
    {e : LoopEvent} {c : Collected} (h : c ∈ (e.effect conf k loop sh).1.results) :
    c ∈ loop.results ∨ e = .pop ∧ Payload.result c.result c.ticket ∈ sh.results ∧
      c.result.roundID = sh.currentRound := by
  cases e with
  | begin => cases h
  | timeout => cases h
  | pop =>
    simp only [LoopEvent.effect, popResult] at h
    rcases hresults : sh.results with _ | ⟨_ | ⟨result, ticket⟩, rest⟩
    · rw [hresults] at h
      exact .inl h
    · rw [hresults] at h
      exact .inl h
    · rw [hresults] at h
      simp only [receive] at h
      split at h
      · exact .inl h
      · rename_i hround
        rcases List.mem_append.mp h with h | h
        · exact .inl h
        · obtain rfl := List.mem_singleton.mp h
          exact .inr ⟨rfl, List.mem_cons_self .., not_not.mp hround⟩
  | _ => exact .inl h

theorem currentRound_loop (conf : MiscConfig) (k : Nat) (loop : Loop) (sh : Shared) {e : LoopEvent}
    (h : e ≠ .increment) : (e.effect conf k loop sh).2.currentRound = sh.currentRound := by
  cases e with
  | clear deleted => cases deleted <;> rfl
  | pop => rw [LoopEvent.effect, popResult_shared]
  | process answers => cases hs : saves loop answers <;> simp [LoopEvent.effect, processRound, hs]
  | increment => exact absurd rfl h
  | _ => rfl

theorem log_loop (conf : MiscConfig) (k : Nat) (loop : Loop) (sh : Shared) {e : LoopEvent}
    (h : ∀ task delivered, e ≠ .enqueue task delivered) :
    (e.effect conf k loop sh).2.log = sh.log := by
  cases e with
  | clear deleted => cases deleted <;> rfl
  | enqueue task delivered => exact absurd rfl (h task delivered)
  | pop => rw [LoopEvent.effect, popResult_shared]
  | process answers => cases hs : saves loop answers <;> simp [LoopEvent.effect, processRound, hs]
  | _ => rfl

/-! ### What a loop leaves alone -/

theorem loop_frame (conf : MiscConfig) (k : Nat) (loop : Loop) (sh : Shared) (e : LoopEvent) :
    (e.effect conf k loop sh).1.subscribed = loop.subscribed ∧
      (e.effect conf k loop sh).2.published = sh.published ∧
      (e.effect conf k loop sh).2.epoch = sh.epoch := by
  cases e with
  | clear deleted => cases deleted <;> exact ⟨rfl, rfl, rfl⟩
  | pop =>
    refine ⟨(popResult_frame loop sh).2.2, ?_, ?_⟩
    · rw [LoopEvent.effect, popResult_shared]
    · rw [LoopEvent.effect, popResult_shared]
  | process answers =>
    cases hs : saves loop answers <;> simp [LoopEvent.effect, processRound, hs]
  | _ => exact ⟨rfl, rfl, rfl⟩

theorem rounds_processResults (conf : MiscConfig) (round : Nat) (answers : Nat → Bool) (i : Nat)
    (results : List Result) (st : Scoring) :
    (processResults conf round answers i results st).db.rounds = st.db.rounds := by
  induction results generalizing i st with
  | nil => rfl
  | cons result rest ih => rw [processResults, ih, db_processResult]

/-- A loop leaves the tables and the counters alone, unless it saves a round. -/
theorem saved_loop (conf : MiscConfig) (k : Nat) (loop : Loop) (sh : Shared) (e : LoopEvent) :
    ((e.effect conf k loop sh).2.scoring = sh.scoring ∧
      (e.effect conf k loop sh).2.stored = sh.stored ∧
      (e.effect conf k loop sh).2.counted = sh.counted) ∨
    ∃ answers, e = .process answers ∧ saves loop answers = true ∧
      (e.effect conf k loop sh).2.scoring.db.rounds = sh.scoring.db.rounds ++ [sh.currentRound] ∧
      (e.effect conf k loop sh).2.stored = sh.stored ++
        [⟨sh.currentRound, loop.exec, loop.results.map Collected.ticket⟩] ∧
      (e.effect conf k loop sh).2.counted =
        sh.counted ++ loop.results.map Collected.ticket := by
  cases e with
  | clear deleted => cases deleted <;> exact .inl ⟨rfl, rfl, rfl⟩
  | pop =>
    simp only [LoopEvent.effect, popResult_shared]
    exact .inl ⟨trivial, trivial, trivial⟩
  | process answers =>
    cases hs : saves loop answers with
    | false =>
      refine .inl ?_
      have hsame : processCollectedResults conf answers sh.currentRound
          (loop.results.map Collected.result) sh.scoring = sh.scoring := by
        rw [processCollectedResults]
        by_cases hnil : loop.results = []
        · simp [hnil]
        · have hrefused : answers.createRound = false := by simpa [saves, hnil] using hs
          simp [hrefused]
      simp [LoopEvent.effect, processRound, hs, hsame]
    | true =>
      refine .inr ⟨answers, rfl, hs, ?_, by simp [LoopEvent.effect, processRound, hs],
        by simp [LoopEvent.effect, processRound, hs]⟩
      obtain ⟨hne, hok⟩ : loop.results ≠ [] ∧ answers.createRound = true := by
        simpa [saves] using hs
      simp only [LoopEvent.effect, processRound, hs, if_true]
      rw [processCollectedResults, if_neg (by simpa using hne), if_pos hok, rounds_processResults]
      rfl
  | _ => exact .inl ⟨rfl, rfl, rfl⟩

end QuotientScoring.Engine
