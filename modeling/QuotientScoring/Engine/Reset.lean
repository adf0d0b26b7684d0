import QuotientScoring.Engine.Loop
import QuotientScoring.Lib.Transition

/-! The scores are reset while the engine runs.

`ResetScores` truncates the tables, empties the two lists, publishes the event
`reset` and sets the round number and the counters back, one step after another.
The running loop looks for the event only between two rounds and between two pops;
`main` waits for it too and spawns the next loop, on the same fields and lists.
`reset_not_isolated` has two runs in which the old loop interferes.

`reset_isolated` says what is enough. The event is published when no loop has left
its collection without having looked again; a loop that is where it looks for the
event does nothing else once there is one, and deletes no tasks once a newer loop is
there; no loop saves a round while a reset is being carried out; and no runner
pushes the result of a task of before the truncation once `results` has been
emptied. -/
namespace QuotientScoring.Engine
open DB Transition

/-- The last step of `ResetScores` that has been taken. -/
inductive ResetStage where
  | truncated
  | tasksDeleted
  | resultsDeleted
  | published
  | roundSet
deriving DecidableEq, Repr

/-- The list `results` is still to be emptied. -/
def ResetStage.beforeResults : ResetStage → Bool
  | .truncated | .tasksDeleted => true
  | _ => false

/-- The event is still to be published. -/
def ResetStage.beforePublish : ResetStage → Bool
  | .truncated | .tasksDeleted | .resultsDeleted => true
  | _ => false

/-- Where the goroutine of `main` is that calls `Start` again and again. -/
inductive MainStage where
  | entering
  | roundSet
  | loaded
  | spawned
  /-- Waiting for a reset; `seen` had been published when it subscribed. -/
  | waiting (seen : Nat)
deriving DecidableEq, Repr

/-- The loops spawned so far, the calls of `ResetScores` being carried out, and `main`. -/
structure Deployment where
  shared : Shared
  loops : List Loop := []
  resets : List ResetStage := []
  main : MainStage := .entering

inductive ResetEvent where
  | loop (k : Nat) (e : LoopEvent)
  /-- A loop sees that a reset has been published, and ends. -/
  | notice (k : Nat)
  | queue (e : QueueEvent)
  /-- `ResetScores` is called and truncates the tables. -/
  | truncate
  /-- A reset at this stage takes its next step. -/
  | advance (stage : ResetStage)
  /-- The next step of `Start`, `LoadSLAs` getting these rows. -/
  | main (rows : List ServiceCheckSchema)

/-- The loop looks at its events, and there is a reset among them. -/
def Loop.canNotice (loop : Loop) (sh : Shared) : Bool :=
  (loop.phase = .waiting && loop.subscribed < sh.published) ||
    (loop.phase = .collecting && loop.results.length < loop.runners &&
      loop.roundSubscribed < sh.published)

def truncateStep (s : Deployment) : Deployment :=
  { s with
    shared := { s.shared with
      scoring := {s.shared.scoring with db := truncate s.shared.scoring.db}
      epoch := s.shared.epoch + 1
      stored := [] }
    resets := .truncated :: s.resets }

def advanceStep (s : Deployment) (stage : ResetStage) : Deployment :=
  let rest := s.resets.erase stage
  match stage with
  | .truncated =>
    {s with shared := {s.shared with tasks := []}, resets := .tasksDeleted :: rest}
  | .tasksDeleted =>
    {s with shared := {s.shared with results := []}, resets := .resultsDeleted :: rest}
  | .resultsDeleted =>
    { s with
      shared := {s.shared with published := s.shared.published + 1}
      resets := .published :: rest }
  | .published =>
    {s with shared := {s.shared with currentRound := 1}, resets := .roundSet :: rest}
  | .roundSet =>
    { s with
      shared := { s.shared with
        scoring := {s.shared.scoring with uptimePerService := ∅, slaPerService := ∅}
        counted := [] }
      resets := rest }

/-- The next step of `Start`. The counters are loaded into the maps as they are. -/
def mainStep (conf : MiscConfig) (s : Deployment) (rows : List ServiceCheckSchema) :
    Option Deployment :=
  match s.main with
  | .entering =>
    some { s with
      shared := {s.shared with currentRound := (getLastRound s.shared.scoring.db).id + 1}
      main := .roundSet }
  | .roundSet =>
    (loadSLAs conf.slaThreshold rows s.shared.scoring.slaPerService).map fun slaPerService =>
      { s with
        shared := { s.shared with
          scoring := { s.shared.scoring with
            uptimePerService :=
              loadUptimes s.shared.scoring.db.checks s.shared.scoring.uptimePerService
            slaPerService := slaPerService }
          counted := s.shared.counted ++ s.shared.stored.flatMap Stored.tickets }
        main := .loaded }
  | .loaded =>
    some {s with loops := s.loops ++ [{subscribed := s.shared.published}], main := .spawned}
  | .spawned => some {s with main := .waiting s.shared.published}
  | .waiting seen => if seen < s.shared.published then some {s with main := .entering} else none

def resetStep (conf : MiscConfig) (s : Deployment) : ResetEvent → Option Deployment
  | .loop k e =>
    match s.loops[k]? with
    | none => none
    | some loop => (loopStep conf k loop s.shared e).map (fun p =>
        {s with loops := s.loops.set k p.1, shared := p.2})
  | .notice k =>
    match s.loops[k]? with
    | none => none
    | some loop => if loop.canNotice s.shared then
        some {s with loops := s.loops.set k {loop with phase := .stopped}} else none
  | .queue e => (queueStep s.shared e).map (fun sh => {s with shared := sh})
  | .truncate => some (truncateStep s)
  | .advance stage => if stage ∈ s.resets then some (advanceStep s stage) else none
  | .main rows => mainStep conf s rows

/-- At the start the lists may hold anything, all of it of before the first truncation. -/
def resets (conf : MiscConfig) : System Deployment ResetEvent where
  initial := fun s => s.loops = [] ∧ s.resets = [] ∧ s.main = .entering ∧
    s.shared.counted = [] ∧ s.shared.stored = [] ∧
    ∀ ticket ∈ s.shared.outstanding, ticket.origin.epoch = s.shared.epoch ∧ ticket.origin.loop = 0
  step := resetStep conf

/-! ### Isolation -/

/-- A reset has been published since the loop was spawned. -/
def Loop.Overtaken (loop : Loop) (sh : Shared) : Prop := loop.subscribed < sh.published

instance (loop : Loop) (sh : Shared) : Decidable (loop.Overtaken sh) :=
  inferInstanceAs (Decidable (_ < _))

/-- The task was enqueued after the last truncation. -/
def Ticket.Current (ticket : Ticket) (sh : Shared) : Prop := ticket.origin.epoch = sh.epoch

instance (ticket : Ticket) (sh : Shared) : Decidable (ticket.Current sh) :=
  inferInstanceAs (Decidable (_ = _))

/-- What a step of loop `k` must not do. A round that is saved has results, and counters,
of current tasks only; a round handed over has a number the table does not have. Only
a loop that no reset has overtaken pops or increments, and it takes no task and no
result away from a newer loop. -/
def IsolatedLoop (sh : Shared) (k : Nat) (loop : Loop) : LoopEvent → Prop
  | .process answers => loop.results ≠ [] → sh.currentRound ∉ sh.scoring.db.rounds ∧
      (saves loop answers = true →
        (∀ c ∈ loop.results, c.ticket.Current sh) ∧ ∀ ticket ∈ sh.counted, ticket.Current sh)
  | .pop => ¬loop.Overtaken sh ∧ ∀ payload ∈ sh.results.head?, ∀ ticket ∈ payload.ticket?,
      ticket.origin.loop ≤ k
  | .increment => ¬loop.Overtaken sh
  | .clear deleted => deleted = true → ∀ ticket ∈ sh.tasks, ticket.origin.loop ≤ k
  | _ => True

def Isolated (s : Deployment) : ResetEvent → Prop
  | .loop k e => ∀ loop ∈ s.loops[k]?, IsolatedLoop s.shared k loop e
  | _ => True

/-- The step calls `processCollectedResults` with results. -/
def LoopEvent.handsOver (loop : Loop) : LoopEvent → Bool
  | .process _ => loop.results ≠ []
  | _ => false

/-- The step deletes the tasks on the list. -/
def LoopEvent.clears : LoopEvent → Bool
  | .clear deleted => deleted
  | _ => false

/-- Where the loop looks for the event. -/
def Loop.looks (loop : Loop) : Bool := loop.phase = .waiting || loop.phase = .collecting

/-- The loop has left its collection, and does not look before the round is incremented. -/
def Loop.closing (loop : Loop) : Bool := loop.phase = .processing || loop.phase = .finished

/-- A loop that has been overtaken, and is where it looks for the event, does nothing
else; nor does it delete tasks when it is not the newest loop any more. -/
def Loop.Heeds (loop : Loop) (s : Deployment) (k : Nat) (e : LoopEvent) : Prop :=
  loop.Overtaken s.shared → loop.looks = false ∧ (e.clears = true → k + 1 = s.loops.length)

instance (loop : Loop) (s : Deployment) (k : Nat) (e : LoopEvent) : Decidable (loop.Heeds s k e) :=
  inferInstanceAs (Decidable (_ → _ ∧ (_ → _)))

/-- The steps that keep the old loop away from the new one. -/
def Orderly (s : Deployment) : ResetEvent → Prop
  | .loop k e => ∀ loop ∈ s.loops[k]?, loop.Heeds s k e ∧ (e.handsOver loop = true → s.resets = [])
  | .advance .resultsDeleted => ∀ loop ∈ s.loops, loop.closing = false
  | .queue (.push ticket _) => ticket.Current s.shared ∨
      ∃ stage ∈ s.resets, stage.beforeResults = true
  | _ => True

instance (sh : Shared) (k : Nat) (loop : Loop) : (e : LoopEvent) →
    Decidable (IsolatedLoop sh k loop e)
  | .process _ => inferInstanceAs (Decidable (_ → _ ∧ (_ → _ ∧ _)))
  | .pop => inferInstanceAs (Decidable (_ ∧ _))
  | .increment => inferInstanceAs (Decidable (¬_))
  | .clear _ => inferInstanceAs (Decidable (_ → _))
  | .begin | .teamsError | .enqueue _ _ | .collect | .timeout | .complete => .isTrue trivial

instance (s : Deployment) : (a : ResetEvent) → Decidable (Isolated s a)
  | .loop k e => inferInstanceAs (Decidable (∀ loop ∈ s.loops[k]?, IsolatedLoop s.shared k loop e))
  | .notice _ | .queue _ | .truncate | .advance _ | .main _ => .isTrue trivial

instance (s : Deployment) : (a : ResetEvent) → Decidable (Orderly s a)
  | .loop k _ => inferInstanceAs (Decidable (∀ loop ∈ s.loops[k]?, _ ∧ _))
  | .queue (.push _ _) => inferInstanceAs (Decidable (_ ∨ _))
  | .queue .take | .queue (.drop _) | .queue .garbage | .queue .lose => .isTrue trivial
  | .advance .resultsDeleted => inferInstanceAs (Decidable (∀ loop ∈ s.loops, _ = _))
  | .advance .truncated | .advance .tasksDeleted | .advance .published
  | .advance .roundSet => .isTrue trivial
  | .notice _ | .truncate | .main _ => .isTrue trivial

/-! ### The invariant -/

/-- How many resets had been published when each loop was spawned. -/
def Deployment.subscriptions (s : Deployment) : List Nat := s.loops.map Loop.subscribed

/-- Between a reset and the next spawn every loop is overtaken; while `main` waits no
loop is newer than its own subscription. -/
def MainStage.Ready (main : MainStage) (published : Nat) (subscriptions : List Nat) : Prop :=
  match main with
  | .entering | .roundSet | .loaded => ∀ n ∈ subscriptions, n < published
  | .spawned => True
  | .waiting seen => seen ≤ published ∧ ∀ n ∈ subscriptions, n ≤ seen

/-- What keeps old and new apart: at most one loop is not overtaken, and what it sees
is current unless a reset is on its way to clear it. -/
structure Separate (s : Deployment) : Prop where
  subscribed : ∀ n ∈ s.subscriptions, n ≤ s.shared.published
  increasing : s.subscriptions.Pairwise (fun a b => a < b)
  main : s.main.Ready s.shared.published s.subscriptions
  results : (∃ stage ∈ s.resets, stage.beforeResults = true) ∨
    ∀ payload ∈ s.shared.results, ∀ ticket ∈ payload.ticket?, ticket.Current s.shared
  collected : (∃ stage ∈ s.resets, stage.beforePublish = true) ∨
    ∀ loop ∈ s.loops, ¬loop.Overtaken s.shared → ∀ c ∈ loop.results, c.ticket.Current s.shared
  counted : s.resets ≠ [] ∨ ∀ ticket ∈ s.shared.counted, ticket.Current s.shared
  stored : ∀ round ∈ s.shared.stored, ∀ ticket ∈ round.tickets, ticket.Current s.shared
  rounds : s.resets ≠ [] → s.shared.scoring.db.rounds = []
  order : s.main ≠ .entering → ∀ id ∈ s.shared.scoring.db.rounds, id < s.shared.currentRound ∨
    id = s.shared.currentRound ∧
      ∃ loop ∈ s.loops, ¬loop.Overtaken s.shared ∧ loop.phase = .finished
  origin : ∀ ticket ∈ s.shared.outstanding, ticket.origin.loop ≤ s.loops.length - 1
  busy : ∀ loop ∈ s.loops, loop.closing = true → ¬loop.Overtaken s.shared

theorem beforePublish_of_beforeResults {stage : ResetStage} (h : stage.beforeResults = true) :
    stage.beforePublish = true := by
  cases stage <;> first | rfl | cases h

/-- A loop that no reset has overtaken is the last one spawned. -/
theorem Separate.last {s : Deployment} (h : Separate s) {k : Nat} {loop : Loop}
    (hk : s.loops[k]? = some loop) (hnew : ¬loop.Overtaken s.shared) :
    k = s.loops.length - 1 := by
  obtain ⟨hlt, hget⟩ := List.getElem?_eq_some_iff.mp hk
  by_contra hne
  have hlast : s.loops.length - 1 < s.loops.length := by omega
  have hpair := List.pairwise_iff_getElem.mp (List.pairwise_map.mp h.increasing) k
    (s.loops.length - 1) hlt hlast (by omega)
  have hle := h.subscribed _ (List.mem_map_of_mem (List.getElem_mem hlast))
  rw [hget] at hpair
  exact hnew (Nat.lt_of_lt_of_le hpair hle)

/-- Two loops that no reset has overtaken are one. -/
theorem Separate.unique {s : Deployment} (h : Separate s) {k : Nat} {loop other : Loop}
    (hk : s.loops[k]? = some loop) (hnew : ¬loop.Overtaken s.shared) (hother : other ∈ s.loops)
    (hnew' : ¬other.Overtaken s.shared) : other = loop := by
  obtain ⟨j, hj⟩ := List.getElem?_of_mem hother
  have heq : j = k := (h.last hj hnew').trans (h.last hk hnew).symm
  rw [heq, hk] at hj
  exact (Option.some.inj hj).symm

/-- What the next loop is handed to work with. -/
theorem Separate.fresh {s : Deployment} (h : Separate s) {k : Nat} {loop : Loop}
    (hk : s.loops[k]? = some loop) (hnew : ¬loop.Overtaken s.shared)
    (hphase : loop.phase ≠ .finished) :
    s.shared.currentRound ∉ s.shared.scoring.db.rounds := by
  intro hmem
  have hmain : s.main ≠ .entering := by
    intro hentering
    have hready := h.main
    rw [hentering] at hready
    exact hnew (hready _ (List.mem_map_of_mem (List.mem_of_getElem? hk)))
  rcases h.order hmain _ hmem with hlt | ⟨-, other, hother, hnew', hfinished⟩
  · exact Nat.lt_irrefl _ hlt
  · rw [h.unique hk hnew hother hnew'] at hfinished
    exact hphase hfinished

/-! ### One loop moves -/

theorem subscriptions_set {loops : List Loop} {k : Nat} {loop loop' : Loop}
    (hk : loops[k]? = some loop) (hsub : loop'.subscribed = loop.subscribed) :
    (loops.set k loop').map Loop.subscribed = loops.map Loop.subscribed := by
  apply List.ext_getElem?
  intro j
  rw [List.map_set, List.getElem?_set, hsub, List.getElem?_map]
  by_cases hj : k = j
  · subst hj
    rw [if_pos rfl, hk, if_pos (by simpa using (List.getElem?_eq_some_iff.mp hk).1)]
    rfl
  · rw [if_neg hj]

/-- The subscriptions stay apart where a loop goes on with the one it has. -/
theorem Separate.replaced {s : Deployment} (h : Separate s) {k : Nat} {loop : Loop} (loop' : Loop)
    (shared : Shared) (hk : s.loops[k]? = some loop) (hsub : loop'.subscribed = loop.subscribed)
    (hpub : shared.published = s.shared.published) :
    let s' : Deployment := {s with loops := s.loops.set k loop', shared := shared}
    (∀ n ∈ s'.subscriptions, n ≤ s'.shared.published) ∧
      s'.subscriptions.Pairwise (fun a b => a < b) ∧
      s'.main.Ready s'.shared.published s'.subscriptions := by
  intro s'
  have hsubs : s'.subscriptions = s.subscriptions := subscriptions_set hk hsub
  rw [hsubs, show s'.shared.published = s.shared.published from hpub]
  exact ⟨h.subscribed, h.increasing, h.main⟩

/-- A finished loop that is not the one that moves is still there. -/
theorem mem_set_of_phase {loops : List Loop} {k : Nat} {loop loop' other : Loop}
    (hk : loops[k]? = some loop) (hother : other ∈ loops) (hne : other.phase ≠ loop.phase) :
    other ∈ loops.set k loop' := by
  obtain ⟨j, hj⟩ := List.getElem?_of_mem hother
  have hjk : k ≠ j := by
    rintro rfl
    rw [hk] at hj
    exact hne (congrArg Loop.phase (Option.some.inj hj).symm)
  refine List.mem_of_getElem? (i := j) ?_
  rw [List.getElem?_set_ne hjk]
  exact hj

section
variable (conf : MiscConfig) (k : Nat) (loop : Loop) (sh : Shared) (e : LoopEvent)

@[simp] theorem current_loop (ticket : Ticket) :
    ticket.Current (e.effect conf k loop sh).2 ↔ ticket.Current sh := by
  rw [Ticket.Current, Ticket.Current, (loop_frame conf k loop sh e).2.2]

@[simp] theorem overtaken_loop (other : Loop) :
    other.Overtaken (e.effect conf k loop sh).2 ↔ other.Overtaken sh := by
  rw [Loop.Overtaken, Loop.Overtaken, (loop_frame conf k loop sh e).2.1]

/-- A loop leaves its collection from where it looks for the event. -/
theorem looks_or_closing (hen : e.Enabled loop sh)
    (h : (e.effect conf k loop sh).1.closing = true) :
    loop.looks = true ∨ loop.closing = true := by
  cases e with
  | pop =>
    left
    simp [Loop.looks, hen.1]
  | timeout =>
    left
    simp [Loop.looks, hen.1]
  | complete =>
    left
    simp [Loop.looks, hen.1]
  | process answers =>
    right
    simp [Loop.closing, hen.1]
  | enqueue task delivered => exact .inr h
  | _ => cases h

end

section
variable (conf : MiscConfig) {s : Deployment} {k : Nat} {loop : Loop} {e : LoopEvent}

/-- A loop that saves a round has current results only: nothing is left to be reset. -/
theorem Separate.saves (h : Separate s) (hk : s.loops[k]? = some loop)
    (hen : e.Enabled loop s.shared) (hidle : e.handsOver loop = true → s.resets = [])
    {answers : Answers} (he : e = .process answers) (hs : saves loop answers = true) :
    s.resets = [] ∧ ∀ c ∈ loop.results, c.ticket.Current s.shared := by
  subst he
  have hnew : ¬loop.Overtaken s.shared :=
    h.busy loop (List.mem_of_getElem? hk) (by simp [Loop.closing, hen.1])
  have hnil : s.resets = [] := hidle (Bool.and_eq_true_iff.mp hs).1
  refine ⟨hnil, ?_⟩
  rcases h.collected with ⟨stage, hstage, _⟩ | hcollected
  · rw [hnil] at hstage
    cases hstage
  · exact hcollected loop (List.mem_of_getElem? hk) hnew

theorem Separate.collected_loop (h : Separate s) (hk : s.loops[k]? = some loop) :
    (∃ stage ∈ s.resets, stage.beforePublish = true) ∨
      ∀ other ∈ s.loops.set k (e.effect conf k loop s.shared).1, ¬other.Overtaken s.shared →
        ∀ c ∈ other.results, c.ticket.Current s.shared := by
  rcases h.collected with hleft | hcollected
  · exact .inl hleft
  rcases h.results with ⟨stage, hstage, hbefore⟩ | hresults
  · exact .inl ⟨stage, hstage, beforePublish_of_beforeResults hbefore⟩
  refine .inr fun other hother hnew c hc => ?_
  rcases List.mem_or_eq_of_mem_set hother with hold | rfl
  · exact hcollected other hold hnew c hc
  · rw [Loop.Overtaken, (loop_frame conf k loop s.shared e).1] at hnew
    rcases mem_collected_loop conf k loop s.shared hc with hold | ⟨_, hpayload, _⟩
    · exact hcollected loop (List.mem_of_getElem? hk) hnew c hold
    · exact hresults _ hpayload c.ticket rfl

theorem Separate.counted_loop (h : Separate s) (hk : s.loops[k]? = some loop)
    (hen : e.Enabled loop s.shared) (hidle : e.handsOver loop = true → s.resets = []) :
    s.resets ≠ [] ∨
      ∀ ticket ∈ (e.effect conf k loop s.shared).2.counted, ticket.Current s.shared := by
  rcases saved_loop conf k loop s.shared e with ⟨_, _, hsame⟩ | ⟨answers, he, hs, _, _, hcounted⟩
  · rw [hsame]
    exact h.counted
  · obtain ⟨hnil, hresults⟩ := h.saves hk hen hidle he hs
    rw [hcounted]
    refine .inr fun ticket hticket => ?_
    rcases List.mem_append.mp hticket with hold | hticket
    · exact (h.counted.resolve_left (fun hne => hne hnil)) ticket hold
    · obtain ⟨c, hc, rfl⟩ := List.mem_map.mp hticket
      exact hresults c hc

theorem Separate.stored_loop (h : Separate s) (hk : s.loops[k]? = some loop)
    (hen : e.Enabled loop s.shared) (hidle : e.handsOver loop = true → s.resets = []) :
    ∀ round ∈ (e.effect conf k loop s.shared).2.stored,
      ∀ ticket ∈ round.tickets, ticket.Current s.shared := by
  rcases saved_loop conf k loop s.shared e with ⟨_, hsame, _⟩ | ⟨answers, he, hs, _, hstored, _⟩
  · rw [hsame]
    exact h.stored
  · rw [hstored]
    intro round hround ticket hticket
    rcases List.mem_append.mp hround with hold | hround
    · exact h.stored round hold ticket hticket
    · obtain rfl := List.mem_singleton.mp hround
      obtain ⟨c, hc, rfl⟩ := List.mem_map.mp hticket
      exact (h.saves hk hen hidle he hs).2 c hc

theorem Separate.rounds_loop (h : Separate s) (hk : s.loops[k]? = some loop)
    (hen : e.Enabled loop s.shared) (hidle : e.handsOver loop = true → s.resets = [])
    (hne : s.resets ≠ []) : (e.effect conf k loop s.shared).2.scoring.db.rounds = [] := by
  rcases saved_loop conf k loop s.shared e with ⟨hsame, _, _⟩ | ⟨answers, he, hs, _, _, _⟩
  · rw [hsame]
    exact h.rounds hne
  · exact absurd (h.saves hk hen hidle he hs).1 hne

/-- The round the loop saves is the one it then leaves behind. -/
theorem Separate.order_loop (h : Separate s) (hk : s.loops[k]? = some loop)
    (hen : e.Enabled loop s.shared) (hmain : s.main ≠ .entering) :
    ∀ id ∈ (e.effect conf k loop s.shared).2.scoring.db.rounds,
      id < (e.effect conf k loop s.shared).2.currentRound ∨
      id = (e.effect conf k loop s.shared).2.currentRound ∧
        ∃ other ∈ s.loops.set k (e.effect conf k loop s.shared).1,
          ¬other.Overtaken s.shared ∧ other.phase = .finished := by
  intro id hid
  by_cases hinc : e = .increment
  · subst hinc
    have hold := h.order hmain id hid
    left
    show id < s.shared.currentRound + 1
    omega
  rw [currentRound_loop conf k loop s.shared hinc]
  have hold : id ∈ s.shared.scoring.db.rounds → id < s.shared.currentRound ∨
      id = s.shared.currentRound ∧ ∃ other ∈ s.loops.set k (e.effect conf k loop s.shared).1,
        ¬other.Overtaken s.shared ∧ other.phase = .finished := by
    intro hid
    refine (h.order hmain id hid).imp_right fun ⟨hcur, other, hother, hnew, hfinished⟩ => ?_
    have hmoves : other.phase ≠ loop.phase := by
      rw [hfinished]
      exact (phase_ne_finished hen hinc).symm
    exact ⟨hcur, other, mem_set_of_phase hk hother hmoves, hnew, hfinished⟩
  rcases saved_loop conf k loop s.shared e with ⟨hsame, _, _⟩ | ⟨answers, rfl, hs, hrounds, _⟩
  · rw [hsame] at hid
    exact hold hid
  · rw [hrounds] at hid
    rcases List.mem_append.mp hid with hid | hid
    · exact hold hid
    · obtain rfl := List.mem_singleton.mp hid
      have hlt := (List.getElem?_eq_some_iff.mp hk).1
      have hnew : ¬loop.Overtaken s.shared :=
        h.busy loop (List.mem_of_getElem? hk) (by simp [Loop.closing, hen.1])
      exact .inr ⟨rfl, _, List.mem_set hlt _, hnew, rfl⟩

theorem Separate.busy_loop (h : Separate s) (hk : s.loops[k]? = some loop)
    (hen : e.Enabled loop s.shared) (hlooks : loop.looks = true → ¬loop.Overtaken s.shared) :
    ∀ other ∈ s.loops.set k (e.effect conf k loop s.shared).1, other.closing = true →
      ¬other.Overtaken s.shared := by
  intro other hother hclosing
  rcases List.mem_or_eq_of_mem_set hother with hold | rfl
  · exact h.busy other hold hclosing
  · rw [Loop.Overtaken, (loop_frame conf k loop s.shared e).1]
    rcases looks_or_closing conf k loop s.shared e hen hclosing with hl | hc
    · exact hlooks hl
    · exact h.busy loop (List.mem_of_getElem? hk) hc

/-- A step of a loop that heeds the event, and saves no round while a reset is being
carried out. -/
theorem Separate.loop_step (h : Separate s) (hk : s.loops[k]? = some loop)
    (hen : e.Enabled loop s.shared) (hlooks : loop.looks = true → ¬loop.Overtaken s.shared)
    (hidle : e.handsOver loop = true → s.resets = []) :
    Separate { s with
      loops := s.loops.set k (e.effect conf k loop s.shared).1
      shared := (e.effect conf k loop s.shared).2 } := by
  obtain ⟨hsub, hpub, _⟩ := loop_frame conf k loop s.shared e
  obtain ⟨hsubscribed, hincreasing, hmain⟩ := h.replaced _ _ hk hsub hpub
  refine ⟨hsubscribed, hincreasing, hmain, ?_, ?_, ?_, ?_, ?_, ?_, ?_, ?_⟩
  · simp only [current_loop]
    exact h.results.imp_right fun hold payload hpayload =>
      hold payload (mem_results_loop hpayload)
  · simp only [current_loop, overtaken_loop]
    exact h.collected_loop conf hk
  · simp only [current_loop]
    exact h.counted_loop conf hk hen hidle
  · simp only [current_loop]
    exact h.stored_loop conf hk hen hidle
  · exact h.rounds_loop conf hk hen hidle
  · simp only [overtaken_loop]
    exact h.order_loop conf hk hen
  · intro ticket hticket
    show ticket.origin.loop ≤ (s.loops.set k _).length - 1
    rw [List.length_set]
    rcases mem_outstanding_loop conf hticket with hold | ⟨_, _, _, rfl⟩
    · exact h.origin ticket hold
    · have hlt := (List.getElem?_eq_some_iff.mp hk).1
      show k ≤ _
      omega
  · simp only [overtaken_loop]
    exact h.busy_loop conf hk hen hlooks

end

/-- A loop that notices the reset counts and saves nothing more. -/
theorem Separate.notice {s : Deployment} (h : Separate s) {k : Nat} {loop : Loop}
    (hk : s.loops[k]? = some loop) (hsees : loop.canNotice s.shared = true) :
    Separate {s with loops := s.loops.set k {loop with phase := .stopped}} := by
  obtain ⟨hsubscribed, hincreasing, hmain⟩ :=
    h.replaced {loop with phase := .stopped} s.shared hk rfl rfl
  have hphase : loop.phase ≠ .finished := by
    intro hphase
    simp [Loop.canNotice, hphase] at hsees
  refine ⟨hsubscribed, hincreasing, hmain, h.results, ?_, h.counted, h.stored, h.rounds, ?_, ?_, ?_⟩
  · refine h.collected.imp_right fun hold other hother hnew => ?_
    rcases List.mem_or_eq_of_mem_set hother with hother | rfl
    · exact hold other hother hnew
    · exact hold loop (List.mem_of_getElem? hk) hnew
  · intro hmain id hid
    refine (h.order hmain id hid).imp_right ?_
    rintro ⟨hcur, other, hother, hnew, hfinished⟩
    refine ⟨hcur, other, mem_set_of_phase hk hother ?_, hnew, hfinished⟩
    rw [hfinished]
    exact hphase.symm
  · show ∀ ticket ∈ s.shared.outstanding, ticket.origin.loop ≤ (s.loops.set k _).length - 1
    rw [List.length_set]
    exact h.origin
  · intro other hother hclosing
    rcases List.mem_or_eq_of_mem_set hother with hother | rfl
    · exact h.busy other hother hclosing
    · cases hclosing

/-! ### The others move -/

theorem Separate.queue {s : Deployment} (h : Separate s) {e : QueueEvent}
    (hen : e.Enabled s.shared) (hg : Orderly s (.queue e)) :
    Separate {s with shared := e.effect s.shared} := by
  have hresults : (∃ stage ∈ s.resets, stage.beforeResults = true) ∨
      ∀ payload ∈ (e.effect s.shared).results, ∀ ticket ∈ payload.ticket?,
        ticket.Current s.shared := by
    rcases h.results with hleft | hold
    · exact .inl hleft
    · by_cases hpush : ∃ stage ∈ s.resets, stage.beforeResults = true
      · exact .inl hpush
      · refine .inr fun payload hpayload ticket hticket => ?_
        rcases mem_results_queue hpayload with hpayload | rfl | ⟨t, attempts, rfl, rfl⟩
        · exact hold payload hpayload ticket hticket
        · cases hticket
        · obtain rfl : t = ticket := by simpa using hticket
          exact hg.resolve_right hpush
  have hout : ∀ ticket ∈ (e.effect s.shared).outstanding, ticket ∈ s.shared.outstanding :=
    fun _ => mem_outstanding_queue hen
  obtain ⟨tasks, inFlight, results, hframe⟩ := queue_frame s.shared e
  rw [hframe] at hresults hout ⊢
  exact ⟨h.subscribed, h.increasing, h.main, hresults, h.collected, h.counted, h.stored, h.rounds,
    h.order, fun ticket hmem => h.origin ticket (hout ticket hmem), h.busy⟩

/-- From the truncation on, a reset is on its way to clear what is old. -/
theorem Separate.truncate {s : Deployment} (h : Separate s) : Separate (truncateStep s) :=
  ⟨h.subscribed, h.increasing, h.main, .inl ⟨_, List.mem_cons_self .., rfl⟩,
    .inl ⟨_, List.mem_cons_self .., rfl⟩, .inl (List.cons_ne_nil _ _), nofun, fun _ => rfl,
    fun _ _ hid => (by cases hid), h.origin, h.busy⟩

/-- A reset that is not the one that moves is still on its way. -/
theorem exists_advance {resets : List ResetStage} {stage next : ResetStage}
    {before : ResetStage → Bool} (h : ∃ other ∈ resets, before other = true)
    (hnext : before stage = true → before next = true) :
    ∃ other ∈ next :: resets.erase stage, before other = true := by
  obtain ⟨other, hother, hbefore⟩ := h
  by_cases heq : other = stage
  · subst heq
    exact ⟨next, List.mem_cons_self .., hnext hbefore⟩
  · exact ⟨other, List.mem_cons_of_mem _ ((List.mem_erase_of_ne heq).mpr hother), hbefore⟩

/-- Publishing the event overtakes every loop. -/
theorem Separate.publish {s : Deployment} (h : Separate s) (hmem : .resultsDeleted ∈ s.resets)
    (hclosing : ∀ loop ∈ s.loops, loop.closing = false) : Separate (advanceStep s .resultsDeleted) := by
  have hrounds := h.rounds (List.ne_nil_of_mem hmem)
  have hovertaken : ∀ n ∈ s.subscriptions, n < s.shared.published + 1 :=
    fun n hn => Nat.lt_succ_of_le (h.subscribed n hn)
  refine ⟨fun n hn => Nat.le_of_lt (hovertaken n hn), h.increasing, ?_, ?_, ?_,
    .inl (List.cons_ne_nil _ _), h.stored, fun _ => hrounds, fun _ id hid => ?_, h.origin,
    fun loop hloop hc => ?_⟩
  · show s.main.Ready (s.shared.published + 1) s.subscriptions
    have hready := h.main
    cases hmain : s.main with
    | waiting seen =>
      rw [hmain] at hready
      exact ⟨Nat.le_succ_of_le hready.1, hready.2⟩
    | spawned => exact trivial
    | _ => exact hovertaken
  · exact h.results.imp_left (fun hold => exists_advance hold (fun hb => (by cases hb)))
  · refine .inr fun loop hloop hnew => absurd ?_ hnew
    exact hovertaken _ (List.mem_map_of_mem hloop)
  · have hid' : id ∈ s.shared.scoring.db.rounds := hid
    rw [hrounds] at hid'
    cases hid'
  · rw [hclosing loop hloop] at hc
    cases hc

theorem Separate.advance {s : Deployment} (h : Separate s) {stage : ResetStage}
    (hmem : stage ∈ s.resets) (hg : Orderly s (.advance stage)) :
    Separate (advanceStep s stage) := by
  have hrounds := h.rounds (List.ne_nil_of_mem hmem)
  have horder : ∀ {P : Nat → Prop}, ∀ id ∈ s.shared.scoring.db.rounds, P id := by
    intro P id hid
    rw [hrounds] at hid
    cases hid
  cases stage with
  | truncated =>
    refine ⟨h.subscribed, h.increasing, h.main,
      h.results.imp_left (fun hold => exists_advance hold (fun _ => rfl)),
      h.collected.imp_left (fun hold => exists_advance hold (fun _ => rfl)),
      .inl (List.cons_ne_nil _ _), h.stored, fun _ => hrounds, fun _ => horder,
      fun ticket hticket => h.origin ticket ?_, h.busy⟩
    have hle := count_outstanding_clear s.shared ticket
    have hpos := List.count_pos_iff.mpr hticket
    exact List.count_pos_iff.mp (Nat.lt_of_lt_of_le hpos hle)
  | tasksDeleted =>
    refine ⟨h.subscribed, h.increasing, h.main, .inr nofun,
      h.collected.imp_left (fun hold => exists_advance hold (fun _ => rfl)),
      .inl (List.cons_ne_nil _ _), h.stored, fun _ => hrounds, fun _ => horder,
      fun ticket hticket => h.origin ticket ?_, h.busy⟩
    rcases List.mem_append.mp hticket with hticket | hticket
    · exact List.mem_append_left _ hticket
    · cases hticket
  | resultsDeleted => exact h.publish hmem hg
  | published =>
    exact ⟨h.subscribed, h.increasing, h.main,
      h.results.imp_left (fun hold => exists_advance hold (fun hb => (by cases hb))),
      h.collected.imp_left (fun hold => exists_advance hold (fun hb => (by cases hb))),
      .inl (List.cons_ne_nil _ _), h.stored, fun _ => hrounds, fun _ => horder, h.origin,
      h.busy⟩
  | roundSet =>
    have herase : ∀ {before : ResetStage → Bool}, before .roundSet = false →
        (∃ other ∈ s.resets, before other = true) →
        ∃ other ∈ s.resets.erase .roundSet, before other = true := by
      rintro before hlast ⟨other, hother, hbefore⟩
      have hne : other ≠ .roundSet := by
        rintro rfl
        rw [hlast] at hbefore
        cases hbefore
      exact ⟨other, (List.mem_erase_of_ne hne).mpr hother, hbefore⟩
    exact ⟨h.subscribed, h.increasing, h.main, h.results.imp_left (herase rfl),
      h.collected.imp_left (herase rfl), .inr nofun, h.stored,
      fun _ => hrounds, fun _ => horder, h.origin,
      h.busy⟩

/-- Loading the counters counts what the table stores. -/
theorem Separate.load {s : Deployment} (h : Separate s) (hmain : s.main = .roundSet)
    (uptimePerService : UptimeMap) (slaPerService : SLAMap) :
    Separate { s with
      shared := { s.shared with
        scoring := { s.shared.scoring with
          uptimePerService := uptimePerService
          slaPerService := slaPerService }
        counted := s.shared.counted ++ s.shared.stored.flatMap Stored.tickets }
      main := .loaded } := by
  have hready := h.main
  rw [hmain] at hready
  refine ⟨h.subscribed, h.increasing, hready, h.results, h.collected, ?_, h.stored, h.rounds,
    fun _ => h.order (by simp [hmain]), h.origin, h.busy⟩
  refine h.counted.imp_right fun hold ticket hticket => ?_
  rcases List.mem_append.mp hticket with hticket | hticket
  · exact hold ticket hticket
  · obtain ⟨round, hround, hticket⟩ := List.mem_flatMap.mp hticket
    exact h.stored round hround ticket hticket

/-- A loop is spawned only when a reset has overtaken every other. -/
theorem Separate.spawn {s : Deployment} (h : Separate s) (hmain : s.main = .loaded) :
    Separate { s with
      loops := s.loops ++ [{subscribed := s.shared.published}]
      main := .spawned } := by
  have hready := h.main
  rw [hmain] at hready
  have hsubs : (s.loops ++ [({subscribed := s.shared.published} : Loop)]).map Loop.subscribed =
      s.subscriptions ++ [s.shared.published] := List.map_append ..
  refine ⟨?_, ?_, trivial, h.results, ?_, h.counted, h.stored, h.rounds, fun _ id hid => ?_,
    fun ticket hticket => ?_, fun loop hloop hclosing => ?_⟩
  · rw [Deployment.subscriptions, hsubs]
    intro n hn
    rcases List.mem_append.mp hn with hn | hn
    · exact h.subscribed n hn
    · exact Nat.le_of_eq (List.mem_singleton.mp hn)
  · rw [Deployment.subscriptions, hsubs]
    refine List.pairwise_append.mpr ⟨h.increasing, List.pairwise_singleton _ _, fun n hn m hm => ?_⟩
    rw [List.mem_singleton.mp hm]
    exact hready n hn
  · refine h.collected.imp_right fun hold loop hloop hnew c hc => ?_
    rcases List.mem_append.mp hloop with hloop | hloop
    · exact hold loop hloop hnew c hc
    · obtain rfl := List.mem_singleton.mp hloop
      cases hc
  · refine (h.order (by simp [hmain]) id hid).imp_right fun ⟨hcur, loop, hloop, hrest⟩ => ?_
    exact ⟨hcur, loop, List.mem_append_left _ hloop, hrest⟩
  · have hold := h.origin ticket hticket
    show ticket.origin.loop ≤ (s.loops ++ [_]).length - 1
    rw [List.length_append]
    omega
  · rcases List.mem_append.mp hloop with hloop | hloop
    · exact h.busy loop hloop hclosing
    · obtain rfl := List.mem_singleton.mp hloop
      cases hclosing

theorem Separate.main_step {conf : MiscConfig} {s s' : Deployment} (h : Separate s)
    {rows : List ServiceCheckSchema} (hstep : mainStep conf s rows = some s') : Separate s' := by
  have hready := h.main
  cases hmain : s.main with
  | entering =>
    rw [hmain] at hready
    simp only [mainStep, hmain] at hstep
    obtain rfl := Option.some.inj hstep
    refine ⟨h.subscribed, h.increasing, hready, h.results, h.collected, h.counted, h.stored,
      h.rounds, fun _ id hid => .inl ?_, h.origin, h.busy⟩
    exact Nat.lt_succ_of_le (le_getLastRound hid)
  | roundSet =>
    simp only [mainStep, hmain] at hstep
    obtain ⟨slaPerService, _, rfl⟩ := Option.map_eq_some_iff.mp hstep
    exact h.load hmain _ slaPerService
  | loaded =>
    simp only [mainStep, hmain] at hstep
    obtain rfl := Option.some.inj hstep
    exact h.spawn hmain
  | spawned =>
    simp only [mainStep, hmain] at hstep
    obtain rfl := Option.some.inj hstep
    exact ⟨h.subscribed, h.increasing, ⟨Nat.le_refl _, h.subscribed⟩, h.results, h.collected,
      h.counted, h.stored, h.rounds, fun _ => h.order (by simp [hmain]), h.origin, h.busy⟩
  | waiting seen =>
    rw [hmain] at hready
    simp only [mainStep, hmain] at hstep
    split at hstep
    · rename_i hlt
      obtain rfl := Option.some.inj hstep
      exact ⟨h.subscribed, h.increasing, fun n hn => Nat.lt_of_le_of_lt (hready.2 n hn) hlt,
        h.results, h.collected, h.counted, h.stored, h.rounds, fun hne => absurd rfl hne, h.origin,
        h.busy⟩
    · cases hstep

theorem Separate.step {conf : MiscConfig} {s s' : Deployment} {a : ResetEvent} (h : Separate s)
    (hg : Orderly s a) (hstep : resetStep conf s a = some s') : Separate s' := by
  cases a with
  | loop k e =>
    rw [resetStep] at hstep
    split at hstep
    · cases hstep
    · rename_i loop hk
      obtain ⟨p, hl, rfl⟩ := Option.map_eq_some_iff.mp hstep
      obtain ⟨hen, rfl⟩ := loopStep_eq_some hl
      obtain ⟨hheeds, hidle⟩ := hg loop hk
      exact h.loop_step conf hk hen (fun hl ho => by simp [(hheeds ho).1] at hl) hidle
  | notice k =>
    rw [resetStep] at hstep
    split at hstep
    · cases hstep
    · rename_i loop hk
      split at hstep
      · rename_i hsees
        obtain rfl := Option.some.inj hstep
        exact h.notice hk hsees
      · cases hstep
  | queue e =>
    obtain ⟨sh, hq, rfl⟩ := Option.map_eq_some_iff.mp hstep
    obtain ⟨hen, rfl⟩ := queueStep_eq_some hq
    exact h.queue hen hg
  | truncate =>
    obtain rfl := Option.some.inj hstep
    exact h.truncate
  | advance stage =>
    rw [resetStep] at hstep
    split at hstep
    · rename_i hmem
      obtain rfl := Option.some.inj hstep
      exact h.advance hmem hg
    · cases hstep
  | main rows => exact h.main_step hstep

theorem Separate.isolatedLoop {s : Deployment} (h : Separate s) {k : Nat} {loop : Loop}
    (hk : s.loops[k]? = some loop) {e : LoopEvent} (hen : e.Enabled loop s.shared)
    (hheeds : loop.Heeds s k e) (hidle : e.handsOver loop = true → s.resets = []) :
    IsolatedLoop s.shared k loop e := by
  have hlooks : loop.looks = true → ¬loop.Overtaken s.shared :=
    fun hl ho => by simp [(hheeds ho).1] at hl
  have hbusy : loop.closing = true → ¬loop.Overtaken s.shared :=
    h.busy loop (List.mem_of_getElem? hk)
  cases e with
  | process answers =>
    intro hne
    have hnew := hbusy (by simp [Loop.closing, hen.1])
    have hphase : loop.phase ≠ .finished := phase_ne_finished hen nofun
    have hnil := hidle (by simpa [LoopEvent.handsOver] using hne)
    refine ⟨h.fresh hk hnew hphase, fun hs => ⟨(h.saves hk hen hidle rfl hs).2, ?_⟩⟩
    exact h.counted.resolve_left (fun hne => hne hnil)
  | pop =>
    have hnew := hlooks (by simp [Loop.looks, hen.1])
    refine ⟨hnew, fun payload hpayload ticket hticket => ?_⟩
    rw [h.last hk hnew]
    apply h.origin
    refine List.mem_append_right _ (List.mem_filterMap.mpr ⟨payload, ?_, hticket⟩)
    exact List.mem_of_mem_head? hpayload
  | increment =>
    have hphase : loop.phase = .finished := hen
    exact hbusy (by simp [Loop.closing, hphase])
  | clear deleted =>
    intro hdeleted ticket hticket
    have hlast : k = s.loops.length - 1 := by
      by_cases hold : loop.Overtaken s.shared
      · have := (hheeds hold).2 hdeleted
        omega
      · exact h.last hk hold
    rw [hlast]
    exact h.origin ticket (List.mem_append_left _ (List.mem_append_left _ hticket))
  | _ => exact trivial

/-! ### The theorem -/

theorem separate_of_reachable {conf : MiscConfig} {s : Deployment}
    (h : Reachable (resets conf) Orderly s) : Separate s := by
  refine h.invariant (I := Separate) ?_ (fun _ _ _ hsep hg hstep => hsep.step hg hstep)
  rintro s ⟨hloops, hresets, hmain, hcounted, hstored, hout⟩
  refine ⟨?_, ?_, ?_, .inr ?_, .inr ?_, .inr ?_, ?_, ?_, ?_, ?_, ?_⟩
  · simp [Deployment.subscriptions, hloops]
  · simp [Deployment.subscriptions, hloops]
  · rw [hmain]
    simp [MainStage.Ready, Deployment.subscriptions, hloops]
  · intro payload hpayload ticket hticket
    refine (hout ticket (List.mem_append_right _ ?_)).1
    exact List.mem_filterMap.mpr ⟨payload, hpayload, hticket⟩
  · simp [hloops]
  · simp [hcounted]
  · simp [hstored]
  · simp [hresets]
  · simp [hmain]
  · intro ticket hticket
    rw [(hout ticket hticket).2]
    exact Nat.zero_le _
  · simp [hloops]

/-- In every run of orderly steps, with any resets at any time, every step keeps the
loops apart: nothing is saved that comes from a task of before the last truncation,
only the newest loop takes results and increments the round, and it loses nothing
to an older one. -/
theorem reset_isolated (conf : MiscConfig) (s : Deployment)
    (h : Reachable (resets conf) Orderly s) (a : ResetEvent) (hg : Orderly s a)
    (hen : (resetStep conf s a).isSome = true) : Isolated s a := by
  have hsep := separate_of_reachable h
  cases a with
  | loop k e =>
    intro loop hk
    have hk' : s.loops[k]? = some loop := hk
    obtain ⟨hheeds, hidle⟩ := hg loop hk
    have hen' : e.Enabled loop s.shared := by
      by_contra hno
      simp [resetStep, hk', loopStep, hno] at hen
    exact hsep.isolatedLoop hk' hen' hheeds hidle
  | _ => exact trivial

/-- The one task of a round. -/
def soleTask : Task := ⟨1, [], [], [119], 100, 0, 1, [], []⟩

/-- The ticket of the first loop's task, and of the second's after a reset. -/
def oldTicket : Ticket := ⟨{soleTask with roundID := 1}, ⟨0, 0, 0⟩, 0⟩

def freshTicket : Ticket := ⟨{soleTask with roundID := 1}, ⟨1, 1, 1⟩, 1⟩

/-- `main` starts a loop. -/
def startLoop : List ResetEvent := [.main [], .main [], .main [], .main []]

/-- Loop `k` enqueues the task, and a runner takes it. -/
def halfRound (k : Nat) : List ResetEvent :=
  [ .loop k .begin, .loop k (.clear true), .loop k (.enqueue soleTask true), .loop k .collect,
    .queue .take ]

/-- Before `main` has come to anything. -/
def unstarted : Deployment := ⟨{currentRound := 0}, [], [], .entering⟩

/-- A reset in the middle of a round. The old loop ends, the runner drops its task, and
the new loop saves its first round. -/
theorem reset_isolated_mid_round :
    ∃ s, Reachable (resets ⟨3, 30⟩) Orderly s ∧ s.loops.length = 2 ∧ s.shared.epoch = 1 ∧
      Isolated s (.loop 1 (.process .ok)) := by
  obtain ⟨s, hs, hloops, hepoch, hg, hen⟩ := Reachable.exists_of_replay (S := resets ⟨3, 30⟩)
    (G := Orderly)
    (fun s => s.loops.length = 2 ∧ s.shared.epoch = 1 ∧ Orderly s (.loop 1 (.process .ok)) ∧
      (resetStep ⟨3, 30⟩ s (.loop 1 (.process .ok))).isSome = true)
    unstarted
    (startLoop ++ halfRound 0 ++ [.truncate, .advance .truncated, .advance .tasksDeleted,
      .advance .resultsDeleted, .notice 0, .queue (.drop oldTicket), .advance .published,
      .advance .roundSet] ++ startLoop ++ halfRound 1 ++ [.queue (.push freshTicket []), .loop 1 .pop,
      .loop 1 .complete])
    ⟨rfl, rfl, rfl, rfl, rfl, by decide⟩ (by decide)
  exact ⟨s, hs, hloops, hepoch, reset_isolated ⟨3, 30⟩ s hs _ hg hen⟩

/-- The old loop has its results together when the tables are truncated, and saves them;
or it is waiting for a result when the event is published, and takes the new loop's. -/
theorem reset_not_isolated :
    (∃ s, Reachable (resets ⟨3, 30⟩) (fun _ _ => True) s ∧
      (resetStep ⟨3, 30⟩ s (.loop 0 (.process .ok))).isSome = true ∧
      ¬Isolated s (.loop 0 (.process .ok))) ∧
    ∃ s, Reachable (resets ⟨3, 30⟩) (fun _ _ => True) s ∧
      (resetStep ⟨3, 30⟩ s (.loop 0 .pop)).isSome = true ∧ ¬Isolated s (.loop 0 .pop) := by
  constructor
  · refine Reachable.exists_of_replay (fun s : Deployment =>
        (resetStep ⟨3, 30⟩ s (.loop 0 (.process .ok))).isSome = true ∧
          ¬Isolated s (.loop 0 (.process .ok)))
      unstarted
      (startLoop ++ halfRound 0 ++
        [.queue (.push oldTicket []), .loop 0 .pop, .loop 0 .complete, .truncate]) ?_ ?_
    · exact ⟨rfl, rfl, rfl, rfl, rfl, by decide⟩
    · decide
  · refine Reachable.exists_of_replay (fun s : Deployment =>
        (resetStep ⟨3, 30⟩ s (.loop 0 .pop)).isSome = true ∧ ¬Isolated s (.loop 0 .pop))
      unstarted
      (startLoop ++ halfRound 0 ++ [.truncate, .advance .truncated, .advance .tasksDeleted,
        .advance .resultsDeleted] ++ startLoop ++ halfRound 1 ++ [.queue (.push freshTicket [])]) ?_ ?_
    · exact ⟨rfl, rfl, rfl, rfl, rfl, by decide⟩
    · decide

end QuotientScoring.Engine
