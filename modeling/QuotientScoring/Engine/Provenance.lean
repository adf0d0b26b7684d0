import QuotientScoring.Engine.Restart
import QuotientScoring.Engine.RoundExactness

/-! The engine process is restarted; the Redis lists and the runners are not.

A restarted engine goes on with the round after the last saved one. Rounds that
timed out used numbers too, and their tasks may still be on the way: the engine
hands out such a number again and takes a late result for one of the new round's,
`late_result_stored`. `provenance_of_restarts`: if every restart finds nothing on
the way that is later than the last saved round, every result that a saved round
stores was produced for a task of the execution of `rvb` that stores it. -/
namespace QuotientScoring.Engine
open DB Transition

inductive RestartEvent where
  | loop (e : LoopEvent)
  | queue (e : QueueEvent)
  /-- The process dies and `Start` runs, `LoadSLAs` getting these rows. -/
  | restart (rows : List ServiceCheckSchema)

/-- What `Start` makes of what the old process left behind. -/
def start (sh : Shared) (scoring : Scoring) : Lifetime :=
  { loop := {}
    shared := {sh with currentRound := (getLastRound sh.scoring.db).id + 1, scoring := scoring} }

def restartStep (conf : MiscConfig) (s : Lifetime) : RestartEvent → Option Lifetime
  | .loop e => (loopStep conf 0 s.loop s.shared e).map (fun p => ⟨p.1, p.2⟩)
  | .queue e => (queueStep s.shared e).map (fun sh => ⟨s.loop, sh⟩)
  | .restart rows => (restart conf rows s.shared.scoring.db).map (start s.shared)

def restarts (conf : MiscConfig) : System Lifetime RestartEvent where
  initial := fun s => s.loop.phase = .waiting ∧ s.shared.stored = [] ∧ s.shared.Genuine ∧
    ∀ ticket ∈ s.shared.outstanding, ticket.task.roundID < s.shared.currentRound
  step := restartStep conf

/-- Every result of the saved rounds was produced for a task of the execution that saved
the round. -/
def Own (stored : List Stored) : Prop :=
  ∀ round ∈ stored, ∀ ticket ∈ round.tickets, ticket.origin.exec = round.exec

instance (stored : List Stored) : Decidable (Own stored) :=
  inferInstanceAs (Decidable (∀ round ∈ stored, ∀ ticket ∈ round.tickets, _ = _))

/-- A restart finds nothing on the way that is later than the last saved round. -/
def Drained (s : Lifetime) : RestartEvent → Prop
  | .restart _ =>
    ∀ ticket ∈ s.shared.outstanding, ticket.task.roundID ≤ (getLastRound s.shared.scoring.db).id
  | _ => True

instance (s : Lifetime) : (a : RestartEvent) → Decidable (Drained s a)
  | .restart _ => inferInstanceAs (Decidable (∀ ticket ∈ s.shared.outstanding, _ ≤ _))
  | .loop _ | .queue _ => .isTrue trivial

/-- What is on the way for the current round comes from the execution of `rvb` that is
running. -/
structure Traced (s : Lifetime) : Prop where
  genuine : s.shared.Genuine
  bound : ∀ ticket ∈ s.shared.outstanding, ticket.task.roundID ≤ s.shared.currentRound
  current : ∀ ticket ∈ s.shared.outstanding, ticket.task.roundID = s.shared.currentRound →
    s.loop.phase ≠ .waiting ∧ ticket.origin.exec = s.loop.exec
  collected : s.loop.phase.inRound = true →
    ∀ c ∈ s.loop.results, c.ticket.origin.exec = s.loop.exec
  stored : Own s.shared.stored

theorem Traced.queue {s : Lifetime} (h : Traced s) {e : QueueEvent} (hen : e.Enabled s.shared) :
    Traced ⟨s.loop, e.effect s.shared⟩ := by
  refine ⟨h.genuine.queue e, fun ticket hmem => ?_, fun ticket hmem hround => ?_, h.collected, ?_⟩
  · rw [queue_currentRound]
    exact h.bound ticket (mem_outstanding_queue hen hmem)
  · rw [queue_currentRound] at hround
    exact h.current ticket (mem_outstanding_queue hen hmem) hround
  · rw [queue_stored]
    exact h.stored

/-- A step within a call of `rvb`, or out of it, that makes no ticket and counts no
result. -/
theorem Traced.move {s : Lifetime} (h : Traced s) {loop : Loop} {sh : Shared}
    (hround : sh.currentRound = s.shared.currentRound)
    (hout : ∀ ticket ∈ sh.outstanding, ticket ∈ s.shared.outstanding) (hg : sh.Genuine)
    (hstored : Own sh.stored) (hphase : loop.phase ≠ .waiting) (hexec : loop.exec = s.loop.exec)
    (hresults : loop.phase.inRound = true →
      s.loop.phase.inRound = true ∧ ∀ c ∈ loop.results, c ∈ s.loop.results) :
    Traced ⟨loop, sh⟩ := by
  refine ⟨hg, fun ticket hmem => ?_, fun ticket hmem ht => ?_, fun hr c hc => ?_, hstored⟩
  · rw [hround]
    exact h.bound ticket (hout ticket hmem)
  · rw [hround] at ht
    rw [hexec]
    exact ⟨hphase, (h.current ticket (hout ticket hmem) ht).2⟩
  · obtain ⟨hr', hsub⟩ := hresults hr
    rw [hexec]
    exact h.collected hr' c (hsub c hc)

/-- What a loop counts is on the way for the current round. -/
theorem Traced.counted {s : Lifetime} (h : Traced s) {c : Collected}
    (hmem : Payload.result c.result c.ticket ∈ s.shared.results)
    (hround : c.result.roundID = s.shared.currentRound) :
    c.ticket.origin.exec = s.loop.exec := by
  have hticket : c.ticket ∈ s.shared.outstanding :=
    List.mem_append_right _ (List.mem_filterMap.mpr ⟨_, hmem, rfl⟩)
  refine (h.current c.ticket hticket ?_).2
  rw [← hround]
  exact (h.genuine _ _ hmem).roundID.symm

theorem Traced.process {conf : MiscConfig} {s : Lifetime} (h : Traced s)
    (hphase : s.loop.phase = .processing) (answers : Answers) :
    Own (processRound conf s.loop s.shared answers).2.stored := by
  unfold processRound
  split
  · intro round hround ticket hticket
    rcases List.mem_append.mp hround with hold | hnew
    · exact h.stored round hold ticket hticket
    · obtain rfl := List.mem_singleton.mp hnew
      obtain ⟨c, hc, rfl⟩ := List.mem_map.mp hticket
      exact h.collected (by rw [hphase]; rfl) c hc
  · exact h.stored

theorem Traced.clear {s : Lifetime} (h : Traced s) (hphase : s.loop.phase = .starting)
    (conf : MiscConfig) (deleted : Bool) :
    Traced ⟨((LoopEvent.clear deleted).effect conf 0 s.loop s.shared).1,
      ((LoopEvent.clear deleted).effect conf 0 s.loop s.shared).2⟩ := by
  have hround : s.loop.phase.inRound = true := by
    rw [hphase]
    rfl
  have hstored : ((LoopEvent.clear deleted).effect conf 0 s.loop s.shared).2.stored =
      s.shared.stored := by cases deleted <;> rfl
  refine h.move (currentRound_loop _ _ _ _ nofun) (fun ticket hmem => ?_)
    (h.genuine.loop conf 0 s.loop _) (hstored ▸ h.stored) nofun rfl
    (fun _ => ⟨hround, fun _ hc => hc⟩)
  rcases mem_outstanding_loop conf hmem with hmem | ⟨_, _, he, _⟩
  · exact hmem
  · cases he

/-- The ticket of a task that is enqueued comes from the execution that enqueues it. -/
theorem Traced.enqueue {s : Lifetime} (h : Traced s) (hphase : s.loop.phase = .enqueuing)
    (conf : MiscConfig) (task : Task) (delivered : Bool) :
    Traced ⟨((LoopEvent.enqueue task delivered).effect conf 0 s.loop s.shared).1,
      ((LoopEvent.enqueue task delivered).effect conf 0 s.loop s.shared).2⟩ := by
  refine ⟨h.genuine.loop conf 0 s.loop (.enqueue task delivered), fun ticket hmem => ?_,
    fun ticket hmem hround => ⟨?_, ?_⟩, h.collected, h.stored⟩
  · rcases mem_outstanding_loop conf hmem with hmem | ⟨_, _, _, rfl⟩
    · exact h.bound ticket hmem
    · exact Nat.le_refl _
  · show s.loop.phase ≠ .waiting
    rw [hphase]
    nofun
  · rcases mem_outstanding_loop conf hmem with hmem | ⟨_, _, _, rfl⟩
    · exact (h.current ticket hmem hround).2
    · rfl

theorem Traced.pop {s : Lifetime} (h : Traced s) (hphase : s.loop.phase = .collecting)
    (conf : MiscConfig) :
    Traced ⟨(LoopEvent.pop.effect conf 0 s.loop s.shared).1,
      (LoopEvent.pop.effect conf 0 s.loop s.shared).2⟩ := by
  obtain ⟨hsame, hexec, _⟩ := popResult_frame s.loop s.shared
  have hround := currentRound_loop conf 0 s.loop s.shared (e := .pop) nofun
  have hout : ∀ ticket ∈ (LoopEvent.pop.effect conf 0 s.loop s.shared).2.outstanding,
      ticket ∈ s.shared.outstanding := by
    intro ticket hmem
    rcases mem_outstanding_loop conf hmem with hmem | ⟨_, _, he, _⟩
    · exact hmem
    · cases he
  have hstored : Own (LoopEvent.pop.effect conf 0 s.loop s.shared).2.stored := by
    rw [LoopEvent.effect, popResult_shared]
    exact h.stored
  refine ⟨h.genuine.loop conf 0 s.loop .pop, fun ticket hmem => ?_,
    fun ticket hmem ht => ⟨?_, ?_⟩, fun _ c hc => ?_, hstored⟩
  · rw [hround]
    exact h.bound ticket (hout ticket hmem)
  · show (popResult s.loop s.shared).1.phase ≠ .waiting
    rw [hsame, hphase]
    intro h
    cases h
  · rw [hround] at ht
    exact (h.current ticket (hout ticket hmem) ht).2.trans hexec.symm
  · have hown : c.ticket.origin.exec = s.loop.exec := by
      rcases mem_collected_loop conf 0 s.loop s.shared hc with hc | ⟨_, hmem, ht⟩
      · exact h.collected (by rw [hphase]; rfl) c hc
      · exact h.counted hmem ht
    exact hown.trans hexec.symm

theorem Traced.loop (conf : MiscConfig) {s : Lifetime} (h : Traced s) {e : LoopEvent}
    (hen : e.Enabled s.loop s.shared) :
    Traced ⟨(e.effect conf 0 s.loop s.shared).1, (e.effect conf 0 s.loop s.shared).2⟩ := by
  have hg := h.genuine.loop conf 0 s.loop e
  cases e with
  | begin =>
    -- nothing of the round is there before it begins
    refine ⟨hg, h.bound, fun ticket hmem hround => ?_, fun _ => nofun, h.stored⟩
    exact absurd hen (h.current ticket hmem hround).1
  | teamsError => exact h.move rfl (fun _ ht => ht) hg h.stored nofun rfl nofun
  | clear deleted => exact h.clear hen conf deleted
  | enqueue task delivered => exact h.enqueue hen conf task delivered
  | collect =>
    have hround : s.loop.phase.inRound = true := by
      rw [show s.loop.phase = .enqueuing from hen]
      rfl
    exact h.move rfl (fun _ ht => ht) hg h.stored nofun rfl (fun _ => ⟨hround, fun _ hc => hc⟩)
  | pop => exact h.pop hen.1 conf
  | timeout =>
    exact h.move rfl (fun _ ht => ht) hg h.stored nofun rfl
      (fun _ => ⟨by rw [hen.1]; rfl, nofun⟩)
  | complete =>
    exact h.move rfl (fun _ ht => ht) hg h.stored nofun rfl
      (fun _ => ⟨by rw [hen.1]; rfl, fun _ hc => hc⟩)
  | process answers =>
    refine h.move (currentRound_loop _ _ _ _ nofun) (fun ticket hmem => ?_) hg
      (h.process hen.1 answers) nofun rfl nofun
    rcases mem_outstanding_loop conf hmem with hmem | ⟨_, _, he, _⟩
    · exact hmem
    · cases he
  | increment =>
    refine ⟨hg, fun ticket hmem => Nat.le_succ_of_le (h.bound ticket hmem),
      fun ticket hmem hround => ?_, nofun, h.stored⟩
    have hle := h.bound ticket hmem
    have heq : ticket.task.roundID = s.shared.currentRound + 1 := hround
    omega

/-- What a restart finds on the way is of no round that is still to come. -/
theorem Traced.restart {s : Lifetime} (h : Traced s) (scoring : Scoring)
    (hdrained : ∀ ticket ∈ s.shared.outstanding,
      ticket.task.roundID ≤ (getLastRound s.shared.scoring.db).id) :
    Traced (start s.shared scoring) := by
  refine ⟨h.genuine, fun ticket hmem => Nat.le_succ_of_le (hdrained ticket hmem),
    fun ticket hmem hround => ?_, nofun, h.stored⟩
  have hle := hdrained ticket hmem
  have heq : ticket.task.roundID = (getLastRound s.shared.scoring.db).id + 1 := hround
  omega

theorem traced_of_reachable {conf : MiscConfig} {s : Lifetime}
    (h : Reachable (restarts conf) Drained s) : Traced s := by
  refine h.invariant (I := Traced) ?_ ?_
  · rintro s ⟨hw, hstored, hg, hout⟩
    refine ⟨hg, fun t ht => Nat.le_of_lt (hout t ht), fun t ht hround => ?_, fun hr => ?_, ?_⟩
    · exact absurd hround (Nat.ne_of_lt (hout t ht))
    · rw [hw] at hr
      cases hr
    · rw [hstored]
      nofun
  · intro s a s' htraced hdrained hstep
    cases a with
    | loop e =>
      obtain ⟨p, hl, rfl⟩ := Option.map_eq_some_iff.mp hstep
      obtain ⟨hen, rfl⟩ := loopStep_eq_some hl
      exact htraced.loop conf hen
    | queue e =>
      obtain ⟨sh, hq, rfl⟩ := Option.map_eq_some_iff.mp hstep
      obtain ⟨hen, rfl⟩ := queueStep_eq_some hq
      exact htraced.queue hen
    | restart rows =>
      obtain ⟨scoring, _, rfl⟩ := Option.map_eq_some_iff.mp hstep
      exact htraced.restart scoring hdrained

/-- In every run, with any rounds timing out and any results arriving late, whose
restarts find nothing on the way that is later than the last saved round: every
result of every saved round was produced for a task of the execution that saved it. -/
theorem provenance_of_restarts (conf : MiscConfig) (s : Lifetime)
    (h : Reachable (restarts conf) Drained s) : Own s.shared.stored := by
  have htraced := traced_of_reachable h
  exact htraced.stored

/-- The one task of every round. -/
def everyTask : Task := ⟨1, [], [], [119], 100, 0, 1, [], []⟩

/-- Its ticket in the execution `i`, which is that of round `i + 1`. -/
def everyTicket (i : Nat) : Ticket := ⟨{everyTask with roundID := i + 1}, ⟨0, i, 0⟩, i⟩

def wholeRound (i : Nat) : List RestartEvent :=
  [ .loop .begin, .loop (.clear true), .loop (.enqueue everyTask true), .loop .collect,
    .queue .take, .queue (.push (everyTicket i) []), .loop .pop, .loop .complete,
    .loop (.process .ok) ]

/-- A round before a restart and a round after it, each with its own result. -/
theorem provenance_of_restarts_two_rounds :
    ∃ s, Reachable (restarts ⟨3, 30⟩) Drained s ∧ s.shared.stored.map Stored.exec = [0, 1] ∧
      Own s.shared.stored := by
  obtain ⟨s, hs, hrounds⟩ := Reachable.exists_of_replay (S := restarts ⟨3, 30⟩) (G := Drained)
    (fun s => s.shared.stored.map Stored.exec = [0, 1]) ⟨{}, {currentRound := 1}⟩
    (wholeRound 0 ++ [.restart []] ++ wholeRound 1)
    ⟨rfl, rfl, fun _ _ h => (by cases h), by decide⟩ (by decide)
  exact ⟨s, hs, hrounds, provenance_of_restarts ⟨3, 30⟩ s hs⟩

/-- Round 1 times out with its task in a runner, and the process is restarted: the next
round is round 1 again, and the late result is stored as one of its own. -/
theorem late_result_stored :
    ∃ s, Reachable (restarts ⟨3, 30⟩) (fun _ _ => True) s ∧ ¬Own s.shared.stored := by
  refine Reachable.exists_of_replay (fun s : Lifetime => ¬Own s.shared.stored)
    ⟨{}, {currentRound := 1}⟩
    [.loop .begin, .loop (.clear true), .loop (.enqueue everyTask true), .loop .collect, .queue .take,
      .loop .timeout, .loop (.process .ok), .loop .increment, .restart [],
      .loop .begin, .loop (.clear true), .loop (.enqueue everyTask true), .loop .collect,
      .queue (.push (everyTicket 0) []), .loop .pop, .loop .complete, .loop (.process .ok)] ?_ ?_
  · exact ⟨rfl, rfl, fun _ _ h => (by cases h), by decide⟩
  · decide

end QuotientScoring.Engine
