import QuotientScoring.Engine.Loop
import QuotientScoring.Lib.Transition

/-! One loop, never reset or restarted.

The engine counts results; it never compares them with the tasks it enqueued. That
is enough. `Balanced` says that no ticket of the current round is on its way or
collected more often than it was enqueued, so a list of as many results as there
were tasks has one for each: `round_exact`. -/
namespace QuotientScoring.Engine
open DB Transition

/-- The engine in one process lifetime. -/
structure Lifetime where
  loop : Loop := {}
  shared : Shared

inductive LifetimeEvent where
  | loop (e : LoopEvent)
  | queue (e : QueueEvent)

def lifetimeStep (conf : MiscConfig) (s : Lifetime) : LifetimeEvent → Option Lifetime
  | .loop e => (loopStep conf 0 s.loop s.shared e).map (fun p => ⟨p.1, p.2⟩)
  | .queue e => (queueStep s.shared e).map (fun sh => ⟨s.loop, sh⟩)

/-- At the start the lists may hold anything of earlier rounds. -/
def lifetime (conf : MiscConfig) : System Lifetime LifetimeEvent where
  initial := fun s => s.loop.phase = .waiting ∧ s.shared.log = [] ∧ s.shared.Genuine ∧
    ∀ ticket ∈ s.shared.outstanding, ticket.task.roundID < s.shared.currentRound
  step := lifetimeStep conf

/-- The tasks enqueued in a round. -/
def Shared.enqueuedIn (sh : Shared) (round : Nat) : List Ticket :=
  sh.log.filter (fun ticket => ticket.task.roundID = round)

/-! ### The invariant -/

/-- What holds of the log and the lists at any time. -/
structure Logged (sh : Shared) : Prop where
  genuine : sh.Genuine
  log : ∀ ticket ∈ sh.log, ticket.task.roundID ≤ sh.currentRound
  outstanding : ∀ ticket ∈ sh.outstanding, ticket.task.roundID ≤ sh.currentRound
  serial : ∀ ticket ∈ sh.log, ticket.serial < sh.log.length
  nodup : sh.log.Nodup

/-- What holds in a call of `rvb`: the tasks of the round are counted by `runners`,
and none of them is on its way or collected twice. -/
structure Balanced (loop : Loop) (sh : Shared) : Prop where
  runners : (sh.enqueuedIn sh.currentRound).length = loop.runners
  balance : ∀ ticket, ticket.task.roundID = sh.currentRound →
    sh.outstanding.count ticket + (loop.results.map Collected.ticket).count ticket ≤
      sh.log.count ticket
  collected : ∀ c ∈ loop.results, c.result.Answers c.ticket.task ∧
    c.ticket.task.roundID = sh.currentRound
  full : loop.phase = .processing → loop.results = [] ∨ loop.runners ≤ loop.results.length

/-- Between two calls of `rvb`, nothing of the next round is there yet. -/
def Idle (sh : Shared) : Prop :=
  (∀ ticket ∈ sh.log, ticket.task.roundID < sh.currentRound) ∧
    ∀ ticket ∈ sh.outstanding, ticket.task.roundID < sh.currentRound

structure Exact (s : Lifetime) : Prop where
  logged : Logged s.shared
  idle : s.loop.phase = .waiting → Idle s.shared
  balanced : s.loop.phase.inRound = true → Balanced s.loop s.shared

/-- A step that enqueues nothing, within a round. -/
theorem Logged.moved {sh sh' : Shared} (h : Logged sh) (hround : sh'.currentRound = sh.currentRound)
    (hlog : sh'.log = sh.log) (hg : sh'.Genuine)
    (hout : ∀ ticket ∈ sh'.outstanding, ticket ∈ sh.outstanding) : Logged sh' := by
  refine ⟨hg, ?_, fun ticket hmem => ?_, ?_, ?_⟩
  · rw [hlog, hround]
    exact h.log
  · rw [hround]
    exact h.outstanding ticket (hout ticket hmem)
  · rw [hlog]
    exact h.serial
  · rw [hlog]
    exact h.nodup

/-! ### Runners -/

theorem Exact.queue {s : Lifetime} (h : Exact s) {e : QueueEvent} (hen : e.Enabled s.shared) :
    Exact ⟨s.loop, e.effect s.shared⟩ := by
  have hlogged : Logged (e.effect s.shared) := h.logged.moved (queue_currentRound _ e)
    (queue_log _ e) (h.logged.genuine.queue e) (fun _ => mem_outstanding_queue hen)
  refine ⟨hlogged, fun hw => ?_, fun hr => ?_⟩
  · obtain ⟨hlog, hout⟩ := h.idle hw
    refine ⟨by simpa using hlog, fun ticket hmem => ?_⟩
    rw [queue_currentRound]
    exact hout ticket (mem_outstanding_queue hen hmem)
  · obtain ⟨hrunners, hbalance, hcollected, hfull⟩ := h.balanced hr
    refine ⟨?_, fun ticket hround => ?_, ?_, hfull⟩
    · simpa [Shared.enqueuedIn] using hrunners
    · rw [queue_currentRound] at hround
      have hle := count_outstanding_queue s.shared hen ticket
      have hold := hbalance ticket hround
      rw [queue_log]
      show (e.effect s.shared).outstanding.count ticket +
        (s.loop.results.map Collected.ticket).count ticket ≤ _
      omega
    · simpa using hcollected

/-! ### The loop -/

/-- When a round begins nothing is enqueued, and nothing of it is on its way. -/
theorem Idle.balanced {loop : Loop} {sh : Shared} (h : Idle sh) (hrunners : loop.runners = 0)
    (hresults : loop.results = []) : Balanced loop sh := by
  obtain ⟨hlog, hout⟩ := h
  refine ⟨?_, fun ticket hround => ?_, by simp [hresults], fun _ => .inl hresults⟩
  · have hnil : sh.enqueuedIn sh.currentRound = [] := by
      refine List.filter_eq_nil_iff.mpr fun ticket hmem hround => ?_
      have := hlog ticket hmem
      have := of_decide_eq_true hround
      omega
    rw [hnil, hrunners]
    rfl
  · have hzero : sh.outstanding.count ticket = 0 := by
      refine List.count_eq_zero.mpr fun hmem => ?_
      have := hout ticket hmem
      omega
    simp [hzero, hresults]

/-- What an enqueued task adds to the log. -/
theorem Logged.enqueue {sh : Shared} (h : Logged sh) (conf : MiscConfig) (k : Nat) (loop : Loop)
    (task : Task) (delivered : Bool) :
    Logged ((LoopEvent.enqueue task delivered).effect conf k loop sh).2 := by
  refine ⟨h.genuine, fun ticket hmem => ?_, fun ticket hmem => ?_, fun ticket hmem => ?_, ?_⟩
  · rcases List.mem_append.mp hmem with hmem | hmem
    · exact h.log ticket hmem
    · obtain rfl := List.mem_singleton.mp hmem
      exact Nat.le_refl _
  · rcases mem_outstanding_loop conf hmem with hmem | ⟨_, _, _, rfl⟩
    · exact h.outstanding ticket hmem
    · exact Nat.le_refl _
  · show ticket.serial < (sh.log ++ [newTicket k loop sh task]).length
    rw [List.length_append, List.length_singleton]
    rcases List.mem_append.mp hmem with hmem | hmem
    · exact Nat.lt_succ_of_lt (h.serial ticket hmem)
    · obtain rfl := List.mem_singleton.mp hmem
      exact Nat.lt_succ_self _
  · -- the serial number of the new ticket is a new one
    show (sh.log ++ [newTicket k loop sh task]).Nodup
    refine h.nodup.append (List.nodup_singleton _) fun ticket hmem hnew => ?_
    obtain rfl := List.mem_singleton.mp hnew
    exact Nat.lt_irrefl _ (h.serial _ hmem)

theorem Logged.loop {sh : Shared} (h : Logged sh) (conf : MiscConfig) (k : Nat) (loop : Loop)
    (e : LoopEvent) : Logged (e.effect conf k loop sh).2 := by
  by_cases henq : ∃ task delivered, e = .enqueue task delivered
  · obtain ⟨task, delivered, rfl⟩ := henq
    exact h.enqueue conf k loop task delivered
  by_cases hinc : e = .increment
  · subst hinc
    exact ⟨h.genuine, fun ticket hmem => Nat.le_succ_of_le (h.log ticket hmem),
      fun ticket hmem => Nat.le_succ_of_le (h.outstanding ticket hmem), h.serial, h.nodup⟩
  have hlog : (e.effect conf k loop sh).2.log = sh.log :=
    log_loop conf k loop sh (fun task delivered he => henq ⟨task, delivered, he⟩)
  refine h.moved (currentRound_loop conf k loop sh hinc) hlog (h.genuine.loop conf k loop e)
    fun ticket hmem => ?_
  rcases mem_outstanding_loop conf hmem with hmem | ⟨task, delivered, he, _⟩
  · exact hmem
  · exact absurd ⟨task, delivered, he⟩ henq

/-- A change of phase changes no counts. -/
theorem Balanced.moved {loop : Loop} {sh : Shared} (h : Balanced loop sh) {phase : Phase}
    (hfull : phase = .processing → loop.runners ≤ loop.results.length) :
    Balanced {loop with phase := phase} sh :=
  ⟨h.runners, h.balance, h.collected, fun hp => .inr (hfull hp)⟩

theorem Balanced.clear {loop : Loop} {sh : Shared} (h : Balanced loop sh)
    (hphase : loop.phase ≠ .processing) : Balanced loop {sh with tasks := []} := by
  refine ⟨h.runners, fun ticket hround => ?_, h.collected, fun hp => absurd hp hphase⟩
  have hold := h.balance ticket hround
  have hle := count_outstanding_clear sh ticket
  show _ + (loop.results.map Collected.ticket).count ticket ≤ sh.log.count ticket
  exact Nat.le_trans (Nat.add_le_add_right hle _) hold

theorem Balanced.enqueue {k : Nat} {loop : Loop} {sh : Shared} (h : Balanced loop sh)
    (hphase : loop.phase = .enqueuing) (task : Task) (delivered : Bool) :
    Balanced (enqueueTask k loop sh task delivered).1 (enqueueTask k loop sh task delivered).2 := by
  refine ⟨?_, fun ticket hround => ?_, h.collected, fun hp => ?_⟩
  · show ((sh.log ++ [newTicket k loop sh task]).filter _).length = loop.runners + 1
    rw [List.filter_append, List.length_append]
    have hnew : [newTicket k loop sh task].filter
        (fun ticket => ticket.task.roundID = sh.currentRound) = [newTicket k loop sh task] := by
      simp [newTicket]
    exact congrArg₂ (· + ·) h.runners (congrArg List.length hnew)
  · have hold := h.balance ticket hround
    have hout : (enqueueTask k loop sh task delivered).2.outstanding.count ticket ≤
        sh.outstanding.count ticket + [newTicket k loop sh task].count ticket := by
      cases delivered <;>
        simp only [enqueueTask, Shared.outstanding, if_true, Bool.false_eq_true, if_false,
          List.count_append] <;> omega
    show _ + (loop.results.map Collected.ticket).count ticket ≤
      (sh.log ++ [newTicket k loop sh task]).count ticket
    rw [List.count_append]
    omega
  · have hp' : loop.phase = .processing := hp
    rw [hphase] at hp'
    cases hp'

/-- A payload that comes off the list is no longer on its way. -/
theorem count_outstanding_results {sh : Shared} {payload : Payload} {rest : List Payload}
    (h : sh.results = payload :: rest) (ticket : Ticket) :
    sh.outstanding.count ticket = ({sh with results := rest} : Shared).outstanding.count ticket +
      payload.ticket?.toList.count ticket := by
  cases payload with
  | malformed => simp [Shared.outstanding, h, List.filterMap_cons]
  | result result t =>
    simp only [Shared.outstanding, h, List.filterMap_cons, Payload.ticket?_result,
      Option.toList_some, List.count_append, List.count_cons, List.count_nil]
    omega

/-- What the loop pops and skips. -/
theorem Balanced.skip {loop : Loop} {sh : Shared} (h : Balanced loop sh) {payload : Payload}
    {rest : List Payload} (hresults : sh.results = payload :: rest) :
    Balanced loop {sh with results := rest} := by
  refine ⟨h.runners, fun ticket hround => ?_, h.collected, h.full⟩
  have hold := h.balance ticket hround
  rw [count_outstanding_results hresults] at hold
  show _ ≤ sh.log.count ticket
  omega

/-- What the loop pops and counts was on its way, and is no longer. -/
theorem Balanced.collect {loop : Loop} {sh : Shared} (h : Balanced loop sh)
    (hphase : loop.phase ≠ .processing) {result : Result} {ticket : Ticket} {rest : List Payload}
    (hresults : sh.results = .result result ticket :: rest) (hans : result.Answers ticket.task)
    (hround : result.roundID = sh.currentRound) :
    Balanced {loop with results := loop.results ++ [⟨result, ticket⟩]} {sh with results := rest} := by
  refine ⟨h.runners, fun t ht => ?_, fun c hc => ?_, fun hp => absurd hp hphase⟩
  · have hold := h.balance t ht
    rw [count_outstanding_results hresults] at hold
    simp only [Payload.ticket?_result, Option.toList_some] at hold
    rw [List.map_append, List.count_append]
    show _ + (_ + [ticket].count t) ≤ sh.log.count t
    omega
  · rcases List.mem_append.mp hc with hc | hc
    · exact h.collected c hc
    · obtain rfl := List.mem_singleton.mp hc
      exact ⟨hans, hans.roundID.symm.trans hround⟩

theorem Balanced.pop {loop : Loop} {sh : Shared} (h : Balanced loop sh) (hg : sh.Genuine)
    (hphase : loop.phase ≠ .processing) :
    Balanced (popResult loop sh).1 (popResult loop sh).2 := by
  unfold popResult
  cases hresults : sh.results with
  | nil => exact h
  | cons payload rest =>
    cases payload with
    | malformed => exact h.skip hresults
    | result result ticket =>
      have hans : result.Answers ticket.task := hg result ticket (by simp [hresults])
      show Balanced (if result.roundID ≠ sh.currentRound then loop
        else {loop with results := loop.results ++ [⟨result, ticket⟩]}) {sh with results := rest}
      split
      · exact h.skip hresults
      · rename_i hround
        exact h.collect hphase hresults hans (not_not.mp hround)

theorem Exact.loop (conf : MiscConfig) {s : Lifetime} (h : Exact s) {e : LoopEvent}
    (hen : e.Enabled s.loop s.shared) :
    Exact ⟨(e.effect conf 0 s.loop s.shared).1, (e.effect conf 0 s.loop s.shared).2⟩ := by
  obtain ⟨hlogged, hidle, hbalanced⟩ := h
  have hnext := hlogged.loop conf 0 s.loop e
  cases e with
  | begin => exact ⟨hnext, nofun, fun _ => Idle.balanced (hidle hen) rfl rfl⟩
  | teamsError => exact ⟨hnext, nofun, nofun⟩
  | clear deleted =>
    have hphase : s.loop.phase = .starting := hen
    have hb := hbalanced (by rw [hphase]; rfl)
    cases deleted with
    | false => exact ⟨hnext, nofun, fun _ => hb.moved nofun⟩
    | true =>
      have hcleared := hb.clear (by rw [hphase]; nofun)
      exact ⟨hnext, nofun, fun _ => hcleared.moved nofun⟩
  | enqueue task delivered =>
    have hphase : s.loop.phase = .enqueuing := hen
    refine ⟨hnext, fun hw => ?_, fun _ => ?_⟩
    · have hw' : s.loop.phase = .waiting := hw
      rw [hphase] at hw'
      cases hw'
    · exact (hbalanced (by rw [hphase]; rfl)).enqueue hphase task delivered
  | collect =>
    have hb := hbalanced (by rw [show s.loop.phase = .enqueuing from hen]; rfl)
    exact ⟨hnext, nofun, fun _ => hb.moved nofun⟩
  | pop =>
    obtain ⟨hphase, -, -⟩ := hen
    have hb := hbalanced (by rw [hphase]; rfl)
    refine ⟨hnext, fun hw => ?_, fun _ => hb.pop hlogged.genuine (by rw [hphase]; nofun)⟩
    have hsame : (popResult s.loop s.shared).1.phase = s.loop.phase := (popResult_frame ..).1
    have hw' : (popResult s.loop s.shared).1.phase = .waiting := hw
    rw [hsame, hphase] at hw'
    cases hw'
  | timeout =>
    -- the results so far are thrown away
    obtain ⟨hphase, -⟩ := hen
    have hb := hbalanced (by rw [hphase]; rfl)
    refine ⟨hnext, nofun, fun _ => ⟨hb.runners, fun ticket hround => ?_, nofun, fun _ => .inl rfl⟩⟩
    have hold := hb.balance ticket hround
    show s.shared.outstanding.count ticket + 0 ≤ s.shared.log.count ticket
    omega
  | complete =>
    obtain ⟨hphase, hfull⟩ := hen
    have hb := hbalanced (by rw [hphase]; rfl)
    exact ⟨hnext, nofun, fun _ => hb.moved (fun _ => Nat.le_of_not_lt hfull)⟩
  | process answers => exact ⟨hnext, nofun, nofun⟩
  | increment =>
    refine ⟨hnext, fun _ => ⟨fun ticket hmem => ?_, fun ticket hmem => ?_⟩, nofun⟩
    · exact Nat.lt_succ_of_le (hlogged.log ticket hmem)
    · exact Nat.lt_succ_of_le (hlogged.outstanding ticket hmem)

theorem exact_of_reachable {conf : MiscConfig} {s : Lifetime}
    (h : Reachable (lifetime conf) (fun _ _ => True) s) : Exact s := by
  refine h.invariant (I := Exact) ?_ ?_
  · rintro s ⟨hw, hlog, hg, hout⟩
    refine ⟨⟨hg, by simp [hlog], fun t ht => Nat.le_of_lt (hout t ht), by simp [hlog],
      by simp [hlog]⟩, fun _ => ⟨by simp [hlog], hout⟩, fun hr => ?_⟩
    rw [hw] at hr
    cases hr
  · intro s a s' hexact _ hstep
    cases a with
    | loop e =>
      obtain ⟨p, hl, rfl⟩ := Option.map_eq_some_iff.mp hstep
      obtain ⟨hen, rfl⟩ := loopStep_eq_some hl
      exact hexact.loop conf hen
    | queue e =>
      obtain ⟨sh, hq, rfl⟩ := Option.map_eq_some_iff.mp hstep
      obtain ⟨hen, rfl⟩ := queueStep_eq_some hq
      exact hexact.queue hen

/-- As many results as there were tasks, none of them counted more often than it was
enqueued, are one for each. -/
theorem Balanced.perm {loop : Loop} {sh : Shared} (h : Balanced loop sh)
    (hfull : loop.runners ≤ loop.results.length) :
    (loop.results.map Collected.ticket).Perm (sh.enqueuedIn sh.currentRound) := by
  have hsub : (loop.results.map Collected.ticket).Subperm (sh.enqueuedIn sh.currentRound) := by
    refine List.subperm_ext_iff.mpr fun ticket hmem => ?_
    obtain ⟨c, hc, rfl⟩ := List.mem_map.mp hmem
    have hround := (h.collected c hc).2
    have hle := h.balance c.ticket hround
    rw [Shared.enqueuedIn, List.count_filter (by simpa using hround)]
    omega
  apply hsub.perm_of_length_le
  rw [h.runners, List.length_map]
  exact hfull

/-- At every point of every run at which `rvb` is about to hand a non-empty list to
`processCollectedResults`, the list has exactly one result for each task enqueued in
the round, and each result is one for its task and for this round. -/
theorem round_exact (conf : MiscConfig) (s : Lifetime)
    (h : Reachable (lifetime conf) (fun _ _ => True) s) (hphase : s.loop.phase = .processing)
    (hne : s.loop.results ≠ []) :
    (s.loop.results.map Collected.ticket).Perm (s.shared.enqueuedIn s.shared.currentRound) ∧
      (s.shared.enqueuedIn s.shared.currentRound).Nodup ∧
      ∀ c ∈ s.loop.results, c.result.Answers c.ticket.task ∧
        c.result.roundID = s.shared.currentRound := by
  have hexact := exact_of_reachable h
  have hbalanced := hexact.balanced (by rw [hphase]; rfl)
  have hfull := (hbalanced.full hphase).resolve_left hne
  refine ⟨hbalanced.perm hfull, hexact.logged.nodup.filter _, fun c hc => ?_⟩
  obtain ⟨hans, hround⟩ := hbalanced.collected c hc
  exact ⟨hans, hans.roundID.trans hround⟩

/-- Round 7 with two tasks. A result of round 6 comes first and is skipped. -/
theorem round_exact_two_tasks :
    let task : Task := ⟨1, [], [], [119], 100, 0, 1, [], []⟩
    let late : Ticket := ⟨{task with roundID := 6}, ⟨0, 0, 0⟩, 0⟩
    ∃ s, Reachable (lifetime ⟨3, 30⟩) (fun _ _ => True) s ∧ s.loop.results.length = 2 ∧
      late ∉ s.loop.results.map Collected.ticket ∧
      (s.loop.results.map Collected.ticket).Perm (s.shared.enqueuedIn 7) := by
  intro task late
  let ticket : Nat → Ticket := fun t => ⟨{task with teamID := t, roundID := 7}, ⟨0, 0, 0⟩, t - 1⟩
  obtain ⟨s, hs, ⟨hphase, hne⟩, hlen, hround, hlate⟩ :=
    Reachable.exists_of_replay (S := lifetime ⟨3, 30⟩) (G := fun _ _ => True)
      (fun s => (s.loop.phase = .processing ∧ s.loop.results ≠ []) ∧ s.loop.results.length = 2 ∧
        s.shared.currentRound = 7 ∧ late ∉ s.loop.results.map Collected.ticket)
      ⟨{}, {currentRound := 7, inFlight := [late]}⟩
      [.loop .begin, .loop (.clear true), .loop (.enqueue task true),
        .loop (.enqueue {task with teamID := 2} true), .loop .collect, .queue .take, .queue .take,
        .queue (.push late []), .queue (.push (ticket 2) []), .queue (.push (ticket 1) []),
        .loop .pop, .loop .pop, .loop .pop, .loop .complete]
      ⟨rfl, rfl, fun _ _ h => (by cases h), by decide⟩ (by decide)
  have hexact := (round_exact ⟨3, 30⟩ s hs hphase hne).1
  rw [hround] at hexact
  exact ⟨s, hs, hlen, hlate, hexact⟩

end QuotientScoring.Engine
