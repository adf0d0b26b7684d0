import QuotientScoring.Lib.Transition

/-! A result handed over without a buffer.

A worker computes a result, hands it to a receiver over a channel that has no buffer, and then
does what it has deferred, the last first. The receiver takes the result or, when a timer
has fired, gives up; it puts what it then has on a channel of its own, and returns. A
worker may also crash, and halts everything.

Such a run is finite (`length_le`), and ends with one thing put (`put_of_stuck`). The worker
comes to its end exactly if the receiver does not give up on it: `finished_iff`. -/
namespace Handover
open Transition

/-- `result` is none of a worker that crashes. A receiver that has given up puts `late`. -/
structure Job (ρ κ : Type) where
  result : Option ρ
  late : ρ
  deferred : List κ

inductive Worker (ρ κ : Type) where
  | working
  | sending (result : ρ)
  | cleaning (left : List κ)
  | finished
  | crashed
deriving DecidableEq

inductive Receiver (ρ : Type) where
  | selecting
  | putting (result : ρ)
  | returned
deriving DecidableEq

structure State (ρ κ : Type) where
  worker : Worker ρ κ := .working
  receiver : Receiver ρ := .selecting
  fired : Bool := false
  put : List ρ := []
  cleaned : List κ := []

inductive Action where
  | work
  | receive
  | clean
  | fire
  | giveUp
  | put
deriving DecidableEq, Repr

variable {ρ κ : Type}

def State.halted (s : State ρ κ) : Bool :=
  match s.worker with
  | .crashed => true
  | _ => false

section
variable (job : Job ρ κ)

def step (s : State ρ κ) : Action → Option (State ρ κ)
  | .work =>
    match s.worker with
    | .working => some {s with worker := job.result.elim .crashed .sending}
    | _ => none
  | .receive =>
    match s.worker, s.receiver with
    | .sending r, .selecting =>
      some {s with worker := .cleaning job.deferred.reverse, receiver := .putting r}
    | _, _ => none
  | .clean =>
    match s.worker with
    | .cleaning (c :: left) => some {s with worker := .cleaning left, cleaned := s.cleaned ++ [c]}
    | .cleaning [] => some {s with worker := .finished}
    | _ => none
  | .fire => if !s.halted && !s.fired then some {s with fired := true} else none
  | .giveUp =>
    match s.receiver with
    | .selecting =>
      if !s.halted && s.fired then some {s with receiver := .putting job.late} else none
    | _ => none
  | .put =>
    match s.receiver with
    | .putting r =>
      if !s.halted then some {s with receiver := .returned, put := s.put ++ [r]} else none
    | _ => none

def handover : System (State ρ κ) Action where
  initial s := s = {}
  step := step job

/-- The steps, as a relation. -/
inductive Moves (s : State ρ κ) : Action → State ρ κ → Prop where
  | work : s.worker = .working →
      Moves s .work {s with worker := job.result.elim .crashed .sending}
  | receive {r : ρ} : s.worker = .sending r → s.receiver = .selecting →
      Moves s .receive
        {s with worker := .cleaning job.deferred.reverse, receiver := .putting r}
  | clean {c : κ} {left : List κ} : s.worker = .cleaning (c :: left) →
      Moves s .clean {s with worker := .cleaning left, cleaned := s.cleaned ++ [c]}
  | finish : s.worker = .cleaning [] → Moves s .clean {s with worker := .finished}
  | fire : s.halted = false → s.fired = false → Moves s .fire {s with fired := true}
  | giveUp : s.halted = false → s.fired = true → s.receiver = .selecting →
      Moves s .giveUp {s with receiver := .putting job.late}
  | put {r : ρ} : s.halted = false → s.receiver = .putting r →
      Moves s .put {s with receiver := .returned, put := s.put ++ [r]}

end

variable {job : Job ρ κ} {s s' : State ρ κ} {a : Action} {actions : List Action}

theorem moves_of_step (h : step job s a = some s') : Moves job s a s' := by
  cases a with
  | work =>
    simp only [step] at h
    split at h
    · rw [← Option.some.inj h]
      exact .work ‹_›
    · cases h
  | receive =>
    simp only [step] at h
    split at h
    · rw [← Option.some.inj h]
      exact .receive ‹_› ‹_›
    · cases h
  | clean =>
    simp only [step] at h
    split at h
    · rw [← Option.some.inj h]
      exact .clean ‹_›
    · rw [← Option.some.inj h]
      exact .finish ‹_›
    · cases h
  | fire =>
    simp only [step, Option.ite_none_right_eq_some, Option.some.injEq, Bool.and_eq_true,
      Bool.not_eq_true'] at h
    obtain ⟨⟨hrunning, hfired⟩, rfl⟩ := h
    exact .fire hrunning hfired
  | giveUp =>
    simp only [step] at h
    split at h
    · simp only [Option.ite_none_right_eq_some, Option.some.injEq, Bool.and_eq_true,
        Bool.not_eq_true'] at h
      obtain ⟨⟨hrunning, hfired⟩, rfl⟩ := h
      exact .giveUp hrunning hfired ‹_›
    · cases h
  | put =>
    simp only [step] at h
    split at h
    · simp only [Option.ite_none_right_eq_some, Option.some.injEq, Bool.not_eq_true'] at h
      obtain ⟨hrunning, rfl⟩ := h
      exact .put hrunning ‹_›
    · cases h

theorem step_of_moves (h : Moves job s a s') : step job s a = some s' := by
  cases h with
  | work hw => simp [step, hw]
  | receive hw hr => simp [step, hw, hr]
  | clean hw => simp [step, hw]
  | finish hw => simp [step, hw]
  | fire hh hf => simp [step, hh, hf]
  | giveUp hh hf hr => simp [step, hh, hf, hr]
  | put hh hr => simp [step, hh, hr]

theorem not_moves_of_stuck (h : (handover job).Stuck s) : ¬Moves job s a s' := by
  intro hmoves
  have hsome : step job s a = some s' := step_of_moves hmoves
  rw [show step job s a = none from h a] at hsome
  cases hsome

/-! ### What a run has come to -/

/-- Where what the receiver puts comes from. -/
def Chosen (job : Job ρ κ) (actions : List Action) (r : ρ) : Prop :=
  (.receive ∈ actions ∧ .giveUp ∉ actions ∧ job.result = some r) ∨
    (.giveUp ∈ actions ∧ .receive ∉ actions ∧ r = job.late)

theorem Chosen.snoc {r : ρ} (h : Chosen job actions r) (hreceive : a ≠ .receive)
    (hgive : a ≠ .giveUp) : Chosen job (actions ++ [a]) r := by
  simpa [Chosen, hreceive.symm, hgive.symm] using h

/-- A worker after the actions, and what it has cleaned. -/
inductive WorkerSound (job : Job ρ κ) (actions : List Action) : Worker ρ κ → List κ → Prop where
  | working : .receive ∉ actions → WorkerSound job actions .working []
  | sending {r : ρ} : .receive ∉ actions → job.result = some r →
      WorkerSound job actions (.sending r) []
  | crashed : .receive ∉ actions → job.result = none → WorkerSound job actions .crashed []
  | cleaning {left cleaned : List κ} : .receive ∈ actions → cleaned ++ left = job.deferred.reverse →
      WorkerSound job actions (.cleaning left) cleaned
  | finished : .receive ∈ actions → WorkerSound job actions .finished job.deferred.reverse

/-- A receiver after the actions, and what it has put. -/
inductive ReceiverSound (job : Job ρ κ) (actions : List Action) : Receiver ρ → List ρ → Prop where
  | selecting : .receive ∉ actions → .giveUp ∉ actions → ReceiverSound job actions .selecting []
  | putting {r : ρ} : Chosen job actions r → ReceiverSound job actions (.putting r) []
  | returned {r : ρ} : Chosen job actions r → ReceiverSound job actions .returned [r]

structure Sound (job : Job ρ κ) (actions : List Action) (s : State ρ κ) : Prop where
  worker : WorkerSound job actions s.worker s.cleaned
  receiver : ReceiverSound job actions s.receiver s.put

theorem WorkerSound.snoc {w : Worker ρ κ} {cleaned : List κ}
    (h : WorkerSound job actions w cleaned) (ha : a ≠ .receive) :
    WorkerSound job (actions ++ [a]) w cleaned := by
  have hmem : .receive ∈ actions ++ [a] ↔ .receive ∈ actions := by simp [ha.symm]
  cases h with
  | working hnot => exact .working (mt hmem.mp hnot)
  | sending hnot hresult => exact .sending (mt hmem.mp hnot) hresult
  | crashed hnot hresult => exact .crashed (mt hmem.mp hnot) hresult
  | cleaning hrec hleft => exact .cleaning (hmem.mpr hrec) hleft
  | finished hrec => exact .finished (hmem.mpr hrec)

theorem ReceiverSound.snoc {receiver : Receiver ρ} {put : List ρ}
    (h : ReceiverSound job actions receiver put) (hreceive : a ≠ .receive) (hgive : a ≠ .giveUp) :
    ReceiverSound job (actions ++ [a]) receiver put := by
  cases h with
  | selecting hnot hnever =>
    exact .selecting (by simpa [hreceive.symm] using hnot) (by simpa [hgive.symm] using hnever)
  | putting hchosen => exact .putting (hchosen.snoc hreceive hgive)
  | returned hchosen => exact .returned (hchosen.snoc hreceive hgive)

theorem Sound.step (h : Sound job actions s) (hmoves : Moves job s a s') :
    Sound job (actions ++ [a]) s' := by
  obtain ⟨worker, receiver, fired, put, cleaned⟩ := s
  obtain ⟨hworker, hreceiver⟩ := h
  cases hmoves with
  | work hw =>
    obtain rfl : worker = .working := hw
    refine ⟨?_, hreceiver.snoc (by decide) (by decide)⟩
    cases hworker with
    | working hnot =>
      have hnot' : .receive ∉ actions ++ [Action.work] := by simpa using hnot
      show WorkerSound job _ (job.result.elim .crashed .sending) []
      cases hresult : job.result with
      | none => exact .crashed hnot' hresult
      | some r => exact .sending hnot' hresult
  | @receive r hw hr =>
    obtain rfl : worker = .sending r := hw
    obtain rfl : receiver = .selecting := hr
    cases hreceiver with
    | selecting hnot hnever =>
      cases hworker with
      | sending _ hresult =>
        refine ⟨.cleaning (by simp) (List.nil_append _), .putting (.inl ⟨by simp, ?_, hresult⟩)⟩
        simpa using hnever
  | @clean c left hw =>
    obtain rfl : worker = .cleaning (c :: left) := hw
    refine ⟨?_, hreceiver.snoc (by decide) (by decide)⟩
    cases hworker with
    | cleaning hrec hleft => exact .cleaning (by simpa using hrec) (by simpa using hleft)
  | finish hw =>
    obtain rfl : worker = .cleaning [] := hw
    refine ⟨?_, hreceiver.snoc (by decide) (by decide)⟩
    cases hworker with
    | cleaning hrec hleft =>
      obtain rfl : cleaned = job.deferred.reverse := by simpa using hleft
      exact .finished (by simpa using hrec)
  | fire => exact ⟨hworker.snoc (by decide), hreceiver.snoc (by decide) (by decide)⟩
  | giveUp _ _ hr =>
    obtain rfl : receiver = .selecting := hr
    refine ⟨hworker.snoc (by decide), ?_⟩
    cases hreceiver with
    | selecting hnot _ => exact .putting (.inr ⟨by simp, by simpa using hnot, rfl⟩)
  | @put r _ hr =>
    obtain rfl : receiver = .putting r := hr
    refine ⟨hworker.snoc (by decide), ?_⟩
    cases hreceiver with
    | putting hchosen => exact .returned (hchosen.snoc (by decide) (by decide))

theorem sound_of_run (h : Run (handover job) {} actions s) : Sound job actions s := by
  refine h.invariant ⟨.working (by simp), .selecting (by simp) (by simp)⟩ ?_
  intro actions s₁ a s₂ hsound hstep
  exact hsound.step (moves_of_step hstep)

/-! ### The end of a run -/

/-- How many steps are left, at most. -/
def left (job : Job ρ κ) (s : State ρ κ) : Nat :=
  (match s.worker with
    | .working => job.deferred.length + 3
    | .sending _ => job.deferred.length + 2
    | .cleaning left => left.length + 1
    | .finished | .crashed => 0) +
  (match s.receiver with
    | .selecting => 2
    | .putting _ => 1
    | .returned => 0) +
  if s.fired then 0 else 1

theorem left_lt (h : Moves job s a s') : left job s' < left job s := by
  cases h with
  | work hw =>
    cases hresult : job.result <;> simp [left, hw]
  | receive hw hr => simp [left, hw, hr]
  | clean hw => simp [left, hw]
  | finish hw => simp [left, hw]
  | fire _ hf => simp [left, hf]
  | giveUp _ _ hr => simp [left, hr]
  | put _ hr => simp [left, hr]

/-- A run has three steps of each party at most, and one for each deferred action. -/
theorem length_le (h : Run (handover job) {} actions s) :
    actions.length ≤ job.deferred.length + 6 := by
  have hle := h.bounded (fun _ _ _ hstep => left_lt (moves_of_step hstep))
  have hstart : left job ({} : State ρ κ) = job.deferred.length + 6 := rfl
  omega

theorem put_of_run (h : Run (handover job) {} actions s) :
    s.put = [] ∨ ∃ r, s.put = [r] ∧ (job.result = some r ∨ r = job.late) := by
  obtain ⟨-, hreceiver⟩ := sound_of_run h
  generalize s.receiver = receiver, s.put = put at hreceiver
  cases hreceiver with
  | selecting => exact .inl rfl
  | putting => exact .inl rfl
  | returned hchosen =>
    rcases hchosen with ⟨-, -, hresult⟩ | ⟨-, -, hlate⟩
    · exact .inr ⟨_, rfl, .inl hresult⟩
    · exact .inr ⟨_, rfl, .inr hlate⟩

section
variable (hrun : Run (handover job) {} actions s) (hstuck : (handover job).Stuck s)
include hrun hstuck

theorem receiver_of_stuck (hrunning : s.halted = false) :
    ∃ r, s.put = [r] ∧ Chosen job actions r := by
  have hreceiver := (sound_of_run hrun).receiver
  cases hr : s.receiver with
  | selecting =>
    cases hfired : s.fired with
    | false => exact absurd (.fire hrunning hfired) (not_moves_of_stuck hstuck)
    | true => exact absurd (.giveUp hrunning hfired hr) (not_moves_of_stuck hstuck)
  | putting r => exact absurd (.put hrunning hr) (not_moves_of_stuck hstuck)
  | returned =>
    rw [hr] at hreceiver
    generalize s.put = put at hreceiver ⊢
    cases hreceiver with
    | returned hchosen => exact ⟨_, rfl, hchosen⟩

/-- A worker that has not crashed is finished, or still has its result in hand. -/
theorem worker_of_stuck (hrunning : s.halted = false) :
    (.receive ∈ actions ∧ s.worker = .finished ∧ s.cleaned = job.deferred.reverse) ∨
      (.receive ∉ actions ∧ ∃ r, s.worker = .sending r) := by
  have hworker := (sound_of_run hrun).worker
  cases hw : s.worker with
  | working => exact absurd (.work hw) (not_moves_of_stuck hstuck)
  | sending r =>
    rw [hw] at hworker
    generalize s.cleaned = cleaned at hworker
    cases hworker with
    | sending hnot _ => exact .inr ⟨hnot, r, rfl⟩
  | cleaning left =>
    cases left with
    | nil => exact absurd (.finish hw) (not_moves_of_stuck hstuck)
    | cons c left => exact absurd (.clean hw) (not_moves_of_stuck hstuck)
  | finished =>
    rw [hw] at hworker
    generalize s.cleaned = cleaned at hworker ⊢
    cases hworker with
    | finished hrec => exact .inl ⟨hrec, rfl, rfl⟩
  | crashed => simp [State.halted, hw] at hrunning

end

theorem running_of_result (h : Sound job actions s) (hresult : job.result ≠ none) :
    s.halted = false := by
  have hworker := h.worker
  unfold State.halted
  generalize s.worker = worker, s.cleaned = cleaned at hworker
  cases hworker with
  | crashed _ hnone => exact absurd hnone hresult
  | _ => rfl

/-- Without a crash a run puts one thing. -/
theorem put_of_stuck (hrun : Run (handover job) {} actions s) (hstuck : (handover job).Stuck s)
    (hresult : job.result ≠ none) :
    ∃ r, s.put = [r] ∧ (job.result = some r ∨ r = job.late) := by
  obtain ⟨r, hput, hchosen⟩ :=
    receiver_of_stuck hrun hstuck (running_of_result (sound_of_run hrun) hresult)
  rcases hchosen with ⟨-, -, hsome⟩ | ⟨-, -, hlate⟩
  · exact ⟨r, hput, .inl hsome⟩
  · exact ⟨r, hput, .inr hlate⟩

/-- The worker has come to its end, with all that it deferred, exactly if it does not crash
and the receiver has not given up. -/
theorem finished_iff (hrun : Run (handover job) {} actions s) (hstuck : (handover job).Stuck s) :
    (s.worker = .finished ∧ s.cleaned = job.deferred.reverse) ↔
      job.result ≠ none ∧ .giveUp ∉ actions := by
  have hsound := sound_of_run hrun
  constructor
  · rintro ⟨hw, -⟩
    have hrunning : s.halted = false := by simp [State.halted, hw]
    obtain ⟨r, -, hchosen⟩ := receiver_of_stuck hrun hstuck hrunning
    rcases worker_of_stuck hrun hstuck hrunning with ⟨hrec, -, -⟩ | ⟨-, r, hsending⟩
    · rcases hchosen with ⟨-, hnever, hsome⟩ | ⟨-, hnot, -⟩
      · exact ⟨by simp [hsome], hnever⟩
      · exact absurd hrec hnot
    · rw [hw] at hsending
      cases hsending
  · rintro ⟨hresult, hnever⟩
    have hrunning := running_of_result hsound hresult
    obtain ⟨r, -, hchosen⟩ := receiver_of_stuck hrun hstuck hrunning
    rcases hchosen with ⟨hrec, -, -⟩ | ⟨hgave, -, -⟩
    · rcases worker_of_stuck hrun hstuck hrunning with ⟨-, hw, hcleaned⟩ | ⟨hnot, -⟩
      · exact ⟨hw, hcleaned⟩
      · exact absurd hrec hnot
    · exact absurd hgave hnever

/-! ### The two ends -/

theorem run_received {r : ρ} (hresult : job.result = some r) :
    Run (handover job) {} [.work, .receive, .put]
      { worker := .cleaning job.deferred.reverse, receiver := .returned, put := [r] } := by
  apply Run.of_execute
  simp [System.execute, handover, step, State.halted, hresult]

theorem run_late :
    Run (handover job) {} [.fire, .giveUp, .put]
      { receiver := .returned, fired := true, put := [job.late] } :=
  Run.of_execute rfl

theorem run_clean {receiver : Receiver ρ} {fired : Bool} {put : List ρ} {left : List κ}
    {cleaned : List κ}
    (h : Run (handover job) s actions ⟨.cleaning left, receiver, fired, put, cleaned⟩) :
    Run (handover job) s (actions ++ List.replicate (left.length + 1) .clean)
      ⟨.finished, receiver, fired, put, cleaned ++ left⟩ := by
  induction left generalizing actions cleaned with
  | nil =>
    rw [List.append_nil]
    exact h.snoc rfl
  | cons c left ih =>
    have hnext := ih (h.snoc (a := .clean) rfl)
    rw [List.append_assoc, List.singleton_append, List.append_assoc] at hnext
    exact hnext

/-- The result is received, and the timer fires when all is done. -/
theorem exists_run_received {r : ρ} (hresult : job.result = some r) :
    ∃ actions s, Run (handover job) {} actions s ∧ (handover job).Stuck s ∧
      .giveUp ∉ actions ∧ s.put = [r] := by
  refine ⟨_, _, (run_clean (run_received hresult)).snoc (a := .fire) rfl, ?_, ?_, rfl⟩
  · intro a
    cases a <;> rfl
  · simp

/-- The timer is chosen before the worker can send, and it never will. -/
theorem exists_run_late {r : ρ} (hresult : job.result = some r) :
    ∃ actions s, Run (handover job) {} actions s ∧ (handover job).Stuck s ∧
      s.put = [job.late] ∧ s.worker = .sending r ∧ s.cleaned = [] := by
  refine ⟨_, _, run_late.snoc (a := .work) rfl, ?_, rfl, ?_, rfl⟩
  · intro a
    cases a <;> simp [handover, step, hresult, State.halted]
  · simp [hresult]

end Handover
