import QuotientScoring.Lib.Transition
import QuotientScoring.Runner.HandleTask

/-! The attempt loop, step by step.

`handleTask` is the result of the loop, given what it sees of each attempt. Here the clock
runs, and the attempts deliver when they like: each puts one result on `resultsChan`, which
holds one, and the loop takes what it finds there or goes on once the deadline has come.
All attempts share the channel, and the test after each asks whether the deadline is past
where the wait has asked whether it has come.

At the deadline the loop may therefore start another attempt, which takes the result an earlier
one left behind; a wait that has both a result and the deadline may end with either; the
first attempt is started however late it is, and another however long after the test
(`handle_task_misreports`). In a run without these the result pushed is that of the last
attempt: `handle_task_reports`. -/
namespace QuotientScoring.Runner
open DB Engine Transition

/-! ### The loop -/

/-- What the `Run` of an attempt has put on the channel, and when. -/
structure Delivery where
  attempt : Nat
  result : Result
  time : Int
deriving DecidableEq, Repr

inductive LoopPhase where
  | starting
  | waiting
  | testing
  | leaving
  | pushed
deriving DecidableEq, Repr

/-- When an attempt was started, and whether a success had been received by then. -/
structure Start where
  time : Int
  afterSuccess : Bool
deriving DecidableEq, Repr

/-- What `handleTask` goes by. Below `reported`, which is what the last wait ended with, the record
of what it did: the attempts started, those seen to their end, and the number of its steps. -/
structure Handler where
  phase : LoopPhase
  result : Result
  pushed : List Result := []
  reported : Option Result := none
  starts : List Start := []
  seen : List Attempt := []
  steps : Nat := 0
deriving DecidableEq, Repr

/-- A call of `handleTask`, the clock, and all that the attempts have delivered. -/
structure TaskRun where
  now : Int
  handler : Handler
  resultsChan : Option Delivery := none
  delivered : List Delivery := []
deriving DecidableEq, Repr

inductive TaskStep where
  | tick (elapsed : Nat)
  | deliver (attempt : Nat) (result : Result)
  | start
  | take (d : Delivery)
  /-- The context of the attempt is done. -/
  | expire
  | test
  | push
deriving DecidableEq, Repr

/-- A step of `handleTask` itself. -/
def TaskStep.own : TaskStep → Bool
  | .tick _ | .deliver _ _ => false
  | .start | .take _ | .expire | .test | .push => true

/-- The loop, for another attempt or behind the last. -/
def nextAttempt (task : Task) (started : Nat) : LoopPhase :=
  if started < task.attempts.toNat then .starting else .leaving

namespace Handler
variable (task : Task) (h : Handler) (now : Int)

def init : Handler where
  phase := nextAttempt task 0
  result := initialResult task

def start : Handler :=
  { h with
    phase := .waiting
    starts := h.starts ++ [⟨now, h.result.status⟩]
    steps := h.steps + 1 }

/-- The wait ends with what was reported, or with the deadline. -/
def receive (reported : Option Result) : Handler :=
  { h with
    phase := .testing
    result := received task h.result ⟨reported, false⟩
    reported := reported
    steps := h.steps + 1 }

def test : Handler :=
  let afterDeadline := decide (task.deadline < now)
  { h with
    phase :=
      if h.result.status || afterDeadline then .leaving else nextAttempt task h.starts.length
    seen := h.seen ++ [⟨h.reported, afterDeadline⟩]
    steps := h.steps + 1 }

def push : Handler :=
  {h with phase := .pushed, pushed := h.pushed ++ [h.result], steps := h.steps + 1}

end Handler

namespace TaskRun
variable (task : Task) (s : TaskRun)

def Enabled : TaskStep → Prop
  | .tick _ => True
  | .deliver attempt _ =>
    attempt < s.handler.starts.length ∧ s.resultsChan = none ∧
      ∀ d ∈ s.delivered, d.attempt ≠ attempt
  | .start => s.handler.phase = .starting
  | .take d => s.handler.phase = .waiting ∧ s.resultsChan = some d
  | .expire => s.handler.phase = .waiting ∧ task.deadline ≤ s.now
  | .test => s.handler.phase = .testing
  | .push => s.handler.phase = .leaving

instance : (a : TaskStep) → Decidable (s.Enabled task a)
  | .tick _ => inferInstanceAs (Decidable True)
  | .deliver _ _ => inferInstanceAs (Decidable (_ ∧ _ ∧ _))
  | .start | .test | .push => inferInstanceAs (Decidable (_ = _))
  | .take _ | .expire => inferInstanceAs (Decidable (_ ∧ _))

def next : TaskStep → TaskRun
  | .tick elapsed => {s with now := s.now + elapsed}
  | .deliver attempt result =>
    let d : Delivery := ⟨attempt, result, s.now⟩
    {s with resultsChan := some d, delivered := s.delivered ++ [d]}
  | .start => {s with handler := s.handler.start s.now}
  | .take d => {s with handler := s.handler.receive task (some d.result), resultsChan := none}
  | .expire => {s with handler := s.handler.receive task none}
  | .test => {s with handler := s.handler.test task s.now}
  | .push => {s with handler := s.handler.push}

end TaskRun

def taskRun (task : Task) : System TaskRun TaskStep where
  initial s := s = {now := s.now, handler := .init task}
  step s a := if s.Enabled task a then some (s.next task a) else none

/-- The task is not picked up late, the deadline does not come to pass between the test after an
attempt and the start of the next, and no wait ends when it could end both with the deadline and
with a success. -/
def Timely (task : Task) (s : TaskRun) : TaskStep → Prop
  | .start => s.handler.starts = [] → s.now ≤ task.deadline
  | .tick elapsed =>
    s.handler.phase = .starting → s.handler.starts ≠ [] → s.now + elapsed ≤ task.deadline
  | .take _ | .expire =>
    task.deadline ≤ s.now → ∀ d ∈ s.resultsChan, d.result.status = false
  | .deliver _ _ | .test | .push => True

instance (task : Task) (s : TaskRun) : (a : TaskStep) → Decidable (Timely task s a)
  | .start | .take _ | .expire => inferInstanceAs (Decidable (_ → _))
  | .tick _ => inferInstanceAs (Decidable (_ → _ → _))
  | .deliver _ _ | .test | .push => inferInstanceAs (Decidable True)

/-! ### What the loop keeps -/

/-- How many steps an attempt has left at most, with the push behind it. -/
def LoopPhase.left : LoopPhase → Nat
  | .waiting => 3
  | .testing => 2
  | .starting | .leaving => 1
  | .pushed => 0

/-- An attempt is on its way. -/
def LoopPhase.pending : LoopPhase → Nat
  | .waiting | .testing => 1
  | .starting | .leaving | .pushed => 0

namespace Handler
variable {task : Task} {h : Handler}

/-- What is left of `attempt` where the loop is, given what has been seen. -/
def Agrees (task : Task) (h : Handler) : Prop :=
  match h.phase with
  | .starting | .waiting => ∀ more,
    attempt task (initialResult task) (h.seen ++ more) = attempt task h.result more
  | .testing => ∀ after more,
    attempt task (initialResult task) (h.seen ++ ⟨h.reported, after⟩ :: more) =
      if h.result.status || after then h.result else attempt task h.result more
  | .leaving | .pushed => attempt task (initialResult task) h.seen = h.result

structure Kept (task : Task) (h : Handler) : Prop where
  atMost : h.starts.length ≤ task.attempts.toNat
  more : h.phase = .starting → h.starts.length < task.attempts.toNat
  fresh : ∀ st ∈ h.starts, st.afterSuccess = false
  failed : h.phase = .starting ∨ h.phase = .waiting → h.result.status = false
  named : identify task h.result = h.result
  pushed : h.pushed = if h.phase = .pushed then [h.result] else []
  steps : h.steps + h.phase.left = 3 * h.starts.length + 1
  seen : h.seen.length + h.phase.pending = h.starts.length
  agrees : h.Agrees task

theorem identify_received (task : Task) (result : Result) (a : Attempt) :
    identify task (received task result a) = received task result a := by
  unfold received
  cases a.reported <;> rfl

/-- Between two attempts, or behind the last, no step is left but one. -/
theorem left_of_between {p : LoopPhase} (h : p = .starting ∨ p = .leaving) :
    p.left = 1 ∧ p.pending = 0 ∧ p ≠ .waiting ∧ p ≠ .pushed := by
  rcases h with rfl | rfl <;> decide

theorem nextAttempt_cases (task : Task) (started : Nat) :
    (nextAttempt task started = .starting ∧ started < task.attempts.toNat) ∨
      nextAttempt task started = .leaving := by
  unfold nextAttempt
  split
  · exact .inl ⟨rfl, ‹_›⟩
  · exact .inr rfl

theorem kept_init : Kept task (init task) := by
  have hphase := nextAttempt_cases task 0
  obtain ⟨hleft, hpending, -, hunpushed⟩ := left_of_between (hphase.imp_left And.left)
  exact
    { atMost := Nat.zero_le _
      more := fun hstart => by
        rcases hphase with ⟨-, hlt⟩ | hleaving
        · exact hlt
        · rw [show (init task).phase = .leaving from hleaving] at hstart
          cases hstart
      fresh := fun st hst => by cases hst
      failed := fun _ => rfl
      named := rfl
      pushed := (if_neg hunpushed).symm
      steps := by
        show 0 + (nextAttempt task 0).left = 3 * 0 + 1
        rw [hleft]
      seen := by
        show 0 + (nextAttempt task 0).pending = 0
        rw [hpending]
      agrees := by
        rcases hphase with ⟨hstarting, -⟩ | hleaving
        · simp [Agrees, init, hstarting]
        · simp [Agrees, init, hleaving, attempt] }

theorem Kept.start (hkept : Kept task h) (hphase : h.phase = .starting) (now : Int) :
    Kept task (h.start now) where
  atMost := by
    have := hkept.more hphase
    simp only [Handler.start, List.length_append, List.length_singleton]
    omega
  more hstart := by cases hstart
  fresh st hst := by
    rcases List.mem_append.mp hst with hst | hst
    · exact hkept.fresh st hst
    · rw [List.mem_singleton.mp hst]
      exact hkept.failed (.inl hphase)
  failed _ := hkept.failed (.inl hphase)
  named := hkept.named
  pushed := by simpa [Handler.start, hphase] using hkept.pushed
  steps := by
    have := hkept.steps
    simp only [Handler.start, hphase, LoopPhase.left, List.length_append,
      List.length_singleton] at this ⊢
    omega
  seen := by simpa [Handler.start, hphase, LoopPhase.pending] using hkept.seen
  agrees := by simpa [Agrees, Handler.start, hphase] using hkept.agrees

theorem Kept.receive (hkept : Kept task h) (hphase : h.phase = .waiting)
    (reported : Option Result) : Kept task (h.receive task reported) where
  atMost := hkept.atMost
  more hstart := by cases hstart
  fresh := hkept.fresh
  failed hfailed := by rcases hfailed with hfailed | hfailed <;> cases hfailed
  named := identify_received ..
  pushed := by simpa [Handler.receive, hphase] using hkept.pushed
  steps := by
    have := hkept.steps
    simp only [Handler.receive, hphase, LoopPhase.left] at this ⊢
    omega
  seen := by simpa [Handler.receive, hphase, LoopPhase.pending] using hkept.seen
  agrees := by
    have hagrees := hkept.agrees
    simp only [Agrees, hphase] at hagrees
    intro after more
    show attempt task (initialResult task) (h.seen ++ ⟨reported, after⟩ :: more) = _
    rw [hagrees, attempt]
    rfl

/-- The loop goes on after a failure before the deadline, if there are attempts left. -/
theorem test_phase (task : Task) (h : Handler) (now : Int) :
    ((h.test task now).phase = .starting ∧ h.starts.length < task.attempts.toNat ∧
        (h.result.status || decide (task.deadline < now)) = false) ∨
      (h.test task now).phase = .leaving := by
  simp only [test]
  split
  · exact .inr rfl
  · rename_i hgo
    rcases nextAttempt_cases task h.starts.length with ⟨hphase, hlt⟩ | hphase
    · exact .inl ⟨hphase, hlt, Bool.eq_false_iff.mpr hgo⟩
    · exact .inr hphase

/-- What has been seen with the attempt tested decides whether the loop goes on. -/
theorem Kept.attempt_test (hkept : Kept task h) (hphase : h.phase = .testing) (now : Int)
    (more : List Attempt) :
    attempt task (initialResult task) ((h.test task now).seen ++ more) =
      if h.result.status || decide (task.deadline < now) then h.result
      else attempt task h.result more := by
  have hagrees := hkept.agrees
  simp only [Agrees, hphase] at hagrees
  show attempt task _ ((h.seen ++ [_]) ++ more) = _
  rw [List.append_assoc, List.singleton_append, hagrees]

theorem Kept.test (hkept : Kept task h) (hphase : h.phase = .testing) (now : Int) :
    Kept task (h.test task now) := by
  have hnext := test_phase task h now
  obtain ⟨hleft, hpending, -, hunpushed⟩ := left_of_between (hnext.imp_left And.left)
  have hagrees := hkept.attempt_test hphase now
  exact
    { atMost := hkept.atMost
      more := fun hstart => by
        rcases hnext with ⟨-, hlt, -⟩ | hleaving
        · exact hlt
        · simp [hleaving] at hstart
      fresh := hkept.fresh
      failed := fun hfailed => by
        rcases hnext with ⟨-, -, hgo⟩ | hleaving
        · exact (Bool.or_eq_false_iff.mp hgo).1
        · simp [hleaving] at hfailed
      named := hkept.named
      pushed := by
        rw [if_neg hunpushed]
        show h.pushed = []
        simpa [hphase] using hkept.pushed
      steps := by
        have hsteps := hkept.steps
        simp only [hphase, LoopPhase.left] at hsteps
        show h.steps + 1 + (h.test task now).phase.left = 3 * h.starts.length + 1
        rw [hleft]
        omega
      seen := by
        rw [hpending]
        simpa [Handler.test, hphase, LoopPhase.pending] using hkept.seen
      agrees := by
        rcases hnext with ⟨hstarting, -, hgo⟩ | hleaving
        · rw [Agrees, hstarting]
          intro more
          rw [hagrees, hgo]
          rfl
        · have hend := hagrees []
          rw [List.append_nil, attempt, ite_self] at hend
          rw [Agrees, hleaving]
          exact hend }

theorem Kept.push (hkept : Kept task h) (hphase : h.phase = .leaving) : Kept task h.push where
  atMost := hkept.atMost
  more hstart := by cases hstart
  fresh := hkept.fresh
  failed hfailed := by rcases hfailed with hfailed | hfailed <;> cases hfailed
  named := hkept.named
  pushed := by
    have hpushed : h.pushed = [] := by simpa [hphase] using hkept.pushed
    simp [Handler.push, hpushed]
  steps := by simpa [Handler.push, hphase, LoopPhase.left] using hkept.steps
  seen := by simpa [Handler.push, hphase, LoopPhase.pending] using hkept.seen
  agrees := by simpa [Agrees, Handler.push, hphase] using hkept.agrees

end Handler

/-! ### What the attempts deliver -/

namespace TaskRun
variable {task : Task} {s s' : TaskRun} {a : TaskStep}

/-- It is the last attempt started, and the loop waits for it. -/
def Awaits (s : TaskRun) (attempt : Nat) : Prop :=
  s.handler.phase = .waiting ∧ attempt + 1 = s.handler.starts.length

/-- The channel and the deliveries. Before the deadline, a wait ends only with a result, so that
nothing an earlier attempt delivers is left. -/
structure Posted (task : Task) (s : TaskRun) : Prop where
  inChan : ∀ d ∈ s.resultsChan, d ∈ s.delivered
  started : ∀ d ∈ s.delivered, d.attempt < s.handler.starts.length
  past : ∀ d ∈ s.delivered, d.time ≤ s.now
  once : ∀ d ∈ s.delivered, ∀ d' ∈ s.delivered, d.attempt = d'.attempt → d = d'
  own : ∀ d ∈ s.delivered, s.Awaits d.attempt → d ∈ s.resultsChan
  heard : s.now < task.deadline → ∀ attempt < s.handler.starts.length,
    ¬s.Awaits attempt → ∃ d ∈ s.delivered, d.attempt = attempt
  fresh : s.now < task.deadline → ∀ d ∈ s.resultsChan, s.Awaits d.attempt

theorem Posted.tick (h : Posted task s) (elapsed : Nat) :
    Posted task {s with now := s.now + elapsed} := by
  have hbefore : s.now + elapsed < task.deadline → s.now < task.deadline := by omega
  exact
    { inChan := h.inChan
      started := h.started
      past := fun d hd => le_trans (h.past d hd) (by show s.now ≤ s.now + elapsed; omega)
      once := h.once
      own := h.own
      heard := fun hlt => h.heard (hbefore hlt)
      fresh := fun hlt => h.fresh (hbefore hlt) }

theorem Posted.deliver (h : Posted task s) {i : Nat} (hi : i < s.handler.starts.length)
    (hnone : s.resultsChan = none) (hnew : ∀ d ∈ s.delivered, d.attempt ≠ i) (result : Result) :
    Posted task (s.next task (.deliver i result)) where
  inChan d hd := by
    rw [← Option.mem_some.mp hd]
    exact List.mem_append_right _ (List.mem_singleton_self _)
  started d hd := by
    rcases List.mem_append.mp hd with hd | hd
    · exact h.started d hd
    · rw [List.mem_singleton.mp hd]
      exact hi
  past d hd := by
    rcases List.mem_append.mp hd with hd | hd
    · exact h.past d hd
    · rw [List.mem_singleton.mp hd]
      exact le_refl s.now
  once d hd d' hd' heq := by
    rcases List.mem_append.mp hd with hd | hd <;> rcases List.mem_append.mp hd' with hd' | hd'
    · exact h.once d hd d' hd' heq
    · rw [List.mem_singleton.mp hd'] at heq
      exact absurd heq (hnew d hd)
    · rw [List.mem_singleton.mp hd] at heq
      exact absurd heq.symm (hnew d' hd')
    · rw [List.mem_singleton.mp hd, List.mem_singleton.mp hd']
  own d hd hawaits := by
    rcases List.mem_append.mp hd with hd | hd
    · have hin := h.own d hd hawaits
      simp [hnone] at hin
    · rw [List.mem_singleton.mp hd]
      exact Option.mem_some_self _
  heard hlt attempt hattempt hnot := by
    obtain ⟨d, hd, heq⟩ := h.heard hlt attempt hattempt hnot
    exact ⟨d, List.mem_append_left _ hd, heq⟩
  fresh hlt d hd := by
    rw [← Option.mem_some.mp hd]
    by_contra hnot
    obtain ⟨d', hd', heq⟩ := h.heard hlt i hi hnot
    exact hnew d' hd' heq

theorem Posted.start (h : Posted task s) (hphase : s.handler.phase = .starting) :
    Posted task (s.next task .start) := by
  have hlength : (s.handler.start s.now).starts.length = s.handler.starts.length + 1 := by
    simp [Handler.start]
  have hidle : ∀ attempt, ¬s.Awaits attempt := by simp [Awaits, hphase]
  exact
    { inChan := h.inChan
      started := fun d hd => by
        show d.attempt < (s.handler.start s.now).starts.length
        have := h.started d hd
        omega
      past := h.past
      once := h.once
      own := fun d hd hawaits => by
        have := h.started d hd
        have := hawaits.2
        simp only [next, hlength] at this
        omega
      heard := fun hlt attempt hattempt hnot => by
        simp only [next, hlength] at hattempt
        refine h.heard hlt attempt ?_ (hidle attempt)
        by_contra hge
        exact hnot ⟨rfl, by simp only [next, hlength]; omega⟩
      fresh := fun hlt d hd => absurd (h.fresh hlt d hd) (hidle _) }

theorem Posted.take (h : Posted task s) {d : Delivery} (hchan : s.resultsChan = some d) :
    Posted task (s.next task (.take d)) where
  inChan d' hd' := by cases hd'
  started := h.started
  past := h.past
  once := h.once
  own d' _ hawaits := by cases hawaits.1
  heard hlt attempt hattempt _ := by
    by_cases hawaits : s.Awaits attempt
    · have hd := h.fresh hlt d hchan
      refine ⟨d, h.inChan d hchan, ?_⟩
      have := hd.2
      have := hawaits.2
      omega
    · exact h.heard hlt attempt hattempt hawaits
  fresh _ d' hd' := by cases hd'

theorem Posted.expire (h : Posted task s) (hdeadline : task.deadline ≤ s.now) :
    Posted task (s.next task .expire) where
  inChan := h.inChan
  started := h.started
  past := h.past
  once := h.once
  own _ _ hawaits := by cases hawaits.1
  heard hlt := absurd hlt (Int.not_lt.mpr hdeadline)
  fresh hlt := absurd hlt (Int.not_lt.mpr hdeadline)

/-- Between two waits, nothing is delivered that anyone takes. -/
theorem Posted.between (h : Posted task s) {handler : Handler}
    (hstarts : handler.starts = s.handler.starts) (hbefore : s.handler.phase ≠ .waiting)
    (hafter : handler.phase ≠ .waiting) : Posted task {s with handler := handler} where
  inChan := h.inChan
  started d hd := by
    show d.attempt < handler.starts.length
    rw [hstarts]
    exact h.started d hd
  past := h.past
  once := h.once
  own _ _ hawaits := absurd hawaits.1 hafter
  heard hlt attempt hattempt _ := by
    rw [show ({s with handler := handler} : TaskRun).handler.starts = _ from hstarts] at hattempt
    exact h.heard hlt attempt hattempt (fun hawaits => hbefore hawaits.1)
  fresh hlt d hd := absurd (h.fresh hlt d hd).1 hbefore

/-- What holds of a call of `handleTask` whatever happens. -/
structure Sound (task : Task) (s : TaskRun) : Prop where
  kept : s.handler.Kept task
  posted : Posted task s

theorem Sound.next (h : Sound task s) (henabled : s.Enabled task a) :
    Sound task (s.next task a) := by
  obtain ⟨hkept, hposted⟩ := h
  cases a with
  | tick elapsed => exact ⟨hkept, hposted.tick elapsed⟩
  | deliver i result =>
    obtain ⟨hi, hnone, hnew⟩ := henabled
    exact ⟨hkept, hposted.deliver hi hnone hnew result⟩
  | start => exact ⟨hkept.start henabled s.now, hposted.start henabled⟩
  | take d => exact ⟨hkept.receive henabled.1 _, hposted.take henabled.2⟩
  | expire => exact ⟨hkept.receive henabled.1 _, hposted.expire henabled.2⟩
  | test =>
    have hphase : s.handler.phase = .testing := henabled
    have hnext := Handler.test_phase task s.handler s.now
    exact ⟨hkept.test hphase s.now, hposted.between rfl (by simp [hphase])
      (Handler.left_of_between (hnext.imp_left And.left)).2.2.1⟩
  | push =>
    have hphase : s.handler.phase = .leaving := henabled
    exact ⟨hkept.push hphase, hposted.between rfl (by simp [hphase]) (by simp [Handler.push])⟩

theorem step_eq_some {s'} :
    (taskRun task).step s a = some s' ↔ s.Enabled task a ∧ s.next task a = s' := by
  simp [taskRun]

theorem sound_initial (h : (taskRun task).initial s) : Sound task s := by
  rw [show s = {now := s.now, handler := .init task} from h]
  exact
    { kept := Handler.kept_init
      posted :=
        { inChan := fun d hd => by cases hd
          started := fun d hd => by cases hd
          past := fun d hd => by cases hd
          once := fun d hd => by cases hd
          own := fun d hd => by cases hd
          heard := fun _ attempt hattempt => by cases hattempt
          fresh := fun _ d hd => by cases hd } }

theorem sound_of_reachable {G : TaskRun → TaskStep → Prop} (h : Reachable (taskRun task) G s) :
    Sound task s := by
  refine h.invariant (fun _ => sound_initial) ?_
  intro s a s' hsound _ hstep
  obtain ⟨henabled, rfl⟩ := step_eq_some.mp hstep
  exact hsound.next henabled

/-- The result pushed is that of `handleTask`, given what the loop has seen. -/
theorem pushed_eq_handleTask {G : TaskRun → TaskStep → Prop} (h : Reachable (taskRun task) G s)
    (hphase : s.handler.phase = .pushed) : s.handler.pushed = [handleTask task s.handler.seen] := by
  have hkept := (sound_of_reachable h).kept
  have hagrees := hkept.agrees
  simp only [Handler.Agrees, hphase] at hagrees
  have hseen := hkept.seen
  have hle := hkept.atMost
  simp only [hphase, LoopPhase.pending] at hseen
  have htake : s.handler.seen.take task.attempts.toNat = s.handler.seen :=
    List.take_of_length_le (by omega)
  rw [hkept.pushed, if_pos hphase, handleTask, htake, hagrees]

/-! ### Runs without a race -/

/-- The attempt started last has delivered a success before the deadline. -/
def Succeeded (task : Task) (s : TaskRun) : Prop :=
  ∃ d ∈ s.delivered, d.attempt + 1 = s.handler.starts.length ∧ d.result.status = true ∧
    d.time < task.deadline

instance : Decidable (s.Succeeded task) :=
  inferInstanceAs (Decidable (∃ d ∈ _, _ ∧ _ ∧ _))

/-- The result so far is that of the attempt started last, once its wait is over. -/
structure Told (task : Task) (s : TaskRun) : Prop where
  inTime : ∀ st ∈ s.handler.starts, st.time ≤ task.deadline
  /-- The test after an attempt lets another follow before the deadline only. -/
  goingOn : s.handler.phase = .starting → s.handler.starts ≠ [] → s.now ≤ task.deadline
  success : s.handler.result.status = true → s.Succeeded task
  failure : s.handler.phase ≠ .waiting → s.handler.result.status = false → ¬s.Succeeded task

theorem Told.deliver (h : Told task s) (hposted : Posted task s) {i : Nat}
    (hi : i < s.handler.starts.length) (hnew : ∀ d ∈ s.delivered, d.attempt ≠ i)
    (result : Result) : Told task (s.next task (.deliver i result)) where
  inTime := h.inTime
  goingOn := h.goingOn
  success hstatus := by
    obtain ⟨d, hd, hown⟩ := h.success hstatus
    exact ⟨d, List.mem_append_left _ hd, hown⟩
  failure hphase hstatus := by
    rintro ⟨d, hd, hlast, hsuccess, htime⟩
    rcases List.mem_append.mp hd with hd | hd
    · exact h.failure hphase hstatus ⟨d, hd, hlast, hsuccess, htime⟩
    · -- An attempt that has not delivered when its wait is over delivers after the deadline.
      rw [List.mem_singleton.mp hd] at htime
      obtain ⟨d', hd', heq⟩ := hposted.heard htime i hi (fun hawaits => hphase hawaits.1)
      exact hnew d' hd' heq

theorem Told.start (h : Told task s) (hphase : s.handler.phase = .starting)
    (hfailed : s.handler.result.status = false) (htimely : Timely task s .start) :
    Told task (s.next task .start) where
  inTime st hst := by
    rcases List.mem_append.mp hst with hst | hst
    · exact h.inTime st hst
    · rw [List.mem_singleton.mp hst]
      by_cases hfirst : s.handler.starts = []
      · exact htimely hfirst
      · exact h.goingOn hphase hfirst
  goingOn hstart := by cases hstart
  success hstatus := by
    rw [show (s.next task .start).handler.result = s.handler.result from rfl, hfailed] at hstatus
    cases hstatus
  failure hphase := absurd rfl hphase

/-- A success that is taken comes before the deadline, and then from the attempt waited for. -/
theorem Told.take (h : Told task s) (hposted : Posted task s) {d : Delivery}
    (hphase : s.handler.phase = .waiting) (hchan : s.resultsChan = some d)
    (htimely : Timely task s (.take d)) : Told task (s.next task (.take d)) where
  inTime := h.inTime
  goingOn hstart := by cases hstart
  success hstatus := by
    have hsuccess : d.result.status = true := hstatus
    have hbefore : s.now < task.deadline := by
      by_contra hge
      have hfailed := htimely (Int.not_lt.mp hge) d hchan
      rw [hsuccess] at hfailed
      cases hfailed
    have hd := hposted.inChan d hchan
    exact ⟨d, hd, (hposted.fresh hbefore d hchan).2, hsuccess,
      lt_of_le_of_lt (hposted.past d hd) hbefore⟩
  failure _ hstatus := by
    rintro ⟨d', hd', hlast, hsuccess, -⟩
    have hin := hposted.own d' hd' ⟨hphase, hlast⟩
    rw [hchan] at hin
    have hfailed : d.result.status = false := hstatus
    rw [Option.mem_some.mp hin, hsuccess] at hfailed
    cases hfailed

theorem Told.expire (h : Told task s) (hposted : Posted task s)
    (hphase : s.handler.phase = .waiting) (hdeadline : task.deadline ≤ s.now)
    (htimely : Timely task s .expire) : Told task (s.next task .expire) where
  inTime := h.inTime
  goingOn hstart := by cases hstart
  success hstatus := by cases hstatus
  failure _ _ := by
    rintro ⟨d, hd, hlast, hsuccess, -⟩
    have hfailed := htimely hdeadline d (hposted.own d hd ⟨hphase, hlast⟩)
    rw [hsuccess] at hfailed
    cases hfailed

theorem Told.tick (h : Told task s) {elapsed : Nat} (htimely : Timely task s (.tick elapsed)) :
    Told task (s.next task (.tick elapsed)) where
  inTime := h.inTime
  goingOn := htimely
  success := h.success
  failure := h.failure

/-- The loop goes on only where the clock has not passed the deadline. -/
theorem Told.test (h : Told task s) (hphase : s.handler.phase = .testing) :
    Told task (s.next task .test) where
  inTime := h.inTime
  goingOn hstart _ := by
    rcases Handler.test_phase task s.handler s.now with ⟨-, -, hgo⟩ | hleaving
    · exact Int.not_lt.mp (of_decide_eq_false (Bool.or_eq_false_iff.mp hgo).2)
    · rw [show (s.next task .test).handler.phase = .leaving from hleaving] at hstart
      cases hstart
  success := h.success
  failure _ := h.failure (by simp [hphase])

theorem Told.next (h : Told task s) (hsound : Sound task s) (henabled : s.Enabled task a)
    (htimely : Timely task s a) : Told task (s.next task a) := by
  obtain ⟨hkept, hposted⟩ := hsound
  cases a with
  | tick elapsed => exact h.tick htimely
  | deliver i result => exact h.deliver hposted henabled.1 henabled.2.2 result
  | start => exact h.start henabled (hkept.failed (.inl henabled)) htimely
  | take d => exact h.take hposted henabled.1 henabled.2 htimely
  | expire => exact h.expire hposted henabled.1 henabled.2 htimely
  | test => exact h.test henabled
  | push =>
    have hphase : s.handler.phase = .leaving := henabled
    exact ⟨h.inTime, (fun hstart => nomatch hstart), h.success,
      fun _ => h.failure (by simp [hphase])⟩

theorem told_of_reachable (h : Reachable (taskRun task) (Timely task) s) : Told task s := by
  suffices hboth : Sound task s ∧ Told task s from hboth.2
  refine h.invariant (I := fun s => Sound task s ∧ Told task s) (fun s hinit => ?_) ?_
  · refine ⟨sound_initial hinit, ?_⟩
    rw [show s = {now := s.now, handler := .init task} from hinit]
    refine ⟨fun _ => List.not_mem_nil.elim, fun _ hne => absurd rfl hne,
      fun hstatus => Bool.noConfusion hstatus, fun _ _ => ?_⟩
    rintro ⟨d, hd, -⟩
    cases hd
  · intro s a s' ⟨hsound, htold⟩ htimely hstep
    obtain ⟨henabled, rfl⟩ := step_eq_some.mp hstep
    exact ⟨hsound.next henabled, htold.next hsound henabled htimely⟩

/-- What a call of `handleTask` owes: it starts so many attempts at most, none after a success or
after the deadline; once the deadline has come it goes on until it has pushed its result, in so
many steps; and that result has the names of the task, and the status of the last attempt. -/
structure Reports (task : Task) (s : TaskRun) : Prop where
  atMost : s.handler.starts.length ≤ task.attempts.toNat
  starts : ∀ st ∈ s.handler.starts, st.afterSuccess = false ∧ st.time ≤ task.deadline
  steps : s.handler.steps ≤ 3 * task.attempts.toNat + 1
  goesOn : s.handler.phase ≠ .pushed → task.deadline ≤ s.now →
    ∃ a : TaskStep, a.own = true ∧ s.Enabled task a
  unpushed : s.handler.phase ≠ .pushed → s.handler.pushed = []
  pushed : s.handler.phase = .pushed → ∃ result, s.handler.pushed = [result] ∧
    result.teamID = task.teamID ∧ result.serviceName = task.serviceName ∧
    result.serviceType = task.serviceType ∧ result.roundID = task.roundID ∧
    (result.status = true ↔ s.Succeeded task)

theorem exists_own_enabled (hphase : s.handler.phase ≠ .pushed) (hdeadline : task.deadline ≤ s.now) :
    ∃ a : TaskStep, a.own = true ∧ s.Enabled task a := by
  cases h : s.handler.phase with
  | starting => exact ⟨.start, rfl, h⟩
  | waiting => exact ⟨.expire, rfl, h, hdeadline⟩
  | testing => exact ⟨.test, rfl, h⟩
  | leaving => exact ⟨.push, rfl, h⟩
  | pushed => exact absurd h hphase

end TaskRun

/-- Of any number of attempts, delivering whatever and whenever, and under any clock: if the task is
not picked up after the deadline, the deadline does not pass between a test and the attempt that
follows, and no wait ends when there is both a success and the deadline, then no attempt is
started after the deadline, and the result is pushed, once, and is that of the last attempt. -/
theorem handle_task_reports {task : Task} {s : TaskRun}
    (h : Reachable (taskRun task) (Timely task) s) : s.Reports task := by
  obtain ⟨hkept, -⟩ := TaskRun.sound_of_reachable h
  have htold := TaskRun.told_of_reachable h
  have hsteps := hkept.steps
  have hle := hkept.atMost
  refine
    { atMost := hle
      starts := fun st hst => ⟨hkept.fresh st hst, htold.inTime st hst⟩
      steps := by omega
      goesOn := TaskRun.exists_own_enabled
      unpushed := fun hphase => by rw [hkept.pushed, if_neg hphase]
      pushed := fun hphase => ?_ }
  have hnamed := hkept.named
  refine ⟨s.handler.result, by rw [hkept.pushed, if_pos hphase], ?_, ?_, ?_, ?_, ?_⟩
  · rw [← hnamed]; rfl
  · rw [← hnamed]; rfl
  · rw [← hnamed]; rfl
  · rw [← hnamed]; rfl
  · constructor
    · exact htold.success
    · intro hsucceeded
      by_contra hstatus
      exact htold.failure (by simp [hphase]) (Bool.eq_false_iff.mpr hstatus) hsucceeded

/-- Two attempts, until the clock shows ten. -/
def twoAttempts : Task where
  teamID := 1
  teamIdentifier := []
  serviceType := []
  serviceName := []
  deadline := 10
  roundID := 7
  attempts := 2
  checkData := []
  credentials := []

def reporting (status : Bool) : Result := {initialResult twoAttempts with status := status}

/-- The task is picked up at a time. -/
def pickedUp (now : Int) : TaskRun where
  now := now
  handler := .init twoAttempts

/-- The first attempt fails at three, the second succeeds at seven. -/
theorem second_attempt_reported : ∃ s, Reachable (taskRun twoAttempts) (Timely twoAttempts) s ∧
    s.handler.phase = .pushed ∧ ∃ result, s.handler.pushed = [result] ∧ result.status = true := by
  obtain ⟨s, hreach, hphase, hsucceeded⟩ := Reachable.exists_of_replay (S := taskRun twoAttempts)
    (G := Timely twoAttempts)
    (fun s => s.handler.phase = .pushed ∧ s.Succeeded twoAttempts) (pickedUp 0)
    [ .start, .tick 3, .deliver 0 (reporting false), .take ⟨0, reporting false, 3⟩, .test,
      .start, .tick 4, .deliver 1 (reporting true), .take ⟨1, reporting true, 7⟩, .test, .push ]
    rfl (by decide)
  obtain ⟨result, hpushed, -, -, -, -, hstatus⟩ := (handle_task_reports hreach).pushed hphase
  exact ⟨s, hreach, hphase, result, hpushed, hstatus.mpr hsucceeded⟩

/-- The wait for the first attempt ends at the deadline, and so another is started, which takes what
the first then delivers; a success is there in time, and the deadline is preferred; a task
is picked up after its deadline, and attempted. -/
theorem handle_task_misreports :
    (∃ s, Reachable (taskRun twoAttempts) (fun _ _ => True) s ∧ s.handler.phase = .pushed ∧
      s.handler.result.status = true ∧ ¬s.Succeeded twoAttempts) ∧
    (∃ s, Reachable (taskRun twoAttempts) (fun _ _ => True) s ∧ s.handler.phase = .pushed ∧
      s.handler.result.status = false ∧ s.Succeeded twoAttempts) ∧
    ∃ s, Reachable (taskRun twoAttempts) (fun _ _ => True) s ∧
      ∃ st ∈ s.handler.starts, twoAttempts.deadline < st.time := by
  refine ⟨?_, ?_, ?_⟩
  · exact Reachable.exists_of_replay (S := taskRun twoAttempts) (G := fun _ _ => True)
      (fun s => s.handler.phase = .pushed ∧ s.handler.result.status = true ∧
        ¬s.Succeeded twoAttempts) (pickedUp 0)
      [ .start, .tick 10, .expire, .test, .deliver 0 (reporting true), .start,
        .take ⟨0, reporting true, 10⟩, .test, .push ]
      rfl (by decide)
  · exact Reachable.exists_of_replay (S := taskRun twoAttempts) (G := fun _ _ => True)
      (fun s => s.handler.phase = .pushed ∧ s.handler.result.status = false ∧
        s.Succeeded twoAttempts) (pickedUp 0)
      [.start, .deliver 0 (reporting true), .tick 11, .expire, .test, .push]
      rfl (by decide)
  · exact Reachable.exists_of_replay (S := taskRun twoAttempts) (G := fun _ _ => True)
      (fun s => ∃ st ∈ s.handler.starts, twoAttempts.deadline < st.time) (pickedUp 20)
      [.start] rfl (by decide)

end QuotientScoring.Runner
