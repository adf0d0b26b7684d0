import QuotientScoring.Lib.Expiring
import QuotientScoring.Lib.Transition
import QuotientScoring.Runner.HandleTask
import QuotientScoring.Runner.Reports
import QuotientScoring.Runner.TaskKeys

/-! What the page of the runners shows.

For every task it takes, `handleTask` writes a status into Redis twice: that the task is
running, until its deadline, and how it ended, for three minutes. `GetActiveTasks` lists
the keys and then reads what is under them, while any number of calls go on and any of
them may end with its process.

`page_faithful`: whenever it reads, it shows exactly the calls whose status has not
expired, under the status that they have; an end is shown of a call that has pushed its
result and for three minutes; and a call that took its task late and died is shown as
running for good. -/
namespace QuotientScoring.Runner
open DB Engine GoText Utf8 Transition Expiring

/-! ### The statuses of a call -/

/-- A task that has been taken: the runner that has it, and the target of its check. It is of one of
the types that there are, and its numbers are those of 64 bits. -/
structure Taken where
  task : Task
  runnerID : GoString
  target : GoString
  typed : colon ∉ task.serviceType
  teamID : task.teamID < 2 ^ 64
  roundID : task.roundID < 2 ^ 64

section
variable (format : Int → GoString) (taken : Taken)

/-- The status before the first attempt. -/
def runningReport (now : Int) : Report :=
  { initialResult taken.task with
    runnerID := taken.runnerID, startTime := format now, statusText := str "running" }

/-- What `received` makes of the whole result: what a check reports replaces it, with no field
that only the page shows but the target. -/
def receivedReport (r : Report) (a : Attempt) : Report :=
  match a.reported with
  | some reported => {identify taken.task reported with target := taken.target}
  | none => {r with toResult := received taken.task r.toResult a}

def attemptReport : Report → List Attempt → Report
  | r, [] => r
  | r, a :: rest =>
    let r := receivedReport taken r a
    if r.status || a.afterDeadline then r else attemptReport r rest

/-- The result that is pushed. -/
def pushedReport (now : Int) (attempts : List Attempt) : Report :=
  attemptReport taken (runningReport format taken now) (attempts.take taken.task.attempts.toNat)

/-- The word for a call that has come to its end. -/
def endWord (status : Bool) : GoString := if status then str "success" else str "failed"

/-- The status behind the push. -/
def finalReport (now : Int) (r : Report) : Report :=
  {r with endTime := format now, statusText := endWord r.status}

theorem toResult_attemptReport (r : Report) (attempts : List Attempt) :
    (attemptReport taken r attempts).toResult = attempt taken.task r.toResult attempts := by
  induction attempts generalizing r with
  | nil => rfl
  | cons a rest ih =>
    have hreceived : (receivedReport taken r a).toResult = received taken.task r.toResult a := by
      unfold receivedReport received
      cases a.reported <;> rfl
    simp only [attemptReport, attempt, hreceived]
    split
    · exact hreceived
    · rw [ih, hreceived]

/-- It is that of `handleTask`. -/
theorem toResult_pushedReport (now : Int) (attempts : List Attempt) :
    (pushedReport format taken now attempts).toResult = handleTask taken.task attempts :=
  toResult_attemptReport taken _ _

end

/-! ### Any number of calls -/

/-- How far a call is. One that has ended with its process had written its first status. -/
inductive CallPhase where
  | idle
  | running (start : Int)
  | pushed (start : Int) (r : Report)
  | finished (r : Report) (stop : Int)
  | dead (start : Int)
deriving DecidableEq, Repr

inductive CallStep (ι : Type) where
  | tick (elapsed : Nat)
  | take (i : ι)
  | push (i : ι) (attempts : List Attempt)
  | finish (i : ι)
  | die (i : ι)

/-- The calls, what they have written under their keys, and all that they have pushed. -/
structure RunnerSite (ι : Type) where
  now : Int
  phase : ι → CallPhase
  store : Store GoString (List UInt8)
  results : List (List UInt8)

/-- When an entry expires that is written with a duration, in nanoseconds: Redis counts
milliseconds, at least one, and what is not positive is no duration. -/
def expiry (now duration : Int) : Option Int :=
  if 0 < duration then some (now + max 1 (duration / 1000000) * 1000000) else none

def threeMinutes : Int := 180 * 1000000000

def Taken.key (t : Taken) : GoString := taskKey t.task

/-- Two calls are about one check of one round. -/
def Taken.Agree (t u : Taken) : Prop :=
  t.task.roundID = u.task.roundID ∧ t.task.teamID = u.task.teamID ∧
    t.task.serviceName = u.task.serviceName

theorem Taken.agree_of_key {t u : Taken} (h : t.key = u.key) : t.Agree u := by
  obtain ⟨hround, hteam, -, hname⟩ := taskKey_inj t.typed u.typed h
  exact ⟨hround, hteam, hname⟩

section
variable {ι : Type} [DecidableEq ι] (format : Int → GoString) (taken : ι → Taken)

/-- A call goes on, and sets its status. -/
def RunnerSite.set (s : RunnerSite ι) (i : ι) (phase : CallPhase) (r : Report) (duration : Int) :
    RunnerSite ι :=
  { s with
    phase := Function.update s.phase i phase
    store := s.store.insert (taken i).key ⟨marshal r, expiry s.now duration⟩ }

def callStep (s : RunnerSite ι) : CallStep ι → Option (RunnerSite ι)
  | .tick elapsed => some {s with now := s.now + elapsed}
  | .take i =>
    match s.phase i with
    | .idle =>
      some (s.set taken i (.running s.now) (runningReport format (taken i) s.now)
        ((taken i).task.deadline - s.now))
    | _ => none
  | .push i attempts =>
    match s.phase i with
    | .running start =>
      let r := pushedReport format (taken i) start attempts
      some { s with
        phase := Function.update s.phase i (.pushed start r)
        results := s.results ++ [marshal r] }
    | _ => none
  | .finish i =>
    match s.phase i with
    | .pushed _ r =>
      some (s.set taken i (.finished r s.now) (finalReport format s.now r) threeMinutes)
    | _ => none
  | .die i =>
    match s.phase i with
    | .running start | .pushed start _ =>
      some {s with phase := Function.update s.phase i (.dead start)}
    | _ => none

/-- No call has begun and no status is there. -/
def calls : System (RunnerSite ι) (CallStep ι) where
  initial s := (∀ i, s.phase i = .idle) ∧ s.store = ∅ ∧ s.results = []
  step := callStep format taken

end

/-! ### The page -/

structure Page where
  running : List Report
  success : List Report
  failed : List Report
  allRunners : List GoString

/-- `GetActiveTasks`, with the keys that were listed and what is read under each. A status that is
gone by then or no status is left out. -/
def getActiveTasks (keys : List GoString) (get : GoString → Option (List UInt8)) : Page :=
  let statuses := keys.filterMap (fun key => (get key).bind unmarshal)
  { running := statuses.filter (fun r => r.statusText = str "running")
    success := statuses.filter (fun r => r.statusText = str "success")
    failed := statuses.filter (fun r => r.statusText = str "failed")
    allRunners := ((statuses.map (fun r => r.runnerID)).filter (fun id => id ≠ [])).dedup }

/-! ### What is under a key -/

/-- The status that a call has written last, and when it expires. -/
def CallPhase.status (format : Int → GoString) (taken : Taken) : CallPhase → Option (Entry Report)
  | .idle => none
  | .running start | .pushed start _ | .dead start =>
    some ⟨runningReport format taken start, expiry start (taken.task.deadline - start)⟩
  | .finished r stop => some ⟨finalReport format stop r, expiry stop threeMinutes⟩

/-- When a call took its task that has not come to its end. -/
def CallPhase.begun : CallPhase → Option Int
  | .running start | .pushed start _ | .dead start => some start
  | .idle | .finished _ _ => none

/-- The result of a call that has one. -/
def CallPhase.result? : CallPhase → Option Report
  | .pushed _ r | .finished r _ => some r
  | _ => none

/-- What the attempts report has the points of a check, which are an `int`. -/
def Sized {ι : Type} (_ : RunnerSite ι) : CallStep ι → Prop
  | .push _ attempts => ∀ a ∈ attempts, ∀ r, a.reported = some r →
      -2 ^ 63 ≤ r.points ∧ r.points < 2 ^ 63
  | _ => True

section
variable {ι : Type} [DecidableEq ι] {format : Int → GoString} {taken : ι → Taken}

/-- Under its key each call has its status and nothing else has a key, and the result that a call
has is one of its attempts' and has been pushed. -/
structure Faithful (format : Int → GoString) (taken : ι → Taken) (s : RunnerSite ι) : Prop where
  written : ∀ i, s.store.lookup (taken i).key =
    ((s.phase i).status format (taken i)).map (fun e => ⟨marshal e.value, e.expires⟩)
  owned : ∀ key ∈ s.store, ∃ i, (taken i).key = key
  inRange : ∀ i, ∀ e ∈ (s.phase i).status format (taken i), e.value.InRange
  pushed : ∀ i, ∀ r ∈ (s.phase i).result?, r.InRange ∧ marshal r ∈ s.results ∧
    ∃ start attempts, r = pushedReport format (taken i) start attempts

theorem inRange_runningReport (t : Taken) (start : Int) : (runningReport format t start).InRange :=
  ⟨t.teamID, t.roundID, show -2 ^ 63 ≤ (0 : Int) ∧ (0 : Int) < 2 ^ 63 by decide⟩

theorem inRange_receivedReport (t : Taken) {r : Report} (h : r.InRange) {a : Attempt}
    (ha : ∀ r, a.reported = some r → -2 ^ 63 ≤ r.points ∧ r.points < 2 ^ 63) :
    (receivedReport t r a).InRange := by
  unfold receivedReport
  cases hr : a.reported with
  | none =>
    refine ⟨?_, ?_, ?_⟩ <;> rw [received, hr]
    · exact t.teamID
    · exact t.roundID
    · exact h.points
  | some reported => exact ⟨t.teamID, t.roundID, ha reported hr⟩

theorem inRange_attemptReport (t : Taken) {r : Report} (h : r.InRange) {attempts : List Attempt}
    (ha : ∀ a ∈ attempts, ∀ r, a.reported = some r → -2 ^ 63 ≤ r.points ∧ r.points < 2 ^ 63) :
    (attemptReport t r attempts).InRange := by
  induction attempts generalizing r with
  | nil => exact h
  | cons a rest ih =>
    have hreceived := inRange_receivedReport t h (ha a List.mem_cons_self)
    simp only [attemptReport]
    split
    · exact hreceived
    · exact ih hreceived (fun a' ha' => ha a' (List.mem_cons_of_mem a ha'))

/-- The phases after one has changed. -/
theorem update_phase (s : RunnerSite ι) (i : ι) (phase : CallPhase) (j : ι) :
    j = i ∧ Function.update s.phase i phase j = phase ∨
      j ≠ i ∧ Function.update s.phase i phase j = s.phase j := by
  by_cases hj : j = i
  · subst hj
    exact .inl ⟨rfl, Function.update_self ..⟩
  · exact .inr ⟨hj, Function.update_of_ne hj ..⟩

/-- A call that goes on without a write keeps its status. -/
theorem Faithful.advance {s : RunnerSite ι} (h : Faithful format taken s) {i : ι} {phase : CallPhase}
    (hstatus : phase.status format (taken i) = (s.phase i).status format (taken i))
    {results : List (List UInt8)} (hresults : ∀ data ∈ s.results, data ∈ results)
    (hpushed : ∀ r ∈ phase.result?, r.InRange ∧ marshal r ∈ results ∧
      ∃ start attempts, r = pushedReport format (taken i) start attempts) :
    Faithful format taken
      {s with phase := Function.update s.phase i phase, results := results} := by
  have hsame : ∀ j, (Function.update s.phase i phase j).status format (taken j) =
      (s.phase j).status format (taken j) := by
    intro j
    rcases update_phase s i phase j with ⟨rfl, hj⟩ | ⟨-, hj⟩
    · rw [hj, hstatus]
    · rw [hj]
  refine ⟨?_, h.owned, ?_, ?_⟩
  · intro j
    have hwritten := h.written j
    rw [← hsame j] at hwritten
    exact hwritten
  · intro j
    have hrange := h.inRange j
    rw [← hsame j] at hrange
    exact hrange
  · show ∀ j, ∀ r ∈ (Function.update s.phase i phase j).result?, _
    intro j r hr
    rcases update_phase s i phase j with ⟨rfl, hj⟩ | ⟨-, hj⟩
    · rw [hj] at hr
      exact hpushed r hr
    · rw [hj] at hr
      obtain ⟨hrange, hmem, horigin⟩ := h.pushed j r hr
      exact ⟨hrange, hresults _ hmem, horigin⟩

/-- A call that sets its status has it under its key; no other call has that key. -/
theorem Faithful.set (hkeys : ∀ i j, (taken i).key = (taken j).key → i = j) {s : RunnerSite ι}
    (h : Faithful format taken s) {i : ι} {phase : CallPhase} {r : Report} {duration : Int}
    (hstatus : phase.status format (taken i) = some ⟨r, expiry s.now duration⟩) (hr : r.InRange)
    (hpushed : ∀ q ∈ phase.result?, q ∈ (s.phase i).result?) :
    Faithful format taken (s.set taken i phase r duration) := by
  refine ⟨?_, ?_, ?_, ?_⟩
  · show ∀ j, (s.store.insert (taken i).key _).lookup (taken j).key =
      ((Function.update s.phase i phase j).status format (taken j)).map _
    intro j
    rcases update_phase s i phase j with ⟨rfl, hj⟩ | ⟨hne, hj⟩
    · rw [hj, AList.lookup_insert, hstatus]
      rfl
    · rw [hj, AList.lookup_insert_ne (fun heq => hne (hkeys j i heq))]
      exact h.written j
  · intro key hkey
    rcases (AList.mem_insert _).mp hkey with rfl | hkey
    · exact ⟨i, rfl⟩
    · exact h.owned key hkey
  · show ∀ j, ∀ e ∈ (Function.update s.phase i phase j).status format (taken j), _
    intro j e he
    rcases update_phase s i phase j with ⟨rfl, hj⟩ | ⟨-, hj⟩
    · rw [hj, hstatus] at he
      obtain rfl := Option.some.inj he
      exact hr
    · rw [hj] at he
      exact h.inRange j e he
  · show ∀ j, ∀ q ∈ (Function.update s.phase i phase j).result?, _
    intro j q hq
    rcases update_phase s i phase j with ⟨rfl, hj⟩ | ⟨-, hj⟩
    · rw [hj] at hq
      exact h.pushed j q (hpushed q hq)
    · rw [hj] at hq
      exact h.pushed j q hq

theorem Faithful.step (hkeys : ∀ i j, (taken i).key = (taken j).key → i = j) {s s' : RunnerSite ι}
    {a : CallStep ι} (h : Faithful format taken s) (hsized : Sized s a)
    (hstep : callStep format taken s a = some s') : Faithful format taken s' := by
  cases a with
  | tick elapsed =>
    obtain rfl := Option.some.inj hstep
    exact ⟨h.written, h.owned, h.inRange, h.pushed⟩
  | take i =>
    simp only [callStep] at hstep
    split at hstep
    · obtain rfl := Option.some.inj hstep
      exact h.set hkeys rfl (inRange_runningReport _ _) (fun q hq => nomatch hq)
    · cases hstep
  | push i attempts =>
    simp only [callStep] at hstep
    split at hstep
    · rename_i start hphase
      obtain rfl := Option.some.inj hstep
      refine h.advance (by rw [hphase]; rfl) (fun data hdata => List.mem_append_left _ hdata) ?_
      intro r hr
      obtain rfl := Option.some.inj hr
      refine ⟨?_, List.mem_append_right _ (List.mem_singleton_self _), start, attempts, rfl⟩
      exact inRange_attemptReport _ (inRange_runningReport _ _)
        (fun a ha => hsized a (List.mem_of_mem_take ha))
    · cases hstep
  | finish i =>
    simp only [callStep] at hstep
    split at hstep
    · rename_i start r hphase
      obtain rfl := Option.some.inj hstep
      have hr : r ∈ (s.phase i).result? := by rw [hphase]; rfl
      obtain ⟨hrange, -, -⟩ := h.pushed i r hr
      refine h.set hkeys rfl ⟨hrange.teamID, hrange.roundID, hrange.points⟩ ?_
      intro q hq
      obtain rfl := Option.some.inj hq
      exact hr
    · cases hstep
  | die i =>
    simp only [callStep] at hstep
    split at hstep
    · rename_i start hphase
      obtain rfl := Option.some.inj hstep
      exact h.advance (by rw [hphase]; rfl) (fun _ hdata => hdata) (fun q hq => nomatch hq)
    · rename_i start r hphase
      obtain rfl := Option.some.inj hstep
      exact h.advance (by rw [hphase]; rfl) (fun _ hdata => hdata) (fun q hq => nomatch hq)
    · cases hstep

theorem faithful_of_reachable (hkeys : ∀ i j, (taken i).key = (taken j).key → i = j)
    {s : RunnerSite ι} (h : Reachable (calls format taken) Sized s) : Faithful format taken s := by
  refine h.invariant ?_ (fun s a s' hi hg hs => hi.step hkeys hg hs)
  rintro s ⟨hidle, hstore, hresults⟩
  refine ⟨?_, ?_, ?_, ?_⟩
  · intro i
    rw [hidle i, hstore]
    rfl
  · intro key hkey
    rw [hstore] at hkey
    exact absurd hkey (AList.notMem_empty key)
  · intro i e he
    rw [hidle i] at he
    cases he
  · intro i r hr
    rw [hidle i] at hr
    cases hr

end

/-! ### The page is faithful -/

section
variable {ι : Type} {format : Int → GoString} {taken : ι → Taken}

/-- The status of the call, while it has not expired. -/
def Shown (format : Int → GoString) (taken : ι → Taken) (s : RunnerSite ι) (i : ι) (r : Report) :
    Prop :=
  ∃ e ∈ (s.phase i).status format (taken i), e.live s.now = true ∧ r = e.value.arrived

theorem Faithful.get {s : RunnerSite ι} (h : Faithful format taken s) {key : GoString} {r : Report} :
    (s.store.get s.now key).bind unmarshal = some r ↔
      ∃ i, (taken i).key = key ∧ Shown format taken s i r := by
  unfold Store.get
  constructor
  · intro hr
    obtain ⟨data, hdata, hunmarshal⟩ := Option.bind_eq_some_iff.mp hr
    obtain ⟨entry, hentry, rfl⟩ := Option.map_eq_some_iff.mp hdata
    obtain ⟨hlookup, hlive⟩ := Option.filter_eq_some_iff.mp hentry
    obtain ⟨i, rfl⟩ := h.owned key (AList.lookup_isSome.mp (by rw [hlookup]; rfl))
    rw [h.written i] at hlookup
    obtain ⟨e, he, rfl⟩ := Option.map_eq_some_iff.mp hlookup
    have harrived := unmarshal_marshal (h.inRange i e he)
    exact ⟨i, rfl, e, he, hlive, Option.some.inj (hunmarshal.symm.trans harrived)⟩
  · rintro ⟨i, rfl, e, he, hlive, rfl⟩
    have harrived := unmarshal_marshal (h.inRange i e he)
    have hstatus : (s.phase i).status format (taken i) = some e := he
    have hread : (⟨marshal e.value, e.expires⟩ : Entry (List UInt8)).live s.now = true := hlive
    rw [h.written i, hstatus, Option.map_some, Option.filter_some, if_pos hread]
    exact harrived

/-- What is listed are the statuses under the keys. -/
theorem Faithful.mem_statuses {s : RunnerSite ι} (h : Faithful format taken s)
    {keys : List GoString} {r : Report} :
    r ∈ keys.filterMap (fun key => (s.store.get s.now key).bind unmarshal) ↔
      ∃ i, (taken i).key ∈ keys ∧ Shown format taken s i r := by
  rw [List.mem_filterMap]
  constructor
  · rintro ⟨key, hkey, hr⟩
    obtain ⟨i, rfl, hshown⟩ := h.get.mp hr
    exact ⟨i, hkey, hshown⟩
  · rintro ⟨i, hkey, hshown⟩
    exact ⟨_, hkey, h.get.mpr ⟨i, rfl, hshown⟩⟩

/-- A status that was written when the task was taken is shown until it expires, one that was
written behind the push for three minutes. -/
theorem shown_iff {s : RunnerSite ι} {i : ι} {r : Report} : Shown format taken s i r ↔
    (∃ start ∈ (s.phase i).begun, (expiry start ((taken i).task.deadline - start)).all (s.now < ·) ∧
      r = (runningReport format (taken i) start).arrived) ∨
    ∃ q stop, s.phase i = .finished q stop ∧ s.now < stop + threeMinutes ∧
      r = (finalReport format stop q).arrived := by
  have hthree : ∀ stop, expiry stop threeMinutes = some (stop + threeMinutes) := fun stop => rfl
  unfold Shown
  cases s.phase i with
  | idle => simp [CallPhase.status, CallPhase.begun]
  | finished q stop =>
    simp [CallPhase.status, CallPhase.begun, hthree, Entry.live]
  | running start | pushed start q | dead start =>
    simp [CallPhase.status, CallPhase.begun, Entry.live]

theorem arrived_running (t : Taken) (start : Int) :
    (runningReport format t start).arrived.statusText = str "running" := by
  show replaceInvalid (str "running") = str "running"
  decide +kernel

theorem arrived_final (stop : Int) (q : Report) :
    (finalReport format stop q).arrived.statusText = endWord q.status := by
  show replaceInvalid (endWord q.status) = endWord q.status
  cases q.status
  · decide +kernel
  · decide +kernel

theorem endWord_inj {a b : Bool} : endWord a = endWord b ↔ a = b := by
  cases a <;> cases b <;> simp [endWord]

theorem endWord_ne_running (status : Bool) : endWord status ≠ str "running" := by
  cases status <;> simp [endWord]

theorem shown_running_iff {s : RunnerSite ι} {i : ι} {r : Report} :
    Shown format taken s i r ∧ r.statusText = str "running" ↔
      ∃ start ∈ (s.phase i).begun,
        (expiry start ((taken i).task.deadline - start)).all (s.now < ·) ∧
          r = (runningReport format (taken i) start).arrived := by
  rw [shown_iff]
  constructor
  · rintro ⟨hshown | ⟨q, stop, -, -, rfl⟩, hword⟩
    · exact hshown
    · exact absurd (arrived_final stop q ▸ hword) (endWord_ne_running q.status)
  · rintro ⟨start, hstart, hlive, rfl⟩
    exact ⟨.inl ⟨start, hstart, hlive, rfl⟩, arrived_running (taken i) start⟩

theorem shown_ended_iff {s : RunnerSite ι} {i : ι} {r : Report} (status : Bool) :
    Shown format taken s i r ∧ r.statusText = endWord status ↔
      ∃ q stop, s.phase i = .finished q stop ∧ s.now < stop + threeMinutes ∧ q.status = status ∧
        r = (finalReport format stop q).arrived := by
  rw [shown_iff]
  constructor
  · rintro ⟨⟨start, -, -, rfl⟩ | ⟨q, stop, hphase, hlive, rfl⟩, hword⟩
    · exact absurd (hword.symm.trans (arrived_running (taken i) start)) (endWord_ne_running status)
    · rw [arrived_final] at hword
      exact ⟨q, stop, hphase, hlive, endWord_inj.mp hword, rfl⟩
  · rintro ⟨q, stop, hphase, hlive, rfl, rfl⟩
    exact ⟨.inr ⟨q, stop, hphase, hlive, rfl⟩, arrived_final stop q⟩

/-- A status is one of the three. -/
theorem statusText_of_shown {s : RunnerSite ι} {i : ι} {r : Report} (h : Shown format taken s i r) :
    r.statusText = str "running" ∨ ∃ status, r.statusText = endWord status := by
  rcases shown_iff.mp h with ⟨start, -, -, rfl⟩ | ⟨q, stop, -, -, rfl⟩
  · exact .inl (arrived_running (taken i) start)
  · exact .inr ⟨q.status, arrived_final stop q⟩

/-- The members of one of the lists. -/
theorem Faithful.mem_list {s : RunnerSite ι} (h : Faithful format taken s) {keys : List GoString}
    {word : GoString} {r : Report} :
    r ∈ (keys.filterMap (fun key => (s.store.get s.now key).bind unmarshal)).filter
        (fun r => r.statusText = word) ↔
      ∃ i, (taken i).key ∈ keys ∧ Shown format taken s i r ∧ r.statusText = word := by
  rw [List.mem_filter, h.mem_statuses, decide_eq_true_iff]
  constructor
  · rintro ⟨⟨i, hkey, hshown⟩, hword⟩
    exact ⟨i, hkey, hshown, hword⟩
  · rintro ⟨i, hkey, hshown, hword⟩
    exact ⟨⟨i, hkey, hshown⟩, hword⟩

theorem Faithful.mem_keys {s : RunnerSite ι} (h : Faithful format taken s) (i : ι) :
    (taken i).key ∈ s.store.keys s.now ↔ ∃ r, Shown format taken s i r := by
  rw [Store.mem_keys, Store.get, h.written i]
  cases hstatus : (s.phase i).status format (taken i) with
  | none =>
    have hnone : ∀ r, ¬Shown format taken s i r := by
      rintro r ⟨e, he, -⟩
      rw [hstatus] at he
      cases he
    simp [hnone]
  | some e =>
    have hlive : (∃ r, Shown format taken s i r) ↔ e.live s.now = true := by
      constructor
      · rintro ⟨r, e', he, hlive, -⟩
        obtain rfl := Option.some.inj (hstatus.symm.trans he)
        exact hlive
      · exact fun hlive => ⟨_, e, hstatus, hlive, rfl⟩
    rw [hlive]
    simp [Option.filter_some, Entry.live]

/-- A check that passed said so itself, and what it says names no runner. -/
theorem attemptReport_passed (t : Taken) {r : Report} (h : r.status = true → r.runnerID = [])
    (attempts : List Attempt) : (attemptReport t r attempts).status = true →
      (attemptReport t r attempts).runnerID = [] := by
  induction attempts generalizing r with
  | nil => exact h
  | cons a rest ih =>
    have hreceived : (receivedReport t r a).status = true → (receivedReport t r a).runnerID = [] := by
      unfold receivedReport received
      cases a.reported with
      | none => exact fun hstatus => nomatch hstatus
      | some reported => exact fun _ => rfl
    simp only [attemptReport]
    split
    · exact hreceived
    · exact ih hreceived

/-- So the status of a call that passed names none either. -/
theorem Faithful.runnerID_of_success {s : RunnerSite ι} (h : Faithful format taken s) {i : ι}
    {r : Report} (hshown : Shown format taken s i r) (hword : r.statusText = endWord true) :
    r.runnerID = [] := by
  obtain ⟨q, stop, hphase, -, hstatus, rfl⟩ := (shown_ended_iff true).mp ⟨hshown, hword⟩
  obtain ⟨-, -, start, attempts, rfl⟩ := h.pushed i q (by rw [hphase]; rfl)
  have hnone : (pushedReport format (taken i) start attempts).runnerID = [] :=
    attemptReport_passed (taken i) (fun hfalse => absurd hfalse Bool.false_ne_true) _ hstatus
  show replaceInvalid (pushedReport format (taken i) start attempts).runnerID = []
  rw [hnone]
  rfl

/-- The runners are those that a status names. -/
theorem mem_allRunners {keys : List GoString} {get : GoString → Option (List UInt8)} {id : GoString} :
    id ∈ (getActiveTasks keys get).allRunners ↔
      id ≠ [] ∧ ∃ r ∈ keys.filterMap (fun key => (get key).bind unmarshal), r.runnerID = id := by
  rw [getActiveTasks, List.mem_dedup, List.mem_filter, List.mem_map, decide_eq_true_iff]
  exact And.comm

variable [DecidableEq ι]

/-- Of calls no two of which are about one check of one round, whatever the keys are that were listed
before: running are shown exactly the calls that have begun and not come to their end, until their
status expires; passed and failed exactly those that have, by the result that they pushed, for three
minutes; the runners are those that these name, and a call that passed names none. What can be
listed are the keys of what is shown; and a call that took its task behind the deadline and died is
among them for good. -/
theorem page_faithful (hdistinct : ∀ i j, (taken i).Agree (taken j) → i = j) {s : RunnerSite ι}
    (h : Reachable (calls format taken) Sized s) (keys : List GoString) :
    let page := getActiveTasks keys (s.store.get s.now)
    (∀ r, r ∈ page.running ↔ ∃ i, (taken i).key ∈ keys ∧ ∃ start ∈ (s.phase i).begun,
      (expiry start ((taken i).task.deadline - start)).all (s.now < ·) ∧
        r = (runningReport format (taken i) start).arrived) ∧
    (∀ r, r ∈ page.success ↔ ∃ i, (taken i).key ∈ keys ∧ ∃ q stop, s.phase i = .finished q stop ∧
      s.now < stop + threeMinutes ∧ q.status = true ∧ r = (finalReport format stop q).arrived) ∧
    (∀ r, r ∈ page.failed ↔ ∃ i, (taken i).key ∈ keys ∧ ∃ q stop, s.phase i = .finished q stop ∧
      s.now < stop + threeMinutes ∧ q.status = false ∧ r = (finalReport format stop q).arrived) ∧
    (∀ id, id ∈ page.allRunners ↔ id ≠ [] ∧ ∃ r, (r ∈ page.running ∨ r ∈ page.failed) ∧
      r.runnerID = id) ∧
    (∀ i q stop, s.phase i = .finished q stop → marshal q ∈ s.results ∧
      ∃ attempts, q.toResult = handleTask (taken i).task attempts) ∧
    (∀ i, (taken i).key ∈ s.store.keys s.now ↔ ∃ r, Shown format taken s i r) ∧
    (∀ i start, s.phase i = .dead start → (taken i).task.deadline ≤ start →
      Shown format taken s i (runningReport format (taken i) start).arrived) := by
  have hkeys : ∀ i j, (taken i).key = (taken j).key → i = j :=
    fun i j hkey => hdistinct i j (Taken.agree_of_key hkey)
  have hfaithful := faithful_of_reachable hkeys h
  have hrunning : ∀ r, r ∈ (getActiveTasks keys (s.store.get s.now)).running ↔ _ :=
    fun r => hfaithful.mem_list
  have hsuccess : ∀ r, r ∈ (getActiveTasks keys (s.store.get s.now)).success ↔
      ∃ i, (taken i).key ∈ keys ∧ Shown format taken s i r ∧ r.statusText = endWord true :=
    fun r => hfaithful.mem_list
  have hfailed : ∀ r, r ∈ (getActiveTasks keys (s.store.get s.now)).failed ↔
      ∃ i, (taken i).key ∈ keys ∧ Shown format taken s i r ∧ r.statusText = endWord false :=
    fun r => hfaithful.mem_list
  refine ⟨?_, ?_, ?_, ?_, ?_, hfaithful.mem_keys, ?_⟩
  · intro r
    simp only [hrunning, shown_running_iff]
  · intro r
    simp only [hsuccess, shown_ended_iff]
  · intro r
    simp only [hfailed, shown_ended_iff]
  · intro id
    rw [mem_allRunners]
    refine and_congr_right (fun hne => ?_)
    constructor
    · rintro ⟨r, hr, rfl⟩
      obtain ⟨i, hkey, hshown⟩ := hfaithful.mem_statuses.mp hr
      refine ⟨r, ?_, rfl⟩
      obtain hword | ⟨status, hword⟩ := statusText_of_shown hshown
      · exact .inl ((hrunning r).mpr ⟨i, hkey, hshown, hword⟩)
      · cases status with
        | true => exact absurd (hfaithful.runnerID_of_success hshown hword) hne
        | false => exact .inr ((hfailed r).mpr ⟨i, hkey, hshown, hword⟩)
    · rintro ⟨r, hr, rfl⟩
      refine ⟨r, hfaithful.mem_statuses.mpr ?_, rfl⟩
      rcases hr with hr | hr
      · obtain ⟨i, hkey, hshown, -⟩ := (hrunning r).mp hr
        exact ⟨i, hkey, hshown⟩
      · obtain ⟨i, hkey, hshown, -⟩ := (hfailed r).mp hr
        exact ⟨i, hkey, hshown⟩
  · intro i q stop hphase
    obtain ⟨-, hpushed, start, attempts, rfl⟩ := hfaithful.pushed i q (by rw [hphase]; rfl)
    exact ⟨hpushed, attempts, toResult_pushedReport format (taken i) start attempts⟩
  · intro i start hphase hlate
    have hexpiry : expiry start ((taken i).task.deadline - start) = none := if_neg (by omega)
    refine shown_iff.mpr (.inl ⟨start, by rw [hphase]; rfl, ?_, rfl⟩)
    rw [hexpiry]
    rfl

end

/-- A call that takes its task five nanoseconds behind the deadline. -/
def lateCall : Taken where
  task := ⟨1, [], str "Web", str "web", 0, 1, 1, [], []⟩
  runnerID := str "r1"
  target := []
  typed := by decide
  teamID := by decide
  roundID := by decide

def lateSite : RunnerSite Unit where
  now := 5
  phase := fun _ => .dead 5
  store := (∅ : Store GoString (List UInt8)).insert lateCall.key
    ⟨marshal (runningReport (fun _ => []) lateCall 5), none⟩
  results := []

theorem reachable_lateSite :
    Reachable (calls (fun _ => []) (fun _ : Unit => lateCall)) Sized lateSite := by
  have hstart : Reachable (calls (fun _ => []) (fun _ : Unit => lateCall)) Sized
      ⟨0, fun _ => .idle, ∅, []⟩ := .initial ⟨fun _ => rfl, rfl, rfl⟩
  have htick := hstart.step (a := CallStep.tick 5) trivial rfl
  have htake := htick.step (a := CallStep.take ()) trivial rfl
  exact htake.step (a := CallStep.die ()) trivial rfl

/-- Dead, it is shown as running. -/
theorem page_faithful_late : (runningReport (fun _ => []) lateCall 5).arrived ∈
    (getActiveTasks [lateCall.key] (lateSite.store.get lateSite.now)).running := by
  obtain ⟨hrunning, -⟩ :=
    page_faithful (fun _ _ _ => rfl) reachable_lateSite [lateCall.key]
  exact (hrunning _).mpr ⟨(), List.mem_singleton_self _, 5, rfl, rfl, rfl⟩

end QuotientScoring.Runner
