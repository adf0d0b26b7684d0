import QuotientScoring.Engine.Enqueue
import QuotientScoring.Engine.RoundTime

/-! When a runner pushes the result of a task.

An attempt is over when the check reports or when the deadline comes. Failed
attempts are repeated until the deadline is past, so a target that never answers
costs the timeout once for every attempt. `in_time_iff`: the result is pushed
before the deadline whatever the target does exactly if all attempts together
fit; `round_not_voided_iff`: in terms of the settings, if attempts times timeout
is less than the delay minus the jitter. The engine checks the timeout for all
checks against that bound, but neither a check's own timeout nor its attempts. -/
namespace QuotientScoring.Runner
open DB GoTime Engine Checks

/-- What a check does in one attempt: how long it takes to report, in nanoseconds,
and what. -/
structure Outcome where
  took : Int
  status : Bool
deriving DecidableEq

/-- `Service.Run` reports within the timeout of the check; one that is not positive
is over at once. -/
def Within (timeout : Int64) (outcome : Outcome) : Prop :=
  0 ≤ outcome.took ∧ outcome.took ≤ max timeout.toInt 0 * 1000000000

/-- The moment an attempt is over. -/
def attemptEnd (deadline start : Int) (outcome : Outcome) : Int :=
  max start (min (start + outcome.took) deadline)

/-- The attempt loop: the moment it is left. -/
def attemptsEnd (deadline : Int) : Int → List Outcome → Int
  | now, [] => now
  | now, outcome :: rest =>
    let succeeded := outcome.status && decide (now + outcome.took ≤ deadline)
    let now := attemptEnd deadline now outcome
    if succeeded || decide (deadline < now) then now else attemptsEnd deadline now rest

/-- How often the loop runs the check. A wait that the deadline ends is taken to end exactly then,
which is not past it, so that the attempts left are counted too; a clock that has moved on by the
time it is asked leaves them out, and the first one is made in any case. -/
def attemptsMade (deadline : Int) : Int → List Outcome → Nat
  | _, [] => 0
  | now, outcome :: rest =>
    let succeeded := outcome.status && decide (now + outcome.took ≤ deadline)
    let now := attemptEnd deadline now outcome
    if succeeded || decide (deadline < now) then 1 else attemptsMade deadline now rest + 1

theorem attemptsMade_pos {deadline now : Int} {outcomes : List Outcome} :
    1 ≤ attemptsMade deadline now outcomes ↔ outcomes ≠ [] := by
  cases outcomes with
  | nil => simp [attemptsMade]
  | cons outcome rest =>
    simp only [attemptsMade]
    split <;> simp

/-- The outcomes the loop of a task goes through, at most. -/
def outcomesOf (task : Task) (outcome : Nat → Outcome) : List Outcome :=
  (List.range task.attempts.toNat).map outcome

/-- The moment the result of a task picked up at `now` is pushed. -/
def pushedAt (task : Task) (now : Int) (outcome : Nat → Outcome) : Int :=
  attemptsEnd task.deadline now (outcomesOf task outcome)

/-- Attempts take no longer than all of them at the timeout. -/
theorem attemptsEnd_le {deadline now limit : Int} {outcomes : List Outcome}
    (h : ∀ outcome ∈ outcomes, 0 ≤ outcome.took ∧ outcome.took ≤ limit) :
    attemptsEnd deadline now outcomes ≤ now + outcomes.length * limit := by
  induction outcomes generalizing now with
  | nil => simp [attemptsEnd]
  | cons outcome rest ih =>
    obtain ⟨h0, hle⟩ := h outcome (by simp)
    have hend : attemptEnd deadline now outcome ≤ now + limit := by
      unfold attemptEnd
      omega
    have hrest := @ih (attemptEnd deadline now outcome)
      (fun o ho => h o (List.mem_cons_of_mem _ ho))
    have hlen : ((outcome :: rest).length : Int) * limit = limit + rest.length * limit := by
      push_cast [List.length_cons]
      ring
    have hnn : 0 ≤ (rest.length : Int) * limit := Int.mul_nonneg (by omega) (by omega)
    simp only [attemptsEnd]
    split
    · omega
    · omega

/-- A target that never answers costs the timeout for every attempt, or the rest of
the round. -/
theorem le_attemptsEnd {deadline now limit : Int} (h0 : 0 ≤ limit) (n : Nat) :
    min (now + n * limit) deadline ≤ attemptsEnd deadline now (List.replicate n ⟨limit, false⟩) := by
  induction n generalizing now with
  | zero =>
    simp only [List.replicate_zero, attemptsEnd]
    omega
  | succ n ih =>
    have hrest := @ih (attemptEnd deadline now ⟨limit, false⟩)
    have hlen : ((n + 1 : Nat) : Int) * limit = limit + n * limit := by
      push_cast
      ring
    have hnn : 0 ≤ (n : Int) * limit := Int.mul_nonneg (by omega) h0
    have hend : min (now + limit) deadline ≤ attemptEnd deadline now ⟨limit, false⟩ := by
      show min (now + limit) deadline ≤ max now (min (now + limit) deadline)
      omega
    simp only [List.replicate_succ, attemptsEnd, Bool.false_and, Bool.false_or, decide_eq_true_eq]
    split
    · omega
    · omega

/-- All attempts of a check at its timeout, in seconds. -/
def worstCase (check : Checks.Runner) : Int :=
  max check.service.attempts.toInt 0 * max check.service.timeout.toInt 0

/-- The result is pushed before the deadline, whatever the target does, exactly if
all attempts fit. -/
theorem in_time_iff (around : Surroundings) (round : Nat) (team : TeamSchema)
    (check : Checks.Runner) (now deadline : Int) :
    (∀ outcome : Nat → Outcome, (∀ i, Within check.service.timeout (outcome i)) →
      pushedAt (taskFor around round deadline team check) now outcome < deadline) ↔
    worstCase check * 1000000000 < deadline - now := by
  have hattempts : ((check.service.attempts.toInt.toNat : Nat) : Int) =
      max check.service.attempts.toInt 0 := Int.toNat_eq_max _
  have hworst : worstCase check * 1000000000 = max check.service.attempts.toInt 0 *
      (max check.service.timeout.toInt 0 * 1000000000) := Int.mul_assoc ..
  have hlimit : 0 ≤ max check.service.timeout.toInt 0 * 1000000000 := by omega
  constructor
  · intro h
    have hpushed := h (fun _ => ⟨max check.service.timeout.toInt 0 * 1000000000, false⟩)
      (fun _ => ⟨hlimit, le_refl _⟩)
    have hle := @le_attemptsEnd deadline now _ hlimit check.service.attempts.toInt.toNat
    simp only [pushedAt, outcomesOf, taskFor, List.map_const', List.length_range] at hpushed
    rw [hattempts, ← hworst] at hle
    omega
  · intro h outcome hwithin
    have hle := @attemptsEnd_le deadline now (max check.service.timeout.toInt 0 * 1000000000)
      ((List.range check.service.attempts.toInt.toNat).map outcome)
      (by
        intro o ho
        obtain ⟨i, _, rfl⟩ := List.mem_map.mp ho
        exact hwithin i)
    rw [List.length_map, List.length_range, hattempts, ← hworst] at hle
    show attemptsEnd deadline now _ < deadline
    exact lt_of_le_of_lt hle (by omega)

/-! ### In terms of the settings -/

/-- All attempts of a check at its timeout are less than the delay minus the jitter.
Where the delay is no duration, or the jitter is not positive, the 64-bit times of
the rounds that can be drawn stand for the difference. -/
def LeavesTime (misc : Config.MiscConfig) (check : Checks.Runner) : Prop :=
  if 0 < misc.jitter.toInt ∧ misc.delay.toInt ≤ maxSeconds then
    worstCase check < misc.delay.toInt - misc.jitter.toInt
  else ∀ draw, Drawn misc draw → worstCase check * 1000000000 < roundTime misc draw

theorem leavesTime_iff {misc : Config.MiscConfig} (hlt : misc.jitter < misc.delay)
    (check : Checks.Runner) : LeavesTime misc check ↔
      ∀ draw, Drawn misc draw → worstCase check * 1000000000 < roundTime misc draw := by
  unfold LeavesTime
  split
  · rename_i h
    have hfits : Fits misc := ⟨h.1, Int64.lt_iff_toInt_lt.mp hlt, h.2⟩
    constructor
    · intro hworst draw hdraw
      have hlo := (hfits.drawn_iff.mp hdraw).1
      rw [roundTime_of_fits hfits hdraw]
      omega
    · intro hall
      obtain ⟨draw, hdraw, hshortest⟩ := hfits.exists_shortest
      have hworst := hall draw hdraw
      rw [hshortest] at hworst
      omega
  · rfl

/-- In an accepted configuration, the results of all enqueued checks are pushed before
the round is given up, for every draw and whatever the targets do, exactly if the
settings leave time for all attempts of each of them. -/
theorem round_not_voided_iff {env : Config.Environment} {raw conf : Config.ConfigSettings}
    (h : Config.Accepts env raw conf) (around : Surroundings) (teams : List TeamSchema)
    (round : Nat) (now : Int) :
    (∀ draw, Drawn conf.miscSettings draw →
      ∀ x ∈ enqueued around teams conf.allChecks,
        ∀ outcome : Nat → Outcome, (∀ i, Within x.2.service.timeout (outcome i)) →
          pushedAt (taskFor around round (nextRoundStartTime conf.miscSettings now draw) x.1 x.2)
            now outcome < nextRoundStartTime conf.miscSettings now draw) ↔
    ∀ x ∈ enqueued around teams conf.allChecks, LeavesTime conf.miscSettings x.2 := by
  simp only [in_time_iff, nextRoundStartTime_eq, leavesTime_iff h.accepted.jitter_lt,
    add_sub_cancel_left]
  constructor
  · intro hall x hx draw hdraw
    exact hall draw hdraw x hx
  · intro hall draw hdraw x hx
    exact hall x hx draw hdraw

/-- Two attempts of twenty seconds leave time in a round of at least 55. -/
theorem round_not_voided_two_attempts :
    let raw := Config.smallFile {} {tcp := [{port := 22, attempts := 2, timeout := 20}]}
    let conf := Config.setConfig .plain {} raw
    Config.Accepts .plain raw conf ∧
    ∀ draw, Drawn conf.miscSettings draw →
      ∀ x ∈ enqueued .plain [⟨1, [], [], true⟩] conf.allChecks,
        ∀ outcome : Nat → Outcome, (∀ i, Within x.2.service.timeout (outcome i)) →
          pushedAt (taskFor .plain 1 (nextRoundStartTime conf.miscSettings 0 draw) x.1 x.2)
            0 outcome < nextRoundStartTime conf.miscSettings 0 draw := by
  intro raw conf
  have haccepted : Config.Accepts .plain raw conf := by decide +kernel
  refine ⟨haccepted, (round_not_voided_iff haccepted .plain [⟨1, [], [], true⟩] 1 0).mpr ?_⟩
  intro x hx
  unfold LeavesTime
  rw [if_pos (by decide +kernel)]
  revert x
  decide +kernel

/-- Three attempts at the timeout for all checks, 30 seconds, do not fit in a round of
60: with a port where nothing answers the dial, which waits for the timeout, the result is
pushed at the deadline. -/
theorem round_voided :
    let raw := Config.smallFile {} {tcp := [{port := 22, attempts := 3}]}
    let conf := Config.setConfig .plain {} raw
    Config.Accepts .plain raw conf ∧
    ¬∀ draw, Drawn conf.miscSettings draw →
      ∀ x ∈ enqueued .plain [⟨1, [], [], true⟩] conf.allChecks,
        ∀ outcome : Nat → Outcome, (∀ i, Within x.2.service.timeout (outcome i)) →
          pushedAt (taskFor .plain 1 (nextRoundStartTime conf.miscSettings 0 draw) x.1 x.2)
            0 outcome < nextRoundStartTime conf.miscSettings 0 draw := by
  intro raw conf
  have hdraw : Drawn conf.miscSettings 0 := ⟨5, ⟨by decide, by decide +kernel⟩, by decide +kernel⟩
  refine ⟨by decide +kernel, fun hall => ?_⟩
  have hcheck : ∃ check, enqueued .plain [⟨1, [], [], true⟩] conf.allChecks =
      [(⟨1, [], [], true⟩, check)] ∧ check.service.timeout = 30 ∧
      ¬pushedAt (taskFor .plain 1 (nextRoundStartTime conf.miscSettings 0 0) ⟨1, [], [], true⟩ check)
        0 (fun _ => ⟨30000000000, false⟩) < nextRoundStartTime conf.miscSettings 0 0 :=
    ⟨(conf.allChecks.head?).getD (.rdp {}), by decide +kernel⟩
  obtain ⟨check, henqueued, htimeout, hlate⟩ := hcheck
  apply hlate
  apply hall 0 hdraw (⟨1, [], [], true⟩, check) (by simp [henqueued])
  intro i
  rw [htimeout]
  exact ⟨by decide, by decide⟩

end QuotientScoring.Runner
