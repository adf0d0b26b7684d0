import QuotientScoring.Lib.FailureRun
import Mathlib.Algebra.BigOperators.Group.Finset.Basic
import Mathlib.Algebra.Order.BigOperators.Group.List
import Mathlib.Algebra.Ring.Int.Defs
import Mathlib.Data.Finset.Insert

/-! A scoreboard, as what it is for.

Services are checked one after another. A check passes, and is worth points, or fails, and each
time a service has failed `threshold` times in a row that is a violation. A standing counts this
for one service as the outcomes come, and a board has a standing for every service; nothing else is
remembered.

`standing_recordAll` and the lemmas on `standingOf` say what a board shows in terms of the outcomes
alone: a service's own, the points among them, and the failures in a row as `FailureRun` has
them. -/
namespace Scoreboard
open FailureRun

inductive Outcome where
  | passed (points : Int)
  | failed
deriving DecidableEq, Repr

def Outcome.fails : Outcome → Bool
  | .passed _ => false
  | .failed => true

def Outcome.points : Outcome → Int
  | .passed points => points
  | .failed => 0

/-- `run` is the failures in a row that the outcomes end with. -/
structure Standing where
  points : Int := 0
  run : Nat := 0
  violations : Nat := 0
  passed : Nat := 0
  checked : Nat := 0
deriving DecidableEq, Repr

def Standing.record (threshold : Int) (s : Standing) : Outcome → Standing
  | .passed points =>
    { s with
      points := s.points + points, run := 0, passed := s.passed + 1, checked := s.checked + 1 }
  | .failed =>
    { s with
      run := s.run + 1
      violations := s.violations + if threshold ∣ (s.run + 1 : Nat) then 1 else 0
      checked := s.checked + 1 }

/-- The services that have been checked, and how they stand. -/
structure Board (κ : Type) where
  standing : κ → Standing
  services : Finset κ

namespace Board
variable {κ : Type} [DecidableEq κ] (threshold : Int)

def empty : Board κ := ⟨fun _ => {}, ∅⟩

def record (b : Board κ) (k : κ) (o : Outcome) : Board κ where
  standing := Function.update b.standing k ((b.standing k).record threshold o)
  services := insert k b.services

def recordAll (b : Board κ) (os : List (κ × Outcome)) : Board κ :=
  os.foldl (fun b o => b.record threshold o.1 o.2) b

/-- What a team's services make together. -/
def total {τ ν β : Type} [DecidableEq τ] [AddCommMonoid β] (b : Board (τ × ν)) (t : τ)
    (f : Standing → β) : β :=
  ∑ k ∈ b.services.filter (fun k => k.1 = t), f (b.standing k)

theorem recordAll_append (b : Board κ) (os os' : List (κ × Outcome)) :
    b.recordAll threshold (os ++ os') = (b.recordAll threshold os).recordAll threshold os' :=
  List.foldl_append

end Board

/-! ### One service -/

section
variable (threshold : Int)

def standingOf (os : List Outcome) : Standing := os.foldl (Standing.record threshold) {}

theorem standingOf_concat (os : List Outcome) (o : Outcome) :
    standingOf threshold (os ++ [o]) = (standingOf threshold os).record threshold o := by
  rw [standingOf, List.foldl_append]
  rfl

theorem points_standingOf (os : List Outcome) :
    (standingOf threshold os).points = (os.map Outcome.points).sum := by
  induction os using List.reverseRecOn with
  | nil => rfl
  | append_singleton os o ih =>
    rw [standingOf_concat, List.map_append, List.sum_append, List.map_singleton,
      List.sum_singleton, ← ih]
    cases o with
    | passed points => rfl
    | failed => exact (Int.add_zero _).symm

theorem checked_standingOf (os : List Outcome) :
    (standingOf threshold os).checked = os.length := by
  induction os using List.reverseRecOn with
  | nil => rfl
  | append_singleton os o ih =>
    rw [standingOf_concat, List.length_append, ← ih]
    cases o <;> rfl

theorem passed_standingOf (os : List Outcome) :
    (standingOf threshold os).passed = (os.filter (fun o => !o.fails)).length := by
  induction os using List.reverseRecOn with
  | nil => rfl
  | append_singleton os o ih =>
    rw [standingOf_concat, List.filter_append, List.length_append, ← ih]
    cases o <;> rfl

theorem run_standingOf (os : List Outcome) :
    (standingOf threshold os).run = current Outcome.fails os := by
  induction os using List.reverseRecOn with
  | nil => rfl
  | append_singleton os o ih =>
    rw [standingOf_concat, current_concat, ← ih]
    cases o <;> rfl

theorem violations_standingOf (os : List Outcome) :
    (standingOf threshold os).violations = (marks Outcome.fails threshold os).length := by
  induction os using List.reverseRecOn with
  | nil => rw [marks_nil]; rfl
  | append_singleton os o ih =>
    rw [standingOf_concat, marks_concat, List.length_append, ← ih, due, current_concat,
      ← run_standingOf threshold]
    cases o with
    | passed points => simp [Standing.record, Outcome.fails]
    | failed =>
      simp only [Standing.record, Outcome.fails, if_true, Nat.zero_lt_succ, decide_true,
        Bool.true_and, decide_eq_true_eq]
      split <;> rfl

end

/-! ### The board -/

section
variable {κ : Type} [DecidableEq κ] (threshold : Int)

/-- A service stands as its own outcomes have it. -/
theorem standing_recordAll (os : List (κ × Outcome)) (k : κ) :
    (Board.empty.recordAll threshold os).standing k =
      standingOf threshold ((os.filter (fun o => o.1 = k)).map Prod.snd) := by
  induction os using List.reverseRecOn with
  | nil => rfl
  | append_singleton os o ih =>
    rw [Board.recordAll_append, List.filter_append, List.map_append]
    show Function.update _ o.1 _ k = _
    by_cases hk : o.1 = k
    · subst hk
      rw [Function.update_self, ih]
      simp [standingOf_concat]
    · rw [Function.update_of_ne (Ne.symm hk), ih]
      simp [hk]

theorem mem_services_recordAll {os : List (κ × Outcome)} {k : κ} :
    k ∈ (Board.empty.recordAll threshold os).services ↔ ∃ o ∈ os, o.1 = k := by
  induction os using List.reverseRecOn with
  | nil => simp [Board.recordAll, Board.empty]
  | append_singleton os o ih =>
    rw [Board.recordAll_append]
    show k ∈ insert o.1 (Board.empty.recordAll threshold os).services ↔ _
    rw [Finset.mem_insert, ih]
    simp only [List.mem_append, List.mem_singleton, or_and_right, exists_or, exists_eq_left]
    rw [or_comm, eq_comm]

end

end Scoreboard
