import QuotientScoring.Engine.Config
import Mathlib.Tactic.Ring

/-! How long a round is given.

`rvb` draws a jitter with `rand.Intn(2*Jitter) - Jitter`, which panics unless
the argument is positive, and starts the next round the delay and the jitter
from now; that moment is also the deadline of this round's tasks. All of it is
64-bit arithmetic. `drawn_iff` and `roundTime_of_fits` say what it comes to for
a jitter that can be doubled and a delay that is a duration. -/
namespace QuotientScoring.Engine
open GoTime

/-- `rand.Intn(n)` returns `k`. It panics for `n <= 0`, and returns nothing. -/
def Intn (n k : Int64) : Prop := 0 ≤ k ∧ k < n

/-- The jitters `rvb` can draw, in seconds. -/
def Drawn (misc : Config.MiscConfig) (draw : Int64) : Prop :=
  ∃ k : Int64, Intn (2 * misc.jitter) k ∧ draw = k - misc.jitter

/-- From the start of `rvb` to the next round, in nanoseconds. -/
def roundTime (misc : Config.MiscConfig) (draw : Int64) : Int := seconds misc.delay + seconds draw

def nextRoundStartTime (misc : Config.MiscConfig) (now : Int) (draw : Int64) : Int :=
  now + seconds misc.delay + seconds draw

theorem nextRoundStartTime_eq (misc : Config.MiscConfig) (now : Int) (draw : Int64) :
    nextRoundStartTime misc now draw = now + roundTime misc draw := by
  unfold nextRoundStartTime roundTime
  omega

variable {misc : Config.MiscConfig}

/-- The delay is a duration, and the jitter is between nothing and the delay. -/
structure Fits (misc : Config.MiscConfig) : Prop where
  jitter_pos : 0 < misc.jitter.toInt
  jitter_lt : misc.jitter.toInt < misc.delay.toInt
  delay_le : misc.delay.toInt ≤ maxSeconds

theorem toInt_two_mul {n : Int64} (h0 : 0 ≤ n.toInt) (h : n.toInt < 2 ^ 62) :
    (2 * n).toInt = 2 * n.toInt := by
  have htwo : (2 : Int64).toInt = 2 := by decide
  rw [toInt_mul_of_fits, htwo] <;> rw [htwo] <;> omega

/-- A jitter that can be doubled is drawn from `[-Jitter, Jitter)`. -/
theorem drawn_iff (h0 : 0 ≤ misc.jitter.toInt) (h : misc.jitter.toInt < 2 ^ 62) {draw : Int64} :
    Drawn misc draw ↔ -misc.jitter.toInt ≤ draw.toInt ∧ draw.toInt < misc.jitter.toInt := by
  have hzero : (0 : Int64).toInt = 0 := by decide
  have hdouble := toInt_two_mul h0 h
  constructor
  · intro ⟨k, ⟨hk0, hk⟩, hdraw⟩
    rw [Int64.le_iff_toInt_le, hzero] at hk0
    rw [Int64.lt_iff_toInt_lt, hdouble] at hk
    have hsub : draw.toInt = k.toInt - misc.jitter.toInt := by
      rw [hdraw]
      apply toInt_sub_of_fits <;> omega
    omega
  · intro ⟨hlo, hhi⟩
    have hadd : (draw + misc.jitter).toInt = draw.toInt + misc.jitter.toInt := by
      rw [Int64.toInt_add]
      apply Int.bmod_eq_of_le <;> omega
    refine ⟨draw + misc.jitter, ⟨?_, ?_⟩, ?_⟩
    · rw [Int64.le_iff_toInt_le, hzero, hadd]
      omega
    · rw [Int64.lt_iff_toInt_lt, hadd, hdouble]
      omega
    · rw [Int64.add_sub_cancel]

theorem Fits.drawn_iff (h : Fits misc) {draw : Int64} :
    Drawn misc draw ↔ -misc.jitter.toInt ≤ draw.toInt ∧ draw.toInt < misc.jitter.toInt := by
  obtain ⟨hpos, hlt, hle⟩ := h
  unfold maxSeconds at hle
  apply Engine.drawn_iff <;> omega

theorem roundTime_of_fits (h : Fits misc) {draw : Int64} (hdraw : Drawn misc draw) :
    roundTime misc draw = (misc.delay.toInt + draw.toInt) * 1000000000 := by
  obtain ⟨hlo, hhi⟩ := h.drawn_iff.mp hdraw
  obtain ⟨hpos, hlt, hle⟩ := h
  have hsmall : maxSeconds = 9223372036 := rfl
  have hdelay := seconds_of_fits (n := misc.delay) (by omega) hle
  have hjitter := seconds_of_fits (n := draw) (by omega) (by omega)
  rw [roundTime, hdelay, hjitter]
  ring

/-- The shortest round: the draw at the bottom of the range. -/
theorem Fits.exists_shortest (h : Fits misc) : ∃ draw, Drawn misc draw ∧
    roundTime misc draw = (misc.delay.toInt - misc.jitter.toInt) * 1000000000 := by
  have hpos := h.jitter_pos
  have hlt := h.jitter_lt
  have hle := h.delay_le
  unfold maxSeconds at hle
  have hneg : (0 - misc.jitter).toInt = -misc.jitter.toInt := by
    have hzero : (0 : Int64).toInt = 0 := by decide
    have hsub := @toInt_sub_of_fits 0 misc.jitter
    omega
  have hdraw : Drawn misc (0 - misc.jitter) := by
    rw [h.drawn_iff, hneg]
    omega
  refine ⟨_, hdraw, ?_⟩
  rw [roundTime_of_fits h hdraw, hneg]
  rfl

end QuotientScoring.Engine
