import Mathlib.Algebra.Order.Ring.Int

/-! Moments, durations and 64-bit integers.

A moment is an integer, the number of nanoseconds since the epoch; a
duration is a 64-bit number of nanoseconds, so a large number of seconds wraps
around. The lemmas say when it does not: below `maxSeconds` a duration in
seconds is what it says, and sums, differences and products that fit are the
exact ones. -/
namespace GoTime

/-- The zero `time.Time`: January 1, year 1. -/
def zeroTime : Int := -62135596800000000000

/-- `time.Duration(n) * time.Second`, in nanoseconds. -/
def seconds (n : Int64) : Int := (n * 1000000000).toInt

/-- The largest number of seconds that is a duration. -/
def maxSeconds : Int := 9223372036

theorem toInt_sub_of_fits {a b : Int64} (hlo : -2 ^ 63 ≤ a.toInt - b.toInt)
    (hhi : a.toInt - b.toInt < 2 ^ 63) : (a - b).toInt = a.toInt - b.toInt := by
  rw [Int64.toInt_sub]
  apply Int.bmod_eq_of_le <;> omega

theorem toInt_mul_of_fits {a b : Int64} (hlo : -2 ^ 63 ≤ a.toInt * b.toInt)
    (hhi : a.toInt * b.toInt < 2 ^ 63) : (a * b).toInt = a.toInt * b.toInt := by
  rw [Int64.toInt_mul]
  apply Int.bmod_eq_of_le <;> omega

/-- Up to `maxSeconds` either way, seconds do not wrap around. -/
theorem seconds_of_fits {n : Int64} (hlo : -maxSeconds ≤ n.toInt) (hhi : n.toInt ≤ maxSeconds) :
    seconds n = n.toInt * 1000000000 := by
  have hsecond : (1000000000 : Int64).toInt = 1000000000 := by decide
  unfold maxSeconds at hlo hhi
  rw [seconds, toInt_mul_of_fits, hsecond] <;> rw [hsecond] <;> omega

end GoTime
