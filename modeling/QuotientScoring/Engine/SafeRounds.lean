import QuotientScoring.DB.Counters
import QuotientScoring.Runner.Timing

/-! Which accepted configurations make the arithmetic of a round safe.

The engine draws a jitter, adds it to the delay, divides by the SLA threshold and
lets runners repeat a check. `RoundSafe` is what it takes for all of that to go
well. `checkConfig` fills in what is zero and compares the times with each
other, but lets negative settings through and numbers too large for the 64-bit
arithmetic of `rvb`; `roundSafe_iff`: those are the only ones that are not safe. -/
namespace QuotientScoring.Engine
open DB GoTime Config Runner

/-- The bounds on the settings, and what follows from them for the program. -/
structure RoundSafe (conf : ConfigSettings) : Prop where
  jitter : 1 ≤ conf.miscSettings.jitter.toInt ∧
    conf.miscSettings.jitter.toInt < conf.miscSettings.delay.toInt
  timeout : 1 ≤ conf.miscSettings.timeout.toInt ∧ conf.miscSettings.timeout.toInt <
    conf.miscSettings.delay.toInt - conf.miscSettings.jitter.toInt
  points : 1 ≤ conf.miscSettings.points.toInt
  slaThreshold : 1 ≤ conf.miscSettings.slaThreshold.toInt
  attempts : ∀ check ∈ conf.allChecks, 1 ≤ check.service.attempts.toInt
  /-- `rand.Intn` is called with a positive argument. -/
  intn : 0 < 2 * conf.miscSettings.jitter
  /-- The next round starts after this one, for every draw. -/
  next : ∀ (now : Int) (draw : Int64), Drawn conf.miscSettings draw →
    now < nextRoundStartTime conf.miscSettings now draw
  /-- `LoadSLAs` does not divide by zero. -/
  loadSLAs : ∀ (rows : List ServiceCheckSchema) (m : SLAMap),
    (DB.loadSLAs conf.miscSettings.slaThreshold.toInt rows m).isSome
  /-- Every enqueued check is run at least once. -/
  runs : ∀ (around : Surroundings) (teams : List TeamSchema) (round : Nat) (deadline now : Int)
    (outcome : Nat → Outcome), ∀ x ∈ enqueued around teams conf.allChecks,
    1 ≤ attemptsMade deadline now (outcomesOf (taskFor around round deadline x.1 x.2) outcome)

/-- Nothing in the file is negative, the jitter can be doubled, and the delay is a
duration; or, where it is not, its nanoseconds in 64 bits still outweigh those of
every jitter that can be drawn. -/
structure Sensible (raw : ConfigSettings) : Prop where
  jitter : 0 ≤ raw.miscSettings.jitter.toInt
  timeout : 0 ≤ raw.miscSettings.timeout.toInt
  points : 0 ≤ raw.miscSettings.points.toInt
  slaThreshold : 0 ≤ raw.miscSettings.slaThreshold.toInt
  attempts : ∀ r ∈ raw.written, 0 ≤ r.service.attempts.toInt
  jitter_lt : raw.miscSettings.jitter.toInt < 2 ^ 62
  delay : raw.miscSettings.delay.toInt ≤ maxSeconds ∨
    ∀ draw, Drawn (raw.miscSettings.withDefaults raw.sslSettings) draw →
      0 < roundTime (raw.miscSettings.withDefaults raw.sslSettings) draw

/-- A default for zero leaves a setting positive exactly if it was not negative. -/
theorem one_le_default {n d : Int64} (hd : 1 ≤ d.toInt) :
    1 ≤ (if n = 0 then d else n).toInt ↔ 0 ≤ n.toInt := by
  have hzero : n = 0 ↔ n.toInt = 0 := Int64.toInt_inj.symm.trans (by rw [Int64.toInt_zero])
  split
  · rename_i h
    have := hzero.mp h
    omega
  · rename_i h
    have := mt hzero.mpr h
    omega

theorem isSome_loadSLAs {slaThreshold : Int} (hT : 1 ≤ slaThreshold)
    (rows : List ServiceCheckSchema) (m : SLAMap) : (DB.loadSLAs slaThreshold rows m).isSome := by
  induction rows generalizing m with
  | nil => rfl
  | cons row rest ih =>
    rw [DB.loadSLAs, List.foldlM_cons, loadSLA_eq hT]
    exact ih _

/-- Twice a positive jitter is positive exactly if it does not wrap around. -/
theorem two_mul_pos_iff {n : Int64} (hn : 1 ≤ n.toInt) : 0 < 2 * n ↔ n.toInt < 2 ^ 62 := by
  rw [Int64.lt_iff_toInt_lt, Int64.toInt_zero]
  by_cases hlt : n.toInt < 2 ^ 62
  · rw [toInt_two_mul (by omega) hlt]
    omega
  · have hhi := n.toInt_lt
    have htwo : (2 : Int64).toInt = 2 := by decide
    have hwrapped : (2 * n).toInt = 2 * n.toInt - 2 ^ 64 := by
      rw [Int64.toInt_mul, htwo, ← Int.sub_bmod_right]
      apply Int.bmod_eq_of_le <;> omega
    rw [hwrapped]
    omega

theorem lt_nextRoundStartTime_iff {misc : Config.MiscConfig} {now : Int} {draw : Int64} :
    now < nextRoundStartTime misc now draw ↔ 0 < roundTime misc draw := by
  rw [nextRoundStartTime_eq]
  omega

/-- A check with attempts is run at least once, whenever its deadline is. -/
theorem one_le_attemptsMade {around : Surroundings} {round : Nat} {deadline : Int}
    {team : TeamSchema} {check : Checks.Runner} (hcheck : 1 ≤ check.service.attempts.toInt)
    (now : Int) (outcome : Nat → Outcome) :
    1 ≤ attemptsMade deadline now
      (outcomesOf (taskFor around round deadline team check) outcome) := by
  rw [attemptsMade_pos, outcomesOf, Ne, List.map_eq_nil_iff, List.range_eq_nil]
  show ¬check.service.attempts.toInt.toNat = 0
  omega

section
variable {env : Environment} {raw conf : ConfigSettings}

theorem attempts_iff (h : Accepted env raw conf) :
    (∀ check ∈ conf.allChecks, 1 ≤ check.service.attempts.toInt) ↔
      ∀ r ∈ raw.written, 0 ≤ r.service.attempts.toInt := by
  have hone : (1 : Int) ≤ (1 : Int64).toInt := by decide
  constructor
  · intro hall r hr
    obtain ⟨check, hcheck, _, hchecked⟩ := h.exists_check hr
    have hpos := hall check hcheck
    rw [hchecked.attempts] at hpos
    exact (one_le_default hone).mp hpos
  · intro hall check hcheck
    obtain ⟨r, hr, _, hchecked⟩ := h.exists_written hcheck
    rw [hchecked.attempts]
    exact (one_le_default hone).mpr (hall r hr)

theorem one_le_jitter_iff (h : Accepted env raw conf) :
    1 ≤ conf.miscSettings.jitter.toInt ↔ 0 ≤ raw.miscSettings.jitter.toInt := by
  rw [h.misc, jitter_withDefaults]
  exact one_le_default (by decide)

theorem one_le_points_iff (h : Accepted env raw conf) :
    1 ≤ conf.miscSettings.points.toInt ↔ 0 ≤ raw.miscSettings.points.toInt := by
  rw [h.misc, points_withDefaults]
  exact one_le_default (by decide)

theorem one_le_slaThreshold_iff (h : Accepted env raw conf) :
    1 ≤ conf.miscSettings.slaThreshold.toInt ↔ 0 ≤ raw.miscSettings.slaThreshold.toInt := by
  rw [h.misc, slaThreshold_withDefaults]
  exact one_le_default (by decide)

/-- The default does not come near the bound. -/
theorem jitter_lt_iff (h : Accepted env raw conf) :
    conf.miscSettings.jitter.toInt < 2 ^ 62 ↔ raw.miscSettings.jitter.toInt < 2 ^ 62 := by
  rw [h.misc, jitter_withDefaults]
  split
  · rename_i hzero
    rw [hzero]
    decide
  · rfl

/-- With the jitter positive and below the delay, the timeout is positive unless a
negative one was written. -/
theorem one_le_timeout_iff {ssl : SslConfig} {misc : Config.MiscConfig}
    (hdelay : 2 ≤ (misc.withDefaults ssl).delay.toInt) :
    1 ≤ (misc.withDefaults ssl).timeout.toInt ↔ 0 ≤ misc.timeout.toInt := by
  rw [timeout_withDefaults]
  apply one_le_default
  have htwo : (2 : Int64).toInt = 2 := by decide
  have hhi := (misc.withDefaults ssl).delay.toInt_lt
  rw [Int64.toInt_div, htwo, Int.tdiv_eq_ediv_of_nonneg (by omega), Int.bmod_eq_of_le] <;> omega

theorem Sensible.fits (h : Accepted env raw conf) (hs : Sensible raw)
    (hdelay : raw.miscSettings.delay.toInt ≤ maxSeconds) : Fits conf.miscSettings := by
  have hlt := Int64.lt_iff_toInt_lt.mp h.jitter_lt
  refine ⟨?_, hlt, ?_⟩
  · exact (one_le_jitter_iff h).mpr hs.jitter
  · rw [h.misc, delay_withDefaults]
    split
    · decide
    · exact hdelay

/-- Every round of a sensible file takes some time. -/
theorem Sensible.roundTime_pos (h : Accepted env raw conf) (hs : Sensible raw) {draw : Int64}
    (hdraw : Drawn conf.miscSettings draw) : 0 < roundTime conf.miscSettings draw := by
  obtain hdelay | hall := hs.delay
  · have hfits := hs.fits h hdelay
    have hlo := (hfits.drawn_iff.mp hdraw).1
    have hlt := hfits.jitter_lt
    rw [roundTime_of_fits hfits hdraw]
    omega
  · rw [h.misc] at hdraw ⊢
    exact hall draw hdraw

/-- An accepted configuration is safe exactly if the file was sensible. -/
theorem roundSafe_iff (h : Accepts env raw conf) : RoundSafe conf ↔ Sensible raw := by
  have hacc := h.accepted
  have hlt := Int64.lt_iff_toInt_lt.mp hacc.jitter_lt
  have htimeout : 1 ≤ conf.miscSettings.jitter.toInt →
      (1 ≤ conf.miscSettings.timeout.toInt ↔ 0 ≤ raw.miscSettings.timeout.toInt) := by
    intro hone
    have hdelay : 2 ≤ (raw.miscSettings.withDefaults raw.sslSettings).delay.toInt := by
      rw [← hacc.misc]
      omega
    rw [hacc.misc]
    exact one_le_timeout_iff hdelay
  constructor
  · intro hsafe
    exact
      { jitter := (one_le_jitter_iff hacc).mp hsafe.jitter.1
        timeout := (htimeout hsafe.jitter.1).mp hsafe.timeout.1
        points := (one_le_points_iff hacc).mp hsafe.points
        slaThreshold := (one_le_slaThreshold_iff hacc).mp hsafe.slaThreshold
        attempts := (attempts_iff hacc).mp hsafe.attempts
        jitter_lt := (jitter_lt_iff hacc).mp ((two_mul_pos_iff hsafe.jitter.1).mp hsafe.intn)
        delay := by
          refine .inr fun draw hdraw => ?_
          rw [← hacc.misc] at hdraw ⊢
          exact lt_nextRoundStartTime_iff.mp (hsafe.next 0 draw hdraw) }
  · intro hs
    have hone := (one_le_jitter_iff hacc).mpr hs.jitter
    have hattempts := (attempts_iff hacc).mpr hs.attempts
    exact
      { jitter := ⟨hone, hlt⟩
        timeout := by
          have hT := Int64.lt_iff_toInt_lt.mp hacc.timeout_lt
          have hhi := conf.miscSettings.delay.toInt_lt
          rw [toInt_sub_of_fits (by omega) (by omega)] at hT
          exact ⟨(htimeout hone).mpr hs.timeout, hT⟩
        points := (one_le_points_iff hacc).mpr hs.points
        slaThreshold := (one_le_slaThreshold_iff hacc).mpr hs.slaThreshold
        attempts := hattempts
        intn := (two_mul_pos_iff hone).mpr ((jitter_lt_iff hacc).mpr hs.jitter_lt)
        next := fun now draw hdraw => lt_nextRoundStartTime_iff.mpr (hs.roundTime_pos hacc hdraw)
        loadSLAs := isSome_loadSLAs ((one_le_slaThreshold_iff hacc).mpr hs.slaThreshold)
        runs := by
          intro around teams round deadline now outcome x hx
          exact one_le_attemptsMade (hattempts x.2 ((mem_enqueued around).mp hx).1.2) now outcome }

end

/-- The defaults are safe. -/
theorem roundSafe_defaults :
    RoundSafe (setConfig .plain {} (smallFile {} {ping := [{}]})) := by
  have haccepted : Accepts .plain (smallFile {} {ping := [{}]})
      (setConfig .plain {} (smallFile {} {ping := [{}]})) := by decide +kernel
  refine (roundSafe_iff haccepted).mpr ⟨?_, ?_, ?_, ?_, ?_, ?_, .inl ?_⟩ <;> decide +kernel

/-- A negative jitter is accepted: the jitter is not at least one. -/
theorem negative_jitter_not_safe :
    Accepts .plain (smallFile {jitter := -5} {ping := [{}]})
      (setConfig .plain {} (smallFile {jitter := -5} {ping := [{}]})) ∧
    ¬RoundSafe (setConfig .plain {} (smallFile {jitter := -5} {ping := [{}]})) := by
  refine ⟨by decide +kernel, fun hsafe => ?_⟩
  have hjitter := hsafe.jitter.1
  revert hjitter
  decide +kernel

end QuotientScoring.Engine
