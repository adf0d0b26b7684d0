import QuotientScoring.Engine.Config
import QuotientScoring.Engine.SLA

/-! Which SLA settings the scoring goes by.

A check may have an SLA threshold and penalty of its own, and `Configure` fills in
the settings for all checks where it has none. The scoring never looks at the
check: every service is charged by the settings for all. `service_settings_iff`:
what is charged for a check is what its own settings call for exactly if they
come to the same. A threshold below one, which is accepted, charges every
failure, as one does. -/
namespace QuotientScoring.Engine
open DB Checks

/-- The settings the scoring reads. -/
def scoringOf (misc : Config.MiscConfig) : MiscConfig :=
  ⟨misc.slaThreshold.toInt, misc.slaPenalty.toInt⟩

/-- The rows called for: one for every `threshold` consecutive failures of the service. -/
def chargedBy (threshold penalty : Int) (t : Nat) (n : GoString) (h : List Handed) :
    List SLASchema :=
  (FailureRun.marks Event.failed (max threshold 1) (ofService t n (eventsOf h))).map
    (fun e => ⟨t, e.round, n, penalty⟩)

/-! ### Thresholds below one -/

def MiscConfig.atLeastOne (conf : MiscConfig) : MiscConfig :=
  {conf with slaThreshold := max conf.slaThreshold 1}

/-- While a counter is not negative, a threshold below one works as one. -/
theorem recordSLA_atLeastOne (conf : MiscConfig) (round : Nat) (ok : Bool) (st : Scoring)
    (result : Result)
    (h0 : 0 ≤ (st.slaPerService.find? result.teamID result.serviceName).getD 0) :
    recordSLA conf round ok st result = recordSLA conf.atLeastOne round ok st result := by
  have hreach : (st.slaPerService.find? result.teamID result.serviceName).getD 0 + 1 ≥
      conf.slaThreshold ↔ (st.slaPerService.find? result.teamID result.serviceName).getD 0 + 1 ≥
      max conf.slaThreshold 1 := by omega
  simp only [recordSLA, MiscConfig.atLeastOne, GoMap₂.get_ensure, GoMap₂.get_put_self, hreach]

/-- The rows written, whatever the threshold. -/
theorem charged_atLeastOne (conf : MiscConfig) (h : List Handed) {db : Database}
    (hdb : db.slas = []) :
    Charged conf.atLeastOne (eventsOf h) (processHistory conf h {db := db}).db := by
  have hT : 1 ≤ conf.atLeastOne.slaThreshold := Int.le_max_right ..
  refine (history_induction (P := fun events st =>
      SLACounted conf.atLeastOne events st.slaPerService ∧ Charged conf.atLeastOne events st.db)
    (fun _ _ _ hP => hP) ?_ ⟨fun _ _ => rfl, charged_empty hdb⟩ h).2
  intro events st e hP
  have h0 : 0 ≤ (st.slaPerService.find? e.result.teamID e.result.serviceName).getD 0 := by
    rw [hP.1, FailureRun.counter_getD]
    exact Int.emod_nonneg _ (by omega)
  have hsame : processResult conf e.round true st e.result =
      processResult conf.atLeastOne e.round true st e.result :=
    recordSLA_atLeastOne conf e.round true _ e.result h0
  rw [hsame]
  exact ⟨hP.1.processResult hT e true, hP.2.processResult hP.1 hT e⟩

/-- A service is charged by the settings for all checks. -/
theorem slasOf_history (misc : Config.MiscConfig) (t : Nat) (n : GoString) (h : List Handed) :
    slasOf t n (processHistory (scoringOf misc) h {}).db =
      chargedBy misc.slaThreshold.toInt misc.slaPenalty.toInt t n h := by
  rw [charged_atLeastOne (scoringOf misc) h rfl t n]
  refine List.map_congr_left fun e he => ?_
  have hmem := (List.mem_filter.mp (FailureRun.mem_of_mem_marks _ he)).2
  obtain ⟨ht, hn⟩ := Result.key_eq.mp (of_decide_eq_true hmem)
  simp [Event.sla, slaRow, ht, hn, MiscConfig.atLeastOne, scoringOf]

/-! ### Telling two settings apart -/

/-- A failed check of the service in round `i`. -/
def failureIn (t : Nat) (n : GoString) (i : Nat) : Handed :=
  ⟨i, [⟨n, t, false, [], [], 0, [], 0⟩]⟩

def failures (t : Nat) (n : GoString) (k : Nat) : List Handed :=
  (List.range k).map (failureIn t n)

theorem failures_succ (t : Nat) (n : GoString) (k : Nat) :
    failures t n (k + 1) = failures t n k ++ [failureIn t n k] := by
  simp [failures, List.range_succ]

theorem ofService_failures_succ (t : Nat) (n : GoString) (k : Nat) :
    ofService t n (eventsOf (failures t n (k + 1))) =
      ofService t n (eventsOf (failures t n k)) ++ [⟨k, ⟨n, t, false, [], [], 0, [], 0⟩⟩] := by
  rw [failures_succ, eventsOf_concat, ofService_append]
  congr 1
  simp [failureIn, Handed.events, ofService, Result.key]

theorem current_failures (t : Nat) (n : GoString) (k : Nat) :
    FailureRun.current Event.failed (ofService t n (eventsOf (failures t n k))) = k := by
  induction k with
  | zero => rfl
  | succ k ih =>
    rw [ofService_failures_succ, FailureRun.current_concat, ih]
    rfl

/-- Fewer failures than the threshold are not charged; the first row comes with the
last of them. -/
theorem chargedBy_failures (threshold penalty : Int) (t : Nat) (n : GoString) (k : Nat)
    (hk : (k : Int) < max threshold 1) : chargedBy threshold penalty t n (failures t n k) = [] ∧
      chargedBy threshold penalty t n (failures t n (k + 1)) =
        if (k : Int) + 1 = max threshold 1 then [⟨t, k, n, penalty⟩] else [] := by
  have hdue : ∀ k : Nat, (k : Int) < max threshold 1 →
      FailureRun.due Event.failed (max threshold 1)
        (ofService t n (eventsOf (failures t n (k + 1)))) =
        decide ((k : Int) + 1 = max threshold 1) := by
    intro k hk
    rw [FailureRun.due, current_failures, Int.natCast_succ]
    have hdvd : max threshold 1 ∣ (k : Int) + 1 ↔ (k : Int) + 1 = max threshold 1 := by
      constructor
      · intro hd
        have := Int.le_of_dvd (by omega) hd
        omega
      · intro heq
        rw [heq]
    simp [hdvd]
  have hnone : chargedBy threshold penalty t n (failures t n k) = [] := by
    induction k with
    | zero => rfl
    | succ k ih =>
      have hlt : (k : Int) < max threshold 1 := by omega
      have hne : ¬(k : Int) + 1 = max threshold 1 := by omega
      have hbefore := ih hlt
      unfold chargedBy at hbefore ⊢
      rw [List.map_eq_nil_iff] at hbefore
      rw [ofService_failures_succ, FailureRun.marks_concat, ← ofService_failures_succ, hdue k hlt,
        hbefore]
      simp [hne]
  refine ⟨hnone, ?_⟩
  unfold chargedBy at hnone ⊢
  rw [List.map_eq_nil_iff] at hnone
  rw [ofService_failures_succ, FailureRun.marks_concat, ← ofService_failures_succ, hdue k hk,
    hnone]
  split <;> simp_all

/-- Two settings charge every history of a service alike only if they are the same,
but for thresholds below one. -/
theorem chargedBy_iff {threshold threshold' penalty penalty' : Int} {n : GoString} :
    (∀ (t : Nat) (h : List Handed),
      chargedBy threshold penalty t n h = chargedBy threshold' penalty' t n h) ↔
    max threshold 1 = max threshold' 1 ∧ penalty = penalty' := by
  constructor
  · intro hall
    obtain ⟨k, hk⟩ : ∃ k : Nat, (k : Int) + 1 = min (max threshold 1) (max threshold' 1) :=
      ⟨(min (max threshold 1) (max threshold' 1) - 1).toNat, by omega⟩
    have hsame := hall 1 (failures 1 n (k + 1))
    rw [(chargedBy_failures threshold penalty 1 n k (by omega)).2,
      (chargedBy_failures threshold' penalty' 1 n k (by omega)).2] at hsame
    split at hsame
    · split at hsame
      · rename_i h1 h2
        have hpenalty : penalty = penalty' := by simpa using hsame
        exact ⟨by omega, hpenalty⟩
      · cases hsame
    · split at hsame
      · cases hsame
      · omega
  · intro ⟨hthreshold, hpenalty⟩ t h
    rw [chargedBy, chargedBy, hthreshold, hpenalty]

/-! ### The settings of a check -/

/-- A default for zero agrees with the setting for all exactly if there is none, or an
equal one. -/
theorem default_iff (f : Int64 → Int) {n d : Int64} :
    f d = f (if n = 0 then d else n) ↔ n = 0 ∨ f n = f d := by
  rw [eq_comm]
  split
  · rename_i h
    simp [h]
  · rename_i h
    simp [h]

/-- A check of an accepted configuration comes from one in the file, and every history of
a team on it is charged by its own threshold and penalty, exactly if the file gives
that check none, or those for all checks. -/
theorem service_settings_iff {env : Config.Environment} {raw conf : Config.ConfigSettings}
    (h : Config.Accepts env raw conf) {check : Checks.Runner} (hcheck : check ∈ conf.allChecks) :
    ∃ r ∈ raw.written, ∃ box : Config.Box,
      Config.Checked env (Config.verifyArgs conf.miscSettings box) r check ∧
      ((∀ (t : Nat) (history : List Handed),
        slasOf t check.service.name
            (processHistory (scoringOf conf.miscSettings) history {}).db =
          chargedBy check.service.slaThreshold.toInt check.service.slaPenalty.toInt t
            check.service.name history) ↔
        (r.service.slaThreshold = 0 ∨
          max r.service.slaThreshold.toInt 1 = max conf.miscSettings.slaThreshold.toInt 1) ∧
        (r.service.slaPenalty = 0 ∨ r.service.slaPenalty = conf.miscSettings.slaPenalty)) := by
  obtain ⟨r, hr, box, hchecked⟩ := h.accepted.exists_written hcheck
  refine ⟨r, hr, box, hchecked, ?_⟩
  have hthreshold := hchecked.slaThreshold
  have hpenalty := hchecked.slaPenalty
  simp only [slasOf_history]
  rw [chargedBy_iff, hthreshold, hpenalty]
  apply and_congr
  · exact default_iff (fun n => max n.toInt 1)
  · rw [← Int64.toInt_inj (y := conf.miscSettings.slaPenalty)]
    exact default_iff Int64.toInt

/-- A check that overrides nothing is charged by its own settings. -/
theorem service_settings_default :
    let conf := Config.setConfig .plain {} (Config.smallFile {} {ping := [{}]})
    Config.Accepts .plain (Config.smallFile {} {ping := [{}]}) conf ∧
    ∀ check ∈ conf.allChecks, ∀ (t : Nat) (history : List Handed),
      slasOf t check.service.name
          (processHistory (scoringOf conf.miscSettings) history {}).db =
        chargedBy check.service.slaThreshold.toInt check.service.slaPenalty.toInt t
          check.service.name history := by
  intro conf
  have haccepted : Config.Accepts .plain (Config.smallFile {} {ping := [{}]}) conf := by
    decide +kernel
  refine ⟨haccepted, fun check hcheck => ?_⟩
  have hwritten : (Config.smallFile {} {ping := [{}]}).written = [.ping {}] := by decide +kernel
  obtain ⟨r, hr, -, -, hiff⟩ := service_settings_iff haccepted hcheck
  rw [hwritten, List.mem_singleton] at hr
  subst hr
  exact hiff.mpr ⟨.inl rfl, .inl rfl⟩

/-- A check with a threshold of two is not charged for two failures in a row. -/
theorem service_threshold_ignored :
    let raw := Config.smallFile {} {ping := [{slaThreshold := 2}]}
    let conf := Config.setConfig .plain {} raw
    Config.Accepts .plain raw conf ∧
    ¬∀ check ∈ conf.allChecks, ∀ (t : Nat) (history : List Handed),
      slasOf t check.service.name
          (processHistory (scoringOf conf.miscSettings) history {}).db =
        chargedBy check.service.slaThreshold.toInt check.service.slaPenalty.toInt t
          check.service.name history := by
  intro raw conf
  refine ⟨by decide +kernel, fun hall => ?_⟩
  have hcheck : ∃ check ∈ conf.allChecks,
      let history := failures 1 check.service.name 2
      slasOf 1 check.service.name (processHistory (scoringOf conf.miscSettings) history {}).db ≠
        chargedBy check.service.slaThreshold.toInt check.service.slaPenalty.toInt 1
          check.service.name history := by decide +kernel
  obtain ⟨check, hmem, hne⟩ := hcheck
  exact hne (hall check hmem 1 _)

end QuotientScoring.Engine
