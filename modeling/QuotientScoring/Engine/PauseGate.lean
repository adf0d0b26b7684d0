import Mathlib.Data.Fintype.Basic
import Mathlib.Logic.Function.Basic
import QuotientScoring.Lib.Transition

/-! The pause gate.

`IsEnginePaused` is a flag, and `EnginePauseWg` the group the engine loop waits for between two
rounds. A request to pause adds one to the group and sets the flag, a request to resume
takes one away and clears it, and `Start` clears the flag and installs a fresh group. No lock
keeps them apart: `PauseGate.request` and `PauseGate.restart` go from one point at which
another may come in between to the next.

Two requests that both pass the test count twice, up or down: `gate_miscounts`. A restart by
itself takes the flag and the counter apart between its steps. `GateOrder` is which steps must
wait for which, and the counter of a gate so run follows the flag: `gate_counts`. -/
namespace QuotientScoring.Engine
open Transition

/-! ### What runs through the gate -/

/-- To what a call sets the flag, and what it adds to the group before. -/
structure GateCall where
  sets : Bool
  adds : Int

def pauseEngine : GateCall := ⟨true, 1⟩

def resumeEngine : GateCall := ⟨false, -1⟩

/-- Where a request is: before the handler's test, at the test of the call, at its `Add` or
`Done`, at its setting of the flag, or answered. -/
inductive GatePhase where
  | asked
  | called
  | counting
  | setting
  | done
deriving DecidableEq, Repr

/-- Where `Start` is: before or after what it does to the gate, or behind one of its steps. -/
inductive StartPhase where
  | outside
  | cleared
  | installed
  | flagged
deriving DecidableEq, Repr

/-- The gate, with the requests that are ever made. There is no group before `Start` has
installed the first. -/
structure PauseGate (κ : Type) where
  paused : Bool := false
  wg : Option Int := none
  start : StartPhase := .outside
  pause : κ → Bool
  phase : κ → GatePhase := fun _ => .asked

inductive GateStep (κ : Type) where
  | request (i : κ)
  /-- The value of `StartPaused` matters where it is read. -/
  | start (startPaused : Bool)

namespace PauseGate
variable {κ : Type}

/-- What the handler calls for a request. -/
def call (s : PauseGate κ) (i : κ) : GateCall := if s.pause i then pauseEngine else resumeEngine

section Steps
variable [DecidableEq κ]

def enter (s : PauseGate κ) (i : κ) (phase : GatePhase) : PauseGate κ :=
  {s with phase := Function.update s.phase i phase}

/-- The counter changes before `Add` panics at a negative one. The server recovers from the
panic of a handler, here and where there is no group, and the flag is not set. -/
def count (s : PauseGate κ) (i : κ) : PauseGate κ :=
  match s.wg with
  | none => s.enter i .done
  | some n =>
    let n' := n + (s.call i).adds
    {s.enter i (if n' < 0 then .done else .setting) with wg := some n'}

def request (s : PauseGate κ) (i : κ) : Option (PauseGate κ) :=
  match s.phase i with
  | .asked =>
    -- The handler reads the flag for each of its two tests; only one of them depends on it.
    some (s.enter i
      (if s.paused && !s.pause i || !s.paused && s.pause i then .called else .done))
  | .called => some (s.enter i (if s.paused = (s.call i).sets then .done else .counting))
  | .counting => some (s.count i)
  | .setting => some {s.enter i .done with paused := (s.call i).sets}
  | .done => none

end Steps

def restart (s : PauseGate κ) (startPaused : Bool) : PauseGate κ :=
  match s.start with
  | .outside => {s with paused := false, start := .cleared}
  | .cleared =>
    {s with wg := some 0, start := if startPaused then .installed else .outside}
  | .installed => {s with paused := true, start := .flagged}
  | .flagged => {s with wg := s.wg.map (· + 1), start := .outside}

/-- No request is in progress. -/
def Quiet (s : PauseGate κ) : Prop := ∀ i, s.phase i = .asked ∨ s.phase i = .done

def counted (paused : Bool) : Int := if paused then 1 else 0

/-- The counter is not negative, and follows the flag whenever the gate is quiet. -/
def Counts (s : PauseGate κ) : Prop :=
  ∀ n, s.wg = some n → 0 ≤ n ∧ (s.Quiet → n = counted s.paused)

/-! ### An order of the steps -/

/-- A request may count outside a restart, if the flag still differs from what it sets and
nobody else is about to set it; and in the group that a restart is about to replace, if
the counter stays above zero. -/
def MayCount (s : PauseGate κ) (i : κ) : Prop :=
  (s.start = .outside ∧ s.paused ≠ s.pause i ∧ ∀ j, s.phase j ≠ .setting) ∨
    (s.start = .cleared ∧ (s.pause i = true ∨ s.wg ≠ some 0))

/-- A fresh group may be installed if whoever has set the flag since it was cleared, or is
about to set it, sets it to what the restart leaves. -/
def MayInstall (s : PauseGate κ) (startPaused : Bool) : Prop :=
  (s.paused = true → startPaused = true) ∧ ∀ j, s.phase j = .setting → s.pause j = startPaused

/-- The step of a restart that nobody's request is beside: the flag is clear when it is cleared,
and is not set again before the counter is. -/
def MayRestart (s : PauseGate κ) (startPaused : Bool) : Prop :=
  (s.start = .outside → s.paused = false) ∧
    (s.start = .cleared → startPaused = true → s.paused = false) ∧ s.start ≠ .installed

/-- A request leaves the flag as it sets it, by its next step. -/
def Ends (s : PauseGate κ) (i : κ) : Prop :=
  s.phase i = .setting ∨ (s.phase i = .called ∧ s.paused = s.pause i)

/-- Between two steps of a restart the last request in progress may end if the counter is what it
leaves the flag at. -/
def MayEnd (s : PauseGate κ) (i : κ) : Prop :=
  (s.start = .cleared → ∀ n ∈ s.wg, n = counted (s.pause i)) ∧
    (s.start = .installed → s.pause i = false) ∧ s.start ≠ .flagged

/-- Nobody else has a request in progress. -/
def LastOne (s : PauseGate κ) (i : κ) : Prop :=
  ∀ j, j ≠ i → s.phase j = .asked ∨ s.phase j = .done

end PauseGate

variable {κ : Type}

def GateOrder (s : PauseGate κ) : GateStep κ → Prop
  | .request i => (s.phase i = .counting → s.MayCount i) ∧ (s.Ends i → s.LastOne i → s.MayEnd i)
  | .start startPaused =>
    (s.start = .cleared → s.MayInstall startPaused) ∧ (s.Quiet → s.MayRestart startPaused)

section Decidability
variable [Fintype κ] [DecidableEq κ] (s : PauseGate κ) (i : κ) (startPaused : Bool)

instance : Decidable (s.MayCount i) := inferInstanceAs (Decidable ((_ ∧ _ ∧ _) ∨ (_ ∧ (_ ∨ _))))

instance : Decidable (s.MayInstall startPaused) := inferInstanceAs (Decidable ((_ → _) ∧ _))

instance : Decidable (s.MayRestart startPaused) :=
  inferInstanceAs (Decidable ((_ → _) ∧ (_ → _ → _) ∧ _))

instance : Decidable (s.Ends i) := inferInstanceAs (Decidable (_ ∨ _))

instance : Decidable (s.MayEnd i) := inferInstanceAs (Decidable ((_ → _) ∧ (_ → _) ∧ _))

instance : Decidable (s.LastOne i) := inferInstanceAs (Decidable (∀ _, _))

instance PauseGate.decidableQuiet : Decidable s.Quiet := inferInstanceAs (Decidable (∀ _, _))

instance : (a : GateStep κ) → Decidable (GateOrder s a)
  | .request _ => inferInstanceAs (Decidable ((_ → _) ∧ (_ → _ → _)))
  | .start _ => inferInstanceAs (Decidable ((_ → _) ∧ (_ → _)))

end Decidability

/-- Any requests, all still to be made, and `Start` before its first run. -/
def pauseGate (κ : Type) [DecidableEq κ] : System (PauseGate κ) (GateStep κ) where
  initial s := s.paused = false ∧ s.wg = none ∧ s.start = .outside ∧ ∀ i, s.phase i = .asked
  step s
    | .request i => s.request i
    | .start startPaused => some (s.restart startPaused)

/-! ### The counter follows the flag -/

namespace PauseGate

/-- The flag is `t` once every request that is about to set it has done so. -/
structure Settles (s : PauseGate κ) (t : Bool) : Prop where
  sets : ∀ i, s.phase i = .setting → s.pause i = t
  flag : (∀ i, s.phase i ≠ .setting) → s.paused = t

structure Gated (s : PauseGate κ) : Prop where
  nonneg : ∀ n, s.wg = some n → 0 ≤ n
  settles : s.start = .outside → ∀ n, s.wg = some n → ∃ t, n = counted t ∧ s.Settles t
  fresh : s.start = .installed ∨ s.start = .flagged →
    s.wg = some 0 ∧ ∀ i, s.phase i = .setting → s.pause i = true
  flagged : s.start = .flagged → s.paused = true

/-- In the middle of a restart too the counter follows the flag where no request is in progress. -/
def Shown (s : PauseGate κ) : Prop :=
  s.start ≠ .outside → s.Quiet → ∀ n ∈ s.wg, n = counted s.paused

theorem counted_nonneg (t : Bool) : 0 ≤ counted t := by
  cases t <;> decide

theorem Quiet.not_setting {s : PauseGate κ} (h : s.Quiet) (i : κ) : s.phase i ≠ .setting := by
  rcases h i with hi | hi <;> simp [hi]

theorem Gated.counts {s : PauseGate κ} (h : s.Gated) (hshown : s.Shown) : s.Counts := by
  intro n hn
  refine ⟨h.nonneg n hn, fun hquiet => ?_⟩
  by_cases hstart : s.start = .outside
  · obtain ⟨t, rfl, hsettles⟩ := h.settles hstart n hn
    rw [hsettles.flag hquiet.not_setting]
  · exact hshown hstart hquiet n hn

theorem call_sets (s : PauseGate κ) (i : κ) : (s.call i).sets = s.pause i := by
  unfold call
  cases s.pause i <;> rfl

/-- A call that changes the flag changes the counter that follows it by as much. -/
theorem counted_add (s : PauseGate κ) {i : κ} {t : Bool} (h : t ≠ s.pause i) :
    counted t + (s.call i).adds = counted (s.pause i) := by
  unfold call
  cases hp : s.pause i <;> cases t <;> simp_all [counted, pauseEngine, resumeEngine]

/-- A call that may count in the group about to be replaced leaves its counter above zero. -/
theorem Gated.add_nonneg {s : PauseGate κ} (h : s.Gated) {i : κ} {n : Int} (hwg : s.wg = some n)
    (hroom : s.pause i = true ∨ s.wg ≠ some 0) : 0 ≤ n + (s.call i).adds := by
  have hn := h.nonneg n hwg
  rcases hroom with hpause | hpos
  · simp only [call, hpause, if_true, pauseEngine]
    omega
  · have hne : n ≠ 0 := fun heq => hpos (hwg.trans (congrArg some heq))
    unfold call
    split <;> simp only [pauseEngine, resumeEngine] <;> omega

theorem Gated.initial [DecidableEq κ] {s : PauseGate κ} (h : (pauseGate κ).initial s) :
    s.Gated := by
  obtain ⟨-, hwg, hstart, -⟩ := h
  exact
    { nonneg := fun n hn => by simp [hwg] at hn
      settles := fun _ n hn => by simp [hwg] at hn
      fresh := fun hfresh => by simp [hstart] at hfresh
      flagged := fun hflagged => by simp [hstart] at hflagged }

section Requests
variable [DecidableEq κ] {s : PauseGate κ} {i : κ}

/-- Who is about to set the flag after `i` has entered a phase in which it is not. -/
theorem setting_of_enter {p : GatePhase} (hp : p ≠ .setting) {j : κ}
    (h : (s.enter i p).phase j = .setting) : s.phase j = .setting ∧ j ≠ i := by
  by_cases hji : j = i
  · subst hji
    exact absurd (by simpa [enter] using h) hp
  · exact ⟨by simpa [enter, Function.update_of_ne hji] using h, hji⟩

theorem enter_ne_setting {p : GatePhase} (hi : s.phase i ≠ .setting)
    (h : ∀ j, (s.enter i p).phase j ≠ .setting) (j : κ) : s.phase j ≠ .setting := by
  by_cases hji : j = i
  · exact hji ▸ hi
  · simpa [enter, Function.update_of_ne hji] using h j

/-- A request that neither counts nor sets the flag changes nothing for the others. -/
theorem Gated.enter (h : s.Gated) {p : GatePhase} (hi : s.phase i ≠ .setting)
    (hp : p ≠ .setting) : (s.enter i p).Gated where
  nonneg := h.nonneg
  settles hstart n hn := by
    obtain ⟨t, ht, hsettles⟩ := h.settles hstart n hn
    exact ⟨t, ht, fun j hj => hsettles.sets j (setting_of_enter hp hj).1,
      fun hnone => hsettles.flag (enter_ne_setting hi hnone)⟩
  fresh hfresh :=
    ⟨(h.fresh hfresh).1, fun j hj => (h.fresh hfresh).2 j (setting_of_enter hp hj).1⟩
  flagged := h.flagged

/-- Outside a restart nobody else is about to set the flag, so that the counter follows it. -/
theorem Gated.count_outside (h : s.Gated) {n : Int} (hwg : s.wg = some n)
    (hstart : s.start = .outside) (hflag : s.paused ≠ s.pause i)
    (hnone : ∀ j, s.phase j ≠ .setting) : (s.count i).Gated := by
  obtain ⟨t, rfl, hsettles⟩ := h.settles hstart n hwg
  obtain rfl : s.paused = t := hsettles.flag hnone
  have hnonneg := counted_nonneg (s.pause i)
  have hcount : s.count i = {s.enter i .setting with wg := some (counted (s.pause i))} := by
    simp only [PauseGate.count, hwg, s.counted_add hflag, if_neg (Int.not_lt.mpr hnonneg)]
  rw [hcount]
  refine
    { nonneg := fun m hm => ?_
      settles := fun _ m hm => ⟨s.pause i, (Option.some.inj hm).symm, ?_⟩
      fresh := fun hfresh => absurd hfresh (by simp [PauseGate.enter, hstart])
      flagged := fun hflagged => absurd hflagged (by simp [PauseGate.enter, hstart]) }
  · rw [← Option.some.inj hm]
    exact hnonneg
  · refine ⟨fun j hj => ?_, fun hset => absurd ?_ (hset i)⟩
    · by_cases hji : j = i
      · exact congrArg s.pause hji
      · exact absurd (by simpa [PauseGate.enter, Function.update_of_ne hji] using hj) (hnone j)
    · simp [PauseGate.enter]

/-- Of the group about to be replaced it matters only that the counter stays above zero. -/
theorem Gated.count_cleared (h : s.Gated) {n : Int} (hwg : s.wg = some n)
    (hstart : s.start = .cleared) (hroom : s.pause i = true ∨ s.wg ≠ some 0) :
    (s.count i).Gated := by
  simp only [PauseGate.count, hwg]
  refine
    { nonneg := fun m hm => ?_
      settles := fun hout => absurd hout (by simp [PauseGate.enter, hstart])
      fresh := fun hfresh => absurd hfresh (by simp [PauseGate.enter, hstart])
      flagged := fun hflagged => absurd hflagged (by simp [PauseGate.enter, hstart]) }
  obtain rfl : n + (s.call i).adds = m := Option.some.inj hm
  exact h.add_nonneg hwg hroom

theorem Gated.count (h : s.Gated) (hi : s.phase i = .counting) (hmay : s.MayCount i) :
    (s.count i).Gated := by
  cases hwg : s.wg with
  | none =>
    rw [show s.count i = s.enter i .done by simp only [PauseGate.count, hwg]]
    exact h.enter (by simp [hi]) (by simp)
  | some n =>
    rcases hmay with ⟨hstart, hflag, hnone⟩ | ⟨hstart, hroom⟩
    · exact h.count_outside hwg hstart hflag hnone
    · exact h.count_cleared hwg hstart hroom

/-- What a request sets the flag to is what all that are about to set it do. -/
theorem Gated.set (h : s.Gated) (hi : s.phase i = .setting) :
    ({s.enter i .done with paused := (s.call i).sets} : PauseGate κ).Gated where
  nonneg := h.nonneg
  settles hstart n hn := by
    obtain ⟨t, ht, hsettles⟩ := h.settles hstart n hn
    exact ⟨t, ht, fun j hj => hsettles.sets j (setting_of_enter (by simp) hj).1,
      fun _ => (call_sets s i).trans (hsettles.sets i hi)⟩
  fresh hfresh :=
    ⟨(h.fresh hfresh).1, fun j hj => (h.fresh hfresh).2 j (setting_of_enter (by simp) hj).1⟩
  flagged hflagged := (call_sets s i).trans ((h.fresh (.inr hflagged)).2 i hi)

theorem Gated.request (h : s.Gated) {s' : PauseGate κ} (horder : GateOrder s (.request i))
    (hstep : s.request i = some s') : s'.Gated := by
  unfold PauseGate.request at hstep
  cases hi : s.phase i with
  | asked =>
    simp only [hi, Option.some.injEq] at hstep
    rw [← hstep]
    exact h.enter (by simp [hi]) (by split <;> simp)
  | called =>
    simp only [hi, Option.some.injEq] at hstep
    rw [← hstep]
    exact h.enter (by simp [hi]) (by split <;> simp)
  | counting =>
    simp only [hi, Option.some.injEq] at hstep
    rw [← hstep]
    exact h.count hi (horder.1 hi)
  | setting =>
    simp only [hi, Option.some.injEq] at hstep
    rw [← hstep]
    exact h.set hi
  | done => simp [hi] at hstep

/-- Where a request has come to an end, whoever is in progress is somebody else. -/
theorem lastOne_of_quiet {p : GatePhase} (h : (s.enter i p).Quiet) : s.LastOne i := by
  intro j hj
  simpa [enter, Function.update_of_ne hj] using h j

/-- A request that does not end, or was not in progress, shows nothing new. -/
theorem Shown.enter (h : s.Shown) {p : GatePhase} (hp : p = .asked ∨ p = .done → s.phase i = .asked) :
    (s.enter i p).Shown := by
  intro hstart hquiet
  have hi : p = .asked ∨ p = .done := by simpa [PauseGate.enter] using hquiet i
  refine h hstart (fun j => ?_)
  by_cases hj : j = i
  · rw [hj]
    exact .inl (hp hi)
  · exact lastOne_of_quiet hquiet j hj

/-- The last request in progress leaves the flag as the counter says. -/
theorem Gated.shown_end (h : s.Gated) (hends : s.Ends i)
    (hend : s.Ends i → s.LastOne i → s.MayEnd i) :
    ({s.enter i .done with paused := s.pause i} : PauseGate κ).Shown := by
  intro hstart hquiet n hn
  obtain ⟨hcleared, hinstalled, hflagged⟩ := hend hends (lastOne_of_quiet hquiet)
  cases hs : s.start with
  | outside => exact absurd hs hstart
  | cleared => exact hcleared hs n hn
  | installed =>
    have hwg : some 0 = some n := (h.fresh (.inl hs)).1.symm.trans hn
    rw [← Option.some.inj hwg]
    show 0 = counted (s.pause i)
    rw [hinstalled hs]
    rfl
  | flagged => exact absurd hs hflagged

/-- A request that counts in the middle of a restart goes on to set the flag, if there is a
group. -/
theorem Gated.shown_count (h : s.Gated) (hmay : s.MayCount i) : (s.count i).Shown := by
  cases hwg : s.wg with
  | none =>
    rw [show s.count i = s.enter i .done by simp only [PauseGate.count, hwg]]
    intro _ _ n hn
    exact absurd hn (by simp [PauseGate.enter, hwg])
  | some m =>
    intro hstart hquiet
    simp only [PauseGate.count, hwg] at hstart hquiet
    rcases hmay with ⟨hout, -⟩ | ⟨-, hroom⟩
    · exact absurd hout hstart
    · have hi := hquiet i
      rw [if_neg (Int.not_lt.mpr (h.add_nonneg hwg hroom))] at hi
      simp [PauseGate.enter] at hi

theorem Shown.request (h : s.Shown) (hgated : s.Gated) {s' : PauseGate κ}
    (horder : GateOrder s (.request i)) (hstep : s.request i = some s') : s'.Shown := by
  unfold PauseGate.request at hstep
  cases hi : s.phase i with
  | asked =>
    simp only [hi, Option.some.injEq] at hstep
    rw [← hstep]
    exact h.enter (fun _ => hi)
  | called =>
    simp only [hi, Option.some.injEq, call_sets] at hstep
    rw [← hstep]
    by_cases hflag : s.paused = s.pause i
    · rw [if_pos hflag]
      have hends := hgated.shown_end (.inr ⟨hi, hflag⟩) horder.2
      rwa [← hflag] at hends
    · rw [if_neg hflag]
      exact h.enter (fun hp => by simp at hp)
  | counting =>
    simp only [hi, Option.some.injEq] at hstep
    rw [← hstep]
    exact hgated.shown_count (horder.1 hi)
  | setting =>
    simp only [hi, Option.some.injEq] at hstep
    rw [← hstep, call_sets]
    exact hgated.shown_end (.inl hi) horder.2
  | done => simp [hi] at hstep

end Requests

theorem Gated.restart {s : PauseGate κ} (h : s.Gated) {startPaused : Bool}
    (horder : GateOrder s (.start startPaused)) : (s.restart startPaused).Gated := by
  unfold PauseGate.restart
  cases hstart : s.start with
  | outside =>
    exact
      { nonneg := h.nonneg
        settles := fun hout => by simp at hout
        fresh := fun hfresh => by simp at hfresh
        flagged := fun hflagged => by simp at hflagged }
  | cleared =>
    obtain ⟨hflag, hset⟩ := horder.1 hstart
    cases startPaused with
    | false =>
      exact
        { nonneg := fun n hn => (Option.some.inj hn).le
          settles := fun _ n hn => ⟨false, (Option.some.inj hn).symm, hset,
            fun _ => Bool.eq_false_iff.mpr (fun hp => by simpa using hflag hp)⟩
          fresh := fun hfresh => by simp at hfresh
          flagged := fun hflagged => by simp at hflagged }
    | true =>
      exact
        { nonneg := fun n hn => (Option.some.inj hn).le
          settles := fun hout => by simp at hout
          fresh := fun _ => ⟨rfl, hset⟩
          flagged := fun hflagged => by simp at hflagged }
  | installed =>
    exact
      { nonneg := h.nonneg
        settles := fun hout => by simp at hout
        fresh := fun _ => h.fresh (.inl hstart)
        flagged := fun _ => rfl }
  | flagged =>
    obtain ⟨hwg, hset⟩ := h.fresh (.inr hstart)
    simp only [hwg, Option.map_some, Int.zero_add]
    exact
      { nonneg := fun n hn => by
          rw [← Option.some.inj hn]
          decide
        settles := fun _ n hn =>
          ⟨true, (Option.some.inj hn).symm, hset, fun _ => h.flagged hstart⟩
        fresh := fun hfresh => by simp at hfresh
        flagged := fun hflagged => by simp at hflagged }

theorem Shown.restart {s : PauseGate κ} (h : s.Gated) {startPaused : Bool}
    (horder : GateOrder s (.start startPaused)) : (s.restart startPaused).Shown := by
  obtain ⟨-, hquiet⟩ := horder
  unfold PauseGate.restart
  cases hstart : s.start with
  | outside =>
    intro _ hq n hn
    obtain ⟨t, rfl, hsettles⟩ := h.settles hstart n hn
    rw [← hsettles.flag (Quiet.not_setting hq), (hquiet hq).1 hstart]
  | cleared =>
    intro hout hq n hn
    cases startPaused with
    | false => exact absurd rfl hout
    | true =>
      rw [← Option.some.inj hn, show s.paused = false from (hquiet hq).2.1 hstart rfl]
      rfl
  | installed => exact fun _ hq => absurd hstart (hquiet hq).2.2
  | flagged => exact fun hout => absurd rfl hout

end PauseGate

/-- However many requests and restarts there are, the counter of a gate whose steps come in
order is never negative, and is one or nothing as the flag says in every state with no request in
progress. -/
theorem gate_counts [DecidableEq κ] {s : PauseGate κ} (h : Reachable (pauseGate κ) GateOrder s) :
    s.Counts := by
  have hboth : s.Gated ∧ s.Shown := by
    refine Reachable.invariant (I := fun s => s.Gated ∧ s.Shown) ?_ ?_ h
    · exact fun s hinit => ⟨PauseGate.Gated.initial hinit, fun hstart => absurd hinit.2.2.1 hstart⟩
    · intro s a s' ⟨hgated, hshown⟩ horder hstep
      cases a with
      | request i => exact ⟨hgated.request horder hstep, hshown.request hgated horder hstep⟩
      | start startPaused =>
        rw [← Option.some.inj hstep]
        exact ⟨hgated.restart horder, PauseGate.Shown.restart hgated horder⟩
  exact hboth.1.counts hboth.2

/-- `Start` leaves the engine paused while a request to pause is on its way; the engine is resumed,
and paused again. -/
theorem gate_counts_resumed : ∃ s : PauseGate (Fin 3), Reachable (pauseGate (Fin 3)) GateOrder s ∧
    s.Quiet ∧ s.paused = true ∧ s.wg = some 1 := by
  obtain ⟨s, hreach, hquiet, hpaused, hwg⟩ := Reachable.exists_of_replay (S := pauseGate (Fin 3))
    (G := GateOrder)
    (fun s : PauseGate (Fin 3) => s.Quiet ∧ s.paused = true ∧ s.wg ≠ none)
    {pause := fun i => decide (i ≠ 1)}
    [ .request 0, .start true, .start true, .start true, .start true, .request 0,
      .request 1, .request 1, .request 1, .request 1,
      .request 2, .request 2, .request 2, .request 2 ]
    ⟨rfl, rfl, rfl, fun _ => rfl⟩ (by decide)
  obtain ⟨n, hn⟩ := Option.ne_none_iff_exists'.mp hwg
  obtain ⟨-, hcount⟩ := gate_counts hreach n hn
  exact ⟨s, hreach, hquiet, hpaused, by rw [hn, hcount hquiet, hpaused]; rfl⟩

/-- Two requests pass the test of the call before either counts. To pause, they leave a
counter that the one call to resume does not bring down; to resume, they take it below zero. -/
theorem gate_miscounts :
    (∃ s : PauseGate Bool, Reachable (pauseGate Bool) (fun _ _ => True) s ∧
      s.Quiet ∧ s.paused = true ∧ s.wg = some 2) ∧
    ∃ s : PauseGate Bool, Reachable (pauseGate Bool) (fun _ _ => True) s ∧
      ¬s.Counts ∧ s.wg = some (-1) := by
  constructor
  · exact Reachable.exists_of_replay (S := pauseGate Bool) (G := fun _ _ => True)
      (fun s : PauseGate Bool => s.Quiet ∧ s.paused = true ∧ s.wg = some 2)
      {pause := fun _ => true}
      [ .start false, .start false,
        .request false, .request false, .request true, .request true,
        .request false, .request true, .request false, .request true ]
      ⟨rfl, rfl, rfl, fun _ => rfl⟩ (by decide)
  · obtain ⟨s, hreach, hwg⟩ := Reachable.exists_of_replay (S := pauseGate Bool) (G := fun _ _ => True)
      (fun s : PauseGate Bool => s.wg = some (-1)) {pause := fun _ => false}
      [ .start true, .start true, .start true, .start true,
        .request false, .request false, .request true, .request true,
        .request false, .request true ]
      ⟨rfl, rfl, rfl, fun _ => rfl⟩ (by decide)
    exact ⟨s, hreach, fun hcounts => absurd (hcounts _ hwg).1 (by decide), hwg⟩

end QuotientScoring.Engine
