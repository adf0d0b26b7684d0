import Mathlib.Data.List.Induction
import Mathlib.Data.Option.Basic

/-! Transition systems with executable steps.

A system is a set of initial states and a step function that says, for a state
and an action, the state after it, or that the action is not enabled. A *guard*
is a condition on a state and the action about to be taken from it;
`Reachable S G` is the set of states met by the runs of `S` whose every step
satisfies `G`.

`Reachable.invariant` is the induction every safety result uses, and
`Reachable.of_replay` puts the end of a concrete run among the reachable states
by computing it. `Run` keeps the actions of a run, for what depends on which of them
were taken, and `Run.bounded` bounds their number by what each uses up. -/
namespace Transition

structure System (σ α : Type) where
  initial : σ → Prop
  step : σ → α → Option σ

variable {σ α : Type}

/-- The states met by runs whose every step satisfies the guard. -/
inductive Reachable (S : System σ α) (G : σ → α → Prop) : σ → Prop where
  | initial {s : σ} : S.initial s → Reachable S G s
  | step {s s' : σ} {a : α} : Reachable S G s → G s a → S.step s a = some s' → Reachable S G s'

variable {S : System σ α} {G : σ → α → Prop}

/-- What holds initially and survives every guarded step holds of every reachable state. -/
theorem Reachable.invariant {I : σ → Prop} (hinit : ∀ s, S.initial s → I s)
    (hstep : ∀ s a s', I s → G s a → S.step s a = some s' → I s') {s : σ}
    (h : Reachable S G s) : I s := by
  induction h with
  | initial h => exact hinit _ h
  | step _ hg hs ih => exact hstep _ _ _ ih hg hs

/-- A weaker guard reaches no less. -/
theorem Reachable.mono {G' : σ → α → Prop} (hsub : ∀ s a, G s a → G' s a) {s : σ}
    (h : Reachable S G s) : Reachable S G' s := by
  induction h with
  | initial h => exact .initial h
  | step _ hg hs ih => exact ih.step (hsub _ _ hg) hs

/-! ### Replaying a run -/

variable [∀ s a, Decidable (G s a)]

/-- The state after the actions, if each is enabled and meets the guard. -/
def System.replay (S : System σ α) (G : σ → α → Prop) [∀ s a, Decidable (G s a)] (s : σ) :
    List α → Option σ
  | [] => some s
  | a :: rest => if G s a then (S.step s a).bind (fun s' => S.replay G s' rest) else none

theorem Reachable.of_replay {s s' : σ} {actions : List α} (h : Reachable S G s)
    (hr : S.replay G s actions = some s') : Reachable S G s' := by
  induction actions generalizing s with
  | nil =>
    obtain rfl : s = s' := by simpa [System.replay] using hr
    exact h
  | cons a rest ih =>
    rw [System.replay] at hr
    split at hr
    · rename_i hg
      obtain ⟨s₁, hs, hr⟩ := Option.bind_eq_some_iff.mp hr
      exact ih (.step h hg hs) hr
    · cases hr

/-- A replayed run that ends in `P` shows that some reachable state satisfies `P`. -/
theorem Reachable.exists_of_replay (P : σ → Prop) [DecidablePred P] (s : σ) (actions : List α)
    (h : S.initial s) (hr : (S.replay G s actions).any (fun s' => decide (P s')) = true) :
    ∃ s', Reachable S G s' ∧ P s' := by
  cases hs : S.replay G s actions with
  | none =>
    rw [hs] at hr
    cases hr
  | some s' =>
    rw [hs] at hr
    exact ⟨s', Reachable.of_replay (.initial h) hs, by simpa using hr⟩

/-! ### Runs by their actions -/

/-- The actions, one after another, lead from `s` to a state. -/
inductive Run (S : System σ α) (s : σ) : List α → σ → Prop where
  | nil : Run S s [] s
  | snoc {actions : List α} {s₁ s₂ : σ} {a : α} : Run S s actions s₁ → S.step s₁ a = some s₂ →
      Run S s (actions ++ [a]) s₂

/-- No action is enabled. -/
def System.Stuck (S : System σ α) (s : σ) : Prop := ∀ a, S.step s a = none

theorem Run.invariant {I : List α → σ → Prop} {s s' : σ} {actions : List α} (hnil : I [] s)
    (hstep : ∀ actions s₁ a s₂, I actions s₁ → S.step s₁ a = some s₂ → I (actions ++ [a]) s₂)
    (h : Run S s actions s') : I actions s' := by
  induction h with
  | nil => exact hnil
  | snoc _ hs ih => exact hstep _ _ _ _ ih hs

/-- One run after another. -/
theorem Run.trans {s s₁ s₂ : σ} {before after : List α} (h : Run S s before s₁)
    (h' : Run S s₁ after s₂) : Run S s (before ++ after) s₂ := by
  induction h' with
  | nil =>
    rw [List.append_nil]
    exact h
  | snoc _ hs ih =>
    rw [← List.append_assoc]
    exact .snoc ih hs

/-- A run is no longer than what its first state has to use up. -/
theorem Run.bounded {left : σ → Nat} (hstep : ∀ s₁ a s₂, S.step s₁ a = some s₂ → left s₂ < left s₁)
    {s s' : σ} {actions : List α} (h : Run S s actions s') :
    actions.length + left s' ≤ left s := by
  refine Run.invariant (I := fun actions s' => actions.length + left s' ≤ left s) (by simp) ?_ h
  intro actions s₁ a s₂ hle hs
  have := hstep s₁ a s₂ hs
  rw [List.length_append, List.length_singleton]
  omega

/-- The state after the actions, if each is enabled. -/
def System.execute (S : System σ α) (s : σ) (actions : List α) : Option σ :=
  actions.foldl (fun s a => s.bind (fun s => S.step s a)) (some s)

theorem Run.of_execute {s s' : σ} {actions : List α} (h : S.execute s actions = some s') :
    Run S s actions s' := by
  induction actions using List.reverseRecOn generalizing s' with
  | nil =>
    obtain rfl : s = s' := Option.some.inj h
    exact .nil
  | append_singleton actions a ih =>
    rw [System.execute, List.foldl_append] at h
    obtain ⟨s₁, hs₁, hstep⟩ := Option.bind_eq_some_iff.mp h
    exact .snoc (ih hs₁) hstep

/-! ### Records -/

section Record
variable {β : Type} {shows : σ → α → List β}

/-- The system beside a record of what its steps show. -/
def System.recorded (S : System σ α) (shows : σ → α → List β) : System (σ × List β) α where
  initial s := S.initial s.1 ∧ s.2 = []
  step s a := (S.step s.1 a).map (fun s' => (s', s.2 ++ shows s.1 a))

/-- What holds of all that a guarded step of a run shows holds of the whole record. -/
theorem Reachable.forall_recorded {G : σ → α → Prop} {P : β → Prop}
    (hshow : ∀ s a, Reachable S G s → G s a → ∀ b ∈ shows s a, P b) {s : σ × List β}
    (h : Reachable (S.recorded shows) (fun s a => G s.1 a) s) :
    Reachable S G s.1 ∧ ∀ b ∈ s.2, P b := by
  induction h with
  | initial h =>
    rw [h.2]
    exact ⟨.initial h.1, fun _ hb => nomatch hb⟩
  | step _ hg hs ih =>
    obtain ⟨hreach, hrecord⟩ := ih
    obtain ⟨s', hs', rfl⟩ := Option.map_eq_some_iff.mp hs
    refine ⟨hreach.step hg hs', ?_⟩
    intro b hb
    rcases List.mem_append.mp hb with hb | hb
    · exact hrecord b hb
    · exact hshow _ _ hreach hg b hb

end Record

end Transition
