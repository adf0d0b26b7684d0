import QuotientScoring.Lib.Transition
import Mathlib.Data.List.Basic

/-! Requests that take their steps in turn.

Requests come to a state that they share, and take one step after another, with steps of others
between them. What a step meets with is arbitrary. All that are there can be stopped at once.

`sound_of_reachable` is rely and guarantee: what each request may assume of the shared state, and
any two of one another, holds in every world that is reached, if a step gives its own request what
it assumes afterwards, and takes nothing from any other. -/
namespace Requests
open Transition

/-- How a request comes in, what a step makes of it and of the shared state, and what is left of
it when it is stopped. -/
structure Handler (σ α ρ ι : Type) where
  arrive : α → ρ
  step : σ → ρ → ι → Option (σ × ρ)
  stop : ρ → ρ

structure World (σ ρ : Type) where
  shared : σ
  requests : List ρ := []

inductive Action (α ι : Type) where
  | arrive (a : α)
  | step (i : Nat) (choice : ι)
  | stop

variable {σ α ρ ι : Type} (H : Handler σ α ρ ι)

def Handler.next (w : World σ ρ) : Action α ι → Option (World σ ρ)
  | .arrive a => some {w with requests := w.requests ++ [H.arrive a]}
  | .step i choice =>
    w.requests[i]?.bind (fun r => (H.step w.shared r choice).map (fun after =>
      ⟨after.1, w.requests.set i after.2⟩))
  | .stop => some {w with requests := w.requests.map H.stop}

def Handler.system (initial : σ → Prop) : System (World σ ρ) (Action α ι) where
  initial w := initial w.shared ∧ w.requests = []
  step := H.next

/-- A step is only taken where, as it goes, every other request suits it. -/
def Beside (suits : ρ → ι → ρ → Prop) (w : World σ ρ) : Action α ι → Prop
  | .step i choice => ∀ r ∈ w.requests[i]?, ∀ q ∈ w.requests.eraseIdx i, suits r choice q
  | _ => True

instance (suits : ρ → ι → ρ → Prop) [∀ r choice q, Decidable (suits r choice q)] (w : World σ ρ) :
    (a : Action α ι) → Decidable (Beside suits w a)
  | .step i choice => inferInstanceAs
      (Decidable (∀ r ∈ w.requests[i]?, ∀ q ∈ w.requests.eraseIdx i, suits r choice q))
  | .arrive _ | .stop => .isTrue trivial

/-- What requests rely on: an invariant of the shared state, what each assumes of that state, and
any two of one another. -/
structure Reliance (σ ρ : Type) where
  inv : σ → Prop
  own : σ → ρ → Prop
  apart : ρ → ρ → Prop

variable {H}

/-- What every step guarantees. -/
structure Guarantee (H : Handler σ α ρ ι) (suits : ρ → ι → ρ → Prop)
    (R : Reliance σ ρ) : Prop where
  symm : ∀ {r q}, R.apart r q → R.apart q r
  arrive : ∀ {s} a, R.inv s → R.own s (H.arrive a)
  arrive_apart : ∀ a q, R.apart (H.arrive a) q
  step : ∀ {s r choice s' r'}, R.inv s → R.own s r → H.step s r choice = some (s', r') →
    R.inv s' ∧ R.own s' r'
  frame : ∀ {s r choice s' r' q}, R.inv s → R.own s r → H.step s r choice = some (s', r') →
    suits r choice q → R.own s q → R.apart r q → R.own s' q ∧ R.apart r' q
  stop : ∀ {s r}, R.own s r → R.own s (H.stop r)
  stop_apart : ∀ {r q}, R.apart r q → R.apart (H.stop r) (H.stop q)

/-- All that is relied on holds. -/
structure Sound (R : Reliance σ ρ) (w : World σ ρ) : Prop where
  inv : R.inv w.shared
  own : ∀ r ∈ w.requests, R.own w.shared r
  apart : ∀ {i j : Nat} {r q : ρ}, i ≠ j → w.requests[i]? = some r → w.requests[j]? = some q →
    R.apart r q

variable {suits : ρ → ι → ρ → Prop} {R : Reliance σ ρ} {w w' : World σ ρ}

theorem getElem?_append_one {l : List ρ} {r q : ρ} {i : Nat} (h : (l ++ [r])[i]? = some q) :
    l[i]? = some q ∨ i = l.length ∧ q = r := by
  by_cases hi : i < l.length
  · rw [List.getElem?_append_left hi] at h
    exact .inl h
  · rw [List.getElem?_append_right (Nat.le_of_not_lt hi)] at h
    have hone := List.getElem?_eq_some_iff.mp h
    obtain ⟨hlt, hq⟩ := hone
    rw [List.length_singleton] at hlt
    refine .inr ⟨by omega, ?_⟩
    rw [← hq, List.getElem_singleton]

theorem Sound.arrive (hG : Guarantee H suits R) (h : Sound R w) (a : α) :
    Sound R {w with requests := w.requests ++ [H.arrive a]} where
  inv := h.inv
  own r hr := by
    rcases List.mem_append.mp hr with hr | hr
    · exact h.own r hr
    · rw [List.mem_singleton.mp hr]
      exact hG.arrive a h.inv
  apart hne hr hq := by
    rcases getElem?_append_one hr with hr | ⟨hi, rfl⟩
    · rcases getElem?_append_one hq with hq | ⟨-, rfl⟩
      · exact h.apart hne hr hq
      · exact hG.symm (hG.arrive_apart a _)
    · exact hG.arrive_apart a _

theorem Sound.step (hG : Guarantee H suits R) (h : Sound R w) {i : Nat} {choice : ι} {r r' : ρ}
    {s' : σ} (hr : w.requests[i]? = some r) (hstep : H.step w.shared r choice = some (s', r'))
    (hsuits : ∀ q ∈ w.requests.eraseIdx i, suits r choice q) :
    Sound R ⟨s', w.requests.set i r'⟩ := by
  have hown := h.own r (List.mem_of_getElem? hr)
  obtain ⟨hinv, hown'⟩ := hG.step h.inv hown hstep
  -- every other request is framed
  have hothers : ∀ {j : Nat} {q : ρ}, j ≠ i → w.requests[j]? = some q →
      R.own s' q ∧ R.apart r' q := by
    intro j q hj hq
    have hmem : q ∈ w.requests.eraseIdx i := List.mem_eraseIdx_iff_getElem?.mpr ⟨j, hj, hq⟩
    exact hG.frame h.inv hown hstep (hsuits q hmem) (h.own q (List.mem_of_getElem? hq))
      (h.apart hj.symm hr hq)
  have hset : ∀ {j : Nat} {q : ρ}, (w.requests.set i r')[j]? = some q →
      j = i ∧ q = r' ∨ j ≠ i ∧ w.requests[j]? = some q := by
    intro j q hq
    by_cases hj : j = i
    · subst hj
      have hlt : j < w.requests.length := (List.getElem?_eq_some_iff.mp hr).1
      rw [List.getElem?_set_self hlt] at hq
      exact .inl ⟨rfl, (Option.some.inj hq).symm⟩
    · rw [List.getElem?_set_ne (Ne.symm hj)] at hq
      exact .inr ⟨hj, hq⟩
  refine ⟨hinv, fun q hq => ?_, fun {j k q p} hne hq hp => ?_⟩
  · obtain ⟨j, hj⟩ := List.mem_iff_getElem?.mp hq
    rcases hset hj with ⟨-, rfl⟩ | ⟨hj, hold⟩
    · exact hown'
    · exact (hothers hj hold).1
  · rcases hset hq with ⟨rfl, rfl⟩ | ⟨hj, hold⟩
    · rcases hset hp with ⟨rfl, -⟩ | ⟨hk, hold'⟩
      · exact absurd rfl hne
      · exact (hothers hk hold').2
    · rcases hset hp with ⟨rfl, rfl⟩ | ⟨hk, hold'⟩
      · exact hG.symm (hothers hj hold).2
      · exact h.apart hne hold hold'

theorem Sound.stop (hG : Guarantee H suits R) (h : Sound R w) :
    Sound R {w with requests := w.requests.map H.stop} where
  inv := h.inv
  own r hr := by
    obtain ⟨q, hq, rfl⟩ := List.mem_map.mp hr
    exact hG.stop (h.own q hq)
  apart hne hr hq := by
    rw [List.getElem?_map] at hr hq
    obtain ⟨r₀, hr₀, rfl⟩ := Option.map_eq_some_iff.mp hr
    obtain ⟨q₀, hq₀, rfl⟩ := Option.map_eq_some_iff.mp hq
    exact hG.stop_apart (h.apart hne hr₀ hq₀)

theorem sound_of_reachable (hG : Guarantee H suits R) {initial : σ → Prop}
    (hinit : ∀ s, initial s → R.inv s) (h : Reachable (H.system initial) (Beside suits) w) :
    Sound R w := by
  apply Reachable.invariant ?_ ?_ h
  · intro w ⟨hs, hnone⟩
    refine ⟨hinit _ hs, ?_, ?_⟩
    · rw [hnone]
      exact fun r hr => nomatch hr
    · intro i j r q _ hr
      rw [hnone] at hr
      cases hr
  · intro w a w' hw hbeside hstep
    cases a with
    | arrive a =>
      obtain rfl := Option.some.inj hstep
      exact hw.arrive hG a
    | step i choice =>
      obtain ⟨r, hr, hmap⟩ := Option.bind_eq_some_iff.mp hstep
      obtain ⟨⟨s', r'⟩, hafter, rfl⟩ := Option.map_eq_some_iff.mp hmap
      exact hw.step hG hr hafter (hbeside r hr)
    | stop =>
      obtain rfl := Option.some.inj hstep
      exact hw.stop hG

end Requests
