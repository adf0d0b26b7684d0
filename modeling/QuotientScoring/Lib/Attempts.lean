import Mathlib.Data.List.Basic

/-! Computations that may stop on the way, and draws.

A computation of `Except` passes if it comes to its end. Of one step after another
`passes_bind` says that each has to, so what a long row of steps needs to pass is
read off step by step. A draw takes an element of a list by a number that is any
number at all; some draw takes any given element, and none takes one only from
the empty list. -/
namespace Attempts

section
variable {ε α β : Type}

/-- The computation comes to its end. -/
def Passes (run : Except ε α) : Prop := ∃ a, run = .ok a

theorem bind_eq_ok {run : Except ε α} {next : α → Except ε β} {b : β} :
    (run >>= next) = .ok b ↔ ∃ a, run = .ok a ∧ next a = .ok b := by
  cases run with
  | error stop => simp [bind, Except.bind]
  | ok a => simp [bind, Except.bind]

theorem bind_eq_error {run : Except ε α} {next : α → Except ε β} {stop : ε} :
    (run >>= next) = .error stop ↔ run = .error stop ∨ ∃ a, run = .ok a ∧ next a = .error stop := by
  cases run with
  | error stop => simp [bind, Except.bind]
  | ok a => simp [bind, Except.bind]

@[simp] theorem passes_ok (a : α) : Passes (.ok a : Except ε α) := ⟨a, rfl⟩

@[simp] theorem not_passes_error (stop : ε) : ¬Passes (.error stop : Except ε α) := by
  intro ⟨a, h⟩
  cases h

@[simp] theorem passes_bind {run : Except ε α} {next : α → Except ε β} :
    Passes (run >>= next) ↔ ∃ a, run = .ok a ∧ Passes (next a) := by
  simp only [Passes, bind_eq_ok]
  constructor
  · intro ⟨b, a, hrun, hnext⟩
    exact ⟨a, hrun, b, hnext⟩
  · intro ⟨a, hrun, b, hnext⟩
    exact ⟨b, a, hrun, hnext⟩

/-- Of a step that returns nothing there is one way to go well. -/
@[simp] theorem exists_unit {P : Unit → Prop} : (∃ u, P u) ↔ P () :=
  ⟨fun ⟨(), h⟩ => h, fun h => ⟨(), h⟩⟩

end

/-! ### Draws -/

section
variable {α : Type} {xs : List α}

/-- `xs[rand.Intn(len(xs))]`, which there is none of in an empty list. -/
def pick (xs : List α) (draw : Nat) : Option α := xs[draw % xs.length]?

/-- What a draw can come to. -/
theorem exists_pick {x : α} : (∃ draw, pick xs draw = some x) ↔ x ∈ xs := by
  constructor
  · intro ⟨draw, hdraw⟩
    exact List.mem_of_getElem? hdraw
  · intro hmem
    obtain ⟨i, hi, hget⟩ := List.getElem_of_mem hmem
    exact ⟨i, by rw [pick, Nat.mod_eq_of_lt hi, List.getElem?_eq_getElem hi, hget]⟩

theorem mem_of_pick {draw : Nat} {x : α} (h : pick xs draw = some x) : x ∈ xs :=
  exists_pick.mp ⟨draw, h⟩

theorem pick_eq_none {draw : Nat} : pick xs draw = none ↔ xs = [] := by
  constructor
  · intro hnone
    by_contra hne
    have hlt := Nat.mod_lt draw (List.length_pos_of_ne_nil hne)
    rw [pick, List.getElem?_eq_getElem hlt] at hnone
    cases hnone
  · rintro rfl
    rfl

end

end Attempts
