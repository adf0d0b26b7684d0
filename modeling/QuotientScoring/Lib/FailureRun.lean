import Mathlib.Data.List.DropRight
import Mathlib.Data.List.Infix

/-! Runs of consecutive failures, and the counter that watches them.

`current` is the length of the run of failures a sequence of events ends with;
`marks` are the events at which that length is a multiple of the threshold: one
per threshold's worth of consecutive failures. Both are read off the sequence.

`tick` is one step of the machine that finds the marks as the events come: it
counts failures, starts again at a success, and starts again when it reaches the
threshold. `tick_current` says that its counter is always the current run's
length modulo the threshold, and that it reaches the threshold exactly at the
marks. `tickMod_current` says the same of a counter that only looks at
remainders, so the two agree. -/
namespace FailureRun
variable {α : Type} (fails : α → Bool)

/-- The length of the run of failures at the end. -/
def current (events : List α) : Nat := (events.rtakeWhile fails).length

@[simp] theorem current_nil : current fails [] = 0 := rfl

theorem current_concat (events : List α) (a : α) :
    current fails (events ++ [a]) = if fails a then current fails events + 1 else 0 := by
  cases h : fails a <;> simp [current, h]

/-- A run whose length is a multiple of the threshold ends at the last event. -/
def due (threshold : Int) (events : List α) : Bool :=
  decide (0 < current fails events) && decide (threshold ∣ (current fails events : Int))

/-- The events at which a run whose length is a multiple of the threshold ends. -/
def marks (threshold : Int) (events : List α) : List α :=
  (events.inits.filter (due fails threshold)).filterMap List.getLast?

theorem inits_concat (events : List α) (a : α) :
    (events ++ [a]).inits = events.inits ++ [events ++ [a]] := by
  simp [List.inits_append]

@[simp] theorem marks_nil (threshold : Int) : marks fails threshold [] = [] := by
  simp [marks, due]

theorem marks_concat (threshold : Int) (events : List α) (a : α) :
    marks fails threshold (events ++ [a]) =
      marks fails threshold events ++ if due fails threshold (events ++ [a]) then [a] else [] := by
  simp only [marks, inits_concat, List.filter_append, List.filterMap_append]
  congr 1
  cases h : due fails threshold (events ++ [a]) <;> simp [h]

theorem current_map {β : Type} (f : β → α) (events : List β) :
    current fails (events.map f) = current (fun b => fails (f b)) events := by
  induction events using List.reverseRecOn with
  | nil => rfl
  | append_singleton events b ih => rw [List.map_append, List.map_singleton, current_concat,
      current_concat, ih]

theorem due_map {β : Type} (threshold : Int) (f : β → α) (events : List β) :
    due fails threshold (events.map f) = due (fun b => fails (f b)) threshold events := by
  simp only [due, current_map]

theorem marks_map {β : Type} (threshold : Int) (f : β → α) (events : List β) :
    marks fails threshold (events.map f) =
      (marks (fun b => fails (f b)) threshold events).map f := by
  induction events using List.reverseRecOn with
  | nil => simp
  | append_singleton events b ih =>
    have hdue := due_map fails threshold f (events ++ [b])
    rw [List.map_append, List.map_singleton] at hdue ⊢
    rw [marks_concat, marks_concat, ih, hdue, List.map_append]
    split <;> rfl

/-- A mark is one of the events. -/
theorem mem_of_mem_marks {threshold : Int} {events : List α} {a : α}
    (h : a ∈ marks fails threshold events) : a ∈ events := by
  obtain ⟨l, hl, ha⟩ := List.mem_filterMap.mp h
  have hprefix : l <+: events := (List.mem_inits l events).mp (List.mem_filter.mp hl).1
  exact hprefix.subset (List.mem_of_getLast? ha)

/-! ### The counter -/

variable (threshold : Int)

/-- One event: the counter after it, and whether the threshold was reached. -/
def tick (c : Int) (a : α) : Int × Bool :=
  if fails a then if c + 1 ≥ threshold then (0, true) else (c + 1, false) else (0, false)

/-- The counter that only looks at remainders. -/
def tickMod (c : Int) (a : α) : Int := if fails a then (c + 1).tmod threshold else 0

/-- A counter below the threshold that stands at a run's length modulo the
threshold reaches it exactly when the next failure completes a multiple. -/
theorem succ_emod (hT : 1 ≤ threshold) (n : Int) :
    (n % threshold + 1 ≥ threshold ↔ threshold ∣ n + 1) ∧
      (n % threshold + 1 < threshold → (n + 1) % threshold = n % threshold + 1) := by
  have hlt := Int.emod_lt_of_pos n (show 0 < threshold by omega)
  have hnn := Int.emod_nonneg n (show threshold ≠ 0 by omega)
  have hsum : (n + 1) % threshold = (n % threshold + 1) % threshold := by simp [Int.add_emod]
  have hsmall : n % threshold + 1 < threshold → (n + 1) % threshold = n % threshold + 1 := by
    intro h
    rw [hsum, Int.emod_eq_of_lt (by omega) h]
  refine ⟨⟨?_, ?_⟩, hsmall⟩
  · intro h
    have he : n % threshold + 1 = threshold := by omega
    rw [he, Int.emod_self] at hsum
    exact Int.dvd_of_emod_eq_zero hsum
  · intro hd
    by_contra h
    have hz := Int.emod_eq_zero_of_dvd hd
    have := hsmall (by omega)
    omega

/-- From a run's length modulo the threshold, one event leads to the next such
remainder, and the threshold is reached exactly at a mark. -/
theorem tick_current (hT : 1 ≤ threshold) (events : List α) (a : α) :
    tick fails threshold ((current fails events : Int) % threshold) a =
      ((current fails (events ++ [a]) : Int) % threshold, due fails threshold (events ++ [a])) := by
  obtain ⟨hreach, hsmall⟩ := succ_emod threshold hT (current fails events)
  unfold tick due
  rw [current_concat]
  cases ha : fails a
  · simp
  · simp only [if_true, Int.natCast_add, Int.cast_ofNat_Int, Nat.zero_lt_succ, decide_true,
      Bool.true_and]
    split
    · rename_i h
      have hd := hreach.mp h
      simp [hd, Int.emod_eq_zero_of_dvd hd]
    · rename_i h
      have hd : ¬threshold ∣ (current fails events : Int) + 1 := fun hd => h (hreach.mpr hd)
      rw [hsmall (by omega)]
      simp [hd]

theorem tickMod_current (hT : 1 ≤ threshold) (events : List α) (a : α) :
    tickMod fails threshold ((current fails events : Int) % threshold) a =
      (current fails (events ++ [a]) : Int) % threshold := by
  unfold tickMod
  rw [current_concat]
  cases ha : fails a
  · simp
  · have hnn := Int.emod_nonneg (current fails events : Int) (show threshold ≠ 0 by omega)
    simp only [if_true, Int.natCast_add, Int.cast_ofNat_Int]
    rw [Int.tmod_eq_emod_of_nonneg (by omega), Int.emod_add_emod]

/-- What a counter that starts unset holds after the events. -/
def counter (events : List α) : Option Int :=
  if events = [] then none else some ((current fails events : Int) % threshold)

theorem counter_concat (events : List α) (a : α) :
    counter fails threshold (events ++ [a]) =
      some ((current fails (events ++ [a]) : Int) % threshold) := by
  simp [counter]

theorem counter_map {β : Type} (f : β → α) (events : List β) :
    counter fails threshold (events.map f) = counter (fun b => fails (f b)) threshold events := by
  simp [counter, current_map]

/-- An unset counter reads as zero. -/
theorem counter_getD (events : List α) :
    (counter fails threshold events).getD 0 = (current fails events : Int) % threshold := by
  cases events <;> simp [counter]

theorem foldl_tickMod (hT : 1 ≤ threshold) (events : List α) :
    events.foldl (fun c a => some (tickMod fails threshold (c.getD 0) a)) none =
      counter fails threshold events := by
  induction events using List.reverseRecOn with
  | nil => rfl
  | append_singleton events a ih =>
    rw [List.foldl_append, ih, List.foldl_cons, List.foldl_nil, counter_getD,
      tickMod_current fails threshold hT, counter_concat]

/-! ### Events in another order -/

theorem current_of_forall {events : List α} (h : ∀ a ∈ events, fails a = true) :
    current fails events = events.length := by
  rw [current, List.rtakeWhile_eq_self_iff.mpr h]

theorem current_of_not_forall {events : List α} (h : ∀ a ∈ events, fails a = false) :
    current fails events = 0 := by
  induction events using List.reverseRecOn with
  | nil => rfl
  | append_singleton events a _ =>
    rw [current_concat, if_neg (Bool.eq_false_iff.mp (h a (by simp)))]

/-- The last two events decide where the counter stands. -/
theorem counter_swap_ne (hT : 1 ≤ threshold) (hne : threshold ≠ 1) (rest : List α) {pass fail : α}
    (hpass : fails pass = false) (hfail : fails fail = true) :
    counter fails threshold (rest ++ [pass, fail]) ≠
      counter fails threshold (rest ++ [fail, pass]) := by
  have hone : current fails (rest ++ [pass, fail]) = 1 := by
    rw [List.append_cons, current_concat, current_concat, hpass, hfail]
    rfl
  have hzero : current fails (rest ++ [fail, pass]) = 0 := by
    rw [List.append_cons, current_concat, hpass]
    rfl
  rw [counter, counter, if_neg (by simp), if_neg (by simp), hone, hzero]
  intro h
  have hmod : (1 : Int) % threshold = 1 := Int.emod_eq_of_lt (by decide) (by omega)
  have heq := Option.some.inj h
  rw [Int.natCast_one, hmod, Int.natCast_zero, Int.zero_emod] at heq
  cases heq

/-- The counter stands the same after the events in any order exactly if it never counts past
zero, or the events all fail, or none does. -/
theorem counter_perm_iff [DecidableEq α] (hT : 1 ≤ threshold) (events : List α) :
    (∀ o₁ o₂ : List α, o₁.Perm events → o₂.Perm events →
      counter fails threshold o₁ = counter fails threshold o₂) ↔
      threshold = 1 ∨ (∀ a ∈ events, fails a = true) ∨ ∀ a ∈ events, fails a = false := by
  constructor
  · intro h
    by_contra hmixed
    obtain ⟨hne, hsome, hsome'⟩ : threshold ≠ 1 ∧ (∃ a ∈ events, fails a = false) ∧
        ∃ a ∈ events, fails a = true := by
      simpa using hmixed
    obtain ⟨pass, hmem, hpass⟩ := hsome
    obtain ⟨fail, hmem', hfail⟩ := hsome'
    have hdiff : fail ≠ pass := by
      rintro rfl
      rw [hpass] at hfail
      cases hfail
    have hrest := (List.mem_erase_of_ne hdiff).mpr hmem'
    have hpair : (events.erase pass).erase fail ++ [pass, fail] |>.Perm events :=
      List.perm_append_comm.trans (((List.perm_cons_erase hrest).symm.cons pass).trans
        (List.perm_cons_erase hmem).symm)
    have hswap : (events.erase pass).erase fail ++ [fail, pass] |>.Perm events :=
      ((List.Perm.swap pass fail []).append_left _).trans hpair
    exact counter_swap_ne fails threshold hT hne _ hpass hfail (h _ _ hpair hswap)
  · have hnil : ∀ {o₁ o₂ : List α}, o₁.Perm o₂ → (o₁ = [] ↔ o₂ = []) := fun hperm =>
      ⟨fun h => List.perm_nil.mp (h ▸ hperm.symm), fun h => List.perm_nil.mp (h ▸ hperm)⟩
    intro h o₁ o₂ h₁ h₂
    have hperm := h₁.trans h₂.symm
    simp only [counter, hnil hperm]
    split
    · rfl
    · congr 1
      rcases h with rfl | hall | hnone
      · simp only [Int.emod_one]
      · rw [current_of_forall fails (fun a ha => hall a (h₁.mem_iff.mp ha)),
          current_of_forall fails (fun a ha => hall a (h₂.mem_iff.mp ha)), hperm.length_eq]
      · rw [current_of_not_forall fails (fun a ha => hnone a (h₁.mem_iff.mp ha)),
          current_of_not_forall fails (fun a ha => hnone a (h₂.mem_iff.mp ha))]

end FailureRun
