import Mathlib.Data.List.Nodup
import Mathlib.Logic.Equiv.Defs

/-! Things that trade places.

A permutation moves some labels of a list and no others. What is under the label `π i`
afterwards was under `i` before, so the list of all that is under the labels is the same up
to its order. Where each thing shows its label it is the same only if every label keeps
its thing. -/
namespace Relabel
variable {ι β : Type} {π : Equiv.Perm ι} {labels : List ι}

/-- A permutation that moves no other label permutes the list. -/
theorem perm_map (hnodup : labels.Nodup) (hfixed : ∀ i, i ∉ labels → π i = i) :
    (labels.map π).Perm labels := by
  rw [List.perm_ext_iff_of_nodup (hnodup.map π.injective) hnodup]
  have hmem : ∀ i, π i ∈ labels ↔ i ∈ labels := by
    intro i
    constructor
    · intro hi
      by_contra hnot
      rw [hfixed i hnot] at hi
      exact hnot hi
    · intro hi
      by_contra hnot
      have hfix := π.injective (hfixed (π i) hnot)
      rw [hfix] at hnot
      exact hnot hi
  intro i
  rw [List.mem_map]
  constructor
  · rintro ⟨j, hj, rfl⟩
    exact (hmem j).mpr hj
  · intro hi
    refine ⟨π.symm i, ?_, π.apply_symm_apply i⟩
    rw [← hmem, π.apply_symm_apply]
    exact hi

/-- What is under the labels before and after. -/
theorem perm_map_of_moved (hperm : (labels.map π).Perm labels) {f f' : ι → β}
    (hmoved : ∀ i, f' (π i) = f i) : (labels.map f).Perm (labels.map f') := by
  have h := (hperm.map f').symm
  rw [List.map_map, show f' ∘ π = f from funext hmoved] at h
  exact h.symm

/-- Things that show their labels are the same up to order only if they are the same. -/
theorem perm_map_iff (label : β → ι) {f f' : ι → β} (hf : ∀ i, label (f i) = i)
    (hf' : ∀ i, label (f' i) = i) :
    (labels.map f).Perm (labels.map f') ↔ ∀ i ∈ labels, f i = f' i := by
  constructor
  · intro hperm i hi
    obtain ⟨j, _, hj⟩ := List.mem_map.mp (hperm.mem_iff.mp (List.mem_map_of_mem hi))
    have hlabel : j = i := by rw [← hf' j, hj, hf i]
    rw [← hj, hlabel]
  · intro hall
    rw [List.map_congr_left hall]

/-- Nothing changes under any label exactly if what trades places is the same. -/
theorem forall_moved_iff (hperm : (labels.map π).Perm labels) {f f' : ι → β}
    (hmoved : ∀ i, f' (π i) = f i) :
    (∀ i ∈ labels, f i = f' i) ↔ ∀ i ∈ labels, f (π i) = f i := by
  have hmem : ∀ i ∈ labels, π i ∈ labels := fun i hi =>
    hperm.mem_iff.mp (List.mem_map_of_mem hi)
  constructor
  · intro hsame i hi
    rw [hsame (π i) (hmem i hi), hmoved]
  · intro hsame i hi
    obtain ⟨j, hj, rfl⟩ := List.mem_map.mp (hperm.mem_iff.mpr hi)
    rw [hmoved, hsame j hj]

end Relabel
