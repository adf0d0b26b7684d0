import Mathlib.Data.List.Forall2

/-! Lists related entry by entry: an entry of one has its partner in the other, and what
partners have in common the lists do. -/
namespace Related
variable {α β : Type} {R : α → β → Prop} {as : List α} {bs : List β}

theorem exists_left (h : List.Forall₂ R as bs) {b : β} (hb : b ∈ bs) : ∃ a ∈ as, R a b := by
  induction h with
  | nil => cases hb
  | @cons a _ _ _ hab _ ih =>
    rcases List.mem_cons.mp hb with rfl | hb
    · exact ⟨a, List.mem_cons_self, hab⟩
    · obtain ⟨a', ha', hR⟩ := ih hb
      exact ⟨a', List.mem_cons_of_mem a ha', hR⟩

theorem exists_right (h : List.Forall₂ R as bs) {a : α} (ha : a ∈ as) : ∃ b ∈ bs, R a b :=
  exists_left (R := flip R) h.flip ha

variable {γ : Type} {f : α → γ} {g : β → γ}

theorem map_eq (h : List.Forall₂ R as bs) (hR : ∀ a b, R a b → f a = g b) :
    as.map f = bs.map g := by
  induction h with
  | nil => rfl
  | cons hab _ ih => rw [List.map_cons, List.map_cons, hR _ _ hab, ih]

theorem flatMap_eq {f : α → List γ} {g : β → List γ} (h : List.Forall₂ R as bs)
    (hR : ∀ a b, R a b → f a = g b) : as.flatMap f = bs.flatMap g := by
  rw [List.flatMap_def, List.flatMap_def, map_eq h hR]

end Related
