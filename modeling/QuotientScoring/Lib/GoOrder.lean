import Mathlib.Data.List.Sort
import QuotientScoring.Lib.GoMap

/-! What the language leaves open about order.

A `range` loop visits the entries of a map in any order, and `slices.SortFunc`
promises no more than the same elements where its comparison is not a strict weak
ordering. `Orders` is one choice of both. -/

structure Orders where
  range : {K V : Type} → GoMap K V → List (K × V)
  range_perm : ∀ {K V : Type} (m : GoMap K V),
    (range m).Perm (m.entries.map (fun e => (e.1, e.2)))
  sortFunc : {α : Type} → (α → α → Int) → List α → List α
  sortFunc_perm : ∀ {α : Type} (cmp : α → α → Int) (xs : List α), (sortFunc cmp xs).Perm xs

namespace Orders
variable (o : Orders) {K V : Type}

/-- The keys of a map, each once. -/
def keys (m : GoMap K V) : List K := (o.range m).map Prod.fst

section Entries
variable [DecidableEq K] {o} {m : GoMap K V} {k : K}

theorem mem_range {v : V} : (k, v) ∈ o.range m ↔ m.lookup k = some v := by
  rw [(o.range_perm m).mem_iff, List.mem_map]
  constructor
  · rintro ⟨⟨k', v'⟩, hmem, heq⟩
    obtain ⟨rfl, rfl⟩ := Prod.mk.inj heq
    exact AList.mem_lookup_iff.mpr hmem
  · intro h
    exact ⟨⟨k, v⟩, AList.mem_lookup_iff.mp h, rfl⟩

omit [DecidableEq K] in
theorem nodup_keys (o : Orders) (m : GoMap K V) : (o.keys m).Nodup := by
  have hperm : (o.keys m).Perm m.keys := by
    have h := (o.range_perm m).map Prod.fst
    rw [List.map_map] at h
    exact h
  exact hperm.nodup_iff.mpr m.nodupKeys

theorem mem_keys : k ∈ o.keys m ↔ (m.lookup k).isSome := by
  rw [keys, List.mem_map]
  constructor
  · rintro ⟨⟨k', v⟩, hmem, rfl⟩
    rw [mem_range.mp hmem]
    rfl
  · intro h
    obtain ⟨v, hv⟩ := Option.isSome_iff_exists.mp h
    exact ⟨(k, v), mem_range.mpr hv, rfl⟩

/-- A loop that looks for one key comes to its entry once. -/
theorem filter_range (o : Orders) (m : GoMap K V) (k : K) :
    (o.range m).filter (fun e => e.1 = k) = ((m.lookup k).map (Prod.mk k)).toList := by
  have hnodup : ((o.range m).filter (fun e => e.1 = k)).Nodup :=
    (List.Nodup.of_map Prod.fst (nodup_keys o m)).filter _
  cases hk : m.lookup k with
  | none =>
    refine List.filter_eq_nil_iff.mpr ?_
    intro ⟨k', v⟩ hmem hkey
    obtain rfl : k' = k := by simpa using hkey
    rw [mem_range.mp hmem] at hk
    cases hk
  | some v =>
    apply List.perm_singleton.mp
    rw [List.perm_ext_iff_of_nodup hnodup (List.nodup_singleton _)]
    intro ⟨k', v'⟩
    simp only [List.mem_filter, mem_range, decide_eq_true_eq, List.mem_singleton, Prod.mk.injEq]
    constructor
    · rintro ⟨hv, rfl⟩
      exact ⟨rfl, Option.some.inj (hv.symm.trans hk)⟩
    · rintro ⟨rfl, rfl⟩
      exact ⟨hk, rfl⟩

end Entries

@[simp] theorem keys_empty : o.keys (∅ : GoMap K V) = [] := by
  have hnil : (o.range (∅ : GoMap K V)).Perm [] := o.range_perm ∅
  simp [keys, hnil.eq_nil]

@[simp] theorem length_sortFunc {α : Type} (cmp : α → α → Int) (xs : List α) :
    (o.sortFunc cmp xs).length = xs.length := (o.sortFunc_perm cmp xs).length_eq

/-- Maps as they are stored, slices sorted stably. -/
def plain : Orders where
  range m := m.entries.map (fun e => (e.1, e.2))
  range_perm _ := List.Perm.refl _
  sortFunc cmp xs := xs.insertionSort (fun a b => cmp a b ≤ 0)
  sortFunc_perm _ _ := List.perm_insertionSort _ _

end Orders
