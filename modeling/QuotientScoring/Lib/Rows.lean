import Mathlib.Algebra.BigOperators.Group.List.Basic
import Mathlib.Algebra.Order.Ring.Int
import Mathlib.Data.List.Dedup
import Mathlib.Data.List.Sort

/-! Queries over tables, and loops over rows.

A table is a list of rows. `groupBy` is one row per key occurring in the table,
with an aggregate of the rows that have it; the order of the groups is not part
of what a query promises, and no lemma mentions it.

`foldl_observe` is the rule for a loop that updates a state of which one looks
at one cell only: the cell ends as the fold of the rows that hit it. -/
namespace Rows
variable {ρ κ β : Type}

/-! ### Loops observed in one cell -/

/-- The rule, for a loop that keeps an invariant. -/
theorem foldl_observe_of {σ : Type} (I : σ → Prop) (obs : σ → β) (step : σ → ρ → σ)
    (hit : ρ → Bool) (upd : β → ρ → β) (hI : ∀ s r, I s → I (step s r))
    (hstep : ∀ s r, I s → obs (step s r) = if hit r then upd (obs s) r else obs s)
    (rows : List ρ) {s : σ} (hs : I s) :
    obs (rows.foldl step s) = (rows.filter hit).foldl upd (obs s) := by
  induction rows generalizing s with
  | nil => rfl
  | cons r rest ih =>
    rw [List.foldl_cons, ih (hI s r hs), hstep s r hs]
    cases h : hit r <;> simp [h]

theorem foldl_observe {σ : Type} (obs : σ → β) (step : σ → ρ → σ) (hit : ρ → Bool)
    (upd : β → ρ → β)
    (hstep : ∀ s r, obs (step s r) = if hit r then upd (obs s) r else obs s)
    (rows : List ρ) (s : σ) :
    obs (rows.foldl step s) = (rows.filter hit).foldl upd (obs s) :=
  foldl_observe_of (fun _ => True) obs step hit upd (fun _ _ _ => trivial)
    (fun s r _ => hstep s r) rows trivial

/-- A cell that is overwritten, each time with the same value. -/
theorem foldl_overwrite (f : ρ → β) (v : β) (rows : List ρ) (h : ∀ r ∈ rows, f r = v)
    (o : Option β) :
    rows.foldl (fun _ r => some (f r)) o = if rows = [] then o else some v := by
  induction rows generalizing o with
  | nil => rfl
  | cons r rest ih =>
    rw [List.foldl_cons, ih (fun r' hr' => h r' (List.mem_cons_of_mem _ hr')),
      h r (List.mem_cons_self ..)]
    simp

/-- A cell that is overwritten holds what the last row has put there. -/
theorem foldl_last (f : ρ → β) (rows : List ρ) (o : Option β) :
    rows.foldl (fun _ r => some (f r)) o = (rows.getLast?.map f).or o := by
  induction rows generalizing o with
  | nil => rfl
  | cons r rest ih =>
    rw [List.foldl_cons, ih, List.getLast?_cons]
    cases rest.getLast? with
    | none => rfl
    | some last => rfl

/-- A cell that only ever has something added to it. -/
theorem foldl_add [AddMonoid β] (f : ρ → β) (rows : List ρ) (o : Option β) :
    rows.foldl (fun o r => some (o.getD 0 + f r)) o =
      if rows = [] then o else some (o.getD 0 + (rows.map f).sum) := by
  induction rows generalizing o with
  | nil => rfl
  | cons r rest ih =>
    rw [List.foldl_cons, ih]
    cases rest with
    | nil => simp
    | cons r' rest => simp [add_assoc]

/-- A sum of values that are zero outside a condition is a sum over the rows that meet it. -/
theorem sum_ite_zero [AddMonoid β] (p : ρ → Bool) (f : ρ → β) (rows : List ρ) :
    (rows.map (fun r => if p r then f r else 0)).sum = ((rows.filter p).map f).sum := by
  induction rows with
  | nil => rfl
  | cons r rest ih =>
    rw [List.map_cons, List.sum_cons, ih, List.filter_cons]
    cases p r <;> simp

/-! ### Rows with distinct keys -/

/-- The row of a key is the same in whatever order the table is listed. -/
theorem filter_key_perm [DecidableEq κ] (key : ρ → κ) {rows other : List ρ}
    (hperm : rows.Perm other) (hnd : (rows.map key).Nodup) (k : κ) :
    rows.filter (fun r => key r = k) = other.filter (fun r => key r = k) := by
  have hfilter := hperm.filter (fun r => key r = k)
  have hdistinct := hnd.sublist ((@List.filter_sublist _ (fun r => key r = k) rows).map key)
  cases hrows : rows.filter (fun r => key r = k) with
  | nil =>
    rw [hrows] at hfilter
    exact (List.nil_perm.mp hfilter).symm
  | cons r rest =>
    have hkey : ∀ r' ∈ r :: rest, key r' = k := by
      intro r' hr'
      rw [← hrows] at hr'
      simpa using (List.mem_filter.mp hr').2
    cases rest with
    | nil =>
      rw [hrows] at hfilter
      exact (List.perm_singleton.mp hfilter.symm).symm
    | cons r' rest =>
      rw [hrows, List.map_cons, List.map_cons, hkey r (by simp), hkey r' (by simp)] at hdistinct
      simp at hdistinct

/-! ### Rows that only a condition sees -/

/-- A condition that only rows with `q` meet chooses the same rows from tables that agree on `q`. -/
theorem filter_congr_of_imp {p q : ρ → Bool} (hpq : ∀ r, p r = true → q r = true)
    {rows rows' : List ρ} (h : rows.filter q = rows'.filter q) :
    rows.filter p = rows'.filter p := by
  have hand : (fun r => p r && q r) = p := by
    funext r
    cases hp : p r with
    | false => rfl
    | true => rw [hpq r hp, Bool.and_true]
  have hp : ∀ rows : List ρ, rows.filter p = (rows.filter q).filter p := by
    intro rows
    rw [List.filter_filter, hand]
  rw [hp rows, hp rows', h]

/-- The first row that meets such a condition is the same too. -/
theorem find?_congr_of_imp {p q : ρ → Bool} (hpq : ∀ r, p r = true → q r = true)
    {rows rows' : List ρ} (h : rows.filter q = rows'.filter q) :
    rows.find? p = rows'.find? p := by
  rw [← List.head?_filter, ← List.head?_filter, filter_congr_of_imp hpq h]

/-- Sorting keeps rows that no comparison tells apart in their order. -/
theorem filter_insertionSort (r : ρ → ρ → Prop) [DecidableRel r] {p : ρ → Bool}
    (hp : ∀ a b, p a = true → p b = true → r a b) (rows : List ρ) :
    (rows.insertionSort r).filter p = rows.filter p := by
  have hsorted : (rows.filter p).Pairwise r := by
    apply List.pairwise_of_forall_mem_list
    intro a ha b hb
    exact hp a b (List.mem_filter.mp ha).2 (List.mem_filter.mp hb).2
  have hsub := (List.sublist_insertionSort hsorted List.filter_sublist).filter p
  rw [List.filter_filter] at hsub
  simp only [Bool.and_self] at hsub
  have hlen := ((List.perm_insertionSort r rows).filter p).length_eq
  exact (hsub.eq_of_length hlen.symm).symm

/-! ### GROUP BY -/

section GroupBy
variable [DecidableEq κ]

def groupBy (key : ρ → κ) (agg : List ρ → β) (rows : List ρ) : List (κ × β) :=
  (rows.map key).dedup.map (fun k => (k, agg (rows.filter (fun r => key r = k))))

theorem filter_eq_of_nodup {ks : List κ} (h : ks.Nodup) (k : κ) :
    ks.filter (fun k' => k' = k) = if k ∈ ks then [k] else [] := by
  rw [List.filter_eq, h.count]
  split <;> rfl

/-- The group of a key, alone. -/
theorem filter_groupBy (key : ρ → κ) (agg : List ρ → β) (rows : List ρ) (k : κ) :
    (groupBy key agg rows).filter (fun g => g.1 = k) =
      if k ∈ rows.map key then [(k, agg (rows.filter (fun r => key r = k)))] else [] := by
  have hcomp : ∀ g : κ → κ × β, (∀ k', (g k').1 = k') →
      (fun g : κ × β => decide (g.1 = k)) ∘ g = fun k' => decide (k' = k) := by
    intro g hg
    funext k'
    simp [hg]
  rw [groupBy, List.filter_map, hcomp _ (fun _ => rfl), filter_eq_of_nodup (List.nodup_dedup _)]
  simp only [List.mem_dedup]
  split <;> rfl

/-- A condition on the key that no row meets is met by no group. -/
theorem filter_groupBy_eq_nil (key : ρ → κ) (agg : List ρ → β) (p : κ → Bool) (rows : List ρ) :
    (groupBy key agg rows).filter (fun g => p g.1) = [] ↔ rows.filter (fun r => p (key r)) = [] := by
  simp [groupBy, List.filter_eq_nil_iff]

/-- Rows under other keys, one for each key, fall into the same groups. -/
theorem groupBy_map (key : ρ → κ) (agg : List ρ → β) (f : ρ → ρ) {g : κ → κ}
    (hg : Function.Injective g) (hkey : ∀ r, key (f r) = g (key r))
    (hagg : ∀ rows, agg (rows.map f) = agg rows) (rows : List ρ) :
    groupBy key agg (rows.map f) = (groupBy key agg rows).map (fun k => (g k.1, k.2)) := by
  have hkeys : (rows.map f).map key = (rows.map key).map g := by
    rw [List.map_map, List.map_map]
    exact List.map_congr_left fun r _ => hkey r
  have hfilter : ∀ k, (rows.map f).filter (fun r => key r = g k) =
      (rows.filter (fun r => key r = k)).map f := by
    intro k
    rw [List.filter_map]
    congr 1
    refine List.filter_congr fun r _ => ?_
    simp [hkey, hg.eq_iff]
  rw [groupBy, groupBy, hkeys, List.dedup_map_of_injective hg, List.map_map, List.map_map]
  refine List.map_congr_left fun k _ => ?_
  simp only [Function.comp_apply, hfilter, hagg]

/-! ### Sums over groups -/

variable [AddCommMonoid β]

theorem sum_ite_eq {ks : List κ} (hnd : ks.Nodup) (k : κ) (hk : k ∈ ks) (b : β) :
    (ks.map (fun k' => if k = k' then b else 0)).sum = b := by
  induction ks with
  | nil => cases hk
  | cons k' rest ih =>
    obtain ⟨hk', hrest⟩ := List.nodup_cons.mp hnd
    rw [List.map_cons, List.sum_cons]
    by_cases he : k = k'
    · subst he
      have hzero : (rest.map (fun k' => if k = k' then b else 0)) = rest.map (fun _ => 0) :=
        List.map_congr_left fun x hx => if_neg (fun h : k = x => hk' (by rw [h]; exact hx))
      rw [hzero]
      simp
    · rw [if_neg he, zero_add]
      exact ih hrest ((List.mem_cons.mp hk).resolve_left he)

/-- Summing each key's rows and then the keys is summing the rows. -/
theorem sum_by_key (key : ρ → κ) (f : ρ → β) {ks : List κ} (hnd : ks.Nodup) (rows : List ρ)
    (hks : ∀ r ∈ rows, key r ∈ ks) :
    (ks.map (fun k => ((rows.filter (fun r => key r = k)).map f).sum)).sum = (rows.map f).sum := by
  induction rows with
  | nil => simp
  | cons r rest ih =>
    have hrest := ih (fun r' hr' => hks r' (List.mem_cons_of_mem _ hr'))
    have hsplit : ∀ k, (((r :: rest).filter (fun r => key r = k)).map f).sum =
        (if key r = k then f r else 0) + ((rest.filter (fun r => key r = k)).map f).sum := by
      intro k
      by_cases h : key r = k <;> simp [h]
    simp only [hsplit, List.sum_map_add]
    rw [hrest, sum_ite_eq hnd (key r) (hks r (List.mem_cons_self ..)) (f r)]
    simp

/-- The groups whose key satisfies `p` sum to the rows whose key does. -/
theorem sum_groupBy (key : ρ → κ) (f : ρ → β) (p : κ → Bool) (rows : List ρ) :
    (((groupBy key (fun rs => (rs.map f).sum) rows).filter (fun g => p g.1)).map Prod.snd).sum =
      ((rows.filter (fun r => p (key r))).map f).sum := by
  have hfilter : ∀ k ∈ (rows.map key).dedup.filter p,
      ((rows.filter (fun r => key r = k)).map f).sum =
        (((rows.filter (fun r => p (key r))).filter (fun r => key r = k)).map f).sum := by
    intro k hk
    have hpk := (List.mem_filter.mp hk).2
    congr 2
    rw [List.filter_filter]
    refine List.filter_congr fun r _ => ?_
    by_cases h : key r = k
    · subst h
      simp [hpk]
    · simp [h]
  rw [groupBy, List.filter_map, List.map_map]
  have hcomp : (fun g : κ × β => p g.1) ∘
      (fun k => (k, ((rows.filter (fun r => key r = k)).map f).sum)) = p := rfl
  rw [hcomp]
  have hsnd := List.map_congr_left hfilter
  rw [show (Prod.snd ∘ fun k => (k, ((rows.filter (fun r => key r = k)).map f).sum)) =
    fun k => ((rows.filter (fun r => key r = k)).map f).sum from rfl, hsnd]
  refine sum_by_key key f ((List.nodup_dedup _).filter _) _ fun r hr => ?_
  obtain ⟨hr, hp⟩ := List.mem_filter.mp hr
  exact List.mem_filter.mpr ⟨List.mem_dedup.mpr (List.mem_map_of_mem hr), hp⟩

end GroupBy

end Rows
