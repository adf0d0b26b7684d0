import Mathlib.Data.List.Nodup
import Mathlib.Data.List.Perm.Basic

/-! Tables with a unique key.

`first` is the row with a key, `firstOrCreate` adds a row unless there is one with
its key, `save` writes a row over the one with its key, and `upsert` does the one or
the other. What a table holds is read through `first`: the lemmas say what each write,
and a loop of them, does to the row of every key. -/
namespace Keyed
variable {ρ κ : Type} [DecidableEq κ] (key : ρ → κ)

/-- The row with this key. -/
def first (rows : List ρ) (k : κ) : Option ρ := rows.find? (fun r => key r = k)

/-- `FirstOrCreate`: the row, unless there is one with its key. -/
def firstOrCreate (rows : List ρ) (row : ρ) : List ρ :=
  if (first key rows (key row)).isSome then rows else rows ++ [row]

/-- `Save`: the row in place of the one with its key. -/
def save (rows : List ρ) (row : ρ) : List ρ := rows.map (fun r => if key r = key row then row else r)

variable {key} {rows : List ρ} {k : κ}

theorem mem_of_first {r : ρ} (h : first key rows k = some r) : r ∈ rows :=
  List.mem_of_find?_eq_some h

theorem key_of_first {r : ρ} (h : first key rows k = some r) : key r = k := by
  simpa using List.find?_some h

theorem first_eq_none : first key rows k = none ↔ ∀ r ∈ rows, key r ≠ k := by
  simp [first]

theorem first_isSome : (first key rows k).isSome ↔ ∃ r ∈ rows, key r = k := by
  simp [first]

theorem first_append (rows new : List ρ) (k : κ) :
    first key (rows ++ new) k = (first key rows k).or (first key new k) := by
  simp [first]

/-- With distinct keys, a row is the row of its key. -/
theorem first_key (hnd : (rows.map key).Nodup) {r : ρ} (h : r ∈ rows) :
    first key rows (key r) = some r := by
  cases hf : first key rows (key r) with
  | none => exact absurd rfl (first_eq_none.mp hf r h)
  | some r' =>
    have heq := List.inj_on_of_nodup_map hnd (mem_of_first hf) h (key_of_first hf)
    rw [heq]

theorem first_eq_some (hnd : (rows.map key).Nodup) {r : ρ} :
    first key rows k = some r ↔ r ∈ rows ∧ key r = k := by
  constructor
  · intro h
    exact ⟨mem_of_first h, key_of_first h⟩
  · intro h
    rw [← h.2]
    exact first_key hnd h.1

/-! ### FirstOrCreate -/

theorem first_firstOrCreate (rows : List ρ) (row : ρ) (k : κ) :
    first key (firstOrCreate key rows row) k = (first key rows k).or (first key [row] k) := by
  unfold firstOrCreate
  split
  · rename_i hsome
    by_cases hk : key row = k
    · obtain ⟨r, hr⟩ := Option.isSome_iff_exists.mp hsome
      rw [← hk, hr, Option.some_or]
    · have hnone : first key [row] k = none := first_eq_none.mpr (by simpa using hk)
      rw [hnone, Option.or_none]
  · exact first_append rows [row] k

/-- A loop of `FirstOrCreate`: the rows that were there, then the first of the new ones. -/
theorem first_foldl (new rows : List ρ) (k : κ) :
    first key (new.foldl (firstOrCreate key) rows) k = (first key rows k).or (first key new k) := by
  induction new generalizing rows with
  | nil => simp [first]
  | cons row rest ih =>
    have hcons : first key (row :: rest) k = (first key [row] k).or (first key rest k) :=
      first_append [row] rest k
    rw [List.foldl_cons, ih, first_firstOrCreate, hcons, Option.or_assoc]

theorem mem_foldl (new : List ρ) {r : ρ} (h : r ∈ rows) : r ∈ new.foldl (firstOrCreate key) rows := by
  induction new generalizing rows with
  | nil => exact h
  | cons row rest ih =>
    apply ih
    unfold firstOrCreate
    split
    · exact h
    · exact List.mem_append_left _ h

theorem nodup_firstOrCreate (hnd : (rows.map key).Nodup) (row : ρ) :
    ((firstOrCreate key rows row).map key).Nodup := by
  unfold firstOrCreate
  split
  · exact hnd
  · rename_i hnone
    have hne := first_eq_none.mp (Option.not_isSome_iff_eq_none.mp hnone)
    rw [List.map_append, List.nodup_append]
    refine ⟨hnd, List.nodup_singleton _, ?_⟩
    intro a ha b hb hab
    obtain ⟨r, hr, rfl⟩ := List.mem_map.mp ha
    exact hne r hr (hab.trans (List.mem_singleton.mp hb))

theorem nodup_foldl (new : List ρ) (hnd : (rows.map key).Nodup) :
    ((new.foldl (firstOrCreate key) rows).map key).Nodup := by
  induction new generalizing rows with
  | nil => exact hnd
  | cons row rest ih => exact ih (nodup_firstOrCreate hnd row)

/-! ### Save -/

theorem map_key_save (rows : List ρ) (row : ρ) : (save key rows row).map key = rows.map key := by
  rw [save, List.map_map]
  apply List.map_congr_left
  intro r _
  by_cases h : key r = key row <;> simp [h]

theorem first_save (rows : List ρ) (row : ρ) (k : κ) :
    first key (save key rows row) k =
      (first key rows k).map (fun r => if key row = k then row else r) := by
  induction rows with
  | nil => rfl
  | cons r rest ih =>
    have hhead : key (if key r = key row then row else r) = key r := by
      by_cases h : key r = key row <;> simp [h]
    by_cases hk : key r = k
    · subst hk
      by_cases hr : key r = key row
      · simp [first, save, hr]
      · have hr' : ¬key row = key r := fun h => hr h.symm
        simp [first, save, hr, hr']
    · have hrest : first key (r :: rest) k = first key rest k := by
        simp [first, hk]
      rw [hrest, ← ih]
      simp [first, save, hhead, hk]

/-- Over a table that has the row `r`, saving a row of the same key rewrites `r` only. -/
theorem save_of_mem (hnd : (rows.map key).Nodup) {f : ρ → ρ} {r : ρ} (hr : r ∈ rows)
    (hkey : key (f r) = key r) :
    save key rows (f r) = rows.map (fun x => if key x = key r then f x else x) := by
  apply List.map_congr_left
  intro x hx
  rw [hkey]
  split
  · rename_i hxr
    rw [List.inj_on_of_nodup_map hnd hx hr hxr]
  · rfl

/-- A loop over rows that were read before it, each saved as `f` has it or left: every row
read ends as `f` has it, and no other is touched. -/
theorem foldl_save {f : ρ → Option ρ} (hkey : ∀ r r', f r = some r' → key r' = key r)
    (read : List ρ) (hread : (read.map key).Nodup) (hnd : (rows.map key).Nodup)
    (hmem : ∀ r ∈ read, r ∈ rows) :
    read.foldl (fun rows r => (f r).elim rows (save key rows)) rows =
      rows.map (fun r => if key r ∈ read.map key then (f r).getD r else r) := by
  induction read generalizing rows with
  | nil => simp
  | cons r rest ih =>
    obtain ⟨hnot, hrest⟩ := List.nodup_cons.mp hread
    have hg : ∀ x, key ((f x).getD x) = key x := by
      intro x
      cases hx : f x with
      | none => rfl
      | some x' => exact hkey x x' hx
    have hfirst : (f r).elim rows (save key rows) =
        rows.map (fun x => if key x = key r then (f x).getD x else x) := by
      have hsave := save_of_mem (f := fun x => (f x).getD x) hnd (hmem r List.mem_cons_self) (hg r)
      rw [← hsave]
      cases hr : f r with
      | some r' => rfl
      | none =>
        have hself := save_of_mem (f := id) hnd (hmem r List.mem_cons_self) rfl
        rw [Option.elim_none, Option.getD_none, ← id_eq r, hself]
        simp
    have hkeys : (rows.map (fun x => if key x = key r then (f x).getD x else x)).map key =
        rows.map key := by
      rw [List.map_map]
      apply List.map_congr_left
      intro x _
      show key (if key x = key r then (f x).getD x else x) = key x
      split
      · exact hg x
      · rfl
    rw [List.foldl_cons, hfirst, ih hrest (by rw [hkeys]; exact hnd), List.map_map]
    · apply List.map_congr_left
      intro x _
      by_cases hx : key x = key r
      · have hx' : key ((f x).getD x) ∉ rest.map key := by
          rw [hg, hx]
          exact hnot
        simp only [Function.comp_apply, if_pos hx]
        rw [if_neg hx', if_pos (by simp [hx])]
      · simp [hx]
    · intro x hx
      have hne : key x ≠ key r := fun heq => hnot (heq ▸ List.mem_map_of_mem hx)
      exact List.mem_map.mpr ⟨x, hmem x (List.mem_cons_of_mem _ hx), if_neg hne⟩

/-! ### Upsert -/

/-- `ON CONFLICT DO UPDATE`: the row, or the one with its key after `change`. -/
def upsert (key : ρ → κ) (change : ρ → ρ) (rows : List ρ) (row : ρ) : List ρ :=
  if (first key rows (key row)).isSome then
    rows.map (fun r => if key r = key row then change r else r)
  else rows ++ [row]

variable {change : ρ → ρ}

theorem first_upsert (hkey : ∀ r, key (change r) = key r) (rows : List ρ) (row : ρ) (k : κ) :
    first key (upsert key change rows row) k =
      if key row = k then some ((first key rows k).elim row change) else first key rows k := by
  unfold upsert
  split
  · rename_i hsome
    have hmap : first key (rows.map (fun r => if key r = key row then change r else r)) k =
        (first key rows k).map (fun r => if key r = key row then change r else r) := by
      have hsame : ∀ r, key (if key r = key row then change r else r) = key r := by
        intro r
        split
        · exact hkey r
        · rfl
      rw [first, List.find?_map]
      simp only [Function.comp_def, hsame]
      rfl
    rw [hmap]
    split
    · rename_i hk
      subst hk
      obtain ⟨r, hr⟩ := Option.isSome_iff_exists.mp hsome
      rw [hr, Option.map_some, if_pos (key_of_first hr), Option.elim_some]
    · rename_i hk
      cases hr : first key rows k with
      | none => rfl
      | some r => rw [Option.map_some, key_of_first hr, if_neg (Ne.symm hk)]
  · rename_i hnone
    rw [first_append]
    split
    · rename_i hk
      subst hk
      rw [Option.not_isSome_iff_eq_none.mp hnone]
      simp [first]
    · rename_i hk
      simp [first, hk]

theorem nodup_upsert (hkey : ∀ r, key (change r) = key r) (hnd : (rows.map key).Nodup) (row : ρ) :
    ((upsert key change rows row).map key).Nodup := by
  unfold upsert
  split
  · have hsame : (rows.map (fun r => if key r = key row then change r else r)).map key =
        rows.map key := by
      rw [List.map_map]
      apply List.map_congr_left
      intro r _
      show key (if key r = key row then change r else r) = key r
      split
      · exact hkey r
      · rfl
    rw [hsame]
    exact hnd
  · rename_i hnone
    have hcreate := nodup_firstOrCreate hnd row
    rwa [firstOrCreate, if_neg hnone] at hcreate

end Keyed
