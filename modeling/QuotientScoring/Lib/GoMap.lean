import Mathlib.Data.List.AList

/-! Maps of maps.

A map from keys to values is an `AList`: entries with distinct keys, in an
order nothing may depend on. `GoMap₂` is a map of maps, read and written one
level at a time; `find?` is the value under a pair of keys, and the lemmas say
what each write does to it. -/

abbrev GoMap (K V : Type) := AList (fun _ : K => V)

abbrev GoMap₂ (K L V : Type) := GoMap K (GoMap L V)

/-- The keys after a loop that puts something under a key for each row. -/
theorem GoMap.isSome_lookup_foldl_insert {K V ρ : Type} [DecidableEq K] (key : ρ → K) (val : ρ → V)
    (rows : List ρ) (m : GoMap K V) (k : K) :
    ((rows.foldl (fun m r => m.insert (key r) (val r)) m).lookup k).isSome ↔
      (m.lookup k).isSome ∨ ∃ r ∈ rows, key r = k := by
  induction rows generalizing m with
  | nil => simp
  | cons r rest ih =>
    rw [List.foldl_cons, ih]
    by_cases hr : key r = k
    · subst hr
      simp
    · rw [AList.lookup_insert_ne (Ne.symm hr)]
      simp [hr]

/-- The value under a key after such a loop: that of the row with the key, where no two
rows have one. -/
theorem GoMap.lookup_foldl_insert {K V ρ : Type} [DecidableEq K] {key : ρ → K} {val : ρ → V}
    {rows : List ρ} (hnd : (rows.map key).Nodup) (m : GoMap K V) (k : K) (v : V) :
    (rows.foldl (fun m r => m.insert (key r) (val r)) m).lookup k = some v ↔
      (∃ r ∈ rows, key r = k ∧ val r = v) ∨ (∀ r ∈ rows, key r ≠ k) ∧ m.lookup k = some v := by
  induction rows generalizing m with
  | nil => simp
  | cons r rest ih =>
    obtain ⟨hnot, hrest⟩ := List.nodup_cons.mp hnd
    rw [List.foldl_cons, ih hrest]
    by_cases hr : key r = k
    · subst hr
      have habsent : ∀ r' ∈ rest, key r' ≠ key r :=
        fun r' hr' heq => hnot (heq ▸ List.mem_map_of_mem hr')
      have hnone : ¬∃ r' ∈ rest, key r' = key r ∧ val r' = v :=
        fun h => habsent _ h.choose_spec.1 h.choose_spec.2.1
      simp [hnone]
      exact fun _ => habsent
    · rw [AList.lookup_insert_ne (Ne.symm hr)]
      simp [hr]

namespace GoMap₂
variable {K L V : Type} [DecidableEq K] [DecidableEq L]

/-- The value under two keys. -/
def find? (m : GoMap₂ K L V) (k : K) (l : L) : Option V :=
  (m.lookup k).bind (fun inner => inner.lookup l)

/-- The value under two keys, the zero value where there is none. -/
def get [Inhabited V] (m : GoMap₂ K L V) (k : K) (l : L) : V := (m.find? k l).getD default

/-- The inner map, made where it is missing. -/
def make (m : GoMap₂ K L V) (k : K) : GoMap₂ K L V :=
  if (m.lookup k).isNone then m.insert k ∅ else m

/-- A write under two keys. A missing inner map counts as empty. -/
def put (m : GoMap₂ K L V) (k : K) (l : L) (v : V) : GoMap₂ K L V :=
  m.insert k (((m.lookup k).getD ∅).insert l v)

/-- A value under two keys, put there where there is none. -/
def ensure (m : GoMap₂ K L V) (k : K) (l : L) (v : V) : GoMap₂ K L V :=
  let m := m.make k
  if (m.find? k l).isNone then m.put k l v else m

@[simp] theorem find?_empty (k : K) (l : L) : (∅ : GoMap₂ K L V).find? k l = none := rfl

@[simp] theorem find?_make (m : GoMap₂ K L V) (k k' : K) (l : L) :
    (m.make k).find? k' l = m.find? k' l := by
  unfold make
  split
  · rename_i hk
    by_cases h : k' = k
    · subst h
      simp only [find?, AList.lookup_insert, Option.bind_some, AList.lookup_empty]
      rw [Option.isNone_iff_eq_none.mp hk, Option.bind_none]
    · simp only [find?, AList.lookup_insert_ne h]
  · rfl

theorem find?_put (m : GoMap₂ K L V) (k k' : K) (l l' : L) (v : V) :
    (m.put k l v).find? k' l' = if k = k' ∧ l = l' then some v else m.find? k' l' := by
  unfold put
  by_cases hk : k' = k
  · subst hk
    by_cases hl : l' = l
    · subst hl
      simp [find?]
    · have hne : ¬(k' = k' ∧ l = l') := fun h => hl h.2.symm
      rw [if_neg hne]
      cases hm : m.lookup k' with
      | none =>
        simp only [find?, AList.lookup_insert, hm, Option.getD_none, Option.bind_some,
          Option.bind_none, AList.lookup_insert_ne hl, AList.lookup_empty]
      | some inner =>
        simp only [find?, AList.lookup_insert, hm, Option.getD_some, Option.bind_some,
          AList.lookup_insert_ne hl]
  · have hne : ¬(k = k' ∧ l = l') := fun h => hk h.1.symm
    rw [if_neg hne]
    simp only [find?, AList.lookup_insert_ne hk]

@[simp] theorem find?_put_self (m : GoMap₂ K L V) (k : K) (l : L) (v : V) :
    (m.put k l v).find? k l = some v := by
  simp [find?_put]

theorem find?_ensure (m : GoMap₂ K L V) (k k' : K) (l l' : L) (v : V) :
    (m.ensure k l v).find? k' l' =
      if k = k' ∧ l = l' then some ((m.find? k l).getD v) else m.find? k' l' := by
  simp only [ensure, find?_make]
  cases hm : m.find? k l with
  | none => simp [find?_put]
  | some w =>
    by_cases h : k = k' ∧ l = l'
    · obtain ⟨rfl, rfl⟩ := h
      simp [hm]
    · simp [h]

@[simp] theorem get_ensure [Inhabited V] (m : GoMap₂ K L V) (k : K) (l : L) (v : V) :
    (m.ensure k l v).get k l = (m.find? k l).getD v := by
  simp [get, find?_ensure]

@[simp] theorem get_put_self [Inhabited V] (m : GoMap₂ K L V) (k : K) (l : L) (v : V) :
    (m.put k l v).get k l = v := by
  simp [get]

/-! ### The outer keys -/

theorem isSome_lookup_put (m : GoMap₂ K L V) (k k' : K) (l : L) (v : V) :
    ((m.put k l v).lookup k').isSome = (decide (k = k') || (m.lookup k').isSome) := by
  unfold put
  by_cases h : k = k'
  · subst h
    simp
  · rw [AList.lookup_insert_ne (Ne.symm h)]
    simp [h]

theorem isSome_lookup_ensure (m : GoMap₂ K L V) (k k' : K) (l : L) (v : V) :
    ((m.ensure k l v).lookup k').isSome = (decide (k = k') || (m.lookup k').isSome) := by
  have hmake : ((m.make k).lookup k').isSome = (decide (k = k') || (m.lookup k').isSome) := by
    unfold make
    by_cases h : k = k'
    · subst h
      cases hm : m.lookup k <;> simp [hm]
    · split
      · rw [AList.lookup_insert_ne (Ne.symm h)]
        simp [h]
      · simp [h]
  unfold ensure
  dsimp only
  split
  · rw [isSome_lookup_put, hmake, ← Bool.or_assoc, Bool.or_self]
  · exact hmake

/-- The same keys on both levels, and the same values. -/
structure Same (m m' : GoMap₂ K L V) : Prop where
  keys : ∀ k, (m.lookup k).isSome = (m'.lookup k).isSome
  values : ∀ k l, m.find? k l = m'.find? k l

/-! ### The entries, in some order -/

/-- Every value with its two keys. -/
def toList (m : GoMap₂ K L V) : List (K × L × V) :=
  m.entries.flatMap (fun e => e.2.entries.map (fun f => (e.1, f.1, f.2)))

theorem mem_toList {m : GoMap₂ K L V} {k : K} {l : L} {v : V} :
    (k, l, v) ∈ m.toList ↔ m.find? k l = some v := by
  have hinner : ∀ inner : GoMap L V, (⟨l, v⟩ : Sigma fun _ : L => V) ∈ inner.entries ↔
      inner.lookup l = some v := fun inner => (AList.mem_lookup_iff (s := inner)).symm
  constructor
  · intro h
    obtain ⟨⟨k', inner⟩, he, hf⟩ := List.mem_flatMap.mp h
    obtain ⟨⟨l', v'⟩, hf', heq⟩ := List.mem_map.mp hf
    obtain ⟨rfl, rfl, rfl⟩ : k' = k ∧ l' = l ∧ v' = v := by simpa using heq
    have hk : m.lookup k' = some inner := AList.mem_lookup_iff.mpr he
    simpa [find?, hk] using (hinner inner).mp hf'
  · intro h
    obtain ⟨inner, hk, hl⟩ := Option.bind_eq_some_iff.mp h
    refine List.mem_flatMap.mpr ⟨⟨k, inner⟩, AList.mem_lookup_iff.mp hk, ?_⟩
    exact List.mem_map.mpr ⟨⟨l, v⟩, (hinner inner).mpr hl, rfl⟩

omit [DecidableEq K] [DecidableEq L] in
/-- No pair of keys is listed twice. -/
theorem nodup_keys_toList (m : GoMap₂ K L V) :
    (m.toList.map (fun e => (e.1, e.2.1))).Nodup := by
  have hkeys : (m.entries.map Sigma.fst).Nodup := m.keys_nodup
  rw [toList, List.map_flatMap]
  refine List.nodup_flatMap.mpr ⟨?_, ?_⟩
  · intro e _
    have hin : (e.2.entries.map Sigma.fst).Nodup := e.2.keys_nodup
    have : (e.2.entries.map (fun f => (e.1, f.1, f.2))).map (fun e => (e.1, e.2.1)) =
        (e.2.entries.map Sigma.fst).map (Prod.mk e.1) := by simp
    rw [this]
    exact hin.map (fun _ _ h => congrArg Prod.snd h)
  · refine (List.pairwise_map.mp hkeys).imp ?_
    intro a b hab x hxa hxb
    simp only [List.map_map, List.mem_map, Function.comp_apply] at hxa hxb
    obtain ⟨_, _, rfl⟩ := hxa
    obtain ⟨_, _, heq⟩ := hxb
    exact hab (congrArg Prod.fst heq).symm

end GoMap₂
