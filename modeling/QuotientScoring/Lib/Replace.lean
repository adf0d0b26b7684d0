import Mathlib.Algebra.Order.Ring.Int
import Mathlib.Data.List.Basic

/-! Replacing every occurrence of a string.

`replaceAll` goes through a string once, from the left, and puts the new text where
the old one stands; occurrences do not overlap. For a single byte it replaces byte by
byte, and what was put in can be read off the result. -/
namespace Replace

/-- The rest of a string after `skip` more bytes of an occurrence. -/
def replaceFrom (old new : List UInt8) : Nat → List UInt8 → List UInt8
  | _, [] => []
  | skip + 1, _ :: rest => replaceFrom old new skip rest
  | 0, c :: rest =>
    if old <+: c :: rest then new ++ replaceFrom old new (old.length - 1) rest
    else c :: replaceFrom old new 0 rest

/-- `strings.Replace(s, old, new, -1)`, for an `old` that is not empty. -/
def replaceAll (old new s : List UInt8) : List UInt8 := replaceFrom old new 0 s

@[simp] theorem replaceAll_nil (old new : List UInt8) : replaceAll old new [] = [] := rfl

theorem replaceAll_cons (old new : List UInt8) (c : UInt8) (rest : List UInt8) :
    replaceAll old new (c :: rest) =
      if old <+: c :: rest then new ++ replaceFrom old new (old.length - 1) rest
      else c :: replaceAll old new rest := rfl

/-! ### A single byte -/

theorem replaceAll_byte (b : UInt8) (new s : List UInt8) :
    replaceAll [b] new s = s.flatMap (fun c => if c = b then new else [c]) := by
  induction s with
  | nil => rfl
  | cons c rest ih =>
    rw [replaceAll_cons, List.flatMap_cons, ← ih]
    by_cases h : c = b
    · subst h
      simp [replaceAll]
    · have hne : ¬[b] <+: c :: rest := by simpa using fun heq : b = c => h heq.symm
      simp [h, hne]

theorem replaceAll_byte_of_not_mem {b : UInt8} {new s : List UInt8} (h : b ∉ s) :
    replaceAll [b] new s = s := by
  rw [replaceAll_byte]
  induction s with
  | nil => rfl
  | cons c rest ih =>
    obtain ⟨hc, hrest⟩ : ¬b = c ∧ b ∉ rest := by simpa using h
    rw [List.flatMap_cons, ih hrest, if_neg fun heq : c = b => hc heq.symm]
    rfl

theorem replaceAll_byte_append (b : UInt8) (new s t : List UInt8) :
    replaceAll [b] new (s ++ t) = replaceAll [b] new s ++ replaceAll [b] new t := by
  simp [replaceAll_byte]

theorem length_replaceAll_byte (b : UInt8) (new s : List UInt8) :
    (replaceAll [b] new s).length + s.count b = s.length + s.count b * new.length := by
  rw [replaceAll_byte]
  induction s with
  | nil => simp
  | cons c rest ih =>
    by_cases h : c = b
    · subst h
      simp only [List.flatMap_cons, if_true, List.length_append, List.count_cons_self,
        List.length_cons, Nat.add_mul]
      omega
    · simp only [List.flatMap_cons, if_neg h, List.length_append, List.count_cons_of_ne h,
        List.length_cons, List.length_nil]
      omega

/-- What was put in for a byte that occurs can be read off the result. -/
theorem replaceAll_byte_inj {b : UInt8} {new new' s : List UInt8} (hb : b ∈ s)
    (h : replaceAll [b] new s = replaceAll [b] new' s) : new = new' := by
  have hlength : new.length = new'.length := by
    have hcount : 0 < s.count b := List.count_pos_iff.mpr hb
    have hl := length_replaceAll_byte b new s
    have hl' := length_replaceAll_byte b new' s
    rw [h] at hl
    exact Nat.eq_of_mul_eq_mul_left hcount (by omega)
  obtain ⟨before, after, rfl, hbefore⟩ := List.eq_append_cons_of_mem hb
  have hcons : ∀ text : List UInt8, replaceAll [b] text (before ++ b :: after) =
      before ++ (text ++ replaceAll [b] text after) := by
    intro text
    rw [replaceAll_byte_append, replaceAll_byte_of_not_mem hbefore, replaceAll_byte,
      List.flatMap_cons, if_pos rfl, ← replaceAll_byte]
  rw [hcons, hcons] at h
  exact List.append_inj_left (List.append_cancel_left h) hlength

/-! ### Longer strings -/

/-- What is left of an occurrence is skipped. -/
theorem replaceFrom_length (old new : List UInt8) (skipped s : List UInt8) :
    replaceFrom old new skipped.length (skipped ++ s) = replaceAll old new s := by
  induction skipped with
  | nil => rfl
  | cons c rest ih => exact ih

theorem replaceAll_old_append {old : List UInt8} (hold : old ≠ []) (new s : List UInt8) :
    replaceAll old new (old ++ s) = new ++ replaceAll old new s := by
  obtain ⟨c, rest, rfl⟩ := List.exists_cons_of_ne_nil hold
  have hpre : c :: rest <+: c :: (rest ++ s) := List.prefix_append (c :: rest) s
  rw [List.cons_append, replaceAll_cons, if_pos hpre]
  exact congrArg (new ++ ·) (replaceFrom_length (c :: rest) new rest s)

/-- The old string alone. -/
theorem replaceAll_old {old : List UInt8} (hold : old ≠ []) (new : List UInt8) :
    replaceAll old new old = new := by
  have h := replaceAll_old_append hold new []
  rwa [List.append_nil, replaceAll_nil, List.append_nil] at h

theorem replaceAll_skip {old : List UInt8} {c : UInt8} {s : List UInt8}
    (h : ¬old <+: c :: s) (new : List UInt8) :
    replaceAll old new (c :: s) = c :: replaceAll old new s := by
  rw [replaceAll_cons, if_neg h]

/-- Going through a string: an occurrence at its beginning, or a byte before the next one. -/
theorem scan_induction {old : List UInt8} (hold : old ≠ []) {P : List UInt8 → Prop} (nil : P [])
    (here : ∀ s, P s → P (old ++ s)) (skip : ∀ c s, ¬old <+: c :: s → P s → P (c :: s))
    (s : List UInt8) : P s := by
  induction hn : s.length using Nat.strong_induction_on generalizing s with
  | _ n ih =>
    cases s with
    | nil => exact nil
    | cons c rest =>
      by_cases hpre : old <+: c :: rest
      · obtain ⟨after, hafter⟩ := hpre
        rw [← hafter]
        apply here
        apply ih after.length _ after rfl
        have hlen := congrArg List.length hafter
        have hpos := List.length_pos_iff.mpr hold
        rw [List.length_append] at hlen
        omega
      · apply skip c rest hpre
        exact ih rest.length (by rw [← hn, List.length_cons]; omega) rest rfl

/-- An occurrence that lies on both sides of a cut. -/
def Straddles (old a b : List UInt8) : Prop :=
  ∃ u v, u ≠ [] ∧ v ≠ [] ∧ old = u ++ v ∧ u <:+ a ∧ v <+: b

/-- A string that is cut at no occurrence is replaced part by part. -/
theorem replaceAll_append {old a b : List UInt8} (hold : old ≠ []) (hcut : ¬Straddles old a b)
    (new : List UInt8) :
    replaceAll old new (a ++ b) = replaceAll old new a ++ replaceAll old new b := by
  induction a using scan_induction hold with
  | nil => rfl
  | here a ih =>
    rw [List.append_assoc, replaceAll_old_append hold, replaceAll_old_append hold, ih,
      List.append_assoc]
    rintro ⟨u, v, hu, hv, huv, hsuffix, hpre⟩
    exact hcut ⟨u, v, hu, hv, huv, hsuffix.trans (List.suffix_append old a), hpre⟩
  | skip c a hnot ih =>
    have hnot' : ¬old <+: c :: (a ++ b) := by
      intro hpre
      rw [← List.cons_append] at hpre
      rcases List.prefix_or_prefix_of_prefix hpre (List.prefix_append (c :: a) b) with h | ⟨v, hv⟩
      · exact hnot h
      · apply hcut
        refine ⟨c :: a, v, List.cons_ne_nil c a, ?_, hv.symm, List.suffix_refl _, ?_⟩
        · rintro rfl
          rw [List.append_nil] at hv
          rw [hv] at hnot
          exact hnot (List.prefix_refl old)
        · rw [← hv] at hpre
          exact (List.prefix_append_right_inj (c :: a)).mp hpre
    rw [List.cons_append, replaceAll_skip hnot', replaceAll_skip hnot,
      List.cons_append, ih]
    rintro ⟨u, v, hu, hv, huv, hsuffix, hpre⟩
    exact hcut ⟨u, v, hu, hv, huv, hsuffix.trans (List.suffix_cons c a), hpre⟩

theorem replaceAll_absent {old s : List UInt8} (hold : old ≠ []) (h : ¬old <:+: s)
    (new : List UInt8) : replaceAll old new s = s := by
  induction s using scan_induction hold with
  | nil => rfl
  | here s _ => exact absurd (List.prefix_append old s).isInfix h
  | skip c s hnot ih =>
    rw [replaceAll_skip hnot, ih fun hocc => h (List.infix_cons_iff.mpr (.inr hocc))]

theorem replaceAll_self {old : List UInt8} (hold : old ≠ []) (s : List UInt8) :
    replaceAll old old s = s := by
  induction s using scan_induction hold with
  | nil => rfl
  | here s ih => rw [replaceAll_old_append hold, ih]
  | skip c s hnot ih => rw [replaceAll_skip hnot, ih]

theorem mem_replaceAll {old new s : List UInt8} (hold : old ≠ []) {c : UInt8}
    (h : c ∈ replaceAll old new s) : c ∈ s ∨ c ∈ new := by
  induction s using scan_induction hold with
  | nil => exact .inl h
  | here s ih =>
    rw [replaceAll_old_append hold] at h
    rcases List.mem_append.mp h with hnew | hrest
    · exact .inr hnew
    · exact (ih hrest).imp_left (List.mem_append_right old)
  | skip d s hnot ih =>
    rw [replaceAll_skip hnot] at h
    rcases List.mem_cons.mp h with rfl | hrest
    · exact .inl List.mem_cons_self
    · exact (ih hrest).imp_left (List.mem_cons_of_mem d)

/-- Text that shares no byte with the old string stays where it is, and cuts what is around it. -/
theorem replaceAll_around {old x : List UInt8} (hold : old ≠ []) (hx : x ≠ [])
    (hdisjoint : ∀ c ∈ x, c ∉ old) (new a b : List UInt8) :
    replaceAll old new (a ++ (x ++ b)) = replaceAll old new a ++ (x ++ replaceAll old new b) := by
  have hbefore : ¬Straddles old a (x ++ b) := by
    rintro ⟨u, v, -, hv, rfl, -, hpre⟩
    obtain ⟨c, rest, rfl⟩ := List.exists_cons_of_ne_nil hx
    obtain ⟨d, v, rfl⟩ := List.exists_cons_of_ne_nil hv
    obtain ⟨rfl, -⟩ := List.cons_prefix_cons.mp hpre
    exact hdisjoint d List.mem_cons_self (by simp)
  have hafter : ¬Straddles old x b := by
    rintro ⟨u, v, hu, -, rfl, hsuffix, -⟩
    obtain ⟨c, hc⟩ := List.exists_mem_of_ne_nil u hu
    exact hdisjoint c (hsuffix.subset hc) (List.mem_append_left v hc)
  have hinside : ¬old <:+: x := by
    intro hocc
    obtain ⟨c, hc⟩ := List.exists_mem_of_ne_nil old hold
    exact hdisjoint c (hocc.subset hc) hc
  rw [replaceAll_append hold hbefore, replaceAll_append hold hafter,
    replaceAll_absent hold hinside]

/-- No end of the string is a beginning of it, so its occurrences do not overlap. -/
def BorderFree (old : List UInt8) : Prop :=
  ∀ k < old.length, 0 < k → ¬old.drop k <+: old

instance (old : List UInt8) : Decidable (BorderFree old) :=
  inferInstanceAs (Decidable (∀ k < old.length, 0 < k → ¬old.drop k <+: old))

/-- Every occurrence is replaced. -/
theorem replaceAll_occurrence {old : List UInt8} (hold : old ≠ []) (hborder : BorderFree old)
    (new a b : List UInt8) :
    replaceAll old new (a ++ (old ++ b)) = replaceAll old new a ++ (new ++ replaceAll old new b) := by
  have hcut : ¬Straddles old a (old ++ b) := by
    rintro ⟨u, v, hu, hv, huv, -, hpre⟩
    have hlen := congrArg List.length huv
    have hpos := List.length_pos_iff.mpr hu
    have hpos' := List.length_pos_iff.mpr hv
    rw [List.length_append] at hlen
    have hdrop : old.drop u.length = v := by rw [huv, List.drop_left]
    apply hborder u.length (by omega) hpos
    rw [hdrop]
    exact List.prefix_of_prefix_length_le hpre (List.prefix_append old b) (by omega)
  rw [replaceAll_append hold hcut, replaceAll_old_append hold]

/-- Replacing a part first makes no difference, where the new text shares no byte with the old
string. -/
theorem replaceAll_part {old new : List UInt8} (hold : old ≠ []) (hborder : BorderFree old)
    (hnew : new ≠ []) (hdisjoint : ∀ c ∈ new, c ∉ old) (a x b : List UInt8) :
    replaceAll old new (a ++ (replaceAll old new x ++ b)) = replaceAll old new (a ++ (x ++ b)) := by
  induction x using scan_induction hold generalizing a with
  | nil => rfl
  | here x ih =>
    have hrest := ih []
    rw [List.nil_append, List.nil_append] at hrest
    rw [replaceAll_old_append hold, List.append_assoc, replaceAll_around hold hnew hdisjoint, hrest,
      List.append_assoc, replaceAll_occurrence hold hborder]
  | skip c x hnot ih =>
    have hrest := ih (a ++ [c])
    rw [List.append_assoc, List.append_assoc] at hrest
    rw [replaceAll_skip hnot]
    exact hrest

/-- How many bytes of a kind there are depends on the number of occurrences. -/
theorem exists_countP_replaceAll {old : List UInt8} (hold : old ≠ []) (s : List UInt8) :
    ∃ k, (old <:+: s → 0 < k) ∧ ∀ (new : List UInt8) (p : UInt8 → Bool),
      (replaceAll old new s).countP p + k * old.countP p = s.countP p + k * new.countP p := by
  induction s using scan_induction hold with
  | nil =>
    refine ⟨0, fun hocc => absurd (List.infix_nil.mp hocc) hold, fun new p => ?_⟩
    simp
  | here s ih =>
    obtain ⟨k, -, hcount⟩ := ih
    refine ⟨k + 1, fun _ => k.succ_pos, fun new p => ?_⟩
    have := hcount new p
    simp only [replaceAll_old_append hold, List.countP_append, Nat.add_mul]
    omega
  | skip c s hnot ih =>
    obtain ⟨k, hpos, hcount⟩ := ih
    refine ⟨k, fun hocc => hpos ((List.infix_cons_iff.mp hocc).resolve_left hnot), fun new p => ?_⟩
    have := hcount new p
    simp only [replaceAll_skip hnot, List.countP_cons]
    omega

/-- A string with an occurrence is left as it is only by what stands there already. -/
theorem eq_of_replaceAll_eq {old new s : List UInt8} (hold : old ≠ []) (hocc : old <:+: s)
    (h : replaceAll old new s = s) : new = old := by
  have hlength : new.length = old.length := by
    obtain ⟨k, hpos, hcount⟩ := exists_countP_replaceAll hold s
    have hall := hcount new (fun _ => true)
    rw [h] at hall
    simp only [List.countP_true] at hall
    exact (Nat.eq_of_mul_eq_mul_left (hpos hocc) (by omega)).symm
  induction s using scan_induction hold with
  | nil => exact absurd (List.infix_nil.mp hocc) hold
  | here s _ =>
    rw [replaceAll_old_append hold] at h
    exact List.append_inj_left h hlength
  | skip c s hnot ih =>
    rw [replaceAll_skip hnot] at h
    exact ih ((List.infix_cons_iff.mp hocc).resolve_left hnot) (List.cons.inj h).2

/-! ### Parts -/

/-- The parts of a string after `skip` more bytes of an occurrence. -/
def splitFrom (old : List UInt8) : Nat → List UInt8 → List (List UInt8)
  | _, [] => [[]]
  | skip + 1, _ :: rest => splitFrom old skip rest
  | 0, c :: rest =>
    if old <+: c :: rest then [] :: splitFrom old (old.length - 1) rest
    else (splitFrom old 0 rest).modifyHead (c :: ·)

/-- `strings.Split(s, old)`, for an `old` that is not empty: what is before, between and after the
occurrences that are replaced. -/
def split (old s : List UInt8) : List (List UInt8) := splitFrom old 0 s

theorem splitFrom_ne_nil (old : List UInt8) (skip : Nat) (s : List UInt8) :
    splitFrom old skip s ≠ [] := by
  induction s generalizing skip with
  | nil => simp [splitFrom]
  | cons c rest ih =>
    cases skip with
    | zero =>
      rw [splitFrom]
      split
      · exact List.cons_ne_nil _ _
      · obtain ⟨part, parts, hsplit⟩ := List.exists_cons_of_ne_nil (ih 0)
        rw [hsplit]
        exact List.cons_ne_nil _ _
    | succ skip => exact ih skip

theorem intercalate_splitFrom (old new : List UInt8) (skip : Nat) (s : List UInt8) :
    new.intercalate (splitFrom old skip s) = replaceFrom old new skip s := by
  induction s generalizing skip with
  | nil => cases skip <;> simp [splitFrom, replaceFrom]
  | cons c rest ih =>
    cases skip with
    | zero =>
      rw [splitFrom, replaceFrom]
      split
      · rw [List.intercalate_cons_of_ne_nil (splitFrom_ne_nil old _ _), ih, List.nil_append]
      · rw [← ih]
        obtain ⟨part, parts, hsplit⟩ := List.exists_cons_of_ne_nil (splitFrom_ne_nil old 0 rest)
        rw [hsplit]
        cases parts <;> simp
    | succ skip => exact ih skip

/-- The parts, joined by the new text. -/
theorem intercalate_split (old new s : List UInt8) :
    new.intercalate (split old s) = replaceAll old new s :=
  intercalate_splitFrom old new 0 s

/-- A join of text that shares no byte with the old string is replaced part by part. -/
theorem replaceAll_intercalate {old x : List UInt8} (hold : old ≠ []) (hx : x ≠ [])
    (hdisjoint : ∀ c ∈ x, c ∉ old) (new : List UInt8) (parts : List (List UInt8)) :
    replaceAll old new (x.intercalate parts) = x.intercalate (parts.map (replaceAll old new)) := by
  induction parts with
  | nil => rfl
  | cons part rest ih =>
    by_cases hrest : rest = []
    · subst hrest
      simp
    · have hmap : rest.map (replaceAll old new) ≠ [] := by simpa using hrest
      rw [List.map_cons, List.intercalate_cons_of_ne_nil hrest, List.intercalate_cons_of_ne_nil hmap,
        List.append_assoc, replaceAll_around hold hx hdisjoint, ih, List.append_assoc]

/-- In a join the parts may be replaced first. -/
theorem replaceAll_intercalate_parts {old new : List UInt8} (hold : old ≠ [])
    (hborder : BorderFree old) (hnew : new ≠ []) (hdisjoint : ∀ c ∈ new, c ∉ old)
    (x a : List UInt8) (parts : List (List UInt8)) :
    replaceAll old new (a ++ x.intercalate (parts.map (replaceAll old new))) =
      replaceAll old new (a ++ x.intercalate parts) := by
  induction parts generalizing a with
  | nil => rfl
  | cons part rest ih =>
    by_cases hrest : rest = []
    · subst hrest
      have hpart := replaceAll_part hold hborder hnew hdisjoint a part []
      simpa using hpart
    · have hmap : rest.map (replaceAll old new) ≠ [] := by simpa using hrest
      have htail := ih (a ++ (replaceAll old new part ++ x))
      rw [List.map_cons, List.intercalate_cons_of_ne_nil hrest, List.intercalate_cons_of_ne_nil hmap]
      calc replaceAll old new (a ++ (replaceAll old new part ++ x ++
            x.intercalate (rest.map (replaceAll old new))))
          = replaceAll old new (a ++ (replaceAll old new part ++ x) ++ x.intercalate rest) := by
            rw [← htail, List.append_assoc a]
        _ = replaceAll old new (a ++ (replaceAll old new part ++ (x ++ x.intercalate rest))) := by
            simp only [List.append_assoc]
        _ = replaceAll old new (a ++ (part ++ (x ++ x.intercalate rest))) :=
            replaceAll_part hold hborder hnew hdisjoint a part (x ++ x.intercalate rest)
        _ = replaceAll old new (a ++ (part ++ x ++ x.intercalate rest)) := by
            rw [List.append_assoc part]

end Replace
