import Mathlib.Algebra.Order.Ring.Int
import Mathlib.Data.List.Basic
import Mathlib.Data.List.DropRight

/-! Decimal numbers as text.

`decimal` prints a number and `parseUint` and `atoi` read one: what is printed is
read back, and different numbers print differently. -/
namespace Decimal

/-- The decimal digits of a number, as `fmt.Sprint` prints them. -/
def decimal (n : Nat) : List UInt8 := (Nat.toDigits 10 n).map (fun c => c.toNat.toUInt8)

/-- The byte of a decimal digit. -/
def IsDigit (c : UInt8) : Prop := 48 ≤ c.toNat ∧ c.toNat ≤ 57

theorem toNat_digit {c : Char} (h : c.isDigit = true) : 48 ≤ c.toNat ∧ c.toNat ≤ 57 := by
  simp only [Char.isDigit, Bool.and_eq_true, decide_eq_true_eq, UInt32.le_iff_toNat_le] at h
  exact h

theorem toNat_toUInt8_digit {c : Char} (h : c.isDigit = true) : c.toNat.toUInt8.toNat = c.toNat := by
  have hrange := toNat_digit h
  exact Nat.mod_eq_of_lt (by omega)

theorem isDigit_of_mem_decimal {n : Nat} {c : UInt8} (h : c ∈ decimal n) : IsDigit c := by
  obtain ⟨d, hd, rfl⟩ := List.mem_map.mp h
  have hdigit := Nat.isDigit_of_mem_toDigits (by decide) (by decide) hd
  rw [IsDigit, toNat_toUInt8_digit hdigit]
  exact toNat_digit hdigit

theorem decimal_ne_nil (n : Nat) : decimal n ≠ [] := by
  simp [decimal]

/-- The digits as characters again. -/
theorem map_decimal (n : Nat) :
    (decimal n).map (fun c => Char.ofNat c.toNat) = Nat.toDigits 10 n := by
  rw [decimal, List.map_map]
  calc (Nat.toDigits 10 n).map _ = (Nat.toDigits 10 n).map id := by
        apply List.map_congr_left
        intro c hc
        have hdigit := Nat.isDigit_of_mem_toDigits (by decide) (by decide) hc
        rw [Function.comp_apply, toNat_toUInt8_digit hdigit, Char.ofNat_toNat, id]
    _ = Nat.toDigits 10 n := List.map_id _

/-- Different numbers print differently. -/
theorem decimal_inj {m n : Nat} : decimal m = decimal n ↔ m = n := by
  constructor
  · intro h
    have hdigits : Nat.toDigits 10 m = Nat.toDigits 10 n := by
      rw [← map_decimal, h, map_decimal]
    calc m = Nat.ofDigitChars 10 (Nat.toDigits 10 m) 0 := Nat.ofDigitChars_ten_toDigits.symm
      _ = Nat.ofDigitChars 10 (Nat.toDigits 10 n) 0 := by rw [hdigits]
      _ = n := Nat.ofDigitChars_ten_toDigits
  · exact congrArg decimal

/-- The digits of a number other than zero start with another digit. -/
theorem decimal_head {n : Nat} (h : 0 < n) : ∃ c rest, decimal n = c :: rest ∧ c ≠ 48 := by
  induction n using Nat.strongRecOn with
  | ind n ih =>
    by_cases hlt : n < 10
    · refine ⟨n.digitChar.toNat.toUInt8, [], ?_, ?_⟩
      · rw [decimal, Nat.toDigits_of_lt_base hlt]
        rfl
      · have hdigits : ∀ d < 10, 0 < d → d.digitChar.toNat.toUInt8 ≠ 48 := by decide
        exact hdigits n hlt h
    · obtain ⟨c, rest, hcons, hc⟩ := ih (n / 10) (by omega) (by omega)
      refine ⟨c, rest ++ [(n % 10).digitChar.toNat.toUInt8], ?_, hc⟩
      rw [decimal, Nat.toDigits_of_base_le (by decide) (by omega), List.map_append]
      show decimal (n / 10) ++ _ = _
      rw [hcons]
      rfl

/-! ### Reading -/

instance (c : UInt8) : Decidable (IsDigit c) := inferInstanceAs (Decidable (_ ∧ _))

/-- The number some digits stand for. -/
def parseDigits (s : List UInt8) : Option Nat :=
  if s ≠ [] ∧ s.all (fun c => IsDigit c) then
    some (Nat.ofDigitChars 10 (s.map (fun c => Char.ofNat c.toNat)) 0)
  else none

/-- `strconv.ParseUint(s, 10, bits)`; a failure is `none`. -/
def parseUint (bits : Nat) (s : List UInt8) : Option Nat :=
  (parseDigits s).filter (fun n => n < 2 ^ bits)

/-- `strconv.Atoi`: digits, after one sign or none. -/
def atoi (s : List UInt8) : Option Int :=
  let parsed : Option Int :=
    match s with
    | 43 :: rest => (parseDigits rest).map (fun n => (n : Int))
    | 45 :: rest => (parseDigits rest).map (fun n => -(n : Int))
    | s => (parseDigits s).map (fun n => (n : Int))
  parsed.filter (fun n => -2 ^ 63 ≤ n ∧ n < 2 ^ 63)

theorem parseDigits_decimal (n : Nat) : parseDigits (decimal n) = some n := by
  have hdigits : (decimal n).all (fun c => IsDigit c) = true :=
    List.all_eq_true.mpr (fun _ hc => decide_eq_true (isDigit_of_mem_decimal hc))
  rw [parseDigits, if_pos ⟨decimal_ne_nil n, hdigits⟩, map_decimal, Nat.ofDigitChars_ten_toDigits]

theorem parseUint_decimal {bits n : Nat} : parseUint bits (decimal n) =
    if n < 2 ^ bits then some n else none := by
  rw [parseUint, parseDigits_decimal]
  by_cases h : n < 2 ^ bits
  · simp [h]
  · simp [h, Nat.le_of_not_lt h]

theorem parseUint_lt {bits n : Nat} {s : List UInt8} (h : parseUint bits s = some n) :
    n < 2 ^ bits := by
  have hlt := (Option.filter_eq_some_iff.mp h).2
  simpa using hlt

/-- `strconv.Itoa`. -/
def itoa (n : Int) : List UInt8 := if n < 0 then 45 :: decimal n.natAbs else decimal n.natAbs

/-- A 64-bit integer is read back. -/
theorem atoi_itoa {n : Int} (hlow : -2 ^ 63 ≤ n) (hhigh : n < 2 ^ 63) : atoi (itoa n) = some n := by
  have hrange : decide (-2 ^ 63 ≤ n ∧ n < 2 ^ 63) = true := decide_eq_true ⟨hlow, hhigh⟩
  unfold itoa
  split
  · rename_i hneg
    have habs : -(n.natAbs : Int) = n := by omega
    show (((parseDigits (decimal n.natAbs)).bind (fun m => some (m : Int))).map
      (fun m => -m)).filter _ = some n
    rw [parseDigits_decimal]
    show (some (-(n.natAbs : Int))).filter _ = some n
    rw [habs, Option.filter_some, if_pos hrange]
  · rename_i hnonneg
    have habs : (n.natAbs : Int) = n := by omega
    have hdigit := fun c (hc : c ∈ decimal n.natAbs) => isDigit_of_mem_decimal hc
    unfold atoi
    dsimp only
    split
    · rename_i heq
      exact absurd (hdigit 43 (heq ▸ List.mem_cons_self)).1 (by decide)
    · rename_i heq
      exact absurd (hdigit 45 (heq ▸ List.mem_cons_self)).1 (by decide)
    · rw [parseDigits_decimal]
      show (some (n.natAbs : Int)).filter _ = some n
      rw [habs, Option.filter_some, if_pos hrange]

/-- `fmt.Sprintf("%02d", n)`: a zero fills a single digit up, a sign leaves no room for one. -/
def sprintf02 (n : Int) : List UInt8 :=
  if n < 0 then 45 :: decimal n.natAbs
  else if n < 10 then 48 :: decimal n.natAbs
  else decimal n.natAbs

example : atoi [43, 55] = some 7 ∧ sprintf02 7 = [48, 55] := by decide +kernel

example : decimal 120 = [49, 50, 48] := by decide +kernel

/-! ### The number at the end of a text -/

/-- What some digits stand for. -/
def digitsValue (s : List UInt8) : Nat :=
  Nat.ofDigitChars 10 (s.map (fun c => Char.ofNat c.toNat)) 0

/-- The digits that a text ends with. -/
def digitsAtEnd (s : List UInt8) : List UInt8 := s.rtakeWhile (fun c => IsDigit c)

/-- The number that they are. -/
def numberAtEnd (s : List UInt8) : Option Nat := parseDigits (digitsAtEnd s)

theorem parseDigits_eq_some {s : List UInt8} {n : Nat} :
    parseDigits s = some n ↔ s ≠ [] ∧ (∀ c ∈ s, IsDigit c) ∧ digitsValue s = n := by
  simp [parseDigits, digitsValue, and_assoc]

theorem digitsValue_append (s t : List UInt8) :
    digitsValue (s ++ t) = 10 ^ t.length * digitsValue s + digitsValue t := by
  rw [digitsValue, List.map_append, Nat.ofDigitChars_append, Nat.ofDigitChars_eq_ofDigitChars_zero,
    List.length_map]
  rfl

theorem digitsValue_singleton {c : UInt8} (h : IsDigit c) : digitsValue [c] = c.toNat - 48 := by
  have hchar : (Char.ofNat c.toNat).toNat = c.toNat := by
    have hlt := h.2
    have hvalid : c.toNat.isValidChar := .inl (by omega)
    rw [Char.ofNat, dif_pos hvalid]
    rfl
  show 10 * 0 + ((Char.ofNat c.toNat).toNat - 48) = c.toNat - 48
  rw [hchar]
  omega

theorem digitsValue_eq_zero {s : List UInt8} (h : ∀ c ∈ s, IsDigit c) :
    digitsValue s = 0 ↔ ∀ c ∈ s, c = 48 := by
  induction s with
  | nil => simp [digitsValue]
  | cons c rest ih =>
    have hc := h c List.mem_cons_self
    have hhead : digitsValue [c] = 0 ↔ c = 48 := by
      rw [digitsValue_singleton hc, ← UInt8.toNat_inj]
      have hlo := hc.1
      show c.toNat - 48 = 0 ↔ c.toNat = 48
      omega
    have hrest := ih (fun d hd => h d (List.mem_cons_of_mem c hd))
    have happend := digitsValue_append [c] rest
    rw [List.singleton_append] at happend
    rw [happend, Nat.add_eq_zero_iff, Nat.mul_eq_zero, hhead, hrest, List.forall_mem_cons]
    simp

theorem isDigit_of_mem_digitsAtEnd {s : List UInt8} {c : UInt8} (h : c ∈ digitsAtEnd s) :
    IsDigit c := by
  have hdigit := List.mem_rtakeWhile_imp h
  simpa using hdigit

theorem digitsAtEnd_concat_of_not {c : UInt8} (h : ¬IsDigit c) (s : List UInt8) :
    digitsAtEnd (s ++ [c]) = [] :=
  List.rtakeWhile_concat_neg _ _ _ (by simpa using h)

theorem digitsAtEnd_append (s : List UInt8) {t : List UInt8} (h : ∀ c ∈ t, IsDigit c) :
    digitsAtEnd (s ++ t) = digitsAtEnd s ++ t := by
  induction t using List.reverseRecOn with
  | nil => simp
  | append_singleton t c ih =>
    have hc : IsDigit c := h c (List.mem_append_right _ (List.mem_singleton_self c))
    have ht := ih (fun d hd => h d (List.mem_append_left _ hd))
    rw [digitsAtEnd] at ht
    rw [← List.append_assoc, digitsAtEnd, List.rtakeWhile_concat, if_pos (decide_eq_true hc), ht,
      List.append_assoc]

/-- A number behind something that is no digit is all there is at the end. -/
theorem digitsAtEnd_concat_decimal {c : UInt8} (h : ¬IsDigit c) (s : List UInt8) (n : Nat) :
    digitsAtEnd (s ++ [c] ++ decimal n) = decimal n := by
  rw [digitsAtEnd_append _ (fun d => isDigit_of_mem_decimal), digitsAtEnd_concat_of_not h]
  rfl

theorem concat_decimal_inj {c : UInt8} (h : ¬IsDigit c) {s t : List UInt8} {m n : Nat} :
    s ++ [c] ++ decimal m = t ++ [c] ++ decimal n ↔ s = t ∧ m = n := by
  constructor
  · intro heq
    have hdigits := congrArg digitsAtEnd heq
    rw [digitsAtEnd_concat_decimal h, digitsAtEnd_concat_decimal h, decimal_inj] at hdigits
    subst hdigits
    exact ⟨List.append_cancel_right (List.append_cancel_right heq), rfl⟩
  · intro hsame
    rw [hsame.1, hsame.2]

/-- Digits at the end take the digits before them along. -/
theorem numberAtEnd_append (s : List UInt8) {t : List UInt8} (hne : t ≠ [])
    (h : ∀ c ∈ t, IsDigit c) :
    numberAtEnd (s ++ t) = some (10 ^ t.length * digitsValue (digitsAtEnd s) + digitsValue t) := by
  rw [numberAtEnd, digitsAtEnd_append s h, ← digitsValue_append]
  refine parseDigits_eq_some.mpr ⟨by simp [hne], ?_, rfl⟩
  intro c hc
  rcases List.mem_append.mp hc with hc | hc
  · exact isDigit_of_mem_digitsAtEnd hc
  · exact h c hc

/-- A number that is padded with a zero is read back. -/
theorem parseDigits_sprintf02 (n : Nat) : parseDigits (sprintf02 n) = some n := by
  have hnonneg : ¬(n : Int) < 0 := by omega
  obtain ⟨hne, hdigits, hvalue⟩ := parseDigits_eq_some.mp (parseDigits_decimal n)
  rw [sprintf02, if_neg hnonneg, Int.natAbs_natCast]
  split
  · refine parseDigits_eq_some.mpr ⟨List.cons_ne_nil _ _, ?_, ?_⟩
    · exact List.forall_mem_cons.mpr ⟨by decide, hdigits⟩
    · have hzero : ∀ c ∈ [48], IsDigit c := List.forall_mem_singleton.mpr (by decide)
      have happend := digitsValue_append [48] (decimal n)
      rw [List.singleton_append] at happend
      rw [happend, (digitsValue_eq_zero hzero).mpr (List.forall_mem_singleton.mpr rfl),
        Nat.mul_zero, Nat.zero_add, hvalue]
  · exact parseDigits_decimal n

theorem sprintf02_eq_natCast {m : Int} {n : Nat} : sprintf02 m = sprintf02 n ↔ m = n := by
  constructor
  · intro h
    have hparse := parseDigits_sprintf02 n
    rw [← h] at hparse
    rcases lt_or_ge m 0 with hneg | hnonneg
    · rw [sprintf02, if_pos hneg] at hparse
      have hsign := (parseDigits_eq_some.mp hparse).2.1 45 List.mem_cons_self
      exact absurd hsign (by decide)
    · obtain ⟨k, rfl⟩ := Int.eq_ofNat_of_zero_le hnonneg
      rw [parseDigits_sprintf02] at hparse
      rw [Option.some.inj hparse]
  · exact congrArg sprintf02

end Decimal
