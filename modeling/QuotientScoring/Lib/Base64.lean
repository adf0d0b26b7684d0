import QuotientScoring.Lib.GoText
import Mathlib.Data.List.Basic
import Mathlib.Data.List.Chain
import Mathlib.Data.List.GetD
import Mathlib.Data.List.Nodup

/-! Base 64.

Three bytes are written as four characters of an alphabet, and what is left over, one byte or
two, as two or three, filled up with `=` or not. `decodeString_encode`: what is written filled up
is read back. `encode_inj`: with or without, two texts are written alike only if they are the
same. `before_pad`: a character in front of a `=` stands for a multiple of four. -/
namespace Base64

/-- Sixty-four characters, of which `=` is none, nor is a line break. -/
structure Alphabet where
  chars : List UInt8
  length : chars.length = 64
  nodup : chars.Nodup
  plain : ∀ c ∈ chars, c ≠ 61 ∧ c ≠ 10 ∧ c ≠ 13

def alphanumeric : List UInt8 :=
  GoText.str "ABCDEFGHIJKLMNOPQRSTUVWXYZabcdefghijklmnopqrstuvwxyz0123456789"

/-- The alphabet of `base64.StdEncoding`. -/
def std : Alphabet where
  chars := alphanumeric ++ GoText.str "+/"
  length := by decide +kernel
  nodup := by decide +kernel
  plain := by decide +kernel

/-- The alphabet of `base64.URLEncoding`. -/
def url : Alphabet where
  chars := alphanumeric ++ GoText.str "-_"
  length := by decide +kernel
  nodup := by decide +kernel
  plain := by decide +kernel

def equals : UInt8 := 61

variable (a : Alphabet)

def digit (n : Nat) : UInt8 := a.chars.getD n 0

def value (c : UInt8) : Option Nat := a.chars.idxOf? c

variable {a}

theorem digit_mem {n : Nat} (h : n < 64) : digit a n ∈ a.chars := by
  rw [digit, List.getD_eq_getElem _ _ (a.length.symm ▸ h)]
  exact List.getElem_mem _

theorem digit_ne_equals {n : Nat} (h : n < 64) : digit a n ≠ equals :=
  (a.plain _ (digit_mem h)).1

theorem value_digit {n : Nat} (h : n < 64) : value a (digit a n) = some n := by
  have hlt : n < a.chars.length := a.length.symm ▸ h
  rw [digit, List.getD_eq_getElem _ _ hlt, value, List.idxOf?_eq_some_iff]
  refine ⟨hlt, rfl, fun j hj heq => ?_⟩
  exact hj.ne ((a.nodup.getElem_inj_iff).mp heq)

theorem value_equals : value a equals = none :=
  List.idxOf?_eq_none_iff.mpr (fun hmem => (a.plain _ hmem).1 rfl)

variable (a)

/-- `EncodeToString`, filled up or not. -/
def encode (fill : Bool) : List UInt8 → List UInt8
  | [] => []
  | [x] =>
    [digit a (x.toNat / 4), digit a (x.toNat % 4 * 16)] ++
      if fill then [equals, equals] else []
  | [x, y] =>
    [digit a (x.toNat / 4), digit a (x.toNat % 4 * 16 + y.toNat / 16),
      digit a (y.toNat % 16 * 4)] ++ if fill then [equals] else []
  | x :: y :: z :: rest =>
    digit a (x.toNat / 4) :: digit a (x.toNat % 4 * 16 + y.toNat / 16) ::
      digit a (y.toNat % 16 * 4 + z.toNat / 64) :: digit a (z.toNat % 64) :: encode fill rest

/-- The three bytes of the values of four characters. -/
def first (p q : Nat) : UInt8 := (p * 4 + q / 16).toUInt8
def second (q r : Nat) : UInt8 := (q % 16 * 16 + r / 4).toUInt8
def third (r s : Nat) : UInt8 := (r % 4 * 64 + s).toUInt8

/-- Four characters after four. Bits that are left over in the last ones do not matter. -/
def decode : List UInt8 → Option (List UInt8)
  | [] => some []
  | c :: d :: e :: f :: rest =>
    match value a c, value a d, value a e, value a f with
    | some p, some q, some r, some s =>
      (decode rest).map (fun tail => first p q :: second q r :: third r s :: tail)
    | some p, some q, some r, none =>
      if f = equals ∧ rest = [] then some [first p q, second q r] else none
    | some p, some q, none, _ =>
      if e = equals ∧ f = equals ∧ rest = [] then some [first p q] else none
    | _, _, _, _ => none
  | _ => none

/-- `DecodeString`, which passes over line breaks. -/
def decodeString (s : List UInt8) : Option (List UInt8) :=
  decode a (s.filter (fun c => c ≠ 10 ∧ c ≠ 13))

/-! ### Reading back -/

variable {a}

theorem first_eq (x y : UInt8) :
    first (x.toNat / 4) (x.toNat % 4 * 16 + y.toNat / 16) = x := by
  have hx := x.toNat_lt
  have hy := y.toNat_lt
  have hsum : x.toNat / 4 * 4 + (x.toNat % 4 * 16 + y.toNat / 16) / 16 = x.toNat := by omega
  rw [first, hsum]
  exact UInt8.ofNat_toNat

theorem second_eq (p : Nat) (y z : UInt8) :
    second (p * 16 + y.toNat / 16) (y.toNat % 16 * 4 + z.toNat / 64) = y := by
  have hy := y.toNat_lt
  have hz := z.toNat_lt
  have hsum : (p * 16 + y.toNat / 16) % 16 * 16 + (y.toNat % 16 * 4 + z.toNat / 64) / 4 =
      y.toNat := by omega
  rw [second, hsum]
  exact UInt8.ofNat_toNat

theorem third_eq (q : Nat) (z : UInt8) : third (q * 4 + z.toNat / 64) (z.toNat % 64) = z := by
  have hz := z.toNat_lt
  have hsum : (q * 4 + z.toNat / 64) % 4 * 64 + z.toNat % 64 = z.toNat := by omega
  rw [third, hsum]
  exact UInt8.ofNat_toNat

/-- Every number that is written is that of a character. -/
theorem sextets (p : Nat) (x y : UInt8) :
    x.toNat / 4 < 64 ∧ p % 4 * 16 + x.toNat / 16 < 64 ∧ p % 16 * 4 + y.toNat / 64 < 64 ∧
      y.toNat % 64 < 64 := by
  have hx := x.toNat_lt
  have hy := y.toNat_lt
  omega

theorem decode_encode (xs : List UInt8) : decode a (encode a true xs) = some xs := by
  induction xs using encode.induct with
  | case1 => rfl
  | case2 x =>
    have hp := (sextets 0 x 0).1
    have hq := (sextets x.toNat 0 0).2.1
    have hfirst := first_eq x 0
    show decode a [digit a (x.toNat / 4), digit a (x.toNat % 4 * 16 + (0 : UInt8).toNat / 16),
      equals, equals] = _
    simp only [decode, value_digit hp, value_digit hq, value_equals, hfirst, and_self, if_true]
  | case3 x y =>
    have hp := (sextets 0 x 0).1
    have hq := (sextets x.toNat y 0).2.1
    have hr := (sextets y.toNat 0 0).2.2.1
    have hsecond := second_eq (x.toNat % 4) y 0
    show decode a [digit a (x.toNat / 4), digit a (x.toNat % 4 * 16 + y.toNat / 16),
      digit a (y.toNat % 16 * 4 + (0 : UInt8).toNat / 64), equals] = _
    simp only [decode, value_digit hp, value_digit hq, value_digit hr, value_equals, first_eq,
      hsecond, and_self, if_true]
  | case4 x y z rest ih =>
    have hp := (sextets 0 x 0).1
    have hq := (sextets x.toNat y 0).2.1
    have hr := (sextets y.toNat 0 z).2.2.1
    have hs := (sextets 0 0 z).2.2.2
    simp only [encode, decode, value_digit hp, value_digit hq, value_digit hr, value_digit hs,
      first_eq, second_eq, third_eq, ih, Option.map_some]

/-! ### Without the filling -/

theorem length_encode (xs : List UInt8) :
    (encode a false xs).length = (xs.length * 4 + 2) / 3 := by
  induction xs using encode.induct with
  | case1 => simp [encode]
  | case2 x => simp [encode]
  | case3 x y => simp [encode]
  | case4 x y z rest ih =>
    simp only [encode, List.length_cons, ih]
    omega

/-- What is filled up is known from the length. -/
theorem encode_true (xs : List UInt8) : encode a true xs = encode a false xs ++
    List.replicate ((4 - (encode a false xs).length % 4) % 4) equals := by
  induction xs using encode.induct with
  | case1 => simp [encode]
  | case2 x => simp [encode]
  | case3 x y => simp [encode]
  | case4 x y z rest ih =>
    have hlength : (encode a false (x :: y :: z :: rest)).length % 4 =
        (encode a false rest).length % 4 := by
      simp only [encode, List.length_cons]
      omega
    rw [hlength, encode, ih, encode]
    rfl

theorem encode_inj {xs ys : List UInt8} (h : encode a false xs = encode a false ys) : xs = ys := by
  have hfilled : encode a true xs = encode a true ys := by rw [encode_true, encode_true, h]
  have hread := congrArg (decode a) hfilled
  rw [decode_encode, decode_encode] at hread
  exact Option.some.inj hread

/-- The characters of a text that is not filled up. -/
theorem mem_encode_false {xs : List UInt8} {c : UInt8}
    (h : c ∈ encode a false xs) : c ∈ a.chars := by
  induction xs using encode.induct with
  | case1 => cases h
  | case2 x =>
    rw [encode, if_neg Bool.false_ne_true, List.append_nil, List.mem_pair] at h
    rcases h with rfl | rfl
    · exact digit_mem (sextets 0 x 0).1
    · exact digit_mem (sextets x.toNat 0 0).2.1
  | case3 x y =>
    rw [encode, if_neg Bool.false_ne_true, List.append_nil, List.mem_cons, List.mem_pair] at h
    rcases h with rfl | rfl | rfl
    · exact digit_mem (sextets 0 x 0).1
    · exact digit_mem (sextets x.toNat y 0).2.1
    · exact digit_mem (sextets y.toNat 0 0).2.2.1
  | case4 x y z rest ih =>
    simp only [encode, List.mem_cons] at h
    rcases h with rfl | rfl | rfl | rfl | h
    · exact digit_mem (sextets 0 x 0).1
    · exact digit_mem (sextets x.toNat y 0).2.1
    · exact digit_mem (sextets y.toNat 0 z).2.2.1
    · exact digit_mem (sextets 0 0 z).2.2.2
    · exact ih h

theorem mem_encode {xs : List UInt8} {c : UInt8} (h : c ∈ encode a true xs) :
    c ∈ a.chars ∨ c = equals := by
  rw [encode_true] at h
  rcases List.mem_append.mp h with h | h
  · exact .inl (mem_encode_false h)
  · exact .inr (List.eq_of_mem_replicate h)

theorem decodeString_encode (xs : List UInt8) : decodeString a (encode a true xs) = some xs := by
  have hsame : (encode a true xs).filter (fun c => c ≠ 10 ∧ c ≠ 13) = encode a true xs := by
    refine List.filter_eq_self.mpr (fun c hc => ?_)
    rcases mem_encode hc with hc | rfl
    · simpa using (a.plain c hc).2
    · decide
  rw [decodeString, hsame, decode_encode]

/-! ### What stands before a `=` -/

/-- Another one, or a character of a multiple of four. -/
def BeforePad (a : Alphabet) (c d : UInt8) : Prop :=
  d = equals → c = equals ∨ ∃ n < 16, c = digit a (n * 4)

theorem beforePad_digit {c : UInt8} {n : Nat} (h : n < 64) : BeforePad a c (digit a n) :=
  fun heq => absurd heq (digit_ne_equals h)

theorem isChain_fill {fill : List UInt8} (h : ∀ c ∈ fill, c = equals) :
    fill.IsChain (BeforePad a) := by
  induction fill with
  | nil => exact .nil
  | cons c rest ih =>
    refine (ih (fun d hd => h d (List.mem_cons_of_mem c hd))).cons (fun d _ _ => ?_)
    exact .inl (h c List.mem_cons_self)

/-- A text begins with a character of the alphabet. -/
theorem head_encode {fill : Bool} (xs : List UInt8) :
    ∀ d ∈ (encode a fill xs).head?, ∃ n < 64, d = digit a n := by
  have hfirst : ∀ (x d : UInt8), some (digit a (x.toNat / 4)) = some d →
      ∃ n < 64, d = digit a n := by
    intro x d h
    exact ⟨_, (sextets 0 x 0).1, (Option.some.inj h).symm⟩
  intro d hd
  match xs, hd with
  | [x], hd => exact hfirst x d hd
  | [x, y], hd => exact hfirst x d hd
  | x :: y :: z :: rest, hd => exact hfirst x d hd

theorem before_pad (xs : List UInt8) : (encode a true xs).IsChain (BeforePad a) := by
  induction xs using encode.induct with
  | case1 => exact .nil
  | case2 x =>
    have hq := (sextets x.toNat 0 0).2.1
    have hlast : BeforePad a (digit a (x.toNat % 4 * 16)) equals := fun _ =>
      .inr ⟨x.toNat % 4 * 4, by omega, by rw [Nat.mul_assoc]⟩
    have hfill : [equals, equals].IsChain (BeforePad a) := isChain_fill (by simp)
    exact .cons_cons (beforePad_digit hq) (.cons_cons hlast hfill)
  | case3 x y =>
    have hq := (sextets x.toNat y 0).2.1
    have hr := (sextets y.toNat 0 0).2.2.1
    have hlast : BeforePad a (digit a (y.toNat % 16 * 4)) equals := fun _ =>
      .inr ⟨y.toNat % 16, by omega, rfl⟩
    have hfill : [equals].IsChain (BeforePad a) := isChain_fill (by simp)
    exact .cons_cons (beforePad_digit hq) (.cons_cons (beforePad_digit hr) (.cons_cons hlast hfill))
  | case4 x y z rest ih =>
    obtain ⟨-, hq, -, -⟩ := sextets x.toNat y 0
    obtain ⟨-, -, hr, hs⟩ := sextets y.toNat 0 z
    rw [encode]
    refine .cons_cons (beforePad_digit hq) (.cons_cons (beforePad_digit hr)
      (.cons_cons (beforePad_digit hs) (ih.cons (fun d hd => ?_))))
    obtain ⟨n, hn, rfl⟩ := head_encode rest d hd
    exact beforePad_digit hn

end Base64
