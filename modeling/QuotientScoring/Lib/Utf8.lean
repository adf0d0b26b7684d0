/-! UTF-8 over byte strings.

`runeLen` is the length of the encoded rune a byte string starts with, zero if
it starts with none; it accepts exactly the byte ranges of the Unicode standard
(no overlong form, no surrogate, nothing past U+10FFFF). `valid` reads a string
rune by rune, and `dropInvalid` keeps the bytes of its runes and leaves out every
byte that starts none.

Both are structurally recursive on the bytes: the counter they carry is the
number of bytes of the rune being read that are still to come.

`dropInvalid_valid`: what is left is valid; `dropInvalid_of_valid`: a valid
string is left alone. `valid_iff`: what is valid is what lists of characters are
encoded as. -/
namespace Utf8

/-- A byte from `lo` to `hi`. -/
def within (lo hi b : UInt8) : Bool := lo ≤ b && b ≤ hi

/-- A continuation byte. -/
def tail (b : UInt8) : Bool := within 0x80 0xBF b

/-- What the second byte may be after the first byte of a longer rune, and how
many bytes the rune has. -/
def lead (b : UInt8) : Option (Nat × UInt8 × UInt8) :=
  if within 0xC2 0xDF b then some (2, 0x80, 0xBF)
  else if b = 0xE0 then some (3, 0xA0, 0xBF)
  else if b = 0xED then some (3, 0x80, 0x9F)
  else if within 0xE1 0xEF b then some (3, 0x80, 0xBF)
  else if b = 0xF0 then some (4, 0x90, 0xBF)
  else if within 0xF1 0xF3 b then some (4, 0x80, 0xBF)
  else if b = 0xF4 then some (4, 0x80, 0x8F)
  else none

/-- The bytes after the first of a rune of length `n`, the first of them from
`lo` to `hi`. -/
def tails (n : Nat) (lo hi : UInt8) : List UInt8 → Bool
  | [] => false
  | b :: rest => within lo hi b && decide (n - 2 ≤ rest.length) && (rest.take (n - 2)).all tail

/-- The length of the rune at the start, zero if there is none. -/
def runeLen : List UInt8 → Nat
  | [] => 0
  | b :: rest =>
    if b < 0x80 then 1
    else match lead b with
      | none => 0
      | some (n, lo, hi) => if tails n lo hi rest then n else 0

/-- Reading runes, `k` bytes into one still to come. -/
def validFrom : Nat → List UInt8 → Bool
  | 0, [] => true
  | _ + 1, [] => false
  | k + 1, _ :: rest => validFrom k rest
  | 0, b :: rest =>
    match runeLen (b :: rest) with
    | 0 => false
    | n + 1 => validFrom n rest

def valid (s : List UInt8) : Bool := validFrom 0 s

/-- The bytes of the runes, `k` bytes of one still to come. -/
def dropInvalidFrom : Nat → List UInt8 → List UInt8
  | _, [] => []
  | k + 1, b :: rest => b :: dropInvalidFrom k rest
  | 0, b :: rest =>
    match runeLen (b :: rest) with
    | 0 => dropInvalidFrom 0 rest
    | n + 1 => b :: dropInvalidFrom n rest

def dropInvalid (s : List UInt8) : List UInt8 := dropInvalidFrom 0 s

/-- U+FFFD. -/
def replacement : List UInt8 := [0xEF, 0xBF, 0xBD]

/-- The bytes of the runes, and U+FFFD for every byte that starts none. -/
def replaceInvalidFrom : Nat → List UInt8 → List UInt8
  | _, [] => []
  | k + 1, b :: rest => b :: replaceInvalidFrom k rest
  | 0, b :: rest =>
    match runeLen (b :: rest) with
    | 0 => replacement ++ replaceInvalidFrom 0 rest
    | n + 1 => b :: replaceInvalidFrom n rest

def replaceInvalid (s : List UInt8) : List UInt8 := replaceInvalidFrom 0 s

/-! ### A rune is its own bytes -/

theorem lead_two_le {b lo hi : UInt8} {n : Nat} (h : lead b = some (n, lo, hi)) : 2 ≤ n := by
  unfold lead at h
  grind

theorem tails_congr {n : Nat} {lo hi : UInt8} {s t : List UInt8} (hn : 2 ≤ n)
    (h : t.take (n - 1) = s.take (n - 1)) (hs : tails n lo hi s = true) :
    tails n lo hi t = true := by
  obtain ⟨m, rfl⟩ : ∃ m, n = m + 2 := ⟨n - 2, by omega⟩
  have hm : m + 2 - 1 = m + 1 := by omega
  rw [hm] at h
  cases s with
  | nil => cases hs
  | cons b rest =>
    cases t with
    | nil => simp at h
    | cons c rest' =>
      obtain ⟨rfl, htake⟩ : c = b ∧ rest'.take m = rest.take m := by simpa using h
      simp only [tails, Nat.add_sub_cancel, Bool.and_eq_true, decide_eq_true_eq] at hs ⊢
      refine ⟨⟨hs.1.1, ?_⟩, by rw [htake]; exact hs.2⟩
      have hlen := congrArg List.length htake
      rw [List.length_take, List.length_take] at hlen
      omega

theorem length_of_tails {n : Nat} {lo hi : UInt8} {s : List UInt8} (hn : 2 ≤ n)
    (h : tails n lo hi s = true) : n - 1 ≤ s.length := by
  cases s with
  | nil => cases h
  | cons b rest =>
    simp only [tails, Bool.and_eq_true, decide_eq_true_eq] at h
    simp only [List.length_cons]
    omega

/-- Whether a rune starts here, and how long it is, depends on its own bytes only. -/
theorem runeLen_congr {b : UInt8} {s t : List UInt8} {n : Nat} (h : runeLen (b :: s) = n + 1)
    (ht : t.take n = s.take n) : runeLen (b :: t) = n + 1 := by
  simp only [runeLen] at h ⊢
  split
  · rename_i hb
    rwa [if_pos hb] at h
  · rename_i hb
    rw [if_neg hb] at h
    cases hl : lead b with
    | none => simp [hl] at h
    | some x =>
      obtain ⟨m, lo, hi⟩ := x
      simp only [hl] at h ⊢
      split at h
      · rename_i hs
        subst h
        rw [if_pos (tails_congr (lead_two_le hl) ht hs)]
      · cases h

/-- The bytes of a rune are there. -/
theorem length_of_runeLen {b : UInt8} {s : List UInt8} {n : Nat} (h : runeLen (b :: s) = n + 1) :
    n ≤ s.length := by
  simp only [runeLen] at h
  split at h
  · omega
  · cases hl : lead b with
    | none => simp [hl] at h
    | some x =>
      obtain ⟨m, lo, hi⟩ := x
      simp only [hl] at h
      split at h
      · rename_i hs
        have := length_of_tails (lead_two_le hl) hs
        omega
      · cases h

/-! ### Dropping what starts no rune -/

/-- The rune being read is kept whole. -/
theorem take_dropInvalidFrom (n : Nat) (s : List UInt8) (h : n ≤ s.length) :
    (dropInvalidFrom n s).take n = s.take n := by
  induction n generalizing s with
  | zero => simp
  | succ n ih =>
    cases s with
    | nil => simp at h
    | cons b rest =>
      simp only [dropInvalidFrom, List.take_succ_cons]
      rw [ih rest (by simpa using h)]

theorem validFrom_dropInvalidFrom (n : Nat) (s : List UInt8) (h : n ≤ s.length) :
    validFrom n (dropInvalidFrom n s) = true := by
  induction s generalizing n with
  | nil =>
    obtain rfl : n = 0 := by simpa using h
    rfl
  | cons b rest ih =>
    cases n with
    | succ n => exact ih n (by simpa using h)
    | zero =>
      cases hr : runeLen (b :: rest) with
      | zero => simpa [dropInvalidFrom, hr] using ih 0 (Nat.zero_le _)
      | succ n =>
        have hlen := length_of_runeLen hr
        have hkeep := runeLen_congr hr (take_dropInvalidFrom n rest hlen)
        simpa [dropInvalidFrom, hr, validFrom, hkeep] using ih n hlen

/-- What is left is valid. -/
theorem dropInvalid_valid (s : List UInt8) : valid (dropInvalid s) = true :=
  validFrom_dropInvalidFrom 0 s (Nat.zero_le _)

theorem dropInvalidFrom_of_validFrom (n : Nat) (s : List UInt8) (h : validFrom n s = true) :
    dropInvalidFrom n s = s := by
  induction s generalizing n with
  | nil => cases n <;> rfl
  | cons b rest ih =>
    cases n with
    | succ n => rw [dropInvalidFrom, ih n h]
    | zero =>
      cases hr : runeLen (b :: rest) with
      | zero => simp [validFrom, hr] at h
      | succ n =>
        simp only [validFrom, hr] at h
        simp only [dropInvalidFrom, hr, ih n h]

/-- A valid string is left alone. -/
theorem dropInvalid_of_valid {s : List UInt8} (h : valid s = true) : dropInvalid s = s :=
  dropInvalidFrom_of_validFrom 0 s h

theorem dropInvalidFrom_sublist (n : Nat) (s : List UInt8) :
    (dropInvalidFrom n s).Sublist s := by
  induction s generalizing n with
  | nil => cases n <;> exact List.nil_sublist _
  | cons b rest ih =>
    cases n with
    | succ n => exact (ih n).cons_cons b
    | zero =>
      simp only [dropInvalidFrom]
      split
      · exact (ih 0).cons b
      · exact (ih _).cons_cons b

/-- Only bytes are left out; none is moved or added. -/
theorem dropInvalid_sublist (s : List UInt8) : (dropInvalid s).Sublist s :=
  dropInvalidFrom_sublist 0 s

/-! ### Replacing what starts no rune -/

theorem take_replaceInvalidFrom (n : Nat) (s : List UInt8) (h : n ≤ s.length) :
    (replaceInvalidFrom n s).take n = s.take n := by
  induction n generalizing s with
  | zero => simp
  | succ n ih =>
    cases s with
    | nil => simp at h
    | cons b rest =>
      simp only [replaceInvalidFrom, List.take_succ_cons]
      rw [ih rest (by simpa using h)]

theorem validFrom_replaceInvalidFrom (n : Nat) (s : List UInt8) (h : n ≤ s.length) :
    validFrom n (replaceInvalidFrom n s) = true := by
  induction s generalizing n with
  | nil =>
    obtain rfl : n = 0 := by simpa using h
    rfl
  | cons b rest ih =>
    cases n with
    | succ n => exact ih n (by simpa using h)
    | zero =>
      cases hr : runeLen (b :: rest) with
      | zero =>
        have hrest : validFrom 0 (replaceInvalidFrom 0 rest) = true := ih 0 (Nat.zero_le _)
        simp only [replaceInvalidFrom, hr]
        exact hrest
      | succ n =>
        have hlen := length_of_runeLen hr
        have hkeep := runeLen_congr hr (take_replaceInvalidFrom n rest hlen)
        simpa [replaceInvalidFrom, hr, validFrom, hkeep] using ih n hlen

theorem replaceInvalid_valid (s : List UInt8) : valid (replaceInvalid s) = true :=
  validFrom_replaceInvalidFrom 0 s (Nat.zero_le _)

theorem replaceInvalidFrom_of_validFrom (n : Nat) (s : List UInt8) (h : validFrom n s = true) :
    replaceInvalidFrom n s = s := by
  induction s generalizing n with
  | nil => cases n <;> rfl
  | cons b rest ih =>
    cases n with
    | succ n => rw [replaceInvalidFrom, ih n h]
    | zero =>
      cases hr : runeLen (b :: rest) with
      | zero => simp [validFrom, hr] at h
      | succ n =>
        simp only [validFrom, hr] at h
        simp only [replaceInvalidFrom, hr, ih n h]

theorem replaceInvalid_of_valid {s : List UInt8} (h : valid s = true) : replaceInvalid s = s :=
  replaceInvalidFrom_of_validFrom 0 s h

/-! ### The encodings of characters -/

theorem toNat_ofNat_of_lt {n : Nat} (h : n < 256) : (UInt8.ofNat n).toNat = n := by
  rw [UInt8.toNat_ofNat']
  exact Nat.mod_eq_of_lt h

theorem within_iff {lo hi b : UInt8} :
    within lo hi b = true ↔ lo.toNat ≤ b.toNat ∧ b.toNat ≤ hi.toNat := by
  simp only [within, UInt8.le_iff_toNat_le, Bool.and_eq_true, decide_eq_true_eq]

theorem within_ofNat {lo hi : UInt8} {n : Nat} (h : n < 256) :
    within lo hi (UInt8.ofNat n) = true ↔ lo.toNat ≤ n ∧ n ≤ hi.toNat := by
  rw [within_iff, toNat_ofNat_of_lt h]

theorem tail_ofNat (n : Nat) : tail (UInt8.ofNat (n % 64 + 128)) = true := by
  rw [tail, within_ofNat (by omega)]
  show 128 ≤ n % 64 + 128 ∧ n % 64 + 128 ≤ 191
  omega

/-- What a longer rune may begin with, and what may come second. -/
theorem lead_iff {b lo hi : UInt8} {n : Nat} : lead b = some (n, lo, hi) ↔
    n = 2 ∧ lo = 0x80 ∧ hi = 0xBF ∧ 0xC2 ≤ b.toNat ∧ b.toNat ≤ 0xDF ∨
    n = 3 ∧ lo = (if b.toNat = 0xE0 then 0xA0 else 0x80) ∧
      hi = (if b.toNat = 0xED then 0x9F else 0xBF) ∧ 0xE0 ≤ b.toNat ∧ b.toNat ≤ 0xEF ∨
    n = 4 ∧ lo = (if b.toNat = 0xF0 then 0x90 else 0x80) ∧
      hi = (if b.toNat = 0xF4 then 0x8F else 0xBF) ∧ 0xF0 ≤ b.toNat ∧ b.toNat ≤ 0xF4 := by
  have heq : ∀ c : UInt8, b = c ↔ b.toNat = c.toNat := fun c => UInt8.toNat_inj.symm
  simp only [lead, within_iff, heq, UInt8.reduceToNat]
  grind

theorem not_lt_of_lead {b lo hi : UInt8} {n : Nat} (h : lead b = some (n, lo, hi)) :
    ¬b < 0x80 := by
  rw [UInt8.lt_iff_toNat_lt]
  show ¬b.toNat < 128
  rcases lead_iff.mp h with h | h | h <;> omega

/-- A longer rune. -/
theorem runeLen_of_lead {b lo hi : UInt8} {rest : List UInt8} {n : Nat}
    (hlead : lead b = some (n, lo, hi)) (htails : tails n lo hi rest = true) :
    runeLen (b :: rest) = n := by
  simp only [runeLen, not_lt_of_lead hlead, if_false, hlead, htails, if_true]

theorem runeLen_two {v : Nat} (hlow : 0x80 ≤ v) (hhigh : v ≤ 0x7FF) (s : List UInt8) :
    runeLen (UInt8.ofNat (v / 64 % 32 + 0xC0) :: UInt8.ofNat (v % 64 + 0x80) :: s) = 2 := by
  have hlead : lead (UInt8.ofNat (v / 64 % 32 + 0xC0)) = some (2, 0x80, 0xBF) := by
    refine lead_iff.mpr (.inl ⟨rfl, rfl, rfl, ?_⟩)
    rw [toNat_ofNat_of_lt (by omega)]
    omega
  have hsecond : within 0x80 0xBF (UInt8.ofNat (v % 64 + 0x80)) = true := tail_ofNat v
  apply runeLen_of_lead hlead
  simp only [tails, hsecond, Nat.sub_self, Nat.zero_le, decide_true, List.take_zero, List.all_nil,
    Bool.and_true]

theorem runeLen_three {v : Nat} (hlow : 0x800 ≤ v) (hhigh : v ≤ 0xFFFF)
    (hscalar : v < 0xD800 ∨ 0xDFFF < v) (s : List UInt8) :
    runeLen (UInt8.ofNat (v / 4096 % 16 + 0xE0) :: UInt8.ofNat (v / 64 % 64 + 0x80) ::
      UInt8.ofNat (v % 64 + 0x80) :: s) = 3 := by
  obtain ⟨lo, hi, hlead, hsecond⟩ : ∃ lo hi,
      lead (UInt8.ofNat (v / 4096 % 16 + 0xE0)) = some (3, lo, hi) ∧
        within lo hi (UInt8.ofNat (v / 64 % 64 + 0x80)) = true := by
    refine ⟨_, _, lead_iff.mpr (.inr (.inl ⟨rfl, rfl, rfl, ?_, ?_⟩)), ?_⟩
    · rw [toNat_ofNat_of_lt (by omega)]
      omega
    · rw [toNat_ofNat_of_lt (by omega)]
      omega
    · rw [within_ofNat (by omega), toNat_ofNat_of_lt (by omega)]
      split <;> split <;> simp only [UInt8.reduceToNat] <;> omega
  apply runeLen_of_lead hlead
  have hthird := tail_ofNat v
  simp [tails, hsecond, hthird, -UInt8.ofNat_add]

theorem runeLen_four {v : Nat} (hlow : 0x10000 ≤ v) (hhigh : v < 0x110000) (s : List UInt8) :
    runeLen (UInt8.ofNat (v / 262144 % 8 + 0xF0) :: UInt8.ofNat (v / 4096 % 64 + 0x80) ::
      UInt8.ofNat (v / 64 % 64 + 0x80) :: UInt8.ofNat (v % 64 + 0x80) :: s) = 4 := by
  obtain ⟨lo, hi, hlead, hsecond⟩ : ∃ lo hi,
      lead (UInt8.ofNat (v / 262144 % 8 + 0xF0)) = some (4, lo, hi) ∧
        within lo hi (UInt8.ofNat (v / 4096 % 64 + 0x80)) = true := by
    refine ⟨_, _, lead_iff.mpr (.inr (.inr ⟨rfl, rfl, rfl, ?_, ?_⟩)), ?_⟩
    · rw [toNat_ofNat_of_lt (by omega)]
      omega
    · rw [toNat_ofNat_of_lt (by omega)]
      omega
    · rw [within_ofNat (by omega), toNat_ofNat_of_lt (by omega)]
      split <;> split <;> simp only [UInt8.reduceToNat] <;> omega
  apply runeLen_of_lead hlead
  have hthird := tail_ofNat (v / 64)
  have hfourth := tail_ofNat v
  simp [tails, hsecond, hthird, hfourth, -UInt8.ofNat_add]

/-- The encoding of a character is a rune. -/
theorem runeLen_utf8EncodeChar (c : Char) (s : List UInt8) :
    runeLen (String.utf8EncodeChar c ++ s) = (String.utf8EncodeChar c).length := by
  have hscalar : c.val.toNat < 0xD800 ∨ 0xDFFF < c.val.toNat ∧ c.val.toNat < 0x110000 := c.valid
  unfold String.utf8EncodeChar
  generalize c.val.toNat = v at hscalar
  dsimp only
  split
  · rename_i hone
    have hbyte : UInt8.ofNat v < 0x80 := by
      rw [UInt8.lt_iff_toNat_lt, toNat_ofNat_of_lt (by omega)]
      exact Nat.lt_succ_of_le hone
    exact if_pos hbyte
  · split
    · exact runeLen_two (by omega) (by omega) s
    · split
      · exact runeLen_three (by omega) (by omega) (by omega) s
      · exact runeLen_four (by omega) (by omega) s

/-- The character of a number that is one. -/
theorem val_ofNat {v : Nat} (hscalar : v < 0xD800 ∨ 0xDFFF < v ∧ v < 0x110000) :
    (Char.ofNat v).val.toNat = v := by
  have hvalid : v.isValidChar := hscalar
  rw [Char.ofNat, dif_pos hvalid]
  rfl

theorem ofNat_eq (b : UInt8) {n : Nat} (h : n = b.toNat) : UInt8.ofNat n = b := by
  rw [h, UInt8.ofNat_toNat]

theorem tail_iff {b : UInt8} : tail b = true ↔ 0x80 ≤ b.toNat ∧ b.toNat ≤ 0xBF := within_iff

theorem exists_of_tails {lo hi : UInt8} {s : List UInt8} {n : Nat}
    (h : tails (n + 2) lo hi s = true) : ∃ b rest, s = b :: rest ∧ within lo hi b = true ∧
      n ≤ rest.length ∧ ∀ c ∈ rest.take n, tail c = true := by
  cases s with
  | nil => cases h
  | cons b rest =>
    simp only [tails, Nat.add_sub_cancel, Bool.and_eq_true, decide_eq_true_eq, List.all_eq_true] at h
    exact ⟨b, rest, rfl, h.1.1, h.1.2, h.2⟩

theorem exists_char_two {b c : UInt8} (hlow : 0xC2 ≤ b.toNat) (hhigh : b.toNat ≤ 0xDF)
    (hc : tail c = true) : ∃ char : Char, [b, c] = String.utf8EncodeChar char := by
  have hc := tail_iff.mp hc
  refine ⟨Char.ofNat ((b.toNat - 0xC0) * 64 + (c.toNat - 0x80)), ?_⟩
  unfold String.utf8EncodeChar
  rw [val_ofNat (by omega)]
  dsimp only
  rw [if_neg (by omega), if_pos (by omega), ofNat_eq b (by omega), ofNat_eq c (by omega)]

theorem exists_char_three {b c d : UInt8} (hlow : 0xE0 ≤ b.toNat) (hhigh : b.toNat ≤ 0xEF)
    (hc : within (if b.toNat = 0xE0 then 0xA0 else 0x80) (if b.toNat = 0xED then 0x9F else 0xBF) c =
      true) (hd : tail d = true) : ∃ char : Char, [b, c, d] = String.utf8EncodeChar char := by
  have hd := tail_iff.mp hd
  have hc : 0x80 ≤ c.toNat ∧ c.toNat ≤ 0xBF ∧ (b.toNat = 0xE0 → 0xA0 ≤ c.toNat) ∧
      (b.toNat = 0xED → c.toNat ≤ 0x9F) := by
    have hrange := within_iff.mp hc
    split at hrange <;> split at hrange <;> simp only [UInt8.reduceToNat] at hrange <;> omega
  refine ⟨Char.ofNat ((b.toNat - 0xE0) * 4096 + (c.toNat - 0x80) * 64 + (d.toNat - 0x80)), ?_⟩
  unfold String.utf8EncodeChar
  rw [val_ofNat (by omega)]
  dsimp only
  rw [if_neg (by omega), if_neg (by omega), if_pos (by omega), ofNat_eq b (by omega),
    ofNat_eq c (by omega), ofNat_eq d (by omega)]

theorem exists_char_four {b c d e : UInt8} (hlow : 0xF0 ≤ b.toNat) (hhigh : b.toNat ≤ 0xF4)
    (hc : within (if b.toNat = 0xF0 then 0x90 else 0x80) (if b.toNat = 0xF4 then 0x8F else 0xBF) c =
      true) (hd : tail d = true) (he : tail e = true) :
    ∃ char : Char, [b, c, d, e] = String.utf8EncodeChar char := by
  have hd := tail_iff.mp hd
  have he := tail_iff.mp he
  have hc : 0x80 ≤ c.toNat ∧ c.toNat ≤ 0xBF ∧ (b.toNat = 0xF0 → 0x90 ≤ c.toNat) ∧
      (b.toNat = 0xF4 → c.toNat ≤ 0x8F) := by
    have hrange := within_iff.mp hc
    split at hrange <;> split at hrange <;> simp only [UInt8.reduceToNat] at hrange <;> omega
  refine ⟨Char.ofNat ((b.toNat - 0xF0) * 262144 + (c.toNat - 0x80) * 4096 +
    (d.toNat - 0x80) * 64 + (e.toNat - 0x80)), ?_⟩
  unfold String.utf8EncodeChar
  rw [val_ofNat (by omega)]
  dsimp only
  rw [if_neg (by omega), if_neg (by omega), if_neg (by omega), ofNat_eq b (by omega),
    ofNat_eq c (by omega), ofNat_eq d (by omega), ofNat_eq e (by omega)]

/-- A rune is the encoding of a character. -/
theorem exists_char_of_runeLen {b : UInt8} {s : List UInt8} {n : Nat}
    (h : runeLen (b :: s) = n + 1) : ∃ char : Char, b :: s.take n = String.utf8EncodeChar char := by
  simp only [runeLen] at h
  split at h
  · rename_i hb
    obtain rfl : n = 0 := by omega
    rw [UInt8.lt_iff_toNat_lt] at hb
    have hlow : b.toNat < 128 := hb
    refine ⟨Char.ofNat b.toNat, ?_⟩
    unfold String.utf8EncodeChar
    rw [val_ofNat (by omega)]
    dsimp only
    rw [if_pos (by omega), List.take_zero, UInt8.ofNat_toNat]
  · cases hlead : lead b with
    | none => simp [hlead] at h
    | some x =>
      obtain ⟨m, lo, hi⟩ := x
      simp only [hlead] at h
      split at h
      · rename_i htails
        subst h
        rcases lead_iff.mp hlead with ⟨hm, rfl, rfl, hlow, hhigh⟩ | ⟨hm, rfl, rfl, hlow, hhigh⟩ |
          ⟨hm, rfl, rfl, hlow, hhigh⟩
        · obtain rfl : n = 1 := by omega
          obtain ⟨c, rest, rfl, hc, -, -⟩ := exists_of_tails htails
          exact exists_char_two hlow hhigh hc
        · obtain rfl : n = 2 := by omega
          obtain ⟨c, rest, rfl, hc, hlen, hrest⟩ := exists_of_tails htails
          match rest, hlen with
          | d :: rest, _ => exact exists_char_three hlow hhigh hc (hrest d (by simp))
        · obtain rfl : n = 3 := by omega
          obtain ⟨c, rest, rfl, hc, hlen, hrest⟩ := exists_of_tails htails
          match rest, hlen with
          | d :: e :: rest, _ =>
            exact exists_char_four hlow hhigh hc (hrest d (by simp)) (hrest e (by simp))
      · cases h

/-- The bytes of a rune that are still to come are not looked at again. -/
theorem validFrom_eq_drop (n : Nat) (s : List UInt8) (h : n ≤ s.length) :
    validFrom n s = validFrom 0 (s.drop n) := by
  induction n generalizing s with
  | zero => rfl
  | succ n ih =>
    cases s with
    | nil => simp at h
    | cons b rest => exact ih rest (by simpa using h)

theorem valid_append_char (char : Char) (s : List UInt8) :
    valid (String.utf8EncodeChar char ++ s) = valid s := by
  cases hbytes : String.utf8EncodeChar char with
  | nil => exact absurd hbytes String.utf8EncodeChar_ne_nil
  | cons b rest =>
    have hlen := runeLen_utf8EncodeChar char s
    rw [hbytes] at hlen
    have hrune : runeLen (b :: (rest ++ s)) = rest.length + 1 := hlen
    show validFrom 0 (b :: (rest ++ s)) = validFrom 0 s
    simp only [validFrom, hrune]
    rw [validFrom_eq_drop _ _ (by simp), List.drop_left]

/-- What is valid is what characters are encoded as. -/
theorem valid_iff (s : List UInt8) :
    valid s = true ↔ ∃ chars : List Char, chars.flatMap String.utf8EncodeChar = s := by
  constructor
  · intro h
    induction hn : s.length using Nat.strongRecOn generalizing s with
    | ind k ih =>
      cases s with
      | nil => exact ⟨[], rfl⟩
      | cons b rest =>
        cases hrune : runeLen (b :: rest) with
        | zero => simp [valid, validFrom, hrune] at h
        | succ n =>
          have hlen := length_of_runeLen hrune
          obtain ⟨char, hchar⟩ := exists_char_of_runeLen hrune
          have hrest : valid (rest.drop n) = true := by
            rw [valid, ← validFrom_eq_drop n rest hlen]
            simpa only [valid, validFrom, hrune] using h
          obtain ⟨chars, hchars⟩ := ih (rest.drop n).length (by simp at hn ⊢; omega) _ hrest rfl
          refine ⟨char :: chars, ?_⟩
          rw [List.flatMap_cons, hchars, ← hchar, List.cons_append, List.take_append_drop]
  · intro h
    obtain ⟨chars, rfl⟩ := h
    induction chars with
    | nil => rfl
    | cons char rest ih => rw [List.flatMap_cons, valid_append_char, ih]

/-- Only the encoding of NUL has a zero byte. -/
theorem zero_not_mem_utf8EncodeChar {char : Char} (h : char.val.toNat ≠ 0) :
    (0 : UInt8) ∉ String.utf8EncodeChar char := by
  have hlt : char.val.toNat < 0x110000 := by
    have hvalid := char.valid
    simp only [UInt32.isValidChar, Nat.isValidChar] at hvalid
    omega
  have hbyte : ∀ m, m % 256 ≠ 0 → (0 : UInt8) ≠ UInt8.ofNat m := by
    intro m hm heq
    have hnat := congrArg UInt8.toNat heq
    rw [UInt8.toNat_ofNat'] at hnat
    exact hm hnat.symm
  unfold String.utf8EncodeChar
  generalize char.val.toNat = v at h hlt
  dsimp only
  split
  · simp only [List.mem_cons, List.not_mem_nil, or_false]
    exact hbyte _ (by omega)
  · split
    · simp only [List.mem_cons, List.not_mem_nil, or_false, not_or]
      exact ⟨hbyte _ (by omega), hbyte _ (by omega)⟩
    · split
      · simp only [List.mem_cons, List.not_mem_nil, or_false, not_or]
        exact ⟨hbyte _ (by omega), hbyte _ (by omega), hbyte _ (by omega)⟩
      · simp only [List.mem_cons, List.not_mem_nil, or_false, not_or]
        exact ⟨hbyte _ (by omega), hbyte _ (by omega), hbyte _ (by omega), hbyte _ (by omega)⟩

/-- What is left of a valid string without its zero bytes is valid. -/
theorem valid_filter_ne_zero {s : List UInt8} (h : valid s = true) :
    valid (s.filter (fun b => b != 0)) = true := by
  obtain ⟨chars, rfl⟩ := (valid_iff s).mp h
  induction chars with
  | nil => rfl
  | cons char rest ih =>
    have hrest : valid (rest.flatMap String.utf8EncodeChar) = true := (valid_iff _).mpr ⟨rest, rfl⟩
    rw [List.flatMap_cons, List.filter_append]
    by_cases hzero : char.val.toNat = 0
    · have hnil : (String.utf8EncodeChar char).filter (fun b => b != 0) = [] := by
        unfold String.utf8EncodeChar
        rw [hzero]
        rfl
      rw [hnil, List.nil_append]
      exact ih hrest
    · have hkeep : (String.utf8EncodeChar char).filter (fun b => b != 0) = String.utf8EncodeChar char := by
        refine List.filter_eq_self.mpr fun b hb => ?_
        have hne : b ≠ 0 := fun heq => zero_not_mem_utf8EncodeChar hzero (heq ▸ hb)
        simpa using hne
      rw [hkeep, valid_append_char]
      exact ih hrest

end Utf8
