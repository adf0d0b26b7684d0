import QuotientScoring.Lib.Decimal
import QuotientScoring.Lib.GoText
import QuotientScoring.Lib.Utf8

/-! JSON as `encoding/json` writes and reads it.

A string of a program holds any bytes, a string of JSON only characters: a byte that is
part of no rune is written as U+FFFD, and so it is read back. The printer writes no
space, and escapes what a page could take for markup; the parser reads all of JSON.

`readString_quote`: a quoted string is read back with its invalid bytes replaced.
`parse_print`: so is a value, which is itself when its strings are valid. -/
namespace GoJson
open GoText Decimal Utf8

abbrev Text := List UInt8

/-! ### Strings -/

def quoteMark : UInt8 := 34

def backslash : UInt8 := 92

/-- What a byte of ASCII is written as. -/
def escapeByte (b : UInt8) : Text :=
  if b = quoteMark ∨ b = backslash then [backslash, b]
  else if b = 8 then str "\\b"
  else if b = 9 then str "\\t"
  else if b = 10 then str "\\n"
  else if b = 12 then str "\\f"
  else if b = 13 then str "\\r"
  else if b < 32 ∨ b = 38 ∨ b = 60 ∨ b = 62 then str "\\u00" ++ [hexDigit (b / 16), hexDigit (b % 16)]
  else [b]

/-- The bytes after the first of U+2028 and of U+2029, with the last digit of the number. -/
def separator : Text → Option UInt8
  | 0x80 :: 0xA8 :: _ => some 56
  | 0x80 :: 0xA9 :: _ => some 57
  | _ => none

/-- A string between its quotes, `k` bytes of a rune still to come, which are kept or not. -/
def quoteFrom : Bool → Nat → Text → Text
  | _, _, [] => []
  | keep, k + 1, b :: rest => (if keep then [b] else []) ++ quoteFrom keep k rest
  | _, 0, b :: rest =>
    match runeLen (b :: rest) with
    | 0 => str "\\ufffd" ++ quoteFrom true 0 rest
    | 1 => escapeByte b ++ quoteFrom true 0 rest
    | n + 2 =>
      match if b = 0xE2 then separator rest else none with
      | some digit => str "\\u202" ++ digit :: quoteFrom false 2 rest
      | none => b :: quoteFrom true (n + 1) rest

def quote (s : Text) : Text := quoteMark :: quoteFrom true 0 s ++ [quoteMark]

/-- What follows a backslash, other than a `u`. -/
def simpleEscape (c : UInt8) : Option UInt8 :=
  if c = quoteMark ∨ c = backslash ∨ c = 47 then some c
  else if c = 98 then some 8
  else if c = 102 then some 12
  else if c = 110 then some 10
  else if c = 114 then some 13
  else if c = 116 then some 9
  else none

/-- The code unit of four digits. -/
def codeUnit (a b c d : UInt8) : Option Nat := do
  let a ← hexValue a
  let b ← hexValue b
  let c ← hexValue c
  let d ← hexValue d
  some (4096 * a.toNat + 256 * b.toNat + 16 * c.toNat + d.toNat)

def isHigh (unit : Nat) : Bool := 0xD800 ≤ unit && unit ≤ 0xDBFF

def isLow (unit : Nat) : Bool := 0xDC00 ≤ unit && unit ≤ 0xDFFF

def encode (n : Nat) : Text := String.utf8EncodeChar (Char.ofNat n)

/-- The first half of a pair that nothing came after. -/
def lone : Option Nat → Text
  | none => []
  | some _ => replacement

/-- What a code unit adds to a string that ended in half a pair or not. -/
def unitText (high : Option Nat) (unit : Nat) : Text :=
  match high with
  | some h =>
    if isLow unit then encode (0x10000 + (h - 0xD800) * 0x400 + (unit - 0xDC00))
    else replacement ++ if isHigh unit then [] else encode unit
  | none =>
    if isHigh unit then [] else if isLow unit then replacement else encode unit

/-- A string up to its closing quote, and what is behind it. Of a pair the first half may have
been read, and of a rune some bytes may be still to come. -/
def readString : Option Nat → Nat → Text → Option (Text × Text)
  | _, _, [] => none
  | _, k + 1, b :: rest => (readString none k rest).map (fun r => (b :: r.1, r.2))
  | high, 0, b :: rest =>
    if b = quoteMark then some (lone high, rest)
    else if b = backslash then
      match rest with
      | 117 :: x :: y :: z :: w :: rest =>
        match codeUnit x y z w with
        | none => none
        | some unit =>
          (readString (if isHigh unit then some unit else none) 0 rest).map
            (fun r => (unitText high unit ++ r.1, r.2))
      | c :: rest =>
        match simpleEscape c with
        | none => none
        | some v => (readString none 0 rest).map (fun r => (lone high ++ v :: r.1, r.2))
      | [] => none
    else if b < 32 then none
    else
      match runeLen (b :: rest) with
      | 0 => (readString none 0 rest).map (fun r => (lone high ++ replacement ++ r.1, r.2))
      | n + 1 => (readString none n rest).map (fun r => (lone high ++ b :: r.1, r.2))

example : readString none 0 (str "a\\ud83d\\ude00\\ud83d\\n\" ,") =
    some (str "a😀\uFFFD\n", str " ,") := by decide +kernel

/-! ### A quoted string is read back -/

theorem encode_ascii {n : Nat} (h : n < 128) : encode n = [UInt8.ofNat n] := by
  unfold encode String.utf8EncodeChar
  rw [val_ofNat (by omega)]
  exact if_pos (by omega)

theorem codeUnit_hexDigit (b : UInt8) :
    codeUnit 48 48 (hexDigit (b / 16)) (hexDigit (b % 16)) = some b.toNat := by
  have hdiv : (b / 16).toNat = b.toNat / 16 := UInt8.toNat_div ..
  have hmod : (b % 16).toNat = b.toNat % 16 := UInt8.toNat_mod ..
  have hlt : b.toNat < 256 := b.toNat_lt
  have hhigh : b / 16 < 16 := by
    rw [UInt8.lt_iff_toNat_lt, hdiv]
    show b.toNat / 16 < 16
    omega
  have hlow : b % 16 < 16 := by
    rw [UInt8.lt_iff_toNat_lt, hmod]
    show b.toNat % 16 < 16
    omega
  unfold codeUnit
  rw [hexValue_hexDigit hhigh, hexValue_hexDigit hlow]
  show some (4096 * 0 + 256 * 0 + 16 * (b / 16).toNat + (b % 16).toNat) = some b.toNat
  rw [hdiv, hmod]
  congr 1
  omega

theorem readString_quoteMark (high : Option Nat) (t : Text) :
    readString high 0 (quoteMark :: t) = some (lone high, t) := by
  rw [readString.eq_def]
  exact if_pos rfl

/-- A byte that is none of those that are escaped. -/
theorem readString_plain {b : UInt8} (hmark : b ≠ quoteMark) (hslash : b ≠ backslash)
    (hspace : ¬b < 32) {n : Nat} {rest : Text} (hrune : runeLen (b :: rest) = n + 1) :
    readString none 0 (b :: rest) = (readString none n rest).map (fun r => (b :: r.1, r.2)) := by
  rw [readString.eq_def]
  dsimp only
  rw [if_neg hmark, if_neg hslash, if_neg hspace, hrune]
  rfl

/-- A code unit that is no half of a pair. -/
theorem readString_unit {x y z w : UInt8} {u : Nat} (hunit : codeUnit x y z w = some u)
    (hhigh : isHigh u = false) (hlow : isLow u = false) (t : Text) :
    readString none 0 (backslash :: 117 :: x :: y :: z :: w :: t) =
      (readString none 0 t).map (fun r => (encode u ++ r.1, r.2)) := by
  have hstep : readString none 0 (backslash :: 117 :: x :: y :: z :: w :: t) =
      match codeUnit x y z w with
      | none => none
      | some unit => (readString (if isHigh unit then some unit else none) 0 t).map
          (fun r => (unitText none unit ++ r.1, r.2)) := rfl
  rw [hstep, hunit]
  dsimp only [unitText]
  rw [hhigh, hlow]
  rfl

theorem readString_escapeByte {b : UInt8} (h : b < 0x80) (t : Text) :
    readString none 0 (escapeByte b ++ t) = (readString none 0 t).map (fun r => (b :: r.1, r.2)) := by
  have hlt : b.toNat < 128 := UInt8.lt_iff_toNat_lt.mp h
  unfold escapeByte
  split
  · rename_i hmark
    rcases hmark with rfl | rfl <;> rfl
  split
  · subst b
    rfl
  split
  · subst b
    rfl
  split
  · subst b
    rfl
  split
  · subst b
    rfl
  split
  · subst b
    rfl
  split
  · have hunit : isHigh b.toNat = false := by
      unfold isHigh
      simp
      omega
    have hlow : isLow b.toNat = false := by
      unfold isLow
      simp
      omega
    have hread := readString_unit (codeUnit_hexDigit b) hunit hlow t
    rw [encode_ascii hlt, UInt8.ofNat_toNat] at hread
    exact hread
  · rename_i hmark _ _ _ _ _ hplain
    rw [not_or] at hmark hplain
    have hrune : runeLen (b :: t) = 1 := if_pos h
    exact readString_plain hmark.1 hmark.2 hplain.1 hrune

/-- A rune of one byte is ASCII. -/
theorem lt_of_runeLen {b : UInt8} {s : Text} (h : runeLen (b :: s) = 1) : b < 0x80 := by
  simp only [runeLen] at h
  split at h
  · assumption
  · split at h
    · cases h
    · rename_i hlead
      split at h
      · have hle := lead_two_le hlead
        omega
      · cases h

/-- The bytes of a rune that is being kept. -/
theorem take_quoteFrom {n : Nat} {s : Text} (h : n ≤ s.length) (t : Text) :
    (quoteFrom true n s ++ t).take n = s.take n := by
  induction n generalizing s with
  | zero => simp
  | succ n ih =>
    cases s with
    | nil => simp at h
    | cons b rest =>
      show (b :: (quoteFrom true n rest ++ t)).take (n + 1) = _
      rw [List.take_succ_cons, List.take_succ_cons, ih (by simpa using h)]

theorem separator_eq_some {rest : Text} {digit : UInt8} (h : separator rest = some digit) :
    ∃ c t, rest = 0x80 :: c :: t ∧ (c = 0xA8 ∧ digit = 56 ∨ c = 0xA9 ∧ digit = 57) := by
  unfold separator at h
  split at h
  · exact ⟨_, _, rfl, .inl ⟨rfl, (Option.some.inj h).symm⟩⟩
  · exact ⟨_, _, rfl, .inr ⟨rfl, (Option.some.inj h).symm⟩⟩
  · cases h

/-- The two line separators are read back from their numbers. -/
theorem readString_separator {c digit : UInt8} (h : c = 0xA8 ∧ digit = 56 ∨ c = 0xA9 ∧ digit = 57)
    (t : Text) :
    readString none 0 (str "\\u202" ++ digit :: t) =
      (readString none 0 t).map (fun r => (0xE2 :: 0x80 :: c :: r.1, r.2)) := by
  rcases h with ⟨rfl, rfl⟩ | ⟨rfl, rfl⟩
  · exact readString_unit (u := 0x2028) (by decide) (by decide) (by decide) t
  · exact readString_unit (u := 0x2029) (by decide) (by decide) (by decide) t

/-- A longer rune does not start with ASCII. -/
theorem not_lt_of_runeLen {b : UInt8} {s : Text} {n : Nat} (h : runeLen (b :: s) = n + 2) :
    ¬b < 0x80 := by
  intro hb
  have hone : runeLen (b :: s) = 1 := if_pos hb
  omega

theorem ne_of_not_lt {b c : UInt8} (h : ¬b < 0x80) (hc : c < 0x80) : b ≠ c := by
  rintro rfl
  exact h hc

theorem runeLen_separator {c digit : UInt8} (h : c = 0xA8 ∧ digit = 56 ∨ c = 0xA9 ∧ digit = 57)
    (t : Text) : runeLen (0xE2 :: 0x80 :: c :: t) = 3 := by
  rcases h with ⟨rfl, -⟩ | ⟨rfl, -⟩
  · exact runeLen_congr (s := [0x80, 0xA8]) (by decide) rfl
  · exact runeLen_congr (s := [0x80, 0xA9]) (by decide) rfl

/-- By induction over the string. Between runes the two flags mean the same; in the middle of
one, what is still to come of it is kept and read byte by byte, or has been written already. -/
theorem readString_quoteFrom (s t : Text) : ∀ keep n, n ≤ s.length →
    readString none (if keep then n else 0) (quoteFrom keep n s ++ quoteMark :: t) =
      some (if keep then replaceInvalidFrom n s else replaceInvalid (s.drop n), t) := by
  induction s with
  | nil =>
    intro keep n h
    obtain rfl : n = 0 := by simpa using h
    cases keep
    · exact readString_quoteMark none t
    · exact readString_quoteMark none t
  | cons b rest ih =>
    intro keep n h
    cases n with
    | succ n =>
      have hlen : n ≤ rest.length := by simpa using h
      cases keep with
      | false => exact ih false n hlen
      | true =>
        have hrest : readString none n (quoteFrom true n rest ++ quoteMark :: t) =
          some (replaceInvalidFrom n rest, t) := ih true n hlen
        show (readString none n (quoteFrom true n rest ++ quoteMark :: t)).map _ = _
        rw [hrest]
        rfl
    | zero =>
      have hgoal : readString none 0 (quoteFrom keep 0 (b :: rest) ++ quoteMark :: t) =
          some (replaceInvalidFrom 0 (b :: rest), t) := by
        have hnext : readString none 0 (quoteFrom true 0 rest ++ quoteMark :: t) =
          some (replaceInvalidFrom 0 rest, t) := ih true 0 (Nat.zero_le _)
        rw [quoteFrom, replaceInvalidFrom]
        split
        · rename_i hrune
          have hread : readString none 0
              (str "\\ufffd" ++ (quoteFrom true 0 rest ++ quoteMark :: t)) =
              (readString none 0 (quoteFrom true 0 rest ++ quoteMark :: t)).map
                (fun r => (replacement ++ r.1, r.2)) :=
            readString_unit (x := 102) (y := 102) (z := 102) (w := 100) (u := 0xFFFD) (by decide)
              (by decide) (by decide) _
          rw [List.append_assoc, hread, hnext, hrune]
          rfl
        · rename_i hrune
          rw [List.append_assoc, readString_escapeByte (lt_of_runeLen hrune), hnext, hrune]
          rfl
        · rename_i n hrune
          split
          · rename_i digit hdigit
            split at hdigit
            · rename_i hb
              subst hb
              obtain ⟨c, rest', rfl, hc⟩ := separator_eq_some hdigit
              have hskip : readString none 0 (quoteFrom false 2 (0x80 :: c :: rest') ++ quoteMark :: t) =
                some (replaceInvalid rest', t) := ih false 2 (by simp)
              rw [List.append_assoc, List.cons_append, readString_separator hc, hskip,
                runeLen_separator hc]
              rfl
            · cases hdigit
          · have hb := not_lt_of_runeLen hrune
            have hlen := length_of_runeLen hrune
            have hkept : runeLen (b :: (quoteFrom true (n + 1) rest ++ quoteMark :: t)) = n + 2 :=
              runeLen_congr hrune (take_quoteFrom hlen _)
            have hnext : readString none (n + 1) (quoteFrom true (n + 1) rest ++ quoteMark :: t) =
              some (replaceInvalidFrom (n + 1) rest, t) := ih true (n + 1) hlen
            rw [List.cons_append, readString_plain (ne_of_not_lt hb (by decide))
              (ne_of_not_lt hb (by decide)) (fun h => hb (UInt8.lt_trans h (by decide))) hkept, hnext, hrune]
            rfl
      cases keep <;> exact hgoal

/-- A quoted string is read back with its invalid bytes replaced. -/
theorem readString_quote (s t : Text) :
    quote s ++ t = quoteMark :: (quoteFrom true 0 s ++ quoteMark :: t) ∧
      readString none 0 (quoteFrom true 0 s ++ quoteMark :: t) = some (replaceInvalid s, t) :=
  ⟨by simp [quote], readString_quoteFrom s t true 0 (Nat.zero_le _)⟩

/-! ### Numbers -/

/-- What a number goes on with. -/
def isNumeric (c : UInt8) : Bool := IsDigit c || [43, 45, 46, 69, 101].contains c

/-- The end of a number, from its exponent on. -/
def exponent : Text → Bool
  | [] => true
  | c :: rest =>
    let digits := if rest.head? = some 43 ∨ rest.head? = some 45 then rest.tail else rest
    (c = 69 || c = 101) && !digits.isEmpty && digits.all (fun c => IsDigit c)

/-- The end of a number, from its fraction on. -/
def fraction : Text → Bool
  | 46 :: rest =>
    !(rest.takeWhile (fun c => IsDigit c)).isEmpty && exponent (rest.dropWhile (fun c => IsDigit c))
  | rest => exponent rest

/-- A number without its sign. -/
def magnitude : Text → Bool
  | 48 :: rest => fraction rest
  | c :: rest => IsDigit c && fraction (rest.dropWhile (fun c => IsDigit c))
  | [] => false

/-- The literals of numbers. -/
def isNumber (s : Text) : Bool := magnitude (if s.head? = some 45 then s.tail else s)

/-- A number as it is written. -/
structure Number where
  literal : Text
  wellFormed : isNumber literal = true

example : isNumber (str "-12.50e+3") = true ∧ isNumber (str "012") = false ∧
    isNumber (str "1.") = false := by decide +kernel

theorem magnitude_decimal (n : Nat) : magnitude (decimal n) = true := by
  have hdigits : ∀ c ∈ decimal n, decide (IsDigit c) = true :=
    fun c hc => decide_eq_true (isDigit_of_mem_decimal hc)
  rcases Nat.eq_zero_or_pos n with rfl | hpos
  · decide
  · obtain ⟨c, rest, hcons, hc⟩ := decimal_head hpos
    rw [hcons] at hdigits ⊢
    have hrest : rest.dropWhile (fun c => IsDigit c) = [] :=
      List.dropWhile_eq_nil_iff.mpr (fun d hd => hdigits d (List.mem_cons_of_mem c hd))
    unfold magnitude
    split
    · rename_i heq
      exact absurd (List.cons.inj heq).1 hc
    · rename_i heq
      obtain ⟨rfl, rfl⟩ := List.cons.inj heq
      rw [hdigits c List.mem_cons_self, hrest]
      rfl
    · rename_i heq
      cases heq

theorem isNumber_itoa (n : Int) : isNumber (itoa n) = true := by
  unfold itoa
  split
  · exact magnitude_decimal n.natAbs
  · have hhead : (decimal n.natAbs).head? ≠ some 45 := by
      intro hhead
      have hdigit := isDigit_of_mem_decimal (List.mem_of_head? hhead)
      exact absurd hdigit.1 (by decide)
    unfold isNumber
    rw [if_neg hhead]
    exact magnitude_decimal n.natAbs

/-- An integer. -/
def Number.ofInt (n : Int) : Number := ⟨itoa n, isNumber_itoa n⟩

/-! ### Values -/

inductive Value where
  | null
  | bool (b : Bool)
  | number (n : Number)
  | string (s : Text)
  | array (elements : List Value)
  | object (members : List (Text × Value))

mutual

def print : Value → Text
  | .null => str "null"
  | .bool true => str "true"
  | .bool false => str "false"
  | .number n => n.literal
  | .string s => quote s
  | .array [] => str "[]"
  | .array (v :: rest) => 91 :: print v ++ printElements rest
  | .object [] => str "\x7b\x7d"
  | .object ((key, v) :: rest) => 123 :: quote key ++ 58 :: print v ++ printMembers rest

/-- The elements after the first. -/
def printElements : List Value → Text
  | [] => [93]
  | v :: rest => 44 :: print v ++ printElements rest

/-- The members after the first. -/
def printMembers : List (Text × Value) → Text
  | [] => [125]
  | (key, v) :: rest => 44 :: quote key ++ 58 :: print v ++ printMembers rest

end

def isSpace (c : UInt8) : Bool := [9, 10, 13, 32].contains c

def skipSpace (s : Text) : Text := s.dropWhile isSpace

/-- A value that is one word. -/
def parseWord (word : String) (v : Value) (s : Text) : Option (Value × Text) :=
  if str word <+: s then some (v, s.drop (str word).length) else none

def parseNumber (s : Text) : Option (Value × Text) :=
  let literal := s.takeWhile isNumeric
  if h : isNumber literal then some (.number ⟨literal, h⟩, s.dropWhile isNumeric) else none

def parseString (s : Text) : Option (Text × Text) :=
  if s.head? = some quoteMark then readString none 0 s.tail else none

mutual

/-- The value a text starts with, and what is behind it. The number bounds the nesting and the
length; a text has no more of either than it has bytes. -/
def parseValue : Nat → Text → Option (Value × Text)
  | 0, _ => none
  | n + 1, s =>
    match skipSpace s with
    | [] => none
    | c :: rest =>
      if c = quoteMark then (parseString (c :: rest)).map (fun r => (.string r.1, r.2))
      else if c = 91 then
        if (skipSpace rest).head? = some 93 then some (.array [], (skipSpace rest).tail)
        else (parseElements n rest).map (fun r => (.array r.1, r.2))
      else if c = 123 then
        if (skipSpace rest).head? = some 125 then some (.object [], (skipSpace rest).tail)
        else (parseMembers n rest).map (fun r => (.object r.1, r.2))
      else if c = 110 then parseWord "null" .null (c :: rest)
      else if c = 116 then parseWord "true" (.bool true) (c :: rest)
      else if c = 102 then parseWord "false" (.bool false) (c :: rest)
      else parseNumber (c :: rest)

/-- One element at least, up to the closing bracket. -/
def parseElements : Nat → Text → Option (List Value × Text)
  | 0, _ => none
  | n + 1, s => do
    let (v, behind) ← parseValue n s
    match skipSpace behind with
    | 44 :: rest => (parseElements n rest).map (fun r => (v :: r.1, r.2))
    | 93 :: rest => some ([v], rest)
    | _ => none

/-- One member at least, up to the closing brace. -/
def parseMembers : Nat → Text → Option (List (Text × Value) × Text)
  | 0, _ => none
  | n + 1, s => do
    let (key, behind) ← parseString (skipSpace s)
    match skipSpace behind with
    | 58 :: rest =>
      let (v, behind) ← parseValue n rest
      match skipSpace behind with
      | 44 :: rest => (parseMembers n rest).map (fun r => ((key, v) :: r.1, r.2))
      | 125 :: rest => some ([(key, v)], rest)
      | _ => none
    | _ => none

end

/-- The value of a text that holds one and nothing else. -/
def parse (s : Text) : Option Value :=
  match parseValue (s.length + 1) s with
  | some (v, behind) => if skipSpace behind = [] then some v else none
  | none => none

example : (parse (str " \x7b\"a\": [1, null, true] \x7d ")).map print =
    some (str "\x7b\"a\":[1,null,true]\x7d") := by decide +kernel

/-! ### A printed value is read back -/

mutual

/-- The value with the invalid bytes of its strings replaced. -/
def Value.repair : Value → Value
  | .string s => .string (replaceInvalid s)
  | .array elements => .array (repairElements elements)
  | .object members => .object (repairMembers members)
  | v => v

def repairElements : List Value → List Value
  | [] => []
  | v :: rest => v.repair :: repairElements rest

def repairMembers : List (Text × Value) → List (Text × Value)
  | [] => []
  | (key, v) :: rest => (replaceInvalid key, v.repair) :: repairMembers rest

end

mutual

/-- What the parser counts down by. -/
def Value.cost : Value → Nat
  | .array elements => 1 + costElements elements
  | .object members => 1 + costMembers members
  | _ => 1

def costElements : List Value → Nat
  | [] => 0
  | v :: rest => 1 + v.cost + costElements rest

def costMembers : List (Text × Value) → Nat
  | [] => 0
  | (_, v) :: rest => 1 + v.cost + costMembers rest

end

theorem isNumeric_of_isDigit {c : UInt8} (h : IsDigit c) : isNumeric c = true := by
  rw [isNumeric, decide_eq_true h]
  rfl

theorem isNumeric_of_exponent {s : Text} (h : exponent s = true) : ∀ c ∈ s, isNumeric c = true := by
  cases s with
  | nil => simp
  | cons c rest =>
    simp only [exponent, Bool.and_eq_true, Bool.or_eq_true, decide_eq_true_eq] at h
    obtain ⟨⟨hc, -⟩, hdigits⟩ := h
    refine List.forall_mem_cons.mpr ⟨?_, ?_⟩
    · rcases hc with rfl | rfl
      · rfl
      · rfl
    · split at hdigits
      · rename_i hsign
        cases rest with
        | nil => simp
        | cons d rest =>
          refine List.forall_mem_cons.mpr ⟨?_, ?_⟩
          · rcases hsign with hsign | hsign
            · obtain rfl : d = 43 := by simpa using hsign
              rfl
            · obtain rfl : d = 45 := by simpa using hsign
              rfl
          · exact fun e he => isNumeric_of_isDigit (of_decide_eq_true (List.all_eq_true.mp hdigits e he))
      · exact fun e he => isNumeric_of_isDigit (of_decide_eq_true (List.all_eq_true.mp hdigits e he))

/-- Digits in front of what a number goes on with. -/
theorem isNumeric_of_dropWhile {s : Text}
    (h : ∀ c ∈ s.dropWhile (fun c => IsDigit c), isNumeric c = true) : ∀ c ∈ s, isNumeric c = true := by
  intro c hc
  rw [← List.takeWhile_append_dropWhile (p := fun c => IsDigit c) (l := s)] at hc
  rcases List.mem_append.mp hc with hc | hc
  · have hdigit := List.mem_takeWhile_imp hc
    exact isNumeric_of_isDigit (of_decide_eq_true hdigit)
  · exact h c hc

theorem isNumeric_of_fraction {s : Text} (h : fraction s = true) : ∀ c ∈ s, isNumeric c = true := by
  unfold fraction at h
  split at h
  · rw [Bool.and_eq_true] at h
    exact List.forall_mem_cons.mpr ⟨rfl, isNumeric_of_dropWhile (isNumeric_of_exponent h.2)⟩
  · exact isNumeric_of_exponent h

theorem isNumeric_of_magnitude {s : Text} (h : magnitude s = true) : ∀ c ∈ s, isNumeric c = true := by
  unfold magnitude at h
  split at h
  · exact List.forall_mem_cons.mpr ⟨rfl, isNumeric_of_fraction h⟩
  · rw [Bool.and_eq_true] at h
    exact List.forall_mem_cons.mpr
      ⟨isNumeric_of_isDigit (of_decide_eq_true h.1), isNumeric_of_dropWhile (isNumeric_of_fraction h.2)⟩
  · cases h

/-- A number starts with a digit or a minus. -/
theorem Number.head (n : Number) : ∃ c rest, n.literal = c :: rest ∧ (c = 45 ∨ IsDigit c) := by
  obtain ⟨literal, h⟩ := n
  cases literal with
  | nil => cases h
  | cons c rest =>
    refine ⟨c, rest, rfl, ?_⟩
    unfold isNumber at h
    split at h
    · rename_i hminus
      exact .inl (by simpa using hminus)
    · right
      unfold magnitude at h
      split at h
      · rename_i heq
        rw [(List.cons.inj heq).1]
        decide
      · rename_i heq
        rw [(List.cons.inj heq).1]
        exact of_decide_eq_true (Bool.and_eq_true _ _ ▸ h).1
      · rename_i heq
        cases heq

theorem Number.isNumeric (n : Number) : ∀ c ∈ n.literal, isNumeric c = true := by
  obtain ⟨literal, h⟩ := n
  unfold isNumber at h
  split at h
  · cases literal with
    | nil => simp
    | cons c rest =>
      rename_i hminus
      obtain rfl : c = 45 := by simpa using hminus
      exact List.forall_mem_cons.mpr ⟨rfl, isNumeric_of_magnitude h⟩
  · exact isNumeric_of_magnitude h

/-- What may follow a value. -/
def Ends (behind : Text) : Prop := ∀ c ∈ behind.head?, isNumeric c = false

theorem parseNumber_append (n : Number) {behind : Text} (h : Ends behind) :
    parseNumber (n.literal ++ behind) = some (.number n, behind) := by
  have hstop : behind.takeWhile isNumeric = [] ∧ behind.dropWhile isNumeric = behind := by
    cases behind with
    | nil => exact ⟨rfl, rfl⟩
    | cons c rest =>
      have hc : isNumeric c = false := h c rfl
      simp [List.takeWhile, List.dropWhile, hc]
  have htake : (n.literal ++ behind).takeWhile isNumeric = n.literal := by
    rw [List.takeWhile_append_of_pos n.isNumeric, hstop.1, List.append_nil]
  have hdrop : (n.literal ++ behind).dropWhile isNumeric = behind := by
    rw [List.dropWhile_append_of_pos n.isNumeric, hstop.2]
  unfold parseNumber
  dsimp only
  rw [hdrop]
  simp only [htake, n.wellFormed, dite_true]

theorem skipSpace_of_head {s : Text} (h : ∀ c ∈ s.head?, isSpace c = false) : skipSpace s = s := by
  cases s with
  | nil => rfl
  | cons c rest =>
    have hc : isSpace c = false := h c rfl
    simp [skipSpace, List.dropWhile, hc]

/-- What a number starts with is what nothing else starts with. -/
theorem ne_of_number {c d : UInt8} (hc : c = 45 ∨ IsDigit c)
    (hd : ¬(d = 45 ∨ IsDigit d)) : c ≠ d := by
  rintro rfl
  exact hd hc

theorem isSpace_of_number {c : UInt8} (hc : c = 45 ∨ IsDigit c) : isSpace c = false := by
  have h9 := ne_of_number (d := 9) hc (by decide)
  have h10 := ne_of_number (d := 10) hc (by decide)
  have h13 := ne_of_number (d := 13) hc (by decide)
  have h32 := ne_of_number (d := 32) hc (by decide)
  simp [isSpace, h9, h10, h13, h32]

/-- A printed value starts with no space, and is not the end of a list. -/
theorem print_head (v : Value) : ∃ c rest, print v = c :: rest ∧ isSpace c = false ∧ c ≠ 93 := by
  cases v with
  | null => exact ⟨_, _, rfl, rfl, by decide⟩
  | bool b => cases b <;> exact ⟨_, _, rfl, rfl, by decide⟩
  | number n =>
    obtain ⟨c, rest, hcons, hc⟩ := n.head
    exact ⟨c, rest, hcons, isSpace_of_number hc, ne_of_number hc (by decide)⟩
  | string s => exact ⟨_, _, rfl, rfl, by decide⟩
  | array elements => cases elements <;> exact ⟨_, _, rfl, rfl, by decide⟩
  | object members => cases members <;> exact ⟨_, _, rfl, rfl, by decide⟩

theorem parseString_quote (s behind : Text) :
    parseString (quote s ++ behind) = some (replaceInvalid s, behind) := by
  obtain ⟨hquote, hread⟩ := readString_quote s behind
  rw [hquote, ← hread]
  rfl

theorem Value.cost_pos (v : Value) : 0 < v.cost := by
  cases v <;> simp only [Value.cost] <;> omega

theorem skipSpace_cons {c : UInt8} (h : isSpace c = false) (rest : Text) :
    skipSpace (c :: rest) = c :: rest :=
  skipSpace_of_head (by simpa using h)

theorem parseValue_number (m : Number) (n : Nat) {behind : Text} (hends : Ends behind) :
    parseValue (n + 1) (m.literal ++ behind) = some (.number m, behind) := by
  have hnumber := parseNumber_append m hends
  obtain ⟨c, rest, hcons, hc⟩ := m.head
  rw [hcons, List.cons_append] at hnumber ⊢
  rw [parseValue, skipSpace_cons (isSpace_of_number hc)]
  dsimp only
  rw [if_neg (ne_of_number hc (by decide)), if_neg (ne_of_number hc (by decide)),
    if_neg (ne_of_number hc (by decide)), if_neg (ne_of_number hc (by decide)),
    if_neg (ne_of_number hc (by decide)), if_neg (ne_of_number hc (by decide)), hnumber]

mutual

theorem parseValue_print (v : Value) {n : Nat} {behind : Text} (hcost : v.cost ≤ n)
    (hends : Ends behind) : parseValue n (print v ++ behind) = some (v.repair, behind) := by
  have hpos := v.cost_pos
  obtain ⟨n, rfl⟩ : ∃ m, n = m + 1 := ⟨n - 1, by omega⟩
  match v with
  | .null => rfl
  | .bool true => rfl
  | .bool false => rfl
  | .number m => exact parseValue_number m n hends
  | .string s =>
    have hstring := parseString_quote s behind
    show (parseString (quote s ++ behind)).map (fun r => (Value.string r.1, r.2)) = _
    rw [hstring]
    rfl
  | .array [] => rfl
  | .array (v :: rest) =>
    have helements := parseElements_print v rest (n := n) (s := behind)
      (by simp only [Value.cost, costElements] at hcost; omega)
    obtain ⟨c, tail, hcons, hspace, hclose⟩ := print_head v
    have hfirst : (skipSpace (print v ++ printElements rest ++ behind)).head? ≠ some 93 := by
      rw [hcons, List.cons_append, List.cons_append, skipSpace_cons hspace]
      simpa using hclose
    show (if (skipSpace (print v ++ printElements rest ++ behind)).head? = some 93 then _ else
      (parseElements n (print v ++ printElements rest ++ behind)).map
        (fun r => (Value.array r.1, r.2))) = _
    rw [if_neg hfirst, helements]
    rfl
  | .object [] => rfl
  | .object ((key, v) :: rest) =>
    have hmembers := parseMembers_print key v rest (n := n) (s := behind)
      (by simp only [Value.cost, costMembers] at hcost; omega)
    show (parseMembers n (quote key ++ 58 :: print v ++ printMembers rest ++ behind)).map
        (fun r => (Value.object r.1, r.2)) = _
    rw [hmembers]
    rfl
termination_by n

theorem parseElements_print (v : Value) (rest : List Value) {n : Nat} {s : Text}
    (hcost : 1 + v.cost + costElements rest ≤ n) :
    parseElements n (print v ++ printElements rest ++ s) =
      some (v.repair :: repairElements rest, s) := by
  obtain ⟨n, rfl⟩ : ∃ m, n = m + 1 := ⟨n - 1, by omega⟩
  have hends : Ends (printElements rest ++ s) := by
    cases rest <;> intro c hc <;> obtain rfl : _ = c := by simpa [printElements] using hc
    · rfl
    · rfl
  have hv := parseValue_print v (n := n) (by omega) hends
  rw [List.append_assoc, parseElements, hv]
  match rest with
  | [] => rfl
  | w :: rest =>
    have hrest := parseElements_print w rest (n := n) (s := s)
      (by simp only [costElements] at hcost; omega)
    show (parseElements n (print w ++ printElements rest ++ s)).map _ = _
    rw [hrest]
    rfl
termination_by n

theorem parseMembers_print (key : Text) (v : Value) (rest : List (Text × Value)) {n : Nat}
    {s : Text} (hcost : 1 + v.cost + costMembers rest ≤ n) :
    parseMembers n (quote key ++ 58 :: print v ++ printMembers rest ++ s) =
      some ((replaceInvalid key, v.repair) :: repairMembers rest, s) := by
  obtain ⟨n, rfl⟩ : ∃ m, n = m + 1 := ⟨n - 1, by omega⟩
  have hends : Ends (printMembers rest ++ s) := by
    cases rest <;> intro c hc <;> obtain rfl : _ = c := by simpa [printMembers] using hc
    · rfl
    · rfl
  have hv := parseValue_print v (n := n) (by omega) hends
  have hkey := parseString_quote key (58 :: (print v ++ (printMembers rest ++ s)))
  have hquote : skipSpace (quote key ++ 58 :: (print v ++ (printMembers rest ++ s))) =
      quote key ++ 58 :: (print v ++ (printMembers rest ++ s)) :=
    skipSpace_cons (by decide) _
  rw [List.append_assoc, List.append_assoc, List.cons_append, parseMembers, hquote, hkey]
  simp only [Option.bind_eq_bind, Option.bind_some, skipSpace_cons (c := 58) (by decide), hv]
  match rest with
  | [] => rfl
  | (key', w) :: rest =>
    have hrest := parseMembers_print key' w rest (n := n) (s := s)
      (by simp only [costMembers] at hcost; omega)
    show (parseMembers n (quote key' ++ 58 :: print w ++ printMembers rest ++ s)).map _ = _
    rw [hrest]
    rfl
termination_by n

end

/-! ### Printed texts are long enough -/

mutual

theorem cost_le_length (v : Value) : v.cost ≤ (print v).length := by
  match v with
  | .null => decide
  | .bool true => decide
  | .bool false => decide
  | .number m =>
    obtain ⟨c, rest, hcons, -⟩ := m.head
    show 1 ≤ m.literal.length
    rw [hcons]
    exact Nat.le_add_left 1 rest.length
  | .string s => exact Nat.le_add_left 1 _
  | .array [] => decide
  | .array (v :: rest) =>
    have hv := cost_le_length v
    have hrest := costElements_lt_length rest
    simp only [Value.cost, costElements, print, List.length_cons, List.length_append]
    omega
  | .object [] => decide
  | .object ((key, v) :: rest) =>
    have hv := cost_le_length v
    have hrest := costMembers_lt_length rest
    simp only [Value.cost, costMembers, print, List.length_cons, List.length_append]
    omega

theorem costElements_lt_length (elements : List Value) :
    costElements elements < (printElements elements).length := by
  match elements with
  | [] => decide
  | v :: rest =>
    have hv := cost_le_length v
    have hrest := costElements_lt_length rest
    simp only [costElements, printElements, List.length_cons, List.length_append]
    omega

theorem costMembers_lt_length (members : List (Text × Value)) :
    costMembers members < (printMembers members).length := by
  match members with
  | [] => decide
  | (key, v) :: rest =>
    have hv := cost_le_length v
    have hrest := costMembers_lt_length rest
    simp only [costMembers, printMembers, List.length_cons, List.length_append]
    omega

end

/-- A printed value is read back with the invalid bytes of its strings replaced. -/
theorem parse_print (v : Value) : parse (print v) = some v.repair := by
  have hcost : v.cost ≤ (print v).length + 1 := Nat.le_succ_of_le (cost_le_length v)
  have hread : parseValue _ (print v ++ []) = _ := parseValue_print v hcost (by simp [Ends])
  rw [List.append_nil] at hread
  rw [parse, hread]
  rfl

/-! ### Structs

A struct is an object with one member for each of its fields, less those left out for
being empty. It is read member by member: a key names a field in either case, the last
of several members is the one that counts, and `null` changes nothing. -/

/-- A key as keys are compared. The two characters outside ASCII are those that have a letter of
ASCII for their other case. -/
def foldName : Text → Text
  | [] => []
  | 0xC5 :: 0xBF :: rest => 83 :: foldName rest
  | 0xE2 :: 0x84 :: 0xAA :: rest => 75 :: foldName rest
  | c :: rest => (if 97 ≤ c ∧ c ≤ 122 then c - 32 else c) :: foldName rest

/-- A field of a struct: its name, what it is written as, and when it is left out. -/
structure StructField (σ : Type) where
  name : Text
  value : σ → Value
  omitted : σ → Bool

section
variable {σ α : Type}

def members (fields : List (StructField σ)) (r : σ) : List (Text × Value) :=
  fields.filterMap (fun f => if f.omitted r then none else some (f.name, f.value r))

/-- What an object says of a field. -/
def valuesOf (name : Text) (members : List (Text × Value)) : List Value :=
  (members.filter (fun m => foldName m.1 = foldName name)).map Prod.snd

/-- The field as it is after all of that. -/
def readField (store : Value → Option α) (zero : α) (name : Text) (members : List (Text × Value)) :
    Option α :=
  (valuesOf name members).foldlM
    (fun a v =>
      match v with
      | .null => some a
      | v => store v) zero

/-! The fields of each kind; an empty one is left out where it is declared so. -/

def textField (name : Text) (get : σ → Text) : StructField σ :=
  ⟨name, fun r => .string (get r), fun r => decide (get r = [])⟩

def boolField (name : Text) (get : σ → Bool) : StructField σ :=
  ⟨name, fun r => .bool (get r), fun r => !get r⟩

def uintField (name : Text) (get : σ → Nat) (omitEmpty : Bool) : StructField σ :=
  ⟨name, fun r => .number (.ofInt (get r)), fun r => omitEmpty && decide (get r = 0)⟩

def intField (name : Text) (get : σ → Int) : StructField σ :=
  ⟨name, fun r => .number (.ofInt (get r)), fun r => decide (get r = 0)⟩

/-- No key is taken for another, and each is read as it was written. -/
structure WellNamed (fields : List (StructField σ)) : Prop where
  apart : fields.Pairwise (fun f g => foldName f.name ≠ foldName g.name)
  valid : ∀ f ∈ fields, replaceInvalid f.name = f.name

def storeText : Value → Option Text
  | .string s => some s
  | _ => none

def storeBool : Value → Option Bool
  | .bool b => some b
  | _ => none

def storeUint : Value → Option Nat
  | .number n => parseUint 64 n.literal
  | _ => none

def storeInt : Value → Option Int
  | .number n => atoi n.literal
  | _ => none

example : readField storeText [] (str "status_text") [(str "\u017Ftatus_TEXT", .string [97]),
    (str "status_text", .null)] = some [97] := by decide +kernel

theorem repairMembers_eq_map (members : List (Text × Value)) :
    repairMembers members = members.map (fun m => (replaceInvalid m.1, m.2.repair)) := by
  induction members with
  | nil => rfl
  | cons m rest ih =>
    rw [List.map_cons, ← ih]
    rfl

theorem valuesOf_append (name : Text) (a b : List (Text × Value)) :
    valuesOf name (a ++ b) = valuesOf name a ++ valuesOf name b := by
  simp [valuesOf]

theorem members_cons (f : StructField σ) (fields : List (StructField σ)) (r : σ) :
    members (f :: fields) r =
      (if f.omitted r then [] else [(f.name, f.value r)]) ++ members fields r := by
  unfold members
  rw [List.filterMap_cons]
  cases f.omitted r <;> rfl

/-- Nothing is said of a field that is none of the struct's. -/
theorem valuesOf_members_of_ne {fields : List (StructField σ)} {name : Text}
    (hnames : ∀ f ∈ fields, foldName f.name ≠ foldName name)
    (hvalid : ∀ f ∈ fields, replaceInvalid f.name = f.name) (r : σ) :
    valuesOf name (repairMembers (members fields r)) = [] := by
  rw [valuesOf, List.map_eq_nil_iff, List.filter_eq_nil_iff, repairMembers_eq_map]
  intro m hm
  obtain ⟨m', hm', rfl⟩ := List.mem_map.mp hm
  obtain ⟨f, hf, hsome⟩ := List.mem_filterMap.mp hm'
  split at hsome
  · cases hsome
  · obtain rfl := Option.some.inj hsome
    dsimp only
    rw [hvalid f hf, decide_eq_true_iff]
    exact hnames f hf

/-- The members of a struct that were written and read back hold each field once, unless it was
left out. -/
theorem valuesOf_members {fields : List (StructField σ)}
    (hnamed : WellNamed fields) (r : σ) {f : StructField σ} (h : f ∈ fields) :
    valuesOf f.name (repairMembers (members fields r)) =
      if f.omitted r then [] else [(f.value r).repair] := by
  induction fields with
  | nil => cases h
  | cons g fields ih =>
    obtain ⟨hg, hnames⟩ := List.pairwise_cons.mp hnamed.apart
    obtain ⟨hgvalid, hrest⟩ := List.forall_mem_cons.mp hnamed.valid
    rw [members_cons, repairMembers_eq_map, List.map_append, ← repairMembers_eq_map,
      ← repairMembers_eq_map, valuesOf_append]
    rcases List.mem_cons.mp h with rfl | hf
    · rw [valuesOf_members_of_ne (fun f' hf' => (hg f' hf').symm) hrest, List.append_nil]
      cases f.omitted r
      · simp [valuesOf, repairMembers, hgvalid]
      · rfl
    · rw [ih ⟨hnames, hrest⟩ hf]
      cases g.omitted r
      · simp [valuesOf, repairMembers, hgvalid, hg f hf]
      · rfl

theorem readField_of_members {fields : List (StructField σ)} (hnamed : WellNamed fields) (r : σ)
    {f : StructField σ} (h : f ∈ fields) {store : Value → Option α} {zero a : α}
    (hstore : store (f.value r).repair = some a) (hnull : (f.value r).repair ≠ .null)
    (homitted : f.omitted r = true → zero = a) :
    readField store zero f.name (repairMembers (members fields r)) = some a := by
  rw [readField, valuesOf_members hnamed r h]
  cases hf : f.omitted r
  · show (match (f.value r).repair with
      | .null => some zero
      | v => store v).bind some = some a
    cases hv : (f.value r).repair with
    | null => exact absurd hv hnull
    | _ => rw [hv] at hstore; simpa using hstore
  · exact congrArg some (homitted hf)

theorem readField_text {fields : List (StructField σ)} (hnamed : WellNamed fields) (r : σ) {name : Text}
    {get : σ → Text} (h : textField name get ∈ fields) :
    readField storeText [] name (repairMembers (members fields r)) = some (replaceInvalid (get r)) := by
  refine readField_of_members hnamed r h rfl (fun h => nomatch h) ?_
  intro homitted
  have hnil : get r = [] := of_decide_eq_true homitted
  rw [hnil]
  rfl

theorem readField_bool {fields : List (StructField σ)} (hnamed : WellNamed fields) (r : σ) {name : Text}
    {get : σ → Bool} (h : boolField name get ∈ fields) :
    readField storeBool false name (repairMembers (members fields r)) = some (get r) := by
  refine readField_of_members hnamed r h rfl (fun h => nomatch h) ?_
  intro homitted
  have hfalse : (!get r) = true := homitted
  simpa using hfalse

theorem readField_uint {fields : List (StructField σ)} (hnamed : WellNamed fields) (r : σ) {name : Text}
    {get : σ → Nat} {omitEmpty : Bool} (h : uintField name get omitEmpty ∈ fields) (hlt : get r < 2 ^ 64) :
    readField storeUint 0 name (repairMembers (members fields r)) = some (get r) := by
  refine readField_of_members hnamed r h ?_ (fun h => nomatch h) ?_
  · show parseUint 64 (decimal (get r)) = some (get r)
    rw [parseUint_decimal, if_pos hlt]
  · intro homitted
    have hzero : (omitEmpty && decide (get r = 0)) = true := homitted
    rw [Bool.and_eq_true] at hzero
    exact (of_decide_eq_true hzero.2).symm

theorem readField_int {fields : List (StructField σ)} (hnamed : WellNamed fields) (r : σ) {name : Text}
    {get : σ → Int} (h : intField name get ∈ fields) (hlow : -2 ^ 63 ≤ get r)
    (hhigh : get r < 2 ^ 63) :
    readField storeInt 0 name (repairMembers (members fields r)) = some (get r) := by
  refine readField_of_members hnamed r h (atoi_itoa hlow hhigh) (fun h => nomatch h) ?_
  intro homitted
  exact (of_decide_eq_true homitted).symm

end

end GoJson
