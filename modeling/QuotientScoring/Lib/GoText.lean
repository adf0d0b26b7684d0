import Mathlib.Data.List.Basic

/-! Text as bytes.

A Go string holds any bytes; a literal of the source holds the UTF-8 of its
characters. `str` writes such a literal, and different literals are different
strings. -/
namespace GoText

/-- The bytes of a literal. -/
def str (s : String) : List UInt8 := s.toUTF8.data.toList

@[simp] theorem str_inj {a b : String} : str a = str b ↔ a = b := by
  constructor
  · intro h
    have hdata : a.toUTF8.data = b.toUTF8.data := Array.toList_inj.mp h
    have hbytes : a.toUTF8 = b.toUTF8 := ByteArray.ext hdata
    exact String.toByteArray_inj.mp hbytes
  · exact congrArg str

@[simp] theorem str_empty : str "" = [] := by simp [str]

@[simp] theorem str_eq_nil {a : String} : str a = [] ↔ a = "" := by
  rw [← str_empty, str_inj]

/-- `strings.TrimSuffix`. -/
def trimSuffix (s suffix : List UInt8) : List UInt8 :=
  if suffix <:+ s then s.take (s.length - suffix.length) else s

/-- The digit of a number below 16, in lower case. -/
def hexDigit (d : UInt8) : UInt8 := if d < 10 then 48 + d else 87 + d

/-- The number of a digit, in either case. -/
def hexValue (c : UInt8) : Option UInt8 :=
  if 48 ≤ c ∧ c ≤ 57 then some (c - 48)
  else if 97 ≤ c ∧ c ≤ 102 then some (c - 87)
  else if 65 ≤ c ∧ c ≤ 70 then some (c - 55)
  else none

theorem hexValue_hexDigit {d : UInt8} (h : d < 16) : hexValue (hexDigit d) = some d := by
  obtain ⟨n, hn, rfl⟩ : ∃ n < 16, d = UInt8.ofNat n :=
    ⟨d.toNat, UInt8.lt_iff_toNat_lt.mp h, (UInt8.ofNat_toNat).symm⟩
  revert n
  decide

end GoText
