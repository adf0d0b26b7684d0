import QuotientScoring.DB.Schema
import QuotientScoring.Lib.Utf8

/-! What `sanitizeDBString` leaves of a string: no NUL byte, valid UTF-8, and
nothing that was not there. It changes a string exactly when PostgreSQL could not
have stored it, so a name it leaves alone is a name the tables can hold. -/
namespace QuotientScoring.Engine
open DB

def sanitizeDBString (s : GoString) : GoString :=
  -- remove nulls
  let s := s.filter (fun b => b != 0)
  -- if invalid UTF-8, drop the bytes that are part of no rune
  if !Utf8.valid s then Utf8.dropInvalid s else s

/-- Both branches drop the invalid bytes: a valid string has none. -/
theorem sanitizeDBString_eq (s : GoString) :
    sanitizeDBString s = Utf8.dropInvalid (s.filter (fun b => b != 0)) := by
  unfold sanitizeDBString
  cases h : Utf8.valid (s.filter (fun b => b != 0))
  · simp [h]
  · simp [h, Utf8.dropInvalid_of_valid h]

theorem valid_sanitizeDBString (s : GoString) : Utf8.valid (sanitizeDBString s) = true := by
  rw [sanitizeDBString_eq]
  exact Utf8.dropInvalid_valid _

theorem sublist_sanitizeDBString (s : GoString) : (sanitizeDBString s).Sublist s := by
  rw [sanitizeDBString_eq]
  exact (Utf8.dropInvalid_sublist _).trans List.filter_sublist

theorem nul_not_mem_sanitizeDBString (s : GoString) : 0 ∉ sanitizeDBString s := by
  rw [sanitizeDBString_eq]
  intro h
  have hmem := (Utf8.dropInvalid_sublist _).mem h
  simp at hmem

/-- A storable string is left alone. -/
theorem sanitizeDBString_of_storable {s : GoString} (hv : Utf8.valid s = true) (h0 : 0 ∉ s) :
    sanitizeDBString s = s := by
  have hfilter : s.filter (fun b => b != 0) = s := by
    refine List.filter_eq_self.mpr fun b hb => ?_
    have hne : b ≠ 0 := fun h => h0 (h ▸ hb)
    simp [hne]
  rw [sanitizeDBString_eq, hfilter, Utf8.dropInvalid_of_valid hv]

/-- What comes out is a name the function leaves alone. -/
@[simp] theorem sanitizeDBString_sanitizeDBString (s : GoString) :
    sanitizeDBString (sanitizeDBString s) = sanitizeDBString s :=
  sanitizeDBString_of_storable (valid_sanitizeDBString s) (nul_not_mem_sanitizeDBString s)

/-- What PostgreSQL stores as a text: the encoding of characters, none of them NUL. -/
def StorableText (s : GoString) : Prop :=
  0 ∉ s ∧ ∃ chars : List Char, chars.flatMap String.utf8EncodeChar = s

theorem storable_sanitizeDBString (s : GoString) : StorableText (sanitizeDBString s) :=
  ⟨nul_not_mem_sanitizeDBString s, (Utf8.valid_iff _).mp (valid_sanitizeDBString s)⟩

theorem sanitizeDBString_eq_self_iff (s : GoString) : sanitizeDBString s = s ↔ StorableText s := by
  constructor
  · intro h
    rw [← h]
    exact storable_sanitizeDBString s
  · intro h
    exact sanitizeDBString_of_storable ((Utf8.valid_iff s).mpr h.2) h.1

/-- Any string becomes one that can be stored, bytes are only left out, and what can be
stored is left alone, so that doing it twice is doing it once. -/
theorem sanitizeDBString_spec (s : GoString) :
    StorableText (sanitizeDBString s) ∧ (sanitizeDBString s).Sublist s ∧
      (sanitizeDBString s = s ↔ StorableText s) ∧
      sanitizeDBString (sanitizeDBString s) = sanitizeDBString s :=
  ⟨storable_sanitizeDBString s, sublist_sanitizeDBString s, sanitizeDBString_eq_self_iff s,
    sanitizeDBString_sanitizeDBString s⟩

example : sanitizeDBString [0xE2, 0x00, 0x82, 0xAC, 0xC3, 0x28] = [0xE2, 0x82, 0xAC, 0x28] := by
  decide

end QuotientScoring.Engine
