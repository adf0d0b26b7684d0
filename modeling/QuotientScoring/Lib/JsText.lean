import Mathlib.Data.List.DropRight

/-! Strings of JavaScript.

A string holds UTF-16 code units, any of them. A regular expression matches them one at a
time, and its dot matches all but four that end a line, of which `\n` is only one. When a
string leaves the browser, what is no character becomes U+FFFD. -/
namespace JsText

abbrev JsString := List UInt16

/-- A literal of the source, of characters of one unit each. -/
def js (s : String) : JsString := s.toList.map (fun c => c.toNat.toUInt16)

def newline : UInt16 := 10
def comma : UInt16 := 44

/-- What a dot does not match. -/
def lineTerminators : List UInt16 := [10, 13, 0x2028, 0x2029]

/-- What `trim` takes off either end. -/
def spaces : List UInt16 :=
  [9, 10, 11, 12, 13, 32, 0xA0, 0x1680, 0x2000, 0x2001, 0x2002, 0x2003, 0x2004, 0x2005, 0x2006,
    0x2007, 0x2008, 0x2009, 0x200A, 0x2028, 0x2029, 0x202F, 0x205F, 0x3000, 0xFEFF]

def trim (s : JsString) : JsString :=
  (s.dropWhile (fun c => spaces.contains c)).rdropWhile (fun c => spaces.contains c)

/-- What `.+` matches from here on. -/
def dots (s : JsString) : JsString := s.takeWhile (fun c => !lineTerminators.contains c)

/-- The first two parts of `s.split(/,(.+)/)`: what is before the first comma that something
follows on its line, and what follows it; or the whole string, where there is none. -/
def splitComma : JsString → JsString × Option JsString
  | [] => ([], none)
  | c :: rest =>
    if c = comma ∧ dots rest ≠ [] then ([], some (dots rest))
    else (c :: (splitComma rest).1, (splitComma rest).2)

/-- A unit that is no half of a pair. -/
def unitChar (c : UInt16) : Char :=
  if 0xD800 ≤ c ∧ c ≤ 0xDFFF then Char.ofNat 0xFFFD else Char.ofNat c.toNat

def pairChar (hi lo : UInt16) : Char :=
  Char.ofNat (0x10000 + (hi.toNat - 0xD800) * 0x400 + (lo.toNat - 0xDC00))

/-- The characters, with U+FFFD for half of a pair. -/
def chars : JsString → List Char
  | [] => []
  | [c] => [unitChar c]
  | hi :: lo :: rest =>
    if 0xD800 ≤ hi ∧ hi ≤ 0xDBFF ∧ 0xDC00 ≤ lo ∧ lo ≤ 0xDFFF then pairChar hi lo :: chars rest
    else unitChar hi :: chars (lo :: rest)

/-- The string that is read back from JSON, as UTF-8. -/
def toUtf8 (s : JsString) : List UInt8 := (chars s).flatMap String.utf8EncodeChar

example : splitComma (js "jdoe,S3cure,pass") = (js "jdoe", some (js "S3cure,pass")) ∧
    splitComma (js "jdoe,") = (js "jdoe,", none) := by decide +kernel

example : toUtf8 [0x41, 0xE9, 0xD83D, 0xDE00, 0xD83D] =
    [0x41, 0xC3, 0xA9, 0xF0, 0x9F, 0x98, 0x80, 0xEF, 0xBF, 0xBD] := by decide +kernel

/-! ### Lines -/

theorem trim_ne_nil {s : JsString} {c : UInt16} (hmem : c ∈ s) (hspace : c ∉ spaces) :
    trim s ≠ [] := by
  intro hnil
  have hall := List.rdropWhile_eq_nil_iff.mp hnil
  rw [← List.takeWhile_append_dropWhile (p := fun c => spaces.contains c) (l := s)] at hmem
  rcases List.mem_append.mp hmem with hmem | hmem
  · exact hspace (by simpa using List.mem_takeWhile_imp hmem)
  · exact hspace (by simpa using hall c hmem)

/-- The lines of a text have no newline. -/
theorem newline_not_mem_of_line {s line : JsString} (h : line ∈ s.splitOn newline) :
    newline ∉ line := by
  induction s generalizing line with
  | nil =>
    obtain rfl := List.mem_singleton.mp h
    exact List.not_mem_nil
  | cons c s ih =>
    rw [List.splitOn_cons_eq_if_modifyHead] at h
    split at h
    · rcases List.mem_cons.mp h with rfl | h
      · exact List.not_mem_nil
      · exact ih h
    · rename_i hc
      obtain ⟨first, rest, hlines⟩ := List.exists_cons_of_ne_nil (List.splitOn_ne_nil newline s)
      rw [hlines] at ih h
      rcases List.mem_cons.mp h with rfl | h
      · intro hmem
        rcases List.mem_cons.mp hmem with hfirst | hmem
        · exact hc (beq_iff_eq.mpr hfirst.symm)
        · exact ih List.mem_cons_self hmem
      · exact ih (List.mem_cons_of_mem first h)

/-- Lines without a newline, one below the other. -/
theorem splitOn_lines {lines : List JsString} (h : ∀ line ∈ lines, newline ∉ line)
    {p : JsString → Bool} (hp : ∀ line ∈ lines, p line = true) (hnil : p [] = false) :
    (([newline].intercalate lines).splitOn newline).filter p = lines := by
  by_cases hne : lines = []
  · subst hne
    show [[]].filter p = []
    rw [List.filter_singleton, hnil]
    rfl
  · rw [List.splitOn_intercalate newline h hne, List.filter_eq_self.mpr hp]

/-! ### The first comma -/

theorem not_mem_dots {s : JsString} {c : UInt16} (h : c ∈ dots s) : c ∉ lineTerminators := by
  simpa using List.mem_takeWhile_imp h

theorem dots_eq_self {s : JsString} (h : ∀ c ∈ s, c ∉ lineTerminators) : dots s = s := by
  unfold dots
  rw [List.takeWhile_eq_self_iff]
  simpa using h

theorem splitComma_append {name rest : JsString} (hname : comma ∉ name) (hrest : dots rest ≠ []) :
    splitComma (name ++ comma :: rest) = (name, some (dots rest)) := by
  induction name with
  | nil => exact if_pos ⟨rfl, hrest⟩
  | cons c name ih =>
    have hc : ¬ (c = comma ∧ dots (name ++ comma :: rest) ≠ []) :=
      fun h => hname (h.1 ▸ List.mem_cons_self)
    rw [List.cons_append, splitComma, if_neg hc, ih (fun h => hname (List.mem_cons_of_mem c h))]

/-- A comma at the end is not one that something follows. -/
theorem splitComma_of_last {s : JsString} (h : comma ∉ s.dropLast) : splitComma s = (s, none) := by
  induction s with
  | nil => rfl
  | cons c rest ih =>
    rcases rest with _ | ⟨d, rest⟩
    · exact if_neg (fun hc => hc.2 rfl)
    · rw [List.dropLast_cons_cons] at h
      have hc : ¬ (c = comma ∧ dots (d :: rest) ≠ []) :=
        fun hc => h (hc.1 ▸ List.mem_cons_self)
      rw [splitComma, if_neg hc, ih (fun hmem => h (List.mem_cons_of_mem c hmem))]

theorem not_terminator_of_split {s rest : JsString} (h : (splitComma s).2 = some rest) :
    ∀ c ∈ rest, c ∉ lineTerminators := by
  induction s with
  | nil => cases h
  | cons c s ih =>
    unfold splitComma at h
    split at h
    · obtain rfl := Option.some.inj h
      exact fun c => not_mem_dots
    · exact ih h

end JsText
