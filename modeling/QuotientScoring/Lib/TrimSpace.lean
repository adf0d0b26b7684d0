import Mathlib.Data.List.Basic
import Mathlib.Data.List.Infix

/-! White space at the two ends of a text.

`trimSpace` takes the UTF-8 of white space off the front of a text, one character
at a time, and then off its end. What is left has none at either end, so trimming
it again does nothing (`trimSpace_trimSpace`), and a text is what trimming leaves
of some text exactly if it is left alone itself. -/
namespace GoText

/-- The words off the front, one after the other, at most so many of them. -/
def dropWords (ws : List (List UInt8)) : Nat → List UInt8 → List UInt8
  | 0, s => s
  | n + 1, s =>
    match ws.find? (fun w => w.isPrefixOf s) with
    | some w => dropWords ws n (s.drop w.length)
    | none => s

/-- All of them: every word takes a byte at least. -/
def trimLeft (ws : List (List UInt8)) (s : List UInt8) : List UInt8 := dropWords ws s.length s

def trimRight (ws : List (List UInt8)) (s : List UInt8) : List UInt8 :=
  (trimLeft (ws.map List.reverse) s.reverse).reverse

/-- The characters of `unicode.IsSpace`, as UTF-8. -/
def spaces : List (List UInt8) :=
  [[9], [10], [11], [12], [13], [32], [194, 133], [194, 160], [225, 154, 128]] ++
  [128, 129, 130, 131, 132, 133, 134, 135, 136, 137, 138, 168, 169, 175].map
    (fun c => [226, 128, c]) ++
  [[226, 129, 159], [227, 128, 128]]

/-- `strings.TrimSpace`. -/
def trimSpace (s : List UInt8) : List UInt8 := trimRight spaces (trimLeft spaces s)

/-! ### What trimming leaves -/

section
variable {ws : List (List UInt8)}

theorem dropWords_suffix (ws : List (List UInt8)) (n : Nat) (s : List UInt8) :
    dropWords ws n s <:+ s := by
  induction n generalizing s with
  | zero => exact List.suffix_refl s
  | succ n ih =>
    unfold dropWords
    split
    · exact (ih _).trans (List.drop_suffix _ s)
    · exact List.suffix_refl s

/-- No word is left at the front. -/
theorem not_prefix_dropWords (hne : [] ∉ ws) {n : Nat} {s : List UInt8} (hn : s.length ≤ n)
    {w : List UInt8} (hw : w ∈ ws) : ¬w <+: dropWords ws n s := by
  induction n generalizing s with
  | zero =>
    obtain rfl := List.eq_nil_of_length_eq_zero (Nat.le_zero.mp hn)
    intro hfound
    exact hne (List.prefix_nil.mp hfound ▸ hw)
  | succ n ih =>
    unfold dropWords
    split
    · rename_i v hv
      have hmem := List.mem_of_find?_eq_some hv
      have hpos : 0 < v.length := List.length_pos_of_ne_nil (fun h => hne (h ▸ hmem))
      apply ih
      rw [List.length_drop]
      omega
    · rename_i hnone
      intro hfound
      exact List.find?_eq_none.mp hnone w hw (List.isPrefixOf_iff_prefix.mpr hfound)

theorem dropWords_eq_self {n : Nat} {s : List UInt8} (h : ∀ w ∈ ws, ¬w <+: s) :
    dropWords ws n s = s := by
  cases n with
  | zero => rfl
  | succ n =>
    have hnone : ws.find? (fun w => w.isPrefixOf s) = none := by
      rw [List.find?_eq_none]
      intro w hw hfound
      exact h w hw (List.isPrefixOf_iff_prefix.mp hfound)
    rw [dropWords, hnone]

theorem not_prefix_trimLeft (hne : [] ∉ ws) (s : List UInt8) {w : List UInt8} (hw : w ∈ ws) :
    ¬w <+: trimLeft ws s :=
  not_prefix_dropWords hne (Nat.le_refl _) hw

theorem trimLeft_eq_self {s : List UInt8} (h : ∀ w ∈ ws, ¬w <+: s) : trimLeft ws s = s :=
  dropWords_eq_self h

theorem nil_not_mem_reversed (hne : [] ∉ ws) : [] ∉ ws.map List.reverse := by
  intro hmem
  obtain ⟨w, hw, hnil⟩ := List.mem_map.mp hmem
  exact hne (List.reverse_eq_nil_iff.mp hnil ▸ hw)

theorem trimRight_isPrefix (ws : List (List UInt8)) (s : List UInt8) : trimRight ws s <+: s := by
  have h := dropWords_suffix (ws.map List.reverse) s.reverse.length s.reverse
  rw [← List.reverse_reverse s] at h ⊢
  simpa [trimRight, trimLeft] using List.reverse_prefix.mpr h

theorem not_suffix_trimRight (hne : [] ∉ ws) (s : List UInt8) {w : List UInt8} (hw : w ∈ ws) :
    ¬w <:+ trimRight ws s := by
  intro hfound
  apply not_prefix_trimLeft (nil_not_mem_reversed hne) s.reverse (List.mem_map_of_mem hw)
  rw [← List.reverse_suffix, List.reverse_reverse]
  exact hfound

theorem trimRight_eq_self {s : List UInt8} (h : ∀ w ∈ ws, ¬w <:+ s) :
    trimRight ws s = s := by
  rw [trimRight, trimLeft_eq_self, List.reverse_reverse]
  intro v hv hfound
  obtain ⟨w, hw, rfl⟩ := List.mem_map.mp hv
  exact h w hw (List.reverse_prefix.mp hfound)

end

theorem nil_not_mem_spaces : [] ∉ spaces := by decide

/-- What is trimmed stays as it is. -/
theorem trimSpace_trimSpace (s : List UInt8) : trimSpace (trimSpace s) = trimSpace s := by
  have hfront : ∀ w ∈ spaces, ¬w <+: trimSpace s := by
    intro w hw hfound
    exact not_prefix_trimLeft nil_not_mem_spaces s hw (hfound.trans (trimRight_isPrefix _ _))
  have hend : ∀ w ∈ spaces, ¬w <:+ trimSpace s :=
    fun _ hw => not_suffix_trimRight nil_not_mem_spaces _ hw
  calc trimSpace (trimSpace s) = trimRight spaces (trimSpace s) :=
        congrArg (trimRight spaces) (trimLeft_eq_self hfront)
    _ = trimSpace s := trimRight_eq_self hend

/-- The texts that trimming can leave. -/
theorem exists_trimSpace_eq {s : List UInt8} : (∃ text, trimSpace text = s) ↔ trimSpace s = s := by
  constructor
  · rintro ⟨text, rfl⟩
    exact trimSpace_trimSpace text
  · intro h
    exact ⟨s, h⟩

example : trimSpace [32, 194, 160, 97, 32, 98, 10] = [97, 32, 98] := by decide

end GoText
