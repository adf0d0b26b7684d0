import Mathlib.Data.List.TakeWhile
import QuotientScoring.Lib.Replace

/-! How a shell splits a command line into words.

A shell goes through the line byte by byte. Outside quotes a blank ends a word and some
bytes mean more than themselves; quotes take most of that away. `words` is the list of
words with the quotes gone, and nothing where a part of the line would be interpreted: an
operator, an expansion, a comment, a quote that is not closed.

`run` reads a piece of a line that does not leave its word. Whatever mode the shell is
in, it takes any two texts of letters to the same mode (`run_letters`), so putting letters
in for letters shows in the length of the words (`run_replaceAll_letters`). -/
namespace Shell
open Replace

/-- Between words, in a word, in quotes of either kind, or after a backslash. -/
inductive Mode where
  | blank
  | plain
  | single
  | double
  | escaped (inWord : Bool)
  | doubleEscaped
deriving DecidableEq

/-- What a byte does to the words: it adds to the one that is read, or ends it. -/
inductive Emit where
  | bytes (bs : List UInt8)
  | endWord

/-- Space and tab. -/
def isBlank (c : UInt8) : Bool := c = 32 || c = 9

/-- The bytes that mean something outside quotes: quotes, operators and the newline, expansions,
patterns, the comment and the tilde. -/
def specials : List UInt8 :=
  [39, 34, 92, 10, 124, 38, 59, 60, 62, 40, 41, 36, 96, 42, 63, 91, 93, 35, 126]

/-- A byte that stands for itself everywhere. -/
def isPlain (c : UInt8) : Bool := !isBlank c && !specials.contains c

/-- A byte of a word, outside quotes. -/
def nextUnquoted (inWord : Bool) (c : UInt8) : Option (Mode × Emit) :=
  if c = 39 then some (.single, .bytes [])
  else if c = 34 then some (.double, .bytes [])
  else if c = 92 then some (.escaped inWord, .bytes [])
  else if isPlain c then some (.plain, .bytes [c])
  else none

def next : Mode → UInt8 → Option (Mode × Emit)
  | .blank, c => if isBlank c then some (.blank, .bytes []) else nextUnquoted false c
  | .plain, c => if isBlank c then some (.blank, .endWord) else nextUnquoted true c
  | .single, c => if c = 39 then some (.plain, .bytes []) else some (.single, .bytes [c])
  | .double, c =>
    if c = 34 then some (.plain, .bytes [])
    else if c = 92 then some (.doubleEscaped, .bytes [])
    else if c = 36 ∨ c = 96 then none
    else some (.double, .bytes [c])
  | .escaped inWord, c =>
    -- A newline after a backslash is as if neither were there.
    if c = 10 then some (if inWord then .plain else .blank, .bytes [])
    else some (.plain, .bytes [c])
  | .doubleEscaped, c =>
    if c = 10 then some (.double, .bytes [])
    else if c = 34 ∨ c = 92 ∨ c = 36 ∨ c = 96 then some (.double, .bytes [c])
    else some (.double, .bytes [92, c])

/-- What a byte does, in front of the words of the rest of the line; the first of these is the
rest of the word that is read. -/
def emit : Emit → List (List UInt8) → List (List UInt8)
  | .bytes _, [] => []
  | .bytes bs, word :: rest => (bs ++ word) :: rest
  | .endWord, rest => [] :: rest

def read : Mode → List UInt8 → Option (List (List UInt8))
  | .blank, [] => some []
  | .plain, [] => some [[]]
  | _, [] => none
  | mode, c :: rest =>
    match next mode c with
    | none => none
    | some (mode, e) => (read mode rest).map (emit e)

/-- The words of a command line. -/
def words (line : List UInt8) : Option (List (List UInt8)) := read .blank line

/-- The mode after a piece of a line that ends no word, and what it adds to the word. -/
def run : Mode → List UInt8 → Option (Mode × List UInt8)
  | mode, [] => some (mode, [])
  | mode, c :: rest =>
    match next mode c with
    | some (mode, .bytes bs) => (run mode rest).map (fun r => (r.1, bs ++ r.2))
    | _ => none

@[simp] theorem words_nil : words [] = some [] := rfl

@[simp] theorem run_nil (mode : Mode) : run mode [] = some (mode, []) := rfl

theorem read_cons (mode : Mode) (c : UInt8) (rest : List UInt8) :
    read mode (c :: rest) = (next mode c).bind (fun n => (read n.1 rest).map (emit n.2)) := by
  rw [read]
  cases next mode c <;> rfl

theorem run_cons {mode mode' : Mode} {c : UInt8} {bs : List UInt8}
    (h : next mode c = some (mode', .bytes bs)) (rest : List UInt8) :
    run mode (c :: rest) = (run mode' rest).map (fun r => (r.1, bs ++ r.2)) := by
  rw [run, h]

/-- The first byte of a piece that stays in its word. -/
theorem run_cons_eq_some {mode : Mode} {c : UInt8} {rest : List UInt8} {r : Mode × List UInt8}
    (h : run mode (c :: rest) = some r) :
    ∃ mode' bs x, next mode c = some (mode', .bytes bs) ∧ run mode' rest = some (r.1, x) ∧
      r.2 = bs ++ x := by
  rw [run] at h
  split at h
  · rename_i mode' bs hnext
    obtain ⟨⟨mode'', x⟩, hrest, rfl⟩ := Option.map_eq_some_iff.mp h
    exact ⟨mode', bs, x, hnext, hrest, rfl⟩
  · cases h

theorem run_append {mode mode' : Mode} {a x : List UInt8} (h : run mode a = some (mode', x))
    (b : List UInt8) : run mode (a ++ b) = (run mode' b).map (fun r => (r.1, x ++ r.2)) := by
  induction a generalizing mode x with
  | nil =>
    obtain ⟨rfl, rfl⟩ := Prod.mk.inj (Option.some.inj h)
    simp
  | cons c rest ih =>
    obtain ⟨mode'', bs, y, hnext, hrest, rfl⟩ := run_cons_eq_some h
    rw [List.cons_append, run_cons hnext, ih hrest, Option.map_map]
    congr 1
    funext r
    simp

theorem emit_append (a b : List UInt8) (words : List (List UInt8)) :
    emit (.bytes (a ++ b)) words = emit (.bytes a) (emit (.bytes b) words) := by
  cases words <;> simp [emit]

/-- A piece that stays in a word adds to it. -/
theorem read_append {mode mode' : Mode} {a x : List UInt8} (h : run mode a = some (mode', x))
    (rest : List UInt8) : read mode (a ++ rest) = (read mode' rest).map (emit (.bytes x)) := by
  induction a generalizing mode x with
  | nil =>
    obtain ⟨rfl, rfl⟩ := Prod.mk.inj (Option.some.inj h)
    have hemit : emit (.bytes []) = id := by
      funext words
      cases words <;> rfl
    rw [hemit, Option.map_id]
    rfl
  | cons c a ih =>
    obtain ⟨mode'', bs, y, hnext, hrest, rfl⟩ := run_cons_eq_some h
    rw [List.cons_append, read_cons, hnext, Option.bind_some, ih hrest, Option.map_map]
    congr 1
    funext words
    exact (emit_append bs y words).symm

/-- A word that a blank ends. -/
theorem words_cons {a w : List UInt8} (h : run .blank a = some (.plain, w)) {b : UInt8}
    (hb : isBlank b = true) (rest : List UInt8) :
    words (a ++ b :: rest) = (words rest).map (w :: ·) := by
  rw [words, read_append h, read_cons]
  simp only [next, hb, if_true, Option.bind_some, Option.map_map]
  congr 1
  funext ws
  simp [emit]

/-- A word at the end of the line. -/
theorem words_last {a w : List UInt8} (h : run .blank a = some (.plain, w)) :
    words a = some [w] := by
  have hread := read_append h []
  rw [List.append_nil] at hread
  rw [words, hread]
  simp [read, emit]

theorem words_blank {b : UInt8} (hb : isBlank b = true) (rest : List UInt8) :
    words (b :: rest) = words rest := by
  have hemit : emit (.bytes []) = id := by
    funext words
    cases words <;> rfl
  rw [words, read_cons]
  simp only [next, hb, if_true, Option.bind_some, hemit, Option.map_id]
  rfl

/-! ### Bytes that stand for themselves -/

/-- A kind of bytes that has no blank and no special byte in it. -/
theorem isPlain_of_kind {p : UInt8 → Bool} (hp : (32 :: 9 :: specials).all (fun s => !p s) = true)
    {c : UInt8} (hc : p c = true) : isPlain c = true := by
  have hne : ∀ s ∈ 32 :: 9 :: specials, c ≠ s := by
    rintro s hs rfl
    have hnot := List.all_eq_true.mp hp c hs
    rw [hc] at hnot
    cases hnot
  have hspecial : c ∉ specials := fun hmem =>
    hne c (List.mem_cons_of_mem 32 (List.mem_cons_of_mem 9 hmem)) rfl
  simp [isPlain, isBlank, hne 32 (by simp), hne 9 (by simp), hspecial]

theorem next_plain {c : UInt8} (hc : isPlain c = true) {mode : Mode}
    (hmode : mode = .blank ∨ mode = .plain) : next mode c = some (.plain, .bytes [c]) := by
  have hblank : isBlank c = false := by
    unfold isPlain at hc
    simp only [Bool.and_eq_true, Bool.not_eq_true'] at hc
    exact hc.1
  have hspecial : ∀ s ∈ specials, c ≠ s := by
    rintro s hs rfl
    unfold isPlain at hc
    simp [hs] at hc
  have h39 := hspecial 39 (by decide)
  have h34 := hspecial 34 (by decide)
  have h92 := hspecial 92 (by decide)
  rcases hmode with rfl | rfl
  · simp [next, nextUnquoted, hblank, h39, h34, h92, hc]
  · simp [next, nextUnquoted, hblank, h39, h34, h92, hc]

theorem run_plain {a : List UInt8} (ha : ∀ c ∈ a, isPlain c = true) {mode : Mode}
    (hmode : mode = .blank ∨ mode = .plain) :
    run mode a = some (if a = [] then mode else .plain, a) := by
  induction a generalizing mode with
  | nil => rfl
  | cons c rest ih =>
    rw [run_cons (next_plain (ha c List.mem_cons_self) hmode),
      ih (fun d hd => ha d (List.mem_cons_of_mem c hd)) (.inr rfl)]
    simp

/-- Quoted text that is put into a word is read as what was quoted. -/
theorem run_replaceAll_quoted {old quoted v : List UInt8} (hold : old ≠ [])
    (hquoted : ∀ mode, mode = .blank ∨ mode = .plain → run mode quoted = some (.plain, v))
    {a : List UInt8} (ha : ∀ c ∈ a, isPlain c = true) {mode : Mode}
    (hmode : mode = .blank ∨ mode = .plain) :
    run mode (replaceAll old quoted a) =
      some (if a = [] then mode else .plain, replaceAll old v a) := by
  induction a using scan_induction hold generalizing mode with
  | nil => rfl
  | here a ih =>
    have hne : old ++ a ≠ [] := by simp [hold]
    rw [replaceAll_old_append hold, replaceAll_old_append hold, run_append (hquoted mode hmode),
      ih (fun c hc => ha c (List.mem_append_right old hc)) (.inr rfl), if_neg hne]
    simp
  | skip c a hnot ih =>
    rw [replaceAll_skip hnot, replaceAll_skip hnot,
      run_cons (next_plain (ha c List.mem_cons_self) hmode),
      ih (fun d hd => ha d (List.mem_cons_of_mem c hd)) (.inr rfl)]
    simp

/-! ### Letters -/

def isLetter (c : UInt8) : Bool := (65 ≤ c && c ≤ 90) || (97 ≤ c && c ≤ 122)

/-- The mode after letters. -/
def Mode.afterLetters : Mode → Mode
  | .blank => .plain
  | .plain => .plain
  | .single => .single
  | .double => .double
  | .escaped _ => .plain
  | .doubleEscaped => .double

/-- In double quotes a backslash before a letter is not one that quotes it. -/
def Mode.kept : Mode → List UInt8
  | .doubleEscaped => [92]
  | _ => []

theorem next_letter {c : UInt8} (hc : isLetter c = true) (mode : Mode) :
    next mode c = some (mode.afterLetters, .bytes (mode.kept ++ [c])) := by
  have hne : ∀ s, isLetter s = false → c ≠ s := by
    rintro s hs rfl
    rw [hc] at hs
    cases hs
  have hplain : isPlain c = true := isPlain_of_kind (by decide) hc
  have h10 := hne 10 rfl
  have h34 := hne 34 rfl
  have h36 := hne 36 rfl
  have h39 := hne 39 rfl
  have h92 := hne 92 rfl
  have h96 := hne 96 rfl
  cases mode with
  | blank => exact next_plain hplain (.inl rfl)
  | plain => exact next_plain hplain (.inr rfl)
  | single => simp [next, Mode.afterLetters, Mode.kept, h39]
  | double => simp [next, Mode.afterLetters, Mode.kept, h34, h92, h36, h96]
  | escaped inWord => simp [next, Mode.afterLetters, Mode.kept, h10]
  | doubleEscaped => simp [next, Mode.afterLetters, Mode.kept, h10, h34, h92, h36, h96]

theorem run_letters {a : List UInt8} (hne : a ≠ []) (ha : ∀ c ∈ a, isLetter c = true) (mode : Mode) :
    run mode a = some (mode.afterLetters, mode.kept ++ a) := by
  induction a generalizing mode with
  | nil => exact absurd rfl hne
  | cons c rest ih =>
    rw [run_cons (next_letter (ha c List.mem_cons_self) mode)]
    by_cases hrest : rest = []
    · subst hrest
      simp [run]
    · have hafter : mode.afterLetters.afterLetters = mode.afterLetters ∧
          mode.afterLetters.kept = [] := by
        cases mode <;> exact ⟨rfl, rfl⟩
      rw [ih hrest (fun d hd => ha d (List.mem_cons_of_mem c hd)), hafter.1, hafter.2]
      simp

/-- Other letters for letters leave the mode as it is, and the word as much longer or shorter as
they are. -/
theorem run_replaceAll_letters {old : List UInt8} (hold : old ≠ [])
    (hletters : ∀ c ∈ old, isLetter c = true) {a x : List UInt8} {mode mode' : Mode}
    (h : run mode a = some (mode', x)) :
    ∃ k, (old <:+: a → 0 < k) ∧ ∀ new : List UInt8, new ≠ [] → (∀ c ∈ new, isLetter c = true) →
      ∃ y, run mode (replaceAll old new a) = some (mode', y) ∧
        y.length + k * old.length = x.length + k * new.length := by
  induction a using scan_induction hold generalizing mode x with
  | nil =>
    refine ⟨0, fun hocc => absurd (List.infix_nil.mp hocc) hold, fun new _ _ => ?_⟩
    exact ⟨x, h, by omega⟩
  | here a ih =>
    have hsplit := run_append (run_letters hold hletters mode) a
    rw [h] at hsplit
    obtain ⟨⟨mode'', z⟩, hrest, heq⟩ := Option.map_eq_some_iff.mp hsplit.symm
    obtain ⟨rfl, rfl⟩ := Prod.mk.inj heq
    obtain ⟨k, -, hall⟩ := ih hrest
    refine ⟨k + 1, fun _ => k.succ_pos, fun new hne hnew => ?_⟩
    obtain ⟨y, hy, hlen⟩ := hall new hne hnew
    refine ⟨mode.kept ++ new ++ y, ?_, ?_⟩
    · rw [replaceAll_old_append hold, run_append (run_letters hne hnew mode), hy]
      rfl
    · simp only [List.length_append, Nat.add_mul]
      omega
  | skip c a hnot ih =>
    obtain ⟨mode'', bs, z, hnext, hrest, rfl⟩ := run_cons_eq_some h
    obtain ⟨k, hpos, hall⟩ := ih hrest
    refine ⟨k, fun hocc => hpos ((List.infix_cons_iff.mp hocc).resolve_left hnot),
      fun new hne hnew => ?_⟩
    obtain ⟨y, hy, hlen⟩ := hall new hne hnew
    refine ⟨bs ++ y, ?_, ?_⟩
    · rw [replaceAll_skip hnot, run_cons hnext, hy]
      rfl
    · simp only [List.length_append]
      omega

/-! ### Fields -/

/-- What is between blanks. -/
def fields (line : List UInt8) : List (List UInt8) :=
  (line.splitOnP isBlank).filter (fun field => field ≠ [])

/-- A line is a field, or a field and a blank before another line. -/
theorem line_induction {P : List UInt8 → Prop}
    (last : ∀ field, (∀ c ∈ field, isBlank c = false) → P field)
    (more : ∀ field b rest, (∀ c ∈ field, isBlank c = false) → isBlank b = true → P rest →
      P (field ++ b :: rest)) (line : List UInt8) : P line := by
  induction hn : line.length using Nat.strong_induction_on generalizing line with
  | _ n ih =>
    have hfield : ∀ c ∈ line.takeWhile (fun c => !isBlank c), isBlank c = false := by
      intro c hc
      simpa using List.mem_takeWhile_imp hc
    have hsplit := List.takeWhile_append_dropWhile (p := fun c => !isBlank c) (l := line)
    cases hdrop : line.dropWhile (fun c => !isBlank c) with
    | nil =>
      rw [hdrop, List.append_nil] at hsplit
      rw [← hsplit]
      exact last _ hfield
    | cons b rest =>
      have hb : isBlank b = true := by
        have hhead := List.head_dropWhile_not (fun c => !isBlank c) (l := line) (by simp [hdrop])
        simp only [hdrop, List.head_cons] at hhead
        simpa using hhead
      rw [hdrop] at hsplit
      rw [← hsplit]
      apply more _ b rest hfield hb
      have hlen := congrArg List.length hsplit
      rw [List.length_append, List.length_cons] at hlen
      exact ih rest.length (by omega) rest rfl

theorem fields_last {field : List UInt8} (h : ∀ c ∈ field, isBlank c = false) :
    fields field = if field = [] then [] else [field] := by
  rw [fields, List.splitOnP_eq_singleton h]
  by_cases hnil : field = [] <;> simp [hnil]

theorem fields_append {field : List UInt8} (h : ∀ c ∈ field, isBlank c = false) {b : UInt8}
    (hb : isBlank b = true) (rest : List UInt8) :
    fields (field ++ b :: rest) = fields field ++ fields rest := by
  rw [fields_last h, fields, List.splitOnP_append_cons_of_forall_mem h b hb, List.filter_cons, fields]
  by_cases hnil : field = [] <;> simp [hnil]

/-- A field is not empty, and its bytes are bytes of the line. -/
theorem mem_fields {line field : List UInt8} (h : field ∈ fields line) :
    field ≠ [] ∧ ∀ c ∈ field, c ∈ line ∧ isBlank c = false := by
  induction line using line_induction with
  | last field' hfield =>
    rw [fields_last hfield] at h
    split at h
    · cases h
    · rename_i hne
      obtain rfl := List.mem_singleton.mp h
      exact ⟨hne, fun c hc => ⟨hc, hfield c hc⟩⟩
  | more field' b rest hfield hb ih =>
    rw [fields_append hfield hb, List.mem_append, fields_last hfield] at h
    rcases h with h | h
    · split at h
      · cases h
      · rename_i hne
        obtain rfl := List.mem_singleton.mp h
        exact ⟨hne, fun c hc => ⟨List.mem_append_left _ hc, hfield c hc⟩⟩
    · obtain ⟨hne, hbytes⟩ := ih h
      refine ⟨hne, fun c hc => ⟨?_, (hbytes c hc).2⟩⟩
      exact List.mem_append_right _ (List.mem_cons_of_mem b (hbytes c hc).1)

end Shell
