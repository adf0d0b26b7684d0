import Mathlib.Data.List.DropRight
import QuotientScoring.Lib.Decimal
import QuotientScoring.Lib.GoText

/-! Slash-separated paths.

`clean` and `join` are `path.Clean` and `path.Join`: empty elements and `.` are
dropped, and `..` takes back the element before it. A relative path is located
from a working directory, where the leading `..` that are left climb further.
`locate_join`: joining an ordinary element to a directory stays where it says. -/
namespace GoPath
open GoText Decimal

/-- `'/'`. -/
def slash : UInt8 := 47

/-- The last element of a path: trailing slashes are dropped, and a path of
nothing but slashes is a slash. -/
def base (path : List UInt8) : List UInt8 :=
  if path = [] then str "."
  else
    let last := (path.rdropWhile (fun c => c = slash)).rtakeWhile (fun c => c ≠ slash)
    if last = [] then [slash] else last

example : base (str "../lists/web.credlist/") = str "web.credlist" := by decide +kernel

/-- An element of a path. -/
abbrev Elem := List UInt8

/-- A cleaned path. -/
structure Path where
  rooted : Bool
  elems : List Elem
deriving DecidableEq

/-- One element, after those that are on the stack, the last on top. -/
def step (rooted : Bool) (stack : List Elem) (elem : Elem) : List Elem :=
  if elem = [] ∨ elem = str "." then stack
  else if elem = str ".." then
    match stack with
    | [] => if rooted then [] else [elem]
    | top :: rest => if top = str ".." then elem :: stack else rest
  else elem :: stack

def clean (path : List UInt8) : Path :=
  let rooted := path.head? == some slash
  ⟨rooted, ((path.splitOn slash).foldl (step rooted) []).reverse⟩

/-- `path.Join` of a directory and a path below it, an empty one left out. -/
def join (dir path : List UInt8) : Path :=
  clean (if path = [] then dir else dir ++ slash :: path)

/-- A cleaned path, written out. -/
def Path.text (path : Path) : List UInt8 :=
  if path.rooted then slash :: [slash].intercalate path.elems
  else if path.elems = [] then str "."
  else [slash].intercalate path.elems

/-- Where a path leads from a working directory. -/
def locate (cwd : List Elem) (path : Path) : List Elem :=
  (path.elems.foldl (step true) (if path.rooted then [] else cwd.reverse)).reverse

/-- The path of a file below a directory. -/
def Below (dir file : List Elem) : Prop := ∃ rest, rest ≠ [] ∧ file = dir ++ rest

/-- An element that stands for itself. -/
structure Ordinary (elem : Elem) : Prop where
  slash : slash ∉ elem
  ne_nil : elem ≠ []
  ne_dot : elem ≠ str "."
  ne_dotdot : elem ≠ str ".."

instance (elem : Elem) : Decidable (Ordinary elem) :=
  decidable_of_iff (GoPath.slash ∉ elem ∧ elem ≠ [] ∧ elem ≠ str "." ∧ elem ≠ str "..")
    ⟨fun h => ⟨h.1, h.2.1, h.2.2.1, h.2.2.2⟩, fun h => ⟨h.1, h.2, h.3, h.4⟩⟩

theorem step_ordinary {elem : Elem} (h : Ordinary elem) (rooted : Bool) (stack : List Elem) :
    step rooted stack elem = elem :: stack := by
  unfold step
  rw [if_neg (by simp [h.ne_nil, h.ne_dot]), if_neg h.ne_dotdot]

theorem foldl_step_ordinary {elems : List Elem} (h : ∀ elem ∈ elems, Ordinary elem) (rooted : Bool)
    (stack : List Elem) : elems.foldl (step rooted) stack = elems.reverse ++ stack := by
  induction elems generalizing stack with
  | nil => rfl
  | cons elem rest ih =>
    rw [List.foldl_cons, step_ordinary (h elem (by simp)),
      ih (fun e he => h e (List.mem_cons_of_mem elem he)), List.reverse_cons, List.append_assoc]
    rfl

/-- A relative path of ordinary elements leads where it says. -/
theorem locate_clean {path : List UInt8} (hrel : (path.head? == some slash) = false)
    (hpath : ∀ elem ∈ path.splitOn slash, Ordinary elem) (cwd : List Elem) :
    locate cwd (clean path) = cwd ++ path.splitOn slash := by
  simp only [clean, hrel, locate, Bool.false_eq_true, if_false]
  rw [foldl_step_ordinary hpath, List.append_nil, List.reverse_reverse,
    foldl_step_ordinary hpath, List.reverse_append, List.reverse_reverse, List.reverse_reverse]

/-- A relative directory of ordinary elements, and one more below it. -/
theorem locate_join {dir : List UInt8} (hrel : (dir.head? == some slash) = false) (hne : dir ≠ [])
    (hdir : ∀ elem ∈ dir.splitOn slash, Ordinary elem) {elem : Elem} (helem : Ordinary elem)
    (cwd : List Elem) : locate cwd (join dir elem) = cwd ++ dir.splitOn slash ++ [elem] := by
  have hsplit : (dir ++ slash :: elem).splitOn slash = dir.splitOn slash ++ [elem] := by
    rw [List.splitOn_append_cons_self, List.splitOn_eq_singleton helem.slash]
  have hordinary : ∀ e ∈ (dir ++ slash :: elem).splitOn slash, Ordinary e := by
    intro e he
    rw [hsplit] at he
    rcases List.mem_append.mp he with he | he
    · exact hdir e he
    · rw [List.mem_singleton.mp he]
      exact helem
  have hhead : ((dir ++ slash :: elem).head? == some slash) = false := by
    cases dir with
    | nil => exact absurd rfl hne
    | cons c rest => exact hrel
  rw [join, if_neg helem.ne_nil, locate_clean hhead hordinary, hsplit, List.append_assoc]

theorem splitOn_two {dir elem : Elem} (hdir : slash ∉ dir) (helem : slash ∉ elem) :
    (dir ++ slash :: elem).splitOn slash = [dir, elem] := by
  rw [List.splitOn_append_cons_self, List.splitOn_eq_singleton hdir,
    List.splitOn_eq_singleton helem]
  rfl

/-- One ordinary element below another is written as it is. -/
theorem text_join {dir elem : Elem} (hdir : Ordinary dir) (helem : Ordinary elem) :
    (join dir elem).text = dir ++ slash :: elem := by
  have hrel : ((dir ++ slash :: elem).head? == some slash) = false := by
    obtain ⟨c, rest, rfl⟩ := List.exists_cons_of_ne_nil hdir.ne_nil
    have hc : c ≠ slash := fun heq => hdir.slash (heq ▸ List.mem_cons_self)
    simpa using hc
  rw [join, if_neg helem.ne_nil, clean, splitOn_two hdir.slash helem.slash, List.foldl_cons, step_ordinary hdir,
    List.foldl_cons, step_ordinary helem, List.foldl_nil, hrel]
  simp [Path.text, List.intercalate]

/-- A printed number is an element like any other. -/
theorem ordinary_decimal (n : Nat) : Ordinary (decimal n) := by
  have hdigit : ∀ c ∈ decimal n, 48 ≤ c.toNat := fun c hc => (isDigit_of_mem_decimal hc).1
  refine ⟨fun hmem => ?_, decimal_ne_nil n, fun heq => ?_, fun heq => ?_⟩
  · have hslash := hdigit _ hmem
    revert hslash
    decide
  · have hdot := hdigit 46 (by rw [heq]; decide +kernel)
    revert hdot
    decide
  · have hdot := hdigit 46 (by rw [heq]; decide +kernel)
    revert hdot
    decide

example : locate [str "app"] (join (str "data/files") (str "../../../etc/7")) =
    [str "etc", str "7"] := by decide +kernel

end GoPath
