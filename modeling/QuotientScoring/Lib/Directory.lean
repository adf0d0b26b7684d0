import Mathlib.Data.List.Sort
import QuotientScoring.Lib.GoMap

/-! Directories of files, and lists of what is in them.

A directory maps names to contents. A list of names *lists* a directory if each of
its files is in the list once and nothing else is. The lemmas say how the list has to change
with the directory: a removed file is filtered out, and new files are appended, if no
two of them have one name and the directory has none of them. -/

abbrev Directory (ν β : Type) := GoMap ν β

namespace Directory
variable {ν β : Type} [DecidableEq ν]

structure Lists (names : List ν) (dir : Directory ν β) : Prop where
  nodup : names.Nodup
  mem : ∀ name, name ∈ names ↔ name ∈ dir

/-- The files written, each over what had its name. -/
def writeAll (dir : Directory ν β) (files : List (ν × β)) : Directory ν β :=
  files.foldl (fun dir file => dir.insert file.1 file.2) dir

/-- `os.ReadDir`: the names, in order. -/
def readDir [LE ν] [DecidableLE ν] (dir : Directory ν β) : List ν :=
  dir.keys.insertionSort (fun a b => a ≤ b)

variable {names : List ν} {dir : Directory ν β}

omit [DecidableEq ν] in
theorem mem_readDir [LE ν] [DecidableLE ν] {name : ν} : name ∈ readDir dir ↔ name ∈ dir := by
  rw [readDir, (List.perm_insertionSort _ _).mem_iff, AList.mem_keys]

omit [DecidableEq ν] in
theorem Lists.empty : Lists [] (∅ : Directory ν β) where
  nodup := List.nodup_nil
  mem name := by simp

theorem Lists.erase (h : Lists names dir) (name : ν) :
    Lists (names.filter (fun other => other ≠ name)) (dir.erase name) where
  nodup := h.nodup.filter _
  mem other := by
    rw [List.mem_filter, h.mem, AList.mem_erase]
    simp [and_comm]

theorem mem_writeAll {files : List (ν × β)} {name : ν} :
    name ∈ writeAll dir files ↔ name ∈ dir ∨ name ∈ files.map Prod.fst := by
  induction files generalizing dir with
  | nil => simp [writeAll]
  | cons file rest ih =>
    show name ∈ writeAll (dir.insert file.1 file.2) rest ↔ _
    rw [ih, AList.mem_insert, List.map_cons, List.mem_cons]
    tauto

/-- New files that do not take one another's names, nor one that is there. -/
theorem Lists.writeAll (h : Lists names dir) {files : List (ν × β)}
    (hnd : (files.map Prod.fst).Nodup) (hnew : ∀ name ∈ files.map Prod.fst, name ∉ dir) :
    Lists (names ++ files.map Prod.fst) (writeAll dir files) where
  nodup := by
    refine List.nodup_append.mpr ⟨h.nodup, hnd, ?_⟩
    intro a ha b hb hab
    exact hnew b hb (hab ▸ (h.mem a).mp ha)
  mem name := by rw [List.mem_append, h.mem, mem_writeAll]

/-! ### Contents -/

/-- The files of the one directory are in the other as they are. -/
def Within (dir' dir : Directory ν β) : Prop :=
  ∀ name contents, dir'.lookup name = some contents → dir.lookup name = some contents

variable {dir' : Directory ν β}

/-- Files taken over from a directory. -/
theorem within_kept (names : List ν) (h : Within dir' dir) :
    Within (names.foldl (fun kept name => (dir.lookup name).elim kept (kept.insert name)) dir')
      dir := by
  induction names generalizing dir' with
  | nil => exact h
  | cons name rest ih =>
    apply ih
    dsimp only
    cases hheld : dir.lookup name with
    | none => exact h
    | some contents =>
      intro other held hother
      rw [Option.elim_some] at hother
      by_cases hname : other = name
      · subst hname
        rw [AList.lookup_insert] at hother
        rw [hheld, hother]
      · rw [AList.lookup_insert_ne hname] at hother
        exact h other held hother

theorem writeAll_take {files : List (ν × β)} {i : Nat} {file : ν × β} (h : files[i]? = some file) :
    writeAll dir (files.take (i + 1)) = (writeAll dir (files.take i)).insert file.1 file.2 := by
  rw [List.take_add_one, h, writeAll, List.foldl_append]
  rfl

theorem lookup_writeAll_of_not_mem {files : List (ν × β)} {name : ν}
    (h : name ∉ files.map Prod.fst) : (writeAll dir files).lookup name = dir.lookup name := by
  induction files generalizing dir with
  | nil => rfl
  | cons file rest ih =>
    rw [List.map_cons, List.mem_cons, not_or] at h
    exact (ih h.2).trans (AList.lookup_insert_ne h.1)

/-- A file that none after it is written over. -/
theorem lookup_writeAll {before after : List (ν × β)} {name : ν} {contents : β}
    (h : name ∉ after.map Prod.fst) :
    (writeAll dir (before ++ (name, contents) :: after)).lookup name = some contents := by
  rw [writeAll, List.foldl_append, List.foldl_cons]
  exact (lookup_writeAll_of_not_mem h).trans (AList.lookup_insert _)

end Directory
