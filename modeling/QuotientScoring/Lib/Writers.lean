import QuotientScoring.Lib.Transition
import Mathlib.Data.List.Basic
import Mathlib.Logic.Function.Basic

/-! Writers that share a store.

A request is read, or is refused as a whole, and then writes one thing after another. Each write
is atomic. One that the store does not accept fails, and so may any other, and one whose
acknowledgement is lost has failed for its writer, though it is in the store; the writer then
gives up and leaves what it has written.

The journal keeps what is written and by whom. `Journaled` says all that a run keeps: the store is
what the journal makes of the first one, and a writer's part of the journal is a beginning of
what it was asked to write. -/
namespace Writers
open Transition

/-- A store with its writes, and those that it accepts. -/
structure Medium (σ ω : Type) where
  write : σ → ω → σ
  accepts : ω → Bool

/-- How far a request is. -/
inductive Progress (ω : Type) where
  | idle
  | refused
  | writing (written left : List ω)
  | failed (written left : List ω)
  | succeeded (written : List ω)
deriving DecidableEq, Repr

def Progress.written {ω : Type} : Progress ω → List ω
  | .idle | .refused => []
  | .writing written _ | .failed written _ | .succeeded written => written

/-- What it has written and what is left. -/
def Progress.all {ω : Type} : Progress ω → List ω
  | .idle | .refused => []
  | .writing written left | .failed written left => written ++ left
  | .succeeded written => written

/-- `lose` writes without an acknowledgement. -/
inductive Action (ι ω : Type) where
  | begin (i : ι) (body : Option (List ω))
  | write (i : ι)
  | fail (i : ι)
  | lose (i : ι)
  | finish (i : ι)
deriving DecidableEq, Repr

/-- `body` is what each request has been asked to write. -/
structure SharedStore (ι σ ω : Type) where
  store : σ
  progress : ι → Progress ω
  journal : List (ι × ω)
  body : ι → Option (List ω)

section
variable {ι σ ω : Type} [DecidableEq ι] (medium : Medium σ ω)

def SharedStore.set (s : SharedStore ι σ ω) (i : ι) (p : Progress ω) : SharedStore ι σ ω :=
  {s with progress := Function.update s.progress i p}

/-- The write, by `i`, which then is where `p` says. -/
def SharedStore.put (s : SharedStore ι σ ω) (i : ι) (w : ω) (p : Progress ω) : SharedStore ι σ ω :=
  {s.set i p with store := medium.write s.store w, journal := s.journal ++ [(i, w)]}

def step (s : SharedStore ι σ ω) : Action ι ω → Option (SharedStore ι σ ω)
  | .begin i body =>
    match s.progress i with
    | .idle =>
      some { s.set i (body.elim .refused (.writing [])) with
        body := Function.update s.body i body }
    | _ => none
  | .write i =>
    match s.progress i with
    | .writing written (w :: left) =>
      if medium.accepts w then some (s.put medium i w (.writing (written ++ [w]) left)) else none
    | _ => none
  | .fail i =>
    match s.progress i with
    | .writing written (w :: left) => some (s.set i (.failed written (w :: left)))
    | _ => none
  | .lose i =>
    match s.progress i with
    | .writing written (w :: left) =>
      if medium.accepts w then some (s.put medium i w (.failed (written ++ [w]) left)) else none
    | _ => none
  | .finish i =>
    match s.progress i with
    | .writing written [] => some (s.set i (.succeeded written))
    | _ => none

/-- No request has begun, and the store is as it was. -/
def writers (initial : σ) : System (SharedStore ι σ ω) (Action ι ω) where
  initial s := s.store = initial ∧ (∀ i, s.progress i = .idle ∧ s.body i = none) ∧ s.journal = []
  step := step medium

end

variable {ι σ ω : Type} [DecidableEq ι] {medium : Medium σ ω} {initial : σ} {s s' : SharedStore ι σ ω}

/-- What `i` has written. -/
def SharedStore.writtenBy (s : SharedStore ι σ ω) (i : ι) : List ω :=
  (s.journal.filter (fun e => e.1 = i)).map Prod.snd

structure Journaled (medium : Medium σ ω) (initial : σ) (s : SharedStore ι σ ω) : Prop where
  store : s.store = (s.journal.map Prod.snd).foldl medium.write initial
  accepted : ∀ e ∈ s.journal, medium.accepts e.2 = true
  writtenBy : ∀ i, s.writtenBy i = (s.progress i).written
  all : ∀ i, (s.progress i).all = (s.body i).getD []

/-- What is so of where each writer is stays so when one goes on, if it is so of where that one is
then. -/
theorem update_progress {P : ι → Progress ω → Prop} (h : ∀ j, P j (s.progress j)) {i : ι}
    {p : Progress ω} (hp : P i p) (j : ι) : P j (Function.update s.progress i p j) := by
  by_cases hj : j = i
  · subst hj
    rw [Function.update_self]
    exact hp
  · rw [Function.update_of_ne hj]
    exact h j

/-- A request that goes on without a write has written what it had. -/
theorem Journaled.set (h : Journaled medium initial s) {i : ι} {p : Progress ω}
    (hwritten : p.written = (s.progress i).written) (hall : p.all = (s.progress i).all) :
    Journaled medium initial (s.set i p) where
  store := h.store
  accepted := h.accepted
  writtenBy := update_progress (P := fun j p => s.writtenBy j = p.written) h.writtenBy
    ((h.writtenBy i).trans hwritten.symm)
  all := update_progress (P := fun j p => p.all = (s.body j).getD []) h.all (hall.trans (h.all i))

theorem Journaled.put (h : Journaled medium initial s) {i : ι} {w : ω} {p : Progress ω}
    (haccepts : medium.accepts w = true) (hwritten : p.written = (s.progress i).written ++ [w])
    (hall : p.all = (s.progress i).all) : Journaled medium initial (s.put medium i w p) := by
  have hrest := update_progress (P := fun j p => p.all = (s.body j).getD []) h.all
    (hall.trans (h.all i))
  refine ⟨?_, ?_, ?_, hrest⟩
  · show medium.write s.store w =
      ((s.journal ++ [(i, w)]).map Prod.snd).foldl medium.write initial
    rw [List.map_append, List.foldl_append, ← h.store]
    rfl
  · intro e he
    rcases List.mem_append.mp he with he | he
    · exact h.accepted e he
    · rw [List.mem_singleton.mp he]
      exact haccepts
  · intro j
    have hparts : (s.put medium i w p).writtenBy j =
        s.writtenBy j ++ if i = j then [w] else [] := by
      show ((s.journal ++ [(i, w)]).filter (fun e => e.1 = j)).map Prod.snd = _
      rw [List.filter_append, List.map_append]
      by_cases hij : i = j <;> simp [hij, SharedStore.writtenBy]
    rw [hparts, h.writtenBy j]
    show _ = (Function.update s.progress i p j).written
    by_cases hj : j = i
    · subst hj
      rw [Function.update_self, if_pos rfl, hwritten]
    · rw [Function.update_of_ne hj, if_neg (Ne.symm hj), List.append_nil]

theorem Journaled.step {a : Action ι ω} (h : Journaled medium initial s)
    (hstep : step medium s a = some s') : Journaled medium initial s' := by
  cases a with
  | begin i body =>
    simp only [Writers.step] at hstep
    split at hstep
    · rename_i hidle
      obtain rfl := Option.some.inj hstep
      have hwritten : (body.elim Progress.refused (Progress.writing [])).written =
          (s.progress i).written := by
        rw [hidle]
        cases body <;> rfl
      refine ⟨h.store, h.accepted, ?_, ?_⟩
      · exact update_progress (P := fun j p => s.writtenBy j = p.written) h.writtenBy
          ((h.writtenBy i).trans hwritten.symm)
      · show ∀ j, (Function.update s.progress i _ j).all = (Function.update s.body i body j).getD []
        intro j
        by_cases hj : j = i
        · subst hj
          rw [Function.update_self, Function.update_self]
          cases body <;> rfl
        · rw [Function.update_of_ne hj, Function.update_of_ne hj]
          exact h.all j
    · cases hstep
  | write i =>
    simp only [Writers.step] at hstep
    split at hstep
    · rename_i written w left hwriting
      split at hstep
      · rename_i haccepts
        obtain rfl := Option.some.inj hstep
        exact h.put haccepts (by rw [hwriting]; rfl) (by rw [hwriting]; simp [Progress.all])
      · cases hstep
    · cases hstep
  | fail i =>
    simp only [Writers.step] at hstep
    split at hstep
    · rename_i written w left hwriting
      obtain rfl := Option.some.inj hstep
      exact h.set (by rw [hwriting]; rfl) (by rw [hwriting]; simp [Progress.all])
    · cases hstep
  | lose i =>
    simp only [Writers.step] at hstep
    split at hstep
    · rename_i written w left hwriting
      split at hstep
      · rename_i haccepts
        obtain rfl := Option.some.inj hstep
        exact h.put haccepts (by rw [hwriting]; rfl) (by rw [hwriting]; simp [Progress.all])
      · cases hstep
    · cases hstep
  | finish i =>
    simp only [Writers.step] at hstep
    split at hstep
    · rename_i written hwriting
      obtain rfl := Option.some.inj hstep
      exact h.set (by rw [hwriting]; rfl) (by rw [hwriting]; simp [Progress.all])
    · cases hstep

theorem journaled_of_reachable {G : SharedStore ι σ ω → Action ι ω → Prop}
    (h : Reachable (writers medium initial) G s) : Journaled medium initial s := by
  refine h.invariant ?_ (fun s a s' hi _ hs => hi.step hs)
  rintro s ⟨hstore, hidle, hjournal⟩
  refine ⟨?_, ?_, ?_, ?_⟩
  · rw [hstore, hjournal]
    rfl
  · intro e he
    rw [hjournal] at he
    cases he
  · intro i
    rw [(hidle i).1, SharedStore.writtenBy, hjournal]
    rfl
  · intro i
    rw [(hidle i).1, (hidle i).2]
    rfl

/-- A writer has written a beginning of what it was asked to. -/
theorem Journaled.beginning (h : Journaled medium initial s) (i : ι) :
    s.writtenBy i <+: (s.body i).getD [] := by
  rw [h.writtenBy i, ← h.all i]
  cases s.progress i with
  | idle | refused | succeeded written => exact List.prefix_rfl
  | writing written left | failed written left => exact List.prefix_append _ _

/-- All of it, if it succeeded. -/
theorem Journaled.succeeded (h : Journaled medium initial s) {i : ι} {written : List ω}
    (hi : s.progress i = .succeeded written) : s.writtenBy i = (s.body i).getD [] := by
  rw [h.writtenBy i, ← h.all i, hi]
  rfl

/-! ### The last write -/

section
variable {κ β : Type} [DecidableEq κ] (key : ω → κ) (value : ω → β)

/-- The value that was written last under the key. -/
def lastWrite (ws : List ω) (k : κ) : Option β :=
  (ws.reverse.find? (fun w => key w = k)).map value

theorem lastWrite_append_singleton (ws : List ω) (w : ω) (k : κ) :
    lastWrite key value (ws ++ [w]) k =
      if key w = k then some (value w) else lastWrite key value ws k := by
  rw [lastWrite, List.reverse_append, List.reverse_singleton, List.singleton_append,
    List.find?_cons]
  by_cases h : key w = k <;> simp [h, lastWrite]

/-- Writes under other keys do not matter. -/
theorem lastWrite_filter (ws : List ω) (k : κ) :
    lastWrite key value (ws.filter (fun w => key w = k)) k = lastWrite key value ws k := by
  unfold lastWrite
  rw [← List.filter_reverse, List.find?_filter]
  simp

variable {key value}

/-- A store whose writes set the value under their key holds the last write. -/
theorem read_foldl {write : σ → ω → σ} {read : σ → κ → Option β}
    (hwrite : ∀ s w k, read (write s w) k = if key w = k then some (value w) else read s k)
    (hempty : ∀ k, read initial k = none) (ws : List ω) (k : κ) :
    read (ws.foldl write initial) k = lastWrite key value ws k := by
  induction ws using List.reverseRecOn with
  | nil => exact hempty k
  | append_singleton ws w ih =>
    rw [List.foldl_append, lastWrite_append_singleton, ← ih]
    exact hwrite _ w k

end

end Writers
