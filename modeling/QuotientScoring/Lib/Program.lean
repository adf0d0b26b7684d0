import Mathlib.Data.List.Basic

/-! Programs whose every call may fail.

A program reads and writes a state and ends with a value or with an error. Its
calls go to a file or to a database: the faults still to come say of each whether
it succeeds, and a call that fails changes nothing.

`Performs R x s r` is what is asked of a program: when it returns, `r` is what it
has done, whichever calls it made, and when it stops with an error it leaves a state
related by `R` to the one it began with. One rule for each way of composing
programs; `Performs.forM_prefix` is the rule for a loop of single writes, which can
be cut between any two of them. -/

abbrev Program (σ ε α : Type) := ExceptT ε (StateM σ) α

/-- A state, and for each call to come its failure, if it fails; the calls past the
end of the list succeed. -/
structure Faulty (σ φ : Type) where
  state : σ
  faults : List (Option φ) := []

namespace Program
variable {σ ε φ α β : Type}

/-- The result of a program and the state it leaves. -/
def exec (x : Program σ ε α) (s : σ) : Except ε α × σ := (x.run.run s).run

theorem exec_bind (x : Program σ ε α) (k : α → Program σ ε β) (s : σ) :
    exec (x >>= k) s =
      match exec x s with
      | (.ok a, s') => exec (k a) s'
      | (.error e, s') => (.error e, s') := by
  unfold exec ExceptT.run StateT.run Id.run
  simp only [bind, ExceptT.bind, ExceptT.mk, StateT.bind]
  cases x s with
  | mk result s' => cases result <;> rfl

theorem exec_bind_ok {x : Program σ ε α} {k : α → Program σ ε β} {s s' : σ} {a : α}
    (h : exec x s = (.ok a, s')) : exec (x >>= k) s = exec (k a) s' := by
  rw [exec_bind, h]

theorem exec_forM_cons (g : α → Program σ ε PUnit) (a : α) (rest : List α) (s : σ) :
    exec ((a :: rest).forM g) s = exec (g a >>= fun _ => rest.forM g) s := rfl

/-- A loop whose body never fails, where no call does. -/
theorem exec_forM {g : α → Program (Faulty σ φ) ε PUnit} {f : σ → α → σ} (xs : List α)
    (hg : ∀ a ∈ xs, ∀ s, exec (g a) ⟨s, []⟩ = (.ok ⟨⟩, ⟨f s a, []⟩)) (s : σ) :
    exec (xs.forM g) ⟨s, []⟩ = (.ok ⟨⟩, ⟨xs.foldl f s, []⟩) := by
  induction xs generalizing s with
  | nil => rfl
  | cons x rest ih =>
    rw [exec_forM_cons, exec_bind_ok (hg x List.mem_cons_self s)]
    exact ih (fun a ha => hg a (List.mem_cons_of_mem _ ha)) (f s x)

/-- An error gets a text around it, as `fmt.Errorf` puts one. -/
def wrap (around : ε → φ) (x : Program σ ε α) : Program σ φ α := ExceptT.adapt around x

theorem exec_wrap (around : ε → φ) (x : Program σ ε α) (s : σ) :
    exec (wrap around x) s = ((exec x s).1.mapError around, (exec x s).2) := rfl

/-- The result of a program as a value, so that a caller can look at its error. -/
def attempt (x : Program σ ε α) : Program σ ε (Except ε α) :=
  fun s => x s >>= fun (result, s') => pure (.ok result, s')

theorem exec_attempt (x : Program σ ε α) (s : σ) :
    exec (attempt x) s = (.ok (exec x s).1, (exec x s).2) := rfl

/-- One call; where it fails, `raise` is the error it returns. -/
def call (raise : φ → ε) (f : σ → α × σ) : Program (Faulty σ φ) ε α := do
  let s ← get
  match s.faults with
  | some e :: rest =>
    set {s with faults := rest}
    throw (raise e)
  | _ =>
    set {s with state := (f s.state).2, faults := s.faults.tail : Faulty σ φ}
    pure (f s.state).1

/-! ### What a program performs -/

/-- From the state `s`, whatever fails: where the program returns, `r` is its value with
the state it leaves; where it stops, the state it leaves is related to `s`. -/
def Performs (R : σ → σ → Prop) (x : Program (Faulty σ φ) ε α) (s : σ) (r : α × σ) : Prop :=
  ∀ faults : List (Option φ),
    match exec x ⟨s, faults⟩ with
    | (.ok a, s') => (a, s'.state) = r
    | (.error _, s') => R s s'.state

variable {R : σ → σ → Prop} {x : Program (Faulty σ φ) ε α} {s : σ} {r : α × σ}

theorem Performs.of_ok (h : Performs R x s r) {faults : List (Option φ)} {a : α}
    {s' : Faulty σ φ} (hx : exec x ⟨s, faults⟩ = (.ok a, s')) : r = (a, s'.state) := by
  have hs := h faults
  rw [hx] at hs
  exact hs.symm

theorem Performs.of_error (h : Performs R x s r) {faults : List (Option φ)} {e : ε}
    {s' : Faulty σ φ} (hx : exec x ⟨s, faults⟩ = (.error e, s')) : R s s'.state := by
  have hs := h faults
  rw [hx] at hs
  exact hs

/-- What holds of the work done and of every failure holds of every outcome. -/
theorem Performs.rel (h : Performs R x s r) (hr : R s r.2) (faults : List (Option φ)) :
    R s (exec x ⟨s, faults⟩).2.state := by
  rcases hx : exec x ⟨s, faults⟩ with ⟨a | a, s'⟩
  · exact h.of_error hx
  · rw [h.of_ok hx] at hr
    exact hr

theorem Performs.mono {R' : σ → σ → Prop} (h : Performs R x s r) (hR : ∀ s', R s s' → R' s s') :
    Performs R' x s r := by
  intro faults
  have hs := h faults
  rcases hx : exec x ⟨s, faults⟩ with ⟨a | a, s'⟩ <;> rw [hx] at hs
  · exact hR _ hs
  · exact hs

theorem Performs.pure (a : α) (s : σ) :
    Performs R (pure a : Program (Faulty σ φ) ε α) s (a, s) :=
  fun _ => rfl

/-- A call that fails changes nothing. -/
theorem Performs.call (hrefl : R s s) (raise : φ → ε) (f : σ → α × σ) :
    Performs R (call raise f) s (f s) := by
  intro faults
  match faults with
  | [] => rfl
  | none :: rest => rfl
  | some e :: rest => exact hrefl

theorem Performs.wrap {δ : Type} (around : ε → δ) (h : Performs R x s r) :
    Performs R (wrap around x) s r := by
  intro faults
  have hs := h faults
  rw [exec_wrap]
  rcases hx : exec x ⟨s, faults⟩ with ⟨a | a, s'⟩ <;> rw [hx] at hs <;> exact hs

/-- One program after another. What the first does must be related too: the second
may fail after it. -/
theorem Performs.bind (htrans : ∀ s s' s'', R s s' → R s' s'' → R s s'')
    {k : α → Program (Faulty σ φ) ε β} {a : α} {s₁ : σ} {r : β × σ}
    (hx : Performs R x s (a, s₁)) (hrel : R s s₁) (hk : Performs R (k a) s₁ r) :
    Performs R (x >>= k) s r := by
  intro faults
  rw [exec_bind]
  rcases hxs : exec x ⟨s, faults⟩ with ⟨e | a', s', faults'⟩
  · exact hx.of_error hxs
  · have hfs := hx.of_ok hxs
    obtain ⟨rfl, rfl⟩ : a = a' ∧ s₁ = s' := Prod.mk.inj hfs
    have hks := hk faults'
    dsimp only
    rcases hys : exec (k a) ⟨s₁, faults'⟩ with ⟨b | b, s''⟩ <;> rw [hys] at hks
    · exact htrans _ _ _ hrel hks
    · exact hks

/-- A loop does its body's work once for each element. -/
theorem Performs.forM (htrans : ∀ s s' s'', R s s' → R s' s'' → R s s'')
    {g : α → Program (Faulty σ φ) ε PUnit} {f : σ → α → σ} (hf : ∀ a s, R s (f s a))
    (hg : ∀ a s, Performs R (g a) s (⟨⟩, f s a)) (xs : List α) (s : σ) :
    Performs R (xs.forM g) s (⟨⟩, xs.foldl f s) := by
  induction xs generalizing s with
  | nil => exact Performs.pure PUnit.unit s
  | cons x rest ih => exact Performs.bind htrans (hg x s) (hf x s) (ih (f s x))

/-- A loop of single writes: a failure leaves what a run over the first few elements
leaves. -/
theorem Performs.forM_prefix {g : α → Program (Faulty σ φ) ε PUnit} {f : σ → α → σ}
    (hg : ∀ a s, Performs Eq (g a) s (⟨⟩, f s a)) (xs : List α) (s : σ) :
    Performs (fun s s' => ∃ written, written <+: xs ∧ s' = written.foldl f s)
      (xs.forM g) s (⟨⟩, xs.foldl f s) := by
  induction xs generalizing s with
  | nil => exact Performs.pure PUnit.unit s
  | cons x rest ih =>
    intro faults
    rw [exec_forM_cons, exec_bind]
    rcases hx : exec (g x) ⟨s, faults⟩ with ⟨a | a, s', faults'⟩
    · exact ⟨[], List.nil_prefix, ((hg x s).of_error hx).symm⟩
    · have hs' : f s x = s' := congrArg Prod.snd ((hg x s).of_ok hx)
      subst hs'
      have ihs := ih (f s x) faults'
      dsimp only
      rcases hr : exec (rest.forM g) ⟨f s x, faults'⟩ with ⟨e | b, s''⟩ <;> rw [hr] at ihs
      · obtain ⟨written, hpre, hw⟩ := ihs
        exact ⟨x :: written, List.cons_prefix_cons.mpr ⟨rfl, hpre⟩, hw⟩
      · exact ihs

/-! ### What every outcome keeps -/

/-- However the program ends, the state it leaves is related to the one it began with. -/
def Keeps (R : σ → σ → Prop) (x : Program (Faulty σ φ) ε α) : Prop :=
  ∀ s : Faulty σ φ, R s.state (exec x s).2.state

theorem Keeps.pure (hrefl : ∀ s, R s s) (a : α) :
    Keeps R (pure a : Program (Faulty σ φ) ε α) := fun s => hrefl s.state

theorem Keeps.throw (hrefl : ∀ s, R s s) (e : ε) :
    Keeps R (throw e : Program (Faulty σ φ) ε α) := fun s => hrefl s.state

theorem Keeps.call (hrefl : ∀ s, R s s) (raise : φ → ε) {f : σ → α × σ} (hf : ∀ s, R s (f s).2) :
    Keeps R (call raise f) :=
  fun s => (Performs.call (hrefl s.state) raise f).rel (hf s.state) s.faults

theorem Keeps.attempt (h : Keeps R x) : Keeps R (attempt x) := fun s => h s

theorem Keeps.bind (htrans : ∀ s s' s'', R s s' → R s' s'' → R s s'')
    {k : α → Program (Faulty σ φ) ε β} (hx : Keeps R x) (hk : ∀ a, Keeps R (k a)) :
    Keeps R (x >>= k) := by
  intro s
  have hxs := hx s
  rw [exec_bind]
  rcases hs : exec x s with ⟨e | a, s'⟩ <;> rw [hs] at hxs
  · exact hxs
  · exact htrans _ _ _ hxs (hk a s')

theorem Keeps.forM (hrefl : ∀ s, R s s) (htrans : ∀ s s' s'', R s s' → R s' s'' → R s s'')
    {g : α → Program (Faulty σ φ) ε PUnit} (hg : ∀ a, Keeps R (g a)) (xs : List α) :
    Keeps R (xs.forM g) := by
  induction xs with
  | nil => exact Keeps.pure hrefl PUnit.unit
  | cons x rest ih => exact Keeps.bind htrans (hg x) (fun _ => ih)

/-! ### Pre- and postconditions -/

/-- A statement of a database. It may be refused in the state it finds, and where the fault `e`
strikes it, `fail e` is the error with the state that is left. -/
def statement (run : σ → Except ε α × σ) (fail : φ → σ → ε × σ) : Program (Faulty σ φ) ε α := do
  let s ← get
  match s.faults with
  | some e :: rest =>
    set (⟨(fail e s.state).2, rest⟩ : Faulty σ φ)
    throw (fail e s.state).1
  | _ =>
    set (⟨(run s.state).2, s.faults.tail⟩ : Faulty σ φ)
    ExceptT.mk (pure (run s.state).1)

/-- From a state with `P`, the program returns in `Q` or stops in `E`. -/
def Triple (P : σ → Prop) (x : Program σ ε α) (Q : α → σ → Prop) (E : σ → Prop) : Prop :=
  ∀ s, P s →
    match exec x s with
    | (.ok a, s') => Q a s'
    | (.error _, s') => E s'

section Triple
variable {P : σ → Prop} {x : Program σ ε α} {Q : α → σ → Prop} {E : σ → Prop}

theorem Triple.of_ok (h : Triple P x Q E) {s s' : σ} {a : α} (hs : P s)
    (hx : exec x s = (.ok a, s')) : Q a s' := by
  have hspec := h s hs
  rw [hx] at hspec
  exact hspec

theorem Triple.of_error (h : Triple P x Q E) {s s' : σ} {e : ε} (hs : P s)
    (hx : exec x s = (.error e, s')) : E s' := by
  have hspec := h s hs
  rw [hx] at hspec
  exact hspec

theorem Triple.imp {P' : σ → Prop} {Q' : α → σ → Prop} {E' : σ → Prop} (h : Triple P x Q E)
    (hP : ∀ s, P' s → P s) (hQ : ∀ a s, Q a s → Q' a s) (hE : ∀ s, E s → E' s) :
    Triple P' x Q' E' := by
  intro s hs
  have hspec := h s (hP s hs)
  rcases hx : exec x s with ⟨e | a, s'⟩ <;> rw [hx] at hspec
  · exact hE s' hspec
  · exact hQ a s' hspec

/-- A triple may be proved from each state by itself. -/
theorem Triple.of_forall (h : ∀ s, P s → Triple (fun s' => s' = s) x Q E) : Triple P x Q E :=
  fun s hs => h s hs s rfl

theorem Triple.pure {a : α} (h : ∀ s, P s → Q a s) : Triple P (pure a : Program σ ε α) Q E := h

theorem Triple.throw {e : ε} (h : ∀ s, P s → E s) : Triple P (throw e : Program σ ε α) Q E := h

theorem Triple.bind {k : α → Program σ ε β} {R : β → σ → Prop} (hx : Triple P x Q E)
    (hk : ∀ a, Triple (Q a) (k a) R E) : Triple P (x >>= k) R E := by
  intro s hs
  rw [exec_bind]
  rcases hxs : exec x s with ⟨e | a, s'⟩
  · exact hx.of_error hs hxs
  · exact hk a s' (hx.of_ok hs hxs)

/-- What follows a program whose value is known. -/
theorem Triple.bind_value {k : α → Program σ ε β} {a : α} {P' : σ → Prop} {R : β → σ → Prop}
    (hx : Triple P x (fun b s => b = a ∧ P' s) E) (hk : Triple P' (k a) R E) :
    Triple P (x >>= k) R E := by
  refine hx.bind fun b => Triple.of_forall ?_
  rintro s ⟨rfl, hs⟩
  refine hk.imp ?_ (fun _ _ h => h) (fun _ h => h)
  rintro s' rfl
  exact hs

/-- A loop, by what holds when the elements `rest` are left to do. -/
theorem Triple.forM {I : List α → σ → Prop} {g : α → Program σ ε PUnit}
    (hg : ∀ a rest, Triple (I (a :: rest)) (g a) (fun _ => I rest) E) (xs : List α) :
    Triple (I xs) (xs.forM g) (fun _ => I []) E := by
  induction xs with
  | nil => exact Triple.pure (fun _ h => h)
  | cons a rest ih => exact Triple.bind (hg a rest) (fun _ => ih)

theorem Triple.wrap {δ : Type} (around : ε → δ) (h : Triple P x Q E) :
    Triple P (wrap around x) Q E := by
  intro s hs
  have hspec := h s hs
  rw [exec_wrap]
  rcases hx : exec x s with ⟨e | a, s'⟩ <;> rw [hx] at hspec <;> exact hspec

end Triple

theorem exec_statement {run : σ → Except ε α × σ} {fail : φ → σ → ε × σ} {s : Faulty σ φ}
    (h : s.faults.head?.join = none) :
    exec (statement run fail) s = ((run s.state).1, ⟨(run s.state).2, s.faults.tail⟩) := by
  obtain ⟨state, faults⟩ := s
  match faults with
  | some e :: rest => cases h
  | [] => rfl
  | none :: rest => rfl

/-- A statement returns or is refused where nothing strikes it, and stops as the fault says where
one does. -/
theorem Triple.statement {P : Faulty σ φ → Prop} {run : σ → Except ε α × σ}
    {fail : φ → σ → ε × σ} {Q : α → Faulty σ φ → Prop} {E : Faulty σ φ → Prop}
    (hok : ∀ s a t, P s → run s.state = (.ok a, t) → Q a ⟨t, s.faults.tail⟩)
    (hrefused : ∀ s e t, P s → run s.state = (.error e, t) → E ⟨t, s.faults.tail⟩)
    (hfail : ∀ s e rest, P s → s.faults = some e :: rest → E ⟨(fail e s.state).2, rest⟩) :
    Triple P (statement run fail) Q E := by
  intro s hs
  cases hfault : s.faults.head?.join with
  | none =>
    rw [exec_statement hfault]
    rcases hx : run s.state with ⟨e | a, t⟩
    · exact hrefused s e t hs hx
    · exact hok s a t hs hx
  | some e =>
    obtain ⟨state, faults⟩ := s
    match faults with
    | some e :: rest => exact hfail ⟨state, some e :: rest⟩ e rest hs rfl

/-- Where nothing strikes a statement and the database does not refuse it, it returns. -/
theorem Triple.statement_clear {P : Faulty σ φ → Prop} {run : σ → Except ε α × σ}
    {fail : φ → σ → ε × σ} {Q : α → Faulty σ φ → Prop} (hclear : ∀ s, P s → s.faults = [])
    (hrun : ∀ s, P s → ∃ a t, run s.state = (.ok a, t) ∧ Q a ⟨t, []⟩) :
    Triple P (Program.statement run fail) Q (fun _ => False) := by
  intro s hs
  obtain ⟨a, t, hx, hQ⟩ := hrun s hs
  have hfaults := hclear s hs
  have hnone : s.faults.head?.join = none := by rw [hfaults]; rfl
  rw [exec_statement hnone, hx, hfaults]
  exact hQ

end Program
