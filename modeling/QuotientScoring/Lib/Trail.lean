import QuotientScoring.Lib.Program

/-! Where a program can be cut.

The *trail* of a program from a state lists the states its calls find, one after
another, while none fails. If the call at a position fails, the program stops with an
error and leaves the state that call found; if all the calls of the trail succeed, it
ends as it would without faults. One rule for each way of composing programs.

`Trail.error_imp_iff` reads off what holds whenever the program stops: it must hold of
the state that the failing call found. -/
namespace Program
variable {σ ε φ α β : Type}

/-- The calls succeed up to the one at a position. -/
def failAt (n : Nat) (e : φ) : List (Option φ) := List.replicate n none ++ [some e]

theorem failAt_add (m n : Nat) (e : φ) :
    failAt (m + n) e = List.replicate m none ++ failAt n e := by
  rw [failAt, failAt, ← List.append_assoc, List.replicate_append_replicate]

structure Trail (x : Program (Faulty σ φ) ε α) (s : σ) (trail : List σ) (r : α × σ) : Prop where
  done : ∀ faults : List (Option φ),
    exec x ⟨s, List.replicate trail.length none ++ faults⟩ = (.ok r.1, ⟨r.2, faults⟩)
  cut : ∀ (n : Nat) (e : φ) (found : σ), trail[n]? = some found →
    ∃ err, exec x ⟨s, failAt n e⟩ = (.error err, ⟨found, []⟩)

variable {x : Program (Faulty σ φ) ε α} {s : σ} {trail : List σ} {r : α × σ}

theorem Trail.pure (a : α) (s : σ) :
    Trail (pure a : Program (Faulty σ φ) ε α) s [] (a, s) where
  done _ := rfl
  cut _ _ _ h := nomatch h

theorem Trail.call (raise : φ → ε) (f : σ → α × σ) (s : σ) :
    Trail (call raise f) s [s] (f s) where
  done _ := rfl
  cut n e found h := by
    cases n with
    | zero =>
      obtain rfl : s = found := Option.some.inj h
      exact ⟨raise e, rfl⟩
    | succ n => cases h

theorem Trail.wrap {δ : Type} (around : ε → δ) (h : Trail x s trail r) :
    Trail (wrap around x) s trail r where
  done faults := by
    rw [exec_wrap, h.done]
    rfl
  cut n e found hn := by
    obtain ⟨err, herr⟩ := h.cut n e found hn
    exact ⟨around err, by rw [exec_wrap, herr]; rfl⟩

/-- One program after another finds the states of the first, then those of the second. -/
theorem Trail.bind {k : α → Program (Faulty σ φ) ε β} {trail' : List σ} {r' : β × σ}
    (hx : Trail x s trail r) (hk : Trail (k r.1) r.2 trail' r') :
    Trail (x >>= k) s (trail ++ trail') r' where
  done faults := by
    rw [List.length_append, ← List.replicate_append_replicate, List.append_assoc,
      exec_bind_ok (hx.done _), hk.done]
  cut n e found hn := by
    rcases Nat.lt_or_ge n trail.length with hlt | hge
    · rw [List.getElem?_append_left hlt] at hn
      obtain ⟨err, herr⟩ := hx.cut n e found hn
      exact ⟨err, by rw [exec_bind, herr]⟩
    · rw [List.getElem?_append_right hge] at hn
      obtain ⟨err, herr⟩ := hk.cut (n - trail.length) e found hn
      refine ⟨err, ?_⟩
      have hn' : n = trail.length + (n - trail.length) := by omega
      rw [hn', failAt_add, exec_bind_ok (hx.done _), herr]

/-- What a loop's calls find, from what each turn's find and do. -/
def loopTrail (found : α → σ → List σ) (f : σ → α → σ) : List α → σ → List σ
  | [], _ => []
  | a :: rest, s => found a s ++ loopTrail found f rest (f s a)

theorem mem_loopTrail {R : σ → σ → Prop} {found : α → σ → List σ} {f : σ → α → σ}
    (htrans : ∀ s s' s'', R s s' → R s' s'' → R s s'') (hf : ∀ s a, R s (f s a))
    (hfound : ∀ a s, ∀ s' ∈ found a s, R s s') (xs : List α) (s : σ) :
    ∀ s' ∈ loopTrail found f xs s, R s s' := by
  induction xs generalizing s with
  | nil => exact fun _ h => nomatch h
  | cons a rest ih =>
    intro s' h
    rcases List.mem_append.mp h with hfirst | hrest
    · exact hfound a s s' hfirst
    · exact htrans s _ s' (hf s a) (ih (f s a) s' hrest)

theorem Trail.forM {g : α → Program (Faulty σ φ) ε PUnit} {found : α → σ → List σ} {f : σ → α → σ}
    (xs : List α) (hg : ∀ a ∈ xs, ∀ s, Trail (g a) s (found a s) (⟨⟩, f s a)) (s : σ) :
    Trail (xs.forM g) s (loopTrail found f xs s) (⟨⟩, xs.foldl f s) := by
  induction xs generalizing s with
  | nil => exact Trail.pure PUnit.unit s
  | cons x rest ih =>
    exact (hg x List.mem_cons_self s).bind
      (ih (fun a ha => hg a (List.mem_cons_of_mem _ ha)) (f s x))

/-- A program that goes on without ever failing: where it stops, `P` is left to hold of the
state that the failing call found. -/
theorem Trail.error_imp_iff {k : α → Program (Faulty σ φ) ε β} (h : Trail x s trail r)
    (hk : ∀ s', ∃ b, (exec (k r.1) s').1 = .ok b) (P : σ → Prop) (n : Nat) (e : φ) :
    ((∃ err, (exec (x >>= k) ⟨s, failAt n e⟩).1 = .error err) →
        P (exec (x >>= k) ⟨s, failAt n e⟩).2.state) ↔
      ∀ found, trail[n]? = some found → P found := by
  rcases Nat.lt_or_ge n trail.length with hlt | hge
  · obtain ⟨err, herr⟩ := h.cut n e trail[n] (List.getElem?_eq_getElem hlt)
    rw [exec_bind, herr, List.getElem?_eq_getElem hlt]
    simp
  · obtain ⟨m, rfl⟩ := Nat.exists_eq_add_of_le hge
    obtain ⟨b, hb⟩ := hk ⟨r.2, failAt m e⟩
    rw [failAt_add, exec_bind_ok (h.done _), hb, List.getElem?_eq_none hge]
    simp

end Program
