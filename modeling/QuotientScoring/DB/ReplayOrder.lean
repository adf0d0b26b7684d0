import QuotientScoring.DB.Counters

/-! The order in which `LoadSLAs` gets its rows.

The query asks for no order, and the counter of a service depends on which of its
rows comes last. `replay_order_iff`: the counters are the same for every order of
the table, and those of the rounds, exactly if the threshold is one or no service
has both a passed and a failed check. -/
namespace QuotientScoring.DB
open FailureRun

/-- A table in the order of its rounds. -/
def inRoundOrder (rows : List ServiceCheckSchema) : List ServiceCheckSchema :=
  rows.insertionSort (fun a b => a.roundID ≤ b.roundID)

/-- The rows of a team's service. -/
def rowsOf (key : Nat × GoString) (rows : List ServiceCheckSchema) : List ServiceCheckSchema :=
  rows.filter (fun check => check.key = key)

/-- Any two orders in which the table comes back leave the same counters: for each service, the
length of its run of failures in the order of the rounds, modulo the threshold. -/
def OrderIndependent (slaThreshold : Int) (rows : List ServiceCheckSchema) : Prop :=
  ∀ o₁ o₂ : List ServiceCheckSchema, o₁.Perm rows → o₂.Perm rows →
    ∃ m₁ m₂, loadSLAs slaThreshold o₁ ∅ = some m₁ ∧ loadSLAs slaThreshold o₂ ∅ = some m₂ ∧
      ∀ t n, m₁.find? t n = m₂.find? t n ∧
        m₂.find? t n = counter ServiceCheckSchema.failed slaThreshold
          (rowsOf (t, n) (inRoundOrder rows))

variable {slaThreshold : Int} {rows : List ServiceCheckSchema}

theorem rowsOf_perm {other : List ServiceCheckSchema} (h : other.Perm rows)
    (key : Nat × GoString) : (rowsOf key other).Perm (rowsOf key rows) :=
  h.filter _

/-- A service's rows come in any order if the table does. -/
theorem exists_rowsOf_eq {key : Nat × GoString} {o : List ServiceCheckSchema}
    (h : o.Perm (rowsOf key rows)) :
    ∃ table : List ServiceCheckSchema, table.Perm rows ∧ rowsOf key table = o := by
  let others := rows.filter (fun check => !decide (check.key = key))
  refine ⟨o ++ others, (h.append_right others).trans (List.filter_append_perm _ rows), ?_⟩
  have howned : ∀ check ∈ o, check.key = key := by
    intro check hcheck
    have hmem := h.mem_iff.mp hcheck
    simpa [rowsOf] using (List.mem_filter.mp hmem).2
  have hself : rowsOf key o = o :=
    List.filter_eq_self.mpr (fun check hcheck => decide_eq_true (howned check hcheck))
  have hnone : rowsOf key others = [] := by
    apply List.filter_eq_nil_iff.mpr
    intro check hcheck
    simpa [others] using (List.mem_filter.mp hcheck).2
  show (o ++ others).filter _ = o
  rw [List.filter_append]
  show rowsOf key o ++ rowsOf key others = o
  rw [hself, hnone, List.append_nil]

/-- What comes back in any order leaves the same counters if each service's rows do. -/
theorem orderIndependent_iff (hT : 1 ≤ slaThreshold) : OrderIndependent slaThreshold rows ↔
    ∀ key, ∀ o₁ o₂ : List ServiceCheckSchema, o₁.Perm (rowsOf key rows) →
      o₂.Perm (rowsOf key rows) →
        counter ServiceCheckSchema.failed slaThreshold o₁ =
          counter ServiceCheckSchema.failed slaThreshold o₂ := by
  constructor
  · rintro h ⟨t, n⟩ o₁ o₂ h₁ h₂
    obtain ⟨table₁, hperm₁, rfl⟩ := exists_rowsOf_eq h₁
    obtain ⟨table₂, hperm₂, rfl⟩ := exists_rowsOf_eq h₂
    obtain ⟨m₁, m₂, hload₁, hload₂, hsame⟩ := h table₁ table₂ hperm₁ hperm₂
    obtain ⟨m₁', hm₁, hfind₁⟩ := find?_loadSLAs hT table₁
    obtain ⟨m₂', hm₂, hfind₂⟩ := find?_loadSLAs hT table₂
    obtain rfl := Option.some.inj (hload₁.symm.trans hm₁)
    obtain rfl := Option.some.inj (hload₂.symm.trans hm₂)
    exact (hfind₁ t n).symm.trans ((hsame t n).1.trans (hfind₂ t n))
  · intro h o₁ o₂ h₁ h₂
    obtain ⟨m₁, hm₁, hfind₁⟩ := find?_loadSLAs hT o₁
    obtain ⟨m₂, hm₂, hfind₂⟩ := find?_loadSLAs hT o₂
    have hsorted : (inRoundOrder rows).Perm rows := List.perm_insertionSort _ _
    refine ⟨m₁, m₂, hm₁, hm₂, fun t n => ⟨?_, ?_⟩⟩
    · exact (hfind₁ t n).trans ((h (t, n) _ _ (rowsOf_perm h₁ _) (rowsOf_perm h₂ _)).trans
        (hfind₂ t n).symm)
    · exact (hfind₂ t n).trans (h (t, n) _ _ (rowsOf_perm h₂ _) (rowsOf_perm hsorted _))

/-- With a threshold of at least one, the order of the rows does not matter exactly if the
threshold is one or no service of a team both passed and failed. -/
theorem replay_order_iff (slaThreshold : Int) (hT : 1 ≤ slaThreshold)
    (rows : List ServiceCheckSchema) :
    OrderIndependent slaThreshold rows ↔
      slaThreshold = 1 ∨ ∀ key,
        (∀ check ∈ rows, check.key = key → check.result = false) ∨
        (∀ check ∈ rows, check.key = key → check.result = true) := by
  have hrows : ∀ key, (∀ check ∈ rowsOf key rows, check.failed = true) ∨
      (∀ check ∈ rowsOf key rows, check.failed = false) ↔
      (∀ check ∈ rows, check.key = key → check.result = false) ∨
      (∀ check ∈ rows, check.key = key → check.result = true) := by
    intro key
    simp [rowsOf, ServiceCheckSchema.failed]
  rw [orderIndependent_iff hT]
  simp only [counter_perm_iff _ _ hT, hrows, forall_or_left]

/-- A service that only ever fails. -/
theorem replay_order_failing : OrderIndependent 3
    [⟨1, 1, [104], 1, false, [], []⟩, ⟨1, 2, [104], 1, false, [], []⟩] := by
  refine (replay_order_iff 3 (by decide) _).mpr (.inr fun key => .inl ?_)
  have hfailed : ∀ check ∈ [⟨1, 1, [104], 1, false, [], []⟩, ⟨1, 2, [104], 1, false, [], []⟩],
      ServiceCheckSchema.result check = false := by decide
  exact fun check hcheck _ => hfailed check hcheck

/-- A pass, then a failure: the other way round the failure is forgotten. -/
theorem replay_order_matters : ¬OrderIndependent 3
    [⟨1, 1, [104], 1, true, [], []⟩, ⟨1, 2, [104], 1, false, [], []⟩] := by
  intro h
  obtain ⟨m₁, m₂, h₁, h₂, hsame⟩ := h
    [⟨1, 1, [104], 1, true, [], []⟩, ⟨1, 2, [104], 1, false, [], []⟩]
    [⟨1, 2, [104], 1, false, [], []⟩, ⟨1, 1, [104], 1, true, [], []⟩] .rfl (.swap _ _ _)
  have hone : m₁.find? 1 [104] = some 1 := by
    obtain rfl := Option.some.inj h₁
    decide
  have hzero : m₂.find? 1 [104] = some 0 := by
    obtain rfl := Option.some.inj h₂
    decide
  have hsame := (hsame 1 [104]).1
  rw [hone, hzero] at hsame
  cases hsame

end QuotientScoring.DB
