import QuotientScoring.DB.ScoreOverTime
import QuotientScoring.Lib.Transition
import Mathlib.Data.List.Perm.Subperm

/-! Rounds and refreshes of the view.

A saved round tries to set `Refreshing`; if it succeeds it starts a refresh, and
if it does not, it leaves the view to the refresh that is running. That refresh
may have read the tables before the round was in them: `refresh_lost`.
`view_fresh_of_covered` says that this is the only way the view falls behind. If
every round that is turned away is turned away by a refresh that reads the tables
after it, the view reflects all rounds whenever nothing is going on. -/
namespace QuotientScoring.Engine
open DB Transition

/-- How far the running refresh is; the tables are those it has read. -/
inductive Refresh where
  | started
  | snapshot (db : Database)
  | installed (db : Database)
deriving DecidableEq, Repr

/-- The tables and the view; the saved rounds that have not tried to set `Refreshing`
yet; the refresh that has it set. -/
structure ViewState where
  db : Database
  view : List CumulativeScore
  due : List Nat := []
  refreshing : Option Refresh := none
deriving DecidableEq, Repr

inductive ViewEvent where
  /-- `CreateRound` commits. -/
  | commit (round : RoundSchema)
  /-- `Refreshing.CompareAndSwap(false, true)` by the round. -/
  | compareAndSwap (id : Nat)
  | snapshot
  | install
  /-- `Refreshing.Store(false)`. -/
  | clear
  /-- The refresh fails. -/
  | fail
deriving Repr

def viewStep (s : ViewState) : ViewEvent → Option ViewState
  | .commit round =>
    -- the id is the primary key
    if round.id ∈ s.db.rounds then none
    else some {s with db := createRound s.db round, due := s.due ++ [round.id]}
  | .compareAndSwap id =>
    if id ∉ s.due then none
    else
      let s := {s with due := s.due.erase id}
      match s.refreshing with
      | none => some {s with refreshing := some .started}
      | some _ => some s -- refresh already in progress, skipping refresh spawn
  | .snapshot =>
    match s.refreshing with
    | some .started => some {s with refreshing := some (.snapshot s.db)}
    | _ => none
  | .install =>
    match s.refreshing with
    | some (.snapshot db) =>
      some {s with view := cumulativeScores db.checks, refreshing := some (.installed db)}
    | _ => none
  | .clear =>
    match s.refreshing with
    | some (.installed _) => some {s with refreshing := none}
    | _ => none
  | .fail => if s.refreshing.isSome then some {s with refreshing := none} else none

def refreshes : System ViewState ViewEvent where
  initial := fun s => s.db.rounds.Nodup ∧ s.view = cumulativeScores s.db.checks ∧ s.due = [] ∧
    s.refreshing = none
  step := viewStep

/-- Nothing is going on: no refresh is running and no round is still to attempt one. -/
def ViewState.Quiet (s : ViewState) : Prop := s.refreshing = none ∧ s.due = []

/-- The view reflects every saved round. -/
def ViewState.Fresh (s : ViewState) : Prop := s.view = cumulativeScores s.db.checks

instance (s : ViewState) : Decidable s.Quiet := inferInstanceAs (Decidable (_ ∧ _))

instance (s : ViewState) : Decidable s.Fresh := inferInstanceAs (Decidable (_ = _))

/-- No refresh fails. -/
def Succeeds (_ : ViewState) (a : ViewEvent) : Prop :=
  match a with
  | .fail => False
  | _ => True

/-- No refresh fails, and a round whose compare-and-swap is refused is one the running
refresh will read or has read. -/
def Covered (s : ViewState) : ViewEvent → Prop
  | .fail => False
  | .compareAndSwap id =>
    match s.refreshing with
    | some (.snapshot db) => id ∈ db.rounds
    | some (.installed db) => id ∈ db.rounds
    | _ => True
  | _ => True

instance (s : ViewState) : (a : ViewEvent) → Decidable (Succeeds s a)
  | .fail => .isFalse id
  | .commit _ | .compareAndSwap _ | .snapshot | .install | .clear => .isTrue trivial

instance (s : ViewState) : (a : ViewEvent) → Decidable (Covered s a)
  | .fail => .isFalse id
  | .commit _ | .snapshot | .install | .clear => .isTrue trivial
  | .compareAndSwap id => match h : s.refreshing with
    | none => .isTrue (by simp [Covered, h])
    | some .started => .isTrue (by simp [Covered, h])
    | some (.snapshot db) => decidable_of_iff (id ∈ db.rounds) (by simp [Covered, h])
    | some (.installed db) => decidable_of_iff (id ∈ db.rounds) (by simp [Covered, h])

/-! ### The invariant -/

/-- Tables as they were at some earlier point. -/
structure Earlier (old db : Database) : Prop where
  rounds : old.rounds <+: db.rounds
  checks : old.rounds = db.rounds → old.checks = db.checks

theorem Earlier.refl (db : Database) : Earlier db db := ⟨List.prefix_refl _, fun _ => rfl⟩

theorem Earlier.commit {old db : Database} (h : Earlier old db) (round : RoundSchema) :
    Earlier old (createRound db round) := by
  refine ⟨h.rounds.trans (List.prefix_append _ _), fun heq => ?_⟩
  have hle := h.rounds.length_le
  have hlen : old.rounds.length = db.rounds.length + 1 := by
    rw [heq]
    exact List.length_append ..
  omega

/-- An earlier state that has every round is the present one. -/
theorem Earlier.checks_eq {old db : Database} (h : Earlier old db) (hnd : db.rounds.Nodup)
    (hall : ∀ id ∈ db.rounds, id ∈ old.rounds) : old.checks = db.checks := by
  have hle : db.rounds.length ≤ old.rounds.length := (hnd.subperm hall).length_le
  exact h.checks (h.rounds.eq_of_length_le hle)

/-- The rounds that a refresh will have read once it is over, `shown` being the tables
the view was last computed from. -/
def Refresh.Reads (refreshing : Option Refresh) (shown : Database) (id : Nat) : Prop :=
  match refreshing with
  | none => id ∈ shown.rounds
  | some .started => True
  | some (.snapshot db) => id ∈ db.rounds
  | some (.installed db) => id ∈ db.rounds

/-- The view shows an earlier state of the tables, and every round is shown by it, or
will be by the running refresh, or is still to attempt a refresh of its own. -/
structure Tended (shown : Database) (s : ViewState) : Prop where
  nodup : s.db.rounds.Nodup
  view : s.view = cumulativeScores shown.checks
  earlier : Earlier shown s.db
  snapshot : ∀ db, s.refreshing = some (.snapshot db) → Earlier db s.db
  installed : ∀ db, s.refreshing = some (.installed db) → db = shown
  tended : ∀ id ∈ s.db.rounds, id ∈ s.due ∨ Refresh.Reads s.refreshing shown id

theorem Tended.commit {shown : Database} {s : ViewState} (h : Tended shown s) {round : RoundSchema}
    (hnew : round.id ∉ s.db.rounds) :
    Tended shown {s with db := createRound s.db round, due := s.due ++ [round.id]} := by
  refine ⟨?_, h.view, h.earlier.commit round, fun db hdb => (h.snapshot db hdb).commit round,
    h.installed, fun id hid => ?_⟩
  · show (s.db.rounds ++ [round.id]).Nodup
    rw [List.nodup_append_comm]
    exact List.nodup_cons.mpr ⟨hnew, h.nodup⟩
  · rcases List.mem_append.mp hid with hid | hid
    · exact (h.tended id hid).imp_left (List.mem_append_left _)
    · exact .inl (List.mem_append_right _ hid)

theorem viewStep_compareAndSwap {s s' : ViewState} {id : Nat}
    (h : viewStep s (.compareAndSwap id) = some s') :
    (s.refreshing = none ∧ s' = {s with due := s.due.erase id, refreshing := some .started}) ∨
      s.refreshing ≠ none ∧ s' = {s with due := s.due.erase id} := by
  rw [viewStep] at h
  split at h
  · cases h
  · rcases hr : s.refreshing with _ | refresh
    · exact .inl ⟨rfl, by simpa [hr] using h.symm⟩
    · exact .inr ⟨by simp, by simpa [hr] using h.symm⟩

/-- A round that is refused is one the running refresh reads. -/
theorem Covered.reads {shown : Database} {s : ViewState} {id : Nat}
    (h : Covered s (.compareAndSwap id)) (hr : s.refreshing ≠ none) :
    Refresh.Reads s.refreshing shown id := by
  rcases hr' : s.refreshing with _ | _ | db | db
  · exact absurd hr' hr
  · exact trivial
  · simp only [Covered, hr'] at h
    exact h
  · simp only [Covered, hr'] at h
    exact h

theorem Tended.compareAndSwap {shown : Database} {s s' : ViewState} (h : Tended shown s) {id : Nat}
    (hg : Covered s (.compareAndSwap id)) (hstep : viewStep s (.compareAndSwap id) = some s') :
    Tended shown s' := by
  rcases viewStep_compareAndSwap hstep with ⟨-, rfl⟩ | ⟨hr, rfl⟩
  · exact ⟨h.nodup, h.view, h.earlier, by simp, by simp, fun _ _ => .inr trivial⟩
  · refine ⟨h.nodup, h.view, h.earlier, h.snapshot, h.installed, fun id' hid' => ?_⟩
    -- only the round that was refused leaves `due`
    by_cases heq : id' = id
    · subst heq
      exact .inr (hg.reads hr)
    · exact (h.tended id' hid').imp_left (List.mem_erase_of_ne heq).mpr

theorem viewStep_snapshot {s s' : ViewState} (h : viewStep s .snapshot = some s') :
    s.refreshing = some .started ∧ s' = {s with refreshing := some (.snapshot s.db)} := by
  rcases hr : s.refreshing with _ | _ | _ | _ <;> simp_all [viewStep]

theorem viewStep_install {s s' : ViewState} (h : viewStep s .install = some s') :
    ∃ db, s.refreshing = some (.snapshot db) ∧
      s' = {s with view := cumulativeScores db.checks, refreshing := some (.installed db)} := by
  rcases hr : s.refreshing with _ | _ | _ | _ <;> simp_all [viewStep]

theorem viewStep_clear {s s' : ViewState} (h : viewStep s .clear = some s') :
    ∃ db, s.refreshing = some (.installed db) ∧ s' = {s with refreshing := none} := by
  rcases hr : s.refreshing with _ | _ | _ | _ <;> simp_all [viewStep]

/-- Every covered step keeps the rounds tended to. -/
theorem Tended.step {shown : Database} {s s' : ViewState} {a : ViewEvent} (h : Tended shown s)
    (hg : Covered s a) (hstep : viewStep s a = some s') : ∃ shown', Tended shown' s' := by
  cases a with
  | commit round =>
    rw [viewStep] at hstep
    split at hstep
    · cases hstep
    · rename_i hnew
      obtain rfl := Option.some.inj hstep
      exact ⟨shown, h.commit hnew⟩
  | compareAndSwap id => exact ⟨shown, h.compareAndSwap hg hstep⟩
  | snapshot =>
    obtain ⟨-, rfl⟩ := viewStep_snapshot hstep
    refine ⟨shown, h.nodup, h.view, h.earlier, ?_, by simp,
      fun id hid => .inr hid⟩
    intro db hdb
    cases hdb
    exact Earlier.refl s.db
  | install =>
    obtain ⟨db, hr, rfl⟩ := viewStep_install hstep
    refine ⟨db, h.nodup, rfl, h.snapshot db hr, by simp, ?_, fun id hid => ?_⟩
    · intro db' hdb
      cases hdb
      rfl
    · have htended := h.tended id hid
      rwa [hr] at htended
  | clear =>
    obtain ⟨db, hr, rfl⟩ := viewStep_clear hstep
    refine ⟨shown, h.nodup, h.view, h.earlier, by simp, by simp, fun id hid => ?_⟩
    have htended := h.tended id hid
    rw [hr] at htended
    rwa [h.installed db hr] at htended
  | fail => exact hg.elim

/-- In every run in which no refresh fails and each round whose compare-and-swap is
refused is one the running refresh reads, the view reflects every saved round
whenever no refresh is running and no round is still to attempt one. -/
theorem view_fresh_of_covered (s : ViewState) (h : Reachable refreshes Covered s) (hq : s.Quiet) :
    s.Fresh := by
  obtain ⟨shown, htended⟩ : ∃ shown, Tended shown s := by
    refine h.invariant (I := fun s => ∃ shown, Tended shown s) ?_ ?_
    · rintro s ⟨hnd, hview, hdue, hr⟩
      refine ⟨s.db, hnd, hview, Earlier.refl _, ?_, ?_, fun id hid => .inr ?_⟩
      · simp [hr]
      · simp [hr]
      · rw [hr]
        exact hid
    · rintro s a s' ⟨shown, htended⟩ hg hstep
      exact htended.step hg hstep
  obtain ⟨hr, hdue⟩ := hq
  have hall : ∀ id ∈ s.db.rounds, id ∈ shown.rounds := by
    intro id hid
    have hcase := htended.tended id hid
    rw [hr, hdue] at hcase
    rcases hcase with hnil | hshown
    · cases hnil
    · exact hshown
  rw [ViewState.Fresh, htended.view, htended.earlier.checks_eq htended.nodup hall]

/-- One round after another, each refresh over before the next round: the view shows
both. -/
theorem view_fresh_of_covered_two :
    ∃ s, Reachable refreshes Covered s ∧ s.db.rounds = [1, 2] ∧ s.Fresh := by
  obtain ⟨s, hs, hq, hrounds⟩ := Reachable.exists_of_replay (S := refreshes) (G := Covered)
    (fun s => s.Quiet ∧ s.db.rounds = [1, 2]) ⟨{}, [], [], none⟩
    [.commit ⟨1, [⟨1, 1, [119], 5, true, [], []⟩]⟩, .compareAndSwap 1, .snapshot, .install, .clear,
      .commit ⟨2, [⟨1, 2, [119], 5, true, [], []⟩]⟩, .compareAndSwap 2, .snapshot, .install, .clear]
    ⟨List.nodup_nil, rfl, rfl, rfl⟩ (by decide)
  exact ⟨s, hs, hrounds, view_fresh_of_covered s hs hq⟩

/-- Round 2 is saved after the refresh for round 1 has read the tables and before it
is over: nothing is going on any more, and the view shows round 1 only. -/
theorem refresh_lost : ∃ s, Reachable refreshes Succeeds s ∧ s.Quiet ∧ ¬s.Fresh := by
  refine Reachable.exists_of_replay (fun s : ViewState => s.Quiet ∧ ¬s.Fresh) ⟨{}, [], [], none⟩
    [.commit ⟨1, [⟨1, 1, [119], 5, true, [], []⟩]⟩, .compareAndSwap 1, .snapshot,
      .commit ⟨2, [⟨1, 2, [119], 5, true, [], []⟩]⟩, .compareAndSwap 2, .install, .clear] ?_ ?_
  · exact ⟨List.nodup_nil, rfl, rfl, rfl⟩
  · decide

end QuotientScoring.Engine
