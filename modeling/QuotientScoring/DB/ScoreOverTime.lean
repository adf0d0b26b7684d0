import QuotientScoring.DB.Schema
import QuotientScoring.Lib.GoMap
import QuotientScoring.Lib.Rows

/-! The scores of all teams after each round.

`cumulativeScores` is the view: the points a team has passed so far, in each round
in which it was checked. `getServiceCheckSumByRound` copies the view into one map
per round and then takes each penalty off every round from its own on, making an
entry where there is none. An entry made that way starts at zero, not at the
team's points: `score_over_time_iff` says that the values are right exactly when
no penalised team with points misses a round. -/
namespace QuotientScoring.DB

/-- A row of the view `cumulative_scores`. -/
structure CumulativeScore where
  roundID : Nat
  teamID : Nat
  cumulativePoints : Int
deriving DecidableEq, Repr

/-- The points of the team's passed checks, in the rounds up to `r`. -/
def passedPoints (t r : Nat) (checks : List ServiceCheckSchema) : Int :=
  ((checks.filter (fun check => check.teamID = t ∧ check.roundID ≤ r)).map
    (fun check => if check.result then check.points else 0)).sum

/-- The team's penalties, in the rounds up to `r`. -/
def penalties (t r : Nat) (slas : List SLASchema) : Int :=
  ((slas.filter (fun sla => sla.teamID = t ∧ sla.roundID ≤ r)).map SLASchema.penalty).sum

/-- What a refresh puts into the view. -/
def cumulativeScores (checks : List ServiceCheckSchema) : List CumulativeScore :=
  (checks.map (fun check => ⟨check.roundID, check.teamID,
    passedPoints check.teamID check.roundID checks⟩ : ServiceCheckSchema → CumulativeScore)).dedup

/-- `math.MaxInt`. -/
def maxInt : Nat := 2 ^ 63 - 1

/-- The scores by round, the first round's first. A map not made yet reads as an empty one. -/
abbrev ScoresByRound := List (GoMap Nat Int)

def invalidRoundID (id : Nat) (result : ScoresByRound) : Bool :=
  id = 0 || id > maxInt || id > result.length

def putPoints (result : ScoresByRound) (row : CumulativeScore) : ScoresByRound :=
  if invalidRoundID row.roundID result then result -- Skip invalid round IDs
  else
    -- id starts at 1 so 0 index needs -1
    result.modify (row.roundID - 1) (fun m => m.insert row.teamID row.cumulativePoints)

/-- One group of the penalties: the round and the team, and their sum. -/
def subtractPenalty (result : ScoresByRound) (g : (Nat × Nat) × Int) : ScoresByRound :=
  if invalidRoundID g.1.1 result then result -- Skip invalid round IDs
  else result.mapIdx (fun i m =>
    if g.1.1 - 1 ≤ i then m.insert g.1.2 ((m.lookup g.1.2).getD 0 - g.2) else m)

def getServiceCheckSumByRound (db : Database) (view : List CumulativeScore) : ScoresByRound :=
  let result := List.replicate (getLastRound db).id ∅
  let rows := view.insertionSort
    (fun a b => a.teamID < b.teamID ∨ a.teamID = b.teamID ∧ a.roundID ≤ b.roundID)
  let result := rows.foldl putPoints result
  let groups := Rows.groupBy (fun sla => (sla.roundID, sla.teamID))
    (fun slas => (slas.map SLASchema.penalty).sum) db.slas
  groups.foldl subtractPenalty result

/-- The entry for a team in a round. -/
def entry (result : ScoresByRound) (t r : Nat) : Option Int :=
  (result[r - 1]?).bind (fun m => m.lookup t)

/-! ### One entry -/

theorem length_putPoints (result : ScoresByRound) (row : CumulativeScore) :
    (putPoints result row).length = result.length := by
  unfold putPoints
  split
  · rfl
  · exact List.length_modify ..

theorem length_subtractPenalty (result : ScoresByRound) (g : (Nat × Nat) × Int) :
    (subtractPenalty result g).length = result.length := by
  unfold subtractPenalty
  split
  · rfl
  · exact List.length_mapIdx ..

/-- A round up to the last one. -/
structure InRange (r last : Nat) : Prop where
  pos : 1 ≤ r
  le : r ≤ last
  int : last ≤ maxInt

theorem entry_putPoints {result : ScoresByRound} {r : Nat} (hr : InRange r result.length) (t : Nat)
    (row : CumulativeScore) : entry (putPoints result row) t r =
      if row.teamID = t ∧ row.roundID = r then some row.cumulativePoints else entry result t r := by
  obtain ⟨hpos, hle, hint⟩ := hr
  unfold putPoints
  split
  · rename_i hinvalid
    have hne : ¬(row.teamID = t ∧ row.roundID = r) := by
      rintro ⟨-, rfl⟩
      simp [invalidRoundID] at hinvalid
      omega
    rw [if_neg hne]
  · rename_i hvalid
    simp only [invalidRoundID, Bool.or_eq_true, decide_eq_true_eq, not_or] at hvalid
    have hlt : r - 1 < result.length := by omega
    simp only [entry, List.getElem?_modify, List.getElem?_eq_getElem hlt]
    by_cases hround : row.roundID = r
    · subst hround
      by_cases hteam : row.teamID = t
      · subst hteam
        simp
      · simp [hteam, AList.lookup_insert_ne (Ne.symm hteam)]
    · have hne : row.roundID - 1 ≠ r - 1 := by omega
      simp [hround, hne]

theorem entry_subtractPenalty {result : ScoresByRound} {r : Nat} (hr : InRange r result.length)
    (t : Nat) (g : (Nat × Nat) × Int) : entry (subtractPenalty result g) t r =
      if g.1.2 = t ∧ 1 ≤ g.1.1 ∧ g.1.1 ≤ r then some ((entry result t r).getD 0 + -g.2)
      else entry result t r := by
  obtain ⟨hpos, hle, hint⟩ := hr
  unfold subtractPenalty
  split
  · rename_i hinvalid
    have hne : ¬(g.1.2 = t ∧ 1 ≤ g.1.1 ∧ g.1.1 ≤ r) := by
      rintro ⟨-, h1, h2⟩
      simp [invalidRoundID] at hinvalid
      omega
    rw [if_neg hne]
  · rename_i hvalid
    simp only [invalidRoundID, Bool.or_eq_true, decide_eq_true_eq, not_or] at hvalid
    have hlt : r - 1 < result.length := by omega
    simp only [entry, List.getElem?_mapIdx, List.getElem?_eq_getElem hlt, Option.map_some,
      Option.bind_some]
    by_cases hround : g.1.1 ≤ r
    · have hidx : g.1.1 - 1 ≤ r - 1 := by omega
      have hpos' : 1 ≤ g.1.1 := by omega
      by_cases hteam : g.1.2 = t
      · subst hteam
        simp [hidx, hpos', hround, sub_eq_add_neg]
      · simp [hidx, hteam, AList.lookup_insert_ne (Ne.symm hteam)]
    · have hidx : ¬g.1.1 - 1 ≤ r - 1 := by omega
      simp [hidx, hround]

/-! ### All of them -/

theorem foldl_putPoints_length (rows : List CumulativeScore) (result : ScoresByRound) :
    (rows.foldl putPoints result).length = result.length := by
  induction rows generalizing result with
  | nil => rfl
  | cons row rest ih => rw [List.foldl_cons, ih, length_putPoints]

theorem mem_cumulativeScores {checks : List ServiceCheckSchema} {row : CumulativeScore} :
    row ∈ cumulativeScores checks ↔ ∃ check ∈ checks, check.teamID = row.teamID ∧
      check.roundID = row.roundID ∧
      row.cumulativePoints = passedPoints row.teamID row.roundID checks := by
  rw [cumulativeScores, List.mem_dedup, List.mem_map]
  constructor
  · rintro ⟨check, hcheck, rfl⟩
    exact ⟨check, hcheck, rfl, rfl, rfl⟩
  · rintro ⟨check, hcheck, hteam, hround, hpoints⟩
    refine ⟨check, hcheck, ?_⟩
    rw [hteam, hround, ← hpoints]

/-- The team has a check in the round. -/
def CheckedIn (t r : Nat) (checks : List ServiceCheckSchema) : Prop :=
  ∃ check ∈ checks, check.teamID = t ∧ check.roundID = r

instance (t r : Nat) (checks : List ServiceCheckSchema) : Decidable (CheckedIn t r checks) :=
  inferInstanceAs (Decidable (∃ check ∈ checks, check.teamID = t ∧ check.roundID = r))

/-- The first loop writes the rows of the team and the round, one over the other. -/
theorem entry_foldl_putPoints {r last : Nat} (hr : InRange r last) (t : Nat)
    (rows : List CumulativeScore) :
    entry (rows.foldl putPoints (List.replicate last ∅)) t r =
      (rows.filter (fun row => row.teamID = t ∧ row.roundID = r)).foldl
        (fun _ row => some row.cumulativePoints) none := by
  have hempty : entry (List.replicate last ∅) t r = none := by
    have hlt : r - 1 < last := by
      have := hr.pos
      have := hr.le
      omega
    simp [entry, hlt]
  rw [← hempty]
  exact Rows.foldl_observe_of (fun result : ScoresByRound => result.length = last)
    (fun result => entry result t r) putPoints (fun row => row.teamID = t ∧ row.roundID = r)
    (fun _ row => some row.cumulativePoints)
    (fun result row h => (length_putPoints result row).trans h)
    (fun result row h => by simpa using entry_putPoints (h.symm ▸ hr) t row)
    rows List.length_replicate

/-- The first loop: an entry where the team has a check in the round. -/
theorem entry_points {rows : List CumulativeScore} {checks : List ServiceCheckSchema}
    (hrows : rows.Perm (cumulativeScores checks)) {r last : Nat} (hr : InRange r last) (t : Nat) :
    entry (rows.foldl putPoints (List.replicate last ∅)) t r =
      if CheckedIn t r checks then some (passedPoints t r checks) else none := by
  have hvalue : ∀ row ∈ rows.filter (fun row => row.teamID = t ∧ row.roundID = r),
      row.cumulativePoints = passedPoints t r checks := by
    intro row hrow
    obtain ⟨hmem, hkey⟩ := List.mem_filter.mp hrow
    obtain ⟨hteam, hround⟩ := of_decide_eq_true hkey
    obtain ⟨_, _, _, _, hpoints⟩ := mem_cumulativeScores.mp (hrows.mem_iff.mp hmem)
    rw [hpoints, hteam, hround]
  rw [entry_foldl_putPoints hr, Rows.foldl_overwrite _ _ _ hvalue]
  by_cases hchecked : CheckedIn t r checks
  · obtain ⟨check, hcheck, hteam, hround⟩ := hchecked
    have hrow : (⟨r, t, passedPoints t r checks⟩ : CumulativeScore) ∈
        rows.filter (fun row => row.teamID = t ∧ row.roundID = r) := by
      refine List.mem_filter.mpr ⟨hrows.mem_iff.mpr ?_, by simp⟩
      exact mem_cumulativeScores.mpr ⟨check, hcheck, hteam, hround, rfl⟩
    rw [if_neg (List.ne_nil_of_mem hrow), if_pos ⟨check, hcheck, hteam, hround⟩]
  · have hnil : rows.filter (fun row => row.teamID = t ∧ row.roundID = r) = [] := by
      refine List.filter_eq_nil_iff.mpr fun row hrow hkey => hchecked ?_
      obtain ⟨hteam, hround⟩ := of_decide_eq_true hkey
      obtain ⟨check, hcheck, ht, hr, _⟩ := mem_cumulativeScores.mp (hrows.mem_iff.mp hrow)
      exact ⟨check, hcheck, ht.trans hteam, hr.trans hround⟩
    rw [if_pos hnil, if_neg hchecked]

/-- Every saved round has an id an array can be indexed by, and every SLA row refers
to a saved round. -/
structure Saved (db : Database) : Prop where
  ids : ∀ id ∈ db.rounds, 1 ≤ id ∧ id ≤ maxInt
  slas : ∀ sla ∈ db.slas, sla.roundID ∈ db.rounds

/-- The team has a penalty in a round up to `r`. -/
def PenalisedBy (t r : Nat) (slas : List SLASchema) : Prop :=
  ∃ sla ∈ slas, sla.teamID = t ∧ sla.roundID ≤ r

instance (t r : Nat) (slas : List SLASchema) : Decidable (PenalisedBy t r slas) :=
  inferInstanceAs (Decidable (∃ sla ∈ slas, sla.teamID = t ∧ sla.roundID ≤ r))

theorem filter_eq_nil_iff_not_penalisedBy {t r : Nat} {slas : List SLASchema} :
    slas.filter (fun sla => sla.teamID = t ∧ sla.roundID ≤ r) = [] ↔ ¬PenalisedBy t r slas := by
  simp [PenalisedBy, List.filter_eq_nil_iff]

/-- The second loop takes the groups of the team off that are of a round up to `r`. -/
theorem entry_foldl_subtractPenalty {result : ScoresByRound} {r : Nat}
    (hr : InRange r result.length) (t : Nat) (groups : List ((Nat × Nat) × Int)) :
    entry (groups.foldl subtractPenalty result) t r =
      (groups.filter (fun g => g.1.2 = t ∧ 1 ≤ g.1.1 ∧ g.1.1 ≤ r)).foldl
        (fun o g => some (o.getD 0 + -g.2)) (entry result t r) :=
  Rows.foldl_observe_of (fun s : ScoresByRound => s.length = result.length)
    (fun s => entry s t r) subtractPenalty (fun g => g.1.2 = t ∧ 1 ≤ g.1.1 ∧ g.1.1 ≤ r)
    (fun o g => some (o.getD 0 + -g.2)) (fun s g h => (length_subtractPenalty s g).trans h)
    (fun s g h => by simpa using entry_subtractPenalty (h.symm ▸ hr) t g) groups rfl

/-- The second loop: each penalty so far is taken off whatever entry there is. -/
theorem entry_penalties {slas : List SLASchema} (hslas : ∀ sla ∈ slas, 1 ≤ sla.roundID)
    {result : ScoresByRound} {r : Nat} (hr : InRange r result.length) (t : Nat) :
    entry ((Rows.groupBy (fun sla => (sla.roundID, sla.teamID))
        (fun slas => (slas.map SLASchema.penalty).sum) slas).foldl subtractPenalty result) t r =
      if PenalisedBy t r slas then some ((entry result t r).getD 0 - penalties t r slas)
      else entry result t r := by
  let hit : Nat × Nat → Bool := fun k => k.2 = t ∧ 1 ≤ k.1 ∧ k.1 ≤ r
  have hrows : slas.filter (fun sla => hit (sla.roundID, sla.teamID)) =
      slas.filter (fun sla => sla.teamID = t ∧ sla.roundID ≤ r) := by
    refine List.filter_congr fun sla hsla => ?_
    simp [hit, hslas sla hsla]
  have hfold := entry_foldl_subtractPenalty hr t
    (Rows.groupBy (fun sla : SLASchema => (sla.roundID, sla.teamID))
      (fun slas => (slas.map SLASchema.penalty).sum) slas)
  have hsum := Rows.sum_groupBy (fun sla : SLASchema => (sla.roundID, sla.teamID))
    SLASchema.penalty hit slas
  have hnil := Rows.filter_groupBy_eq_nil (fun sla : SLASchema => (sla.roundID, sla.teamID))
    (fun slas => (slas.map SLASchema.penalty).sum) hit slas
  rw [hrows] at hsum hnil
  rw [hfold, show (fun g : (Nat × Nat) × Int => decide (g.1.2 = t ∧ 1 ≤ g.1.1 ∧ g.1.1 ≤ r)) =
    fun g => hit g.1 from rfl, Rows.foldl_add]
  simp only [hnil, filter_eq_nil_iff_not_penalisedBy]
  by_cases hp : PenalisedBy t r slas
  · rw [if_neg (not_not.mpr hp), if_pos hp, penalties, ← hsum, sub_eq_add_neg, List.sum_neg,
      List.map_map]
    rfl
  · rw [if_pos hp, if_neg hp]

theorem inRange_of_saved {db : Database} (h : Saved db) {r : Nat} (hpos : 1 ≤ r)
    (hle : r ≤ (getLastRound db).id) : InRange r (getLastRound db).id := by
  refine ⟨hpos, hle, ?_⟩
  unfold getLastRound
  cases hm : db.rounds.max? with
  | none => exact Nat.zero_le _
  | some id => exact (h.ids id (List.max?_mem hm)).2

/-- The entry of a team in a round, from the tables. -/
theorem entry_getServiceCheckSumByRound {db : Database} (h : Saved db) (t : Nat) {r : Nat}
    (hpos : 1 ≤ r) (hle : r ≤ (getLastRound db).id) :
    entry (getServiceCheckSumByRound db (cumulativeScores db.checks)) t r =
      let points := if CheckedIn t r db.checks then some (passedPoints t r db.checks) else none
      if PenalisedBy t r db.slas then some (points.getD 0 - penalties t r db.slas) else points := by
  have hr := inRange_of_saved h hpos hle
  have hslas : ∀ sla ∈ db.slas, 1 ≤ sla.roundID := fun sla hsla => (h.ids _ (h.slas sla hsla)).1
  unfold getServiceCheckSumByRound
  rw [entry_penalties hslas, entry_points (List.perm_insertionSort _ _) hr]
  rw [foldl_putPoints_length, List.length_replicate]
  exact hr

/-! ### Under other ids -/

/-- The first loop leaves what the view has last for the team and the round; reading the view by
team and round does not change that. -/
theorem entry_view {r last : Nat} (hr : InRange r last) (t : Nat) (view : List CumulativeScore) :
    entry ((view.insertionSort (fun a b =>
      a.teamID < b.teamID ∨ a.teamID = b.teamID ∧ a.roundID ≤ b.roundID)).foldl putPoints
        (List.replicate last ∅)) t r =
      (view.filter (fun row => row.teamID = t ∧ row.roundID = r)).getLast?.map
        CumulativeScore.cumulativePoints := by
  have hsame : ∀ a b : CumulativeScore, decide (a.teamID = t ∧ a.roundID = r) = true →
      decide (b.teamID = t ∧ b.roundID = r) = true →
        a.teamID < b.teamID ∨ a.teamID = b.teamID ∧ a.roundID ≤ b.roundID := by
    intro a b ha hb
    obtain ⟨hta, hra⟩ := of_decide_eq_true ha
    obtain ⟨htb, hrb⟩ := of_decide_eq_true hb
    exact .inr ⟨hta.trans htb.symm, Nat.le_of_eq (hra.trans hrb.symm)⟩
  rw [entry_foldl_putPoints hr, Rows.foldl_last, Option.or_none, Rows.filter_insertionSort _ hsame]

/-- There is a map for each round up to the last one. -/
theorem length_getServiceCheckSumByRound (db : Database) (view : List CumulativeScore) :
    (getServiceCheckSumByRound db view).length = (getLastRound db).id := by
  have hgroups : ∀ (groups : List ((Nat × Nat) × Int)) (result : ScoresByRound),
      (groups.foldl subtractPenalty result).length = result.length := by
    intro groups
    induction groups with
    | nil => exact fun _ => rfl
    | cons g rest ih => exact fun result => (ih _).trans (length_subtractPenalty result g)
  unfold getServiceCheckSumByRound
  simp only
  rw [hgroups, foldl_putPoints_length, List.length_replicate]

/-- Only the rounds say which one is the last. -/
theorem getLastRound_id_congr {db db' : Database} (h : db'.rounds = db.rounds) :
    (getLastRound db').id = (getLastRound db).id := by
  unfold getLastRound
  rw [h]
  cases db.rounds.max? <;> rfl

/-- Where every team has another id, in the view and in the penalties, its entries are found
under the other id. -/
theorem entry_renamed {f : Nat → Nat} (hf : Function.Injective f) {db db' : Database}
    (hrounds : db'.rounds = db.rounds)
    (hslas : db'.slas = db.slas.map (fun sla => {sla with teamID := f sla.teamID}))
    (view : List CumulativeScore) (t : Nat) {r : Nat} (hr : InRange r (getLastRound db).id) :
    entry (getServiceCheckSumByRound db'
      (view.map (fun row => {row with teamID := f row.teamID}))) (f t) r =
      entry (getServiceCheckSumByRound db view) t r := by
  have hlast := getLastRound_id_congr hrounds
  have hview : ((view.map (fun row => {row with teamID := f row.teamID})).filter
      (fun row => row.teamID = f t ∧ row.roundID = r)) =
      (view.filter (fun row => row.teamID = t ∧ row.roundID = r)).map
        (fun row => {row with teamID := f row.teamID}) := by
    rw [List.filter_map]
    congr 1
    refine List.filter_congr fun row _ => ?_
    simp [hf.eq_iff]
  have hgroups := Rows.groupBy_map (fun sla : SLASchema => (sla.roundID, sla.teamID))
    (fun slas => (slas.map SLASchema.penalty).sum)
    (fun sla : SLASchema => {sla with teamID := f sla.teamID})
    (Function.injective_id.prodMap hf) (fun _ => rfl) (fun slas => by rw [List.map_map]; rfl) db.slas
  have hhit : (fun g : (Nat × Nat) × Int => decide (g.1.2 = f t ∧ 1 ≤ g.1.1 ∧ g.1.1 ≤ r)) ∘
      (fun k : (Nat × Nat) × Int => (Prod.map id f k.1, k.2)) =
      fun g => decide (g.1.2 = t ∧ 1 ≤ g.1.1 ∧ g.1.1 ≤ r) := by
    funext g
    simp [hf.eq_iff]
  have hlen : ∀ rows : List CumulativeScore,
      InRange r (rows.foldl putPoints (List.replicate (getLastRound db).id ∅)).length := by
    intro rows
    rw [foldl_putPoints_length, List.length_replicate]
    exact hr
  unfold getServiceCheckSumByRound
  simp only
  rw [hlast, hslas, hgroups, entry_foldl_subtractPenalty (hlen _),
    entry_foldl_subtractPenalty (hlen _), entry_view hr, entry_view hr, hview, List.getLast?_map,
    Option.map_map, List.filter_map, hhit, List.foldl_map]
  rfl

/-- The values are right: an entry is the team's points less its penalties so far,
and a team has one in every round in which it was checked. -/
def ScoresRight (db : Database) (scores : ScoresByRound) : Prop :=
  ∀ t r, 1 ≤ r → r ≤ (getLastRound db).id →
    (∀ v, entry scores t r = some v → v = passedPoints t r db.checks - penalties t r db.slas) ∧
      (CheckedIn t r db.checks → (entry scores t r).isSome)

/-- A team penalised in an earlier round or this one is checked in this one, or has no
points to lose. -/
def PenalisedChecked (db : Database) : Prop :=
  ∀ t r, 1 ≤ r → r ≤ (getLastRound db).id → PenalisedBy t r db.slas →
    CheckedIn t r db.checks ∨ passedPoints t r db.checks = 0

/-- With a freshly refreshed view, and for all tables whose SLA rows refer to saved
rounds, the scores over time are right exactly when every penalised team with points
is checked in every round from its first penalty on. -/
theorem score_over_time_iff (db : Database) (h : Saved db) :
    ScoresRight db (getServiceCheckSumByRound db (cumulativeScores db.checks)) ↔
      PenalisedChecked db := by
  have hpenalties : ∀ t r, ¬PenalisedBy t r db.slas → penalties t r db.slas = 0 := by
    intro t r hp
    rw [penalties, filter_eq_nil_iff_not_penalisedBy.mpr hp]
    rfl
  constructor
  · intro hright t r hpos hle hp
    by_cases hchecked : CheckedIn t r db.checks
    · exact .inl hchecked
    · have hentry := entry_getServiceCheckSumByRound h t hpos hle
      rw [if_neg hchecked, if_pos hp, Option.getD_none] at hentry
      have hvalue := (hright t r hpos hle).1 _ hentry
      exact .inr (by omega)
  · intro hcond t r hpos hle
    rw [entry_getServiceCheckSumByRound h t hpos hle]
    by_cases hp : PenalisedBy t r db.slas
    · rcases hcond t r hpos hle hp with hchecked | hzero
      · simp [hp, hchecked]
      · by_cases hchecked : CheckedIn t r db.checks <;> simp [hp, hchecked, hzero]
    · by_cases hchecked : CheckedIn t r db.checks <;> simp [hp, hchecked, hpenalties t r hp]

/-- Team 1 passes for five points in round 1 and is penalised three; round 2 checks
only team 2. The score of team 1 after round 2 is three below zero. -/
theorem score_lost :
    let check : ServiceCheckSchema := ⟨1, 1, [119], 5, true, [], []⟩
    let db : Database := ⟨[], [1, 2], [check, {check with teamID := 2, roundID := 2}],
      [⟨1, 1, [120], 3⟩]⟩
    let scores := getServiceCheckSumByRound db (cumulativeScores db.checks)
    Saved db ∧ entry scores 1 2 = some (-3) ∧ ¬ScoresRight db scores := by
  intro check db scores
  have hentry : entry scores 1 2 = some (-3) := by decide
  refine ⟨⟨by decide, by decide⟩, hentry, fun hright => ?_⟩
  have hvalue := (hright 1 2 (by decide) (by decide)).1 _ hentry
  revert hvalue
  decide

/-- The same tables with team 1 checked in round 2 as well. -/
theorem score_over_time_checked :
    let check : ServiceCheckSchema := ⟨1, 1, [119], 5, true, [], []⟩
    let db : Database := ⟨[], [1, 2], [check, {check with roundID := 2}], [⟨1, 1, [120], 3⟩]⟩
    ScoresRight db (getServiceCheckSumByRound db (cumulativeScores db.checks)) := by
  intro check db
  refine (score_over_time_iff db ⟨by decide, by decide⟩).mpr fun t r hpos hle hp => ?_
  obtain ⟨sla, hsla, rfl, _⟩ := hp
  obtain rfl : sla = ⟨1, 1, [120], 3⟩ := by simpa [db] using hsla
  have hlast : r ≤ 2 := hle
  obtain rfl | rfl : r = 1 ∨ r = 2 := by omega
  · exact .inl (by decide)
  · exact .inl (by decide)

end QuotientScoring.DB
