import QuotientScoring.DB.Counters

/-! Scores by service and by team.

`getServiceScores` merges two grouped queries through a map of maps and sorts what
it holds; `getTeamScore` sums a team's rows directly. `mem_getServiceScores` and
`sorted_getServiceScores` say what the first returns: for every service of every
team that has a check row or an SLA row one record, in order. -/
namespace QuotientScoring.DB

structure ServiceScoreData where
  teamID : Nat
  serviceName : GoString
  points : Int
  violations : Int
  totalPenalty : Int
deriving DecidableEq, Inhabited, Repr

/-- The team and the service a record is about. -/
def ServiceScoreData.key (sd : ServiceScoreData) : Nat × GoString := (sd.teamID, sd.serviceName)

/-- The team and the service an SLA row is about. -/
def SLASchema.key (sla : SLASchema) : Nat × GoString := (sla.teamID, sla.serviceName)

/-- `CASE WHEN result = true THEN points ELSE 0 END`. -/
def ServiceCheckSchema.scored (check : ServiceCheckSchema) : Int :=
  if check.result then check.points else 0

/-- The comparison the records are sorted by: at most. -/
def ServiceScoreData.AtMost (a b : ServiceScoreData) : Prop :=
  if a.teamID ≠ b.teamID then a.teamID ≤ b.teamID else a.serviceName ≤ b.serviceName

instance : DecidableRel ServiceScoreData.AtMost := fun a b =>
  inferInstanceAs (Decidable (if a.teamID ≠ b.teamID then _ else _))

def pointsRow (m : GoMap₂ Nat GoString ServiceScoreData) (g : (Nat × GoString) × Int) :
    GoMap₂ Nat GoString ServiceScoreData :=
  (m.make g.1.1).put g.1.1 g.1.2 ⟨g.1.1, g.1.2, g.2, 0, 0⟩

def slaTotals (m : GoMap₂ Nat GoString ServiceScoreData) (g : (Nat × GoString) × (Int × Int)) :
    GoMap₂ Nat GoString ServiceScoreData :=
  let m := m.ensure g.1.1 g.1.2 ⟨g.1.1, g.1.2, 0, 0, 0⟩
  m.put g.1.1 g.1.2
    {m.get g.1.1 g.1.2 with violations := g.2.1, totalPenalty := g.2.2}

def scoreMap (db : Database) : GoMap₂ Nat GoString ServiceScoreData :=
  -- First get the total points per service per team
  let pointsRows := Rows.groupBy ServiceCheckSchema.key
    (fun checks => (checks.map ServiceCheckSchema.scored).sum) db.checks
  let m := pointsRows.foldl pointsRow ∅
  -- Then get the total penalties and violation counts per service per team from SLA
  let slaRows := Rows.groupBy SLASchema.key
    (fun slas => ((slas.length : Int), (slas.map SLASchema.penalty).sum)) db.slas
  slaRows.foldl slaTotals m

def getServiceScores (db : Database) : List ServiceScoreData :=
  ((scoreMap db).toList.map (fun e => e.2.2)).insertionSort ServiceScoreData.AtMost

/-- The points of the team's passed checks, the number of its SLA rows and their sum. -/
def getTeamScore (db : Database) (teamID : Nat) : Int × Int × Int :=
  let servicePoints := ((db.checks.filter (fun check => check.teamID = teamID ∧ check.result)).map
    ServiceCheckSchema.points).sum
  let slas := db.slas.filter (fun sla => sla.teamID = teamID)
  (servicePoints, slas.length, (slas.map SLASchema.penalty).sum)

/-! ### One record -/

/-- The service has a check row or an SLA row. -/
def Occurs (key : Nat × GoString) (db : Database) : Prop :=
  key ∈ db.checks.map ServiceCheckSchema.key ∨ key ∈ db.slas.map SLASchema.key

instance (key : Nat × GoString) (db : Database) : Decidable (Occurs key db) :=
  inferInstanceAs (Decidable (_ ∨ _))

/-- The record of a service, from the tables. -/
def serviceScore (key : Nat × GoString) (db : Database) : ServiceScoreData :=
  { teamID := key.1
    serviceName := key.2
    points := ((db.checks.filter (fun check => check.key = key)).map ServiceCheckSchema.scored).sum
    violations := (db.slas.filter (fun sla => sla.key = key)).length
    totalPenalty := ((db.slas.filter (fun sla => sla.key = key)).map SLASchema.penalty).sum }

theorem find?_pointsRow (m : GoMap₂ Nat GoString ServiceScoreData)
    (g : (Nat × GoString) × Int) (t : Nat) (n : GoString) : (pointsRow m g).find? t n =
      if g.1 = (t, n) then some ⟨t, n, g.2, 0, 0⟩ else m.find? t n := by
  obtain ⟨⟨t', n'⟩, points⟩ := g
  simp only [pointsRow, GoMap₂.find?_put, GoMap₂.find?_make, Prod.mk.injEq]
  split
  · rename_i h
    obtain ⟨rfl, rfl⟩ := h
    rfl
  · rfl

theorem find?_slaTotals (m : GoMap₂ Nat GoString ServiceScoreData)
    (g : (Nat × GoString) × (Int × Int)) (t : Nat) (n : GoString) : (slaTotals m g).find? t n =
      if g.1 = (t, n) then some {(m.find? t n).getD ⟨t, n, 0, 0, 0⟩ with
        violations := g.2.1, totalPenalty := g.2.2} else m.find? t n := by
  obtain ⟨⟨t', n'⟩, violations, penalty⟩ := g
  simp only [slaTotals, GoMap₂.find?_put, GoMap₂.find?_ensure, GoMap₂.get_ensure, Prod.mk.injEq]
  by_cases h : t' = t ∧ n' = n
  · obtain ⟨rfl, rfl⟩ := h
    simp
  · simp [h]

/-- Whatever the order in which the two queries return their groups, the map ends with
the record of every service that occurs. -/
theorem find?_scoreMap (db : Database) (t : Nat) (n : GoString) :
    (scoreMap db).find? t n =
      if Occurs (t, n) db then some (serviceScore (t, n) db) else none := by
  have hpoints := Rows.foldl_observe (fun m : GoMap₂ Nat GoString ServiceScoreData => m.find? t n)
    pointsRow (fun g => g.1 = (t, n)) (fun _ g => some ⟨t, n, g.2, 0, 0⟩)
    (fun m g => by simpa using find?_pointsRow m g t n)
    (Rows.groupBy ServiceCheckSchema.key
      (fun checks => (checks.map ServiceCheckSchema.scored).sum) db.checks) ∅
  have hslas := Rows.foldl_observe (fun m : GoMap₂ Nat GoString ServiceScoreData => m.find? t n)
    slaTotals (fun g => g.1 = (t, n)) (fun o g => some {o.getD ⟨t, n, 0, 0, 0⟩ with
      violations := g.2.1, totalPenalty := g.2.2})
    (fun m g => by simpa using find?_slaTotals m g t n)
    (Rows.groupBy SLASchema.key
      (fun slas => ((slas.length : Int), (slas.map SLASchema.penalty).sum)) db.slas)
    ((Rows.groupBy ServiceCheckSchema.key
      (fun checks => (checks.map ServiceCheckSchema.scored).sum) db.checks).foldl pointsRow ∅)
  have hnone : ∀ {ρ : Type} (key : ρ → Nat × GoString) (rows : List ρ), (t, n) ∉ rows.map key →
      rows.filter (fun r => key r = (t, n)) = [] := by
    intro ρ key rows h
    refine List.filter_eq_nil_iff.mpr fun r hr hk => h ?_
    exact List.mem_map.mpr ⟨r, hr, of_decide_eq_true hk⟩
  rw [Rows.filter_groupBy] at hpoints hslas
  rw [scoreMap, hslas, hpoints]
  by_cases hc : (t, n) ∈ db.checks.map ServiceCheckSchema.key <;>
    by_cases hs : (t, n) ∈ db.slas.map SLASchema.key
  · simp [Occurs, hc, hs, serviceScore]
  · simp [Occurs, hc, hs, serviceScore, hnone SLASchema.key db.slas hs]
  · simp [Occurs, hc, hs, serviceScore, hnone ServiceCheckSchema.key db.checks hc]
  · simp [Occurs, hc, hs]

theorem mem_getServiceScores {db : Database} {sd : ServiceScoreData} :
    sd ∈ getServiceScores db ↔ Occurs sd.key db ∧ sd = serviceScore sd.key db := by
  rw [getServiceScores, (List.perm_insertionSort _ _).mem_iff, List.mem_map]
  constructor
  · rintro ⟨⟨t, n, sd'⟩, he, rfl⟩
    have hfind := GoMap₂.mem_toList.mp he
    rw [find?_scoreMap] at hfind
    split at hfind
    · rename_i hoccurs
      obtain rfl := Option.some.inj hfind
      exact ⟨hoccurs, rfl⟩
    · cases hfind
  · rintro ⟨hoccurs, hsd⟩
    refine ⟨(sd.teamID, sd.serviceName, sd), GoMap₂.mem_toList.mpr ?_, rfl⟩
    rw [find?_scoreMap, if_pos (show Occurs (sd.teamID, sd.serviceName) db from hoccurs)]
    exact congrArg some hsd.symm

/-- A record for a service that occurs, and for no other. -/
theorem mem_keys_getServiceScores {db : Database} {key : Nat × GoString} :
    key ∈ (getServiceScores db).map ServiceScoreData.key ↔ Occurs key db := by
  rw [List.mem_map]
  constructor
  · rintro ⟨sd, hsd, rfl⟩
    exact (mem_getServiceScores.mp hsd).1
  · intro h
    exact ⟨serviceScore key db, mem_getServiceScores.mpr ⟨h, rfl⟩, rfl⟩

/-! ### The order -/

/-- In order of the team and, for one team, of the name's bytes. -/
def ServiceScoreData.Before (a b : ServiceScoreData) : Prop :=
  a.teamID < b.teamID ∨ a.teamID = b.teamID ∧ a.serviceName < b.serviceName

theorem atMost_iff {a b : ServiceScoreData} : a.AtMost b ↔
    a.teamID < b.teamID ∨ a.teamID = b.teamID ∧ a.serviceName ≤ b.serviceName := by
  unfold ServiceScoreData.AtMost
  by_cases h : a.teamID = b.teamID
  · simp [h]
  · rw [if_pos h]
    constructor
    · intro hle
      exact .inl (by omega)
    · rintro (hlt | ⟨heq, -⟩)
      · omega
      · exact absurd heq h

instance : Std.Total ServiceScoreData.AtMost where
  total a b := by
    rw [atMost_iff, atMost_iff]
    rcases Nat.lt_trichotomy a.teamID b.teamID with h | h | h
    · exact .inl (.inl h)
    · exact (Std.le_total (a := a.serviceName) (b := b.serviceName)).imp (fun hle => .inr ⟨h, hle⟩)
        (fun hle => .inr ⟨h.symm, hle⟩)
    · exact .inr (.inl h)

instance : IsTrans ServiceScoreData ServiceScoreData.AtMost where
  trans a b c := by
    simp only [atMost_iff]
    rintro (hab | ⟨hab, hle⟩) (hbc | ⟨hbc, hle'⟩)
    · exact .inl (by omega)
    · exact .inl (by omega)
    · exact .inl (by omega)
    · exact .inr ⟨hab.trans hbc, Std.le_trans hle hle'⟩

/-- Two records in order with different keys are strictly in order. -/
theorem before_of_atMost {a b : ServiceScoreData} (h : a.AtMost b) (hne : a.key ≠ b.key) :
    a.Before b := by
  rcases atMost_iff.mp h with hlt | ⟨heq, hle⟩
  · exact .inl hlt
  · refine .inr ⟨heq, ?_⟩
    rcases Std.le_iff_lt_or_eq.mp hle with hlt | hname
    · exact hlt
    · exact absurd (Prod.ext heq hname) hne

theorem nodup_keys_getServiceScores (db : Database) :
    ((getServiceScores db).map ServiceScoreData.key).Nodup := by
  have hperm : ((getServiceScores db).map ServiceScoreData.key).Perm
      (((scoreMap db).toList.map (fun e => e.2.2)).map ServiceScoreData.key) :=
    (List.perm_insertionSort _ _).map _
  have hkeys : ((scoreMap db).toList.map (fun e => e.2.2)).map ServiceScoreData.key =
      (scoreMap db).toList.map (fun e => (e.1, e.2.1)) := by
    rw [List.map_map]
    refine List.map_congr_left fun ⟨t, n, sd⟩ he => ?_
    have hfind := GoMap₂.mem_toList.mp he
    rw [find?_scoreMap] at hfind
    split at hfind
    · obtain rfl := Option.some.inj hfind
      rfl
    · cases hfind
  rw [hperm.nodup_iff, hkeys]
  exact GoMap₂.nodup_keys_toList _

/-- The records are strictly in order. -/
theorem sorted_getServiceScores (db : Database) :
    (getServiceScores db).Pairwise ServiceScoreData.Before := by
  have hsorted : (getServiceScores db).Pairwise ServiceScoreData.AtMost :=
    List.pairwise_insertionSort _ _
  have hdistinct : (getServiceScores db).Pairwise (fun a b => a.key ≠ b.key) :=
    List.pairwise_map.mp (nodup_keys_getServiceScores db)
  exact hsorted.imp₂ (fun _ _ hle hne => before_of_atMost hle hne) hdistinct

end QuotientScoring.DB
