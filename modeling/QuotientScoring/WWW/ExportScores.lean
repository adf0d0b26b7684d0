import QuotientScoring.DB.Scores

/-! The score export.

`exportScores` starts a record for each team and adds to it the service scores of
that team, one after another. `score_reports_agree`: the service scores are one
record for each service that occurs in a table, in order, and the totals of every
team are the sums over its own services and the numbers of `getTeamScore`, which
never looks at services. -/
namespace QuotientScoring.WWW
open DB

structure ServiceScore where
  serviceName : GoString
  points : Int
  slaViolations : Int
  slaPenalty : Int
deriving DecidableEq, Repr

structure TeamScore where
  teamID : Nat
  teamName : GoString
  services : List ServiceScore := []
  totalPoints : Int := 0
  grossPoints : Int := 0
  totalSLAPenalty : Int := 0
  totalSLAViolations : Int := 0
deriving DecidableEq, Repr

def toServiceScore (sd : ServiceScoreData) : ServiceScore :=
  ⟨sd.serviceName, sd.points, sd.violations, sd.totalPenalty⟩

def TeamScore.add (team : TeamScore) (sd : ServiceScoreData) : TeamScore :=
  { team with
    services := team.services ++ [toServiceScore sd]
    totalPoints := team.totalPoints + (sd.points - sd.totalPenalty)
    grossPoints := team.grossPoints + sd.points
    totalSLAPenalty := team.totalSLAPenalty + sd.totalPenalty
    totalSLAViolations := team.totalSLAViolations + sd.violations }

/-- A record of a team that is not there is left out. -/
def addService (m : GoMap Nat TeamScore) (sd : ServiceScoreData) : GoMap Nat TeamScore :=
  match m.lookup sd.teamID with
  | none => m
  | some team => m.insert sd.teamID (team.add sd)

def startTeam (m : GoMap Nat TeamScore) (team : TeamSchema) : GoMap Nat TeamScore :=
  m.insert team.id {teamID := team.id, teamName := team.name}

def exportScores (db : Database) : List TeamScore :=
  let teamScores := (getTeams db).foldl startTeam ∅
  let teamScores := (getServiceScores db).foldl addService teamScores
  teamScores.entries.map Sigma.snd

/-! ### One team -/

/-- The service scores of a team. -/
def teamRecords (t : Nat) (db : Database) : List ServiceScoreData :=
  (getServiceScores db).filter (fun sd => sd.teamID = t)

/-- The totals are running sums over the services. -/
theorem foldl_add (team : TeamScore) (sds : List ServiceScoreData) :
    sds.foldl TeamScore.add team = { team with
      services := team.services ++ sds.map toServiceScore
      totalPoints := team.totalPoints + (sds.map (fun sd => sd.points - sd.totalPenalty)).sum
      grossPoints := team.grossPoints + (sds.map ServiceScoreData.points).sum
      totalSLAPenalty := team.totalSLAPenalty + (sds.map ServiceScoreData.totalPenalty).sum
      totalSLAViolations :=
        team.totalSLAViolations + (sds.map ServiceScoreData.violations).sum } := by
  induction sds generalizing team with
  | nil => simp
  | cons sd rest ih =>
    rw [List.foldl_cons, ih]
    simp [TeamScore.add, Int.add_assoc]

/-- The record of a team: the sums over its services. -/
def teamScore (t : Nat) (name : GoString) (db : Database) : TeamScore :=
  let sds := teamRecords t db
  { teamID := t
    teamName := name
    services := sds.map toServiceScore
    totalPoints := (sds.map (fun sd => sd.points - sd.totalPenalty)).sum
    grossPoints := (sds.map ServiceScoreData.points).sum
    totalSLAPenalty := (sds.map ServiceScoreData.totalPenalty).sum
    totalSLAViolations := (sds.map ServiceScoreData.violations).sum }

theorem lookup_addService (m : GoMap Nat TeamScore) (sd : ServiceScoreData) (t : Nat) :
    (addService m sd).lookup t =
      if sd.teamID = t then (m.lookup t).map (fun team => team.add sd) else m.lookup t := by
  unfold addService
  by_cases h : sd.teamID = t
  · subst h
    cases hm : m.lookup sd.teamID <;> simp [hm]
  · cases hm : m.lookup sd.teamID <;> simp [h, AList.lookup_insert_ne (Ne.symm h)]

theorem lookup_startTeam (m : GoMap Nat TeamScore) (team : TeamSchema) (t : Nat) :
    (startTeam m team).lookup t =
      if team.id = t then some {teamID := t, teamName := team.name} else m.lookup t := by
  unfold startTeam
  by_cases h : team.id = t
  · subst h
    simp
  · simp [h, AList.lookup_insert_ne (Ne.symm h)]

theorem foldl_map_add (o : Option TeamScore) (sds : List ServiceScoreData) :
    sds.foldl (fun o sd => o.map (fun team => team.add sd)) o =
      o.map (fun team => sds.foldl TeamScore.add team) := by
  induction sds generalizing o with
  | nil => cases o <;> rfl
  | cons sd rest ih => cases o <;> simp [ih]

/-- The map when both loops are over: an entry for each team, with the sums over its
services. -/
theorem lookup_exportScores (db : Database) (t : Nat) :
    ((getServiceScores db).foldl addService ((getTeams db).foldl startTeam ∅)).lookup t =
      ((getTeams db).filter (fun team => team.id = t)).getLast?.map
        (fun team => teamScore t team.name db) := by
  have hstart := Rows.foldl_observe (fun m : GoMap Nat TeamScore => m.lookup t) startTeam
    (fun team => team.id = t) (fun _ team => some {teamID := t, teamName := team.name})
    (fun m team => by simpa using lookup_startTeam m team t) (getTeams db) ∅
  have hadd := Rows.foldl_observe (fun m : GoMap Nat TeamScore => m.lookup t) addService
    (fun sd => sd.teamID = t) (fun o sd => o.map (fun score => score.add sd))
    (fun m sd => by simpa using lookup_addService m sd t) (getServiceScores db)
    ((getTeams db).foldl startTeam ∅)
  rw [hadd, hstart, foldl_map_add]
  rcases List.eq_nil_or_concat ((getTeams db).filter (fun team => team.id = t)) with
    hnil | ⟨front, last, hlast⟩
  · rw [hnil]
    rfl
  · rw [hlast, List.concat_eq_append, List.foldl_concat, Option.map_some, foldl_add]
    simp [teamScore, teamRecords]

theorem mem_exportScores {db : Database} {score : TeamScore} :
    score ∈ exportScores db ↔ ∃ t, ((getTeams db).filter (fun team => team.id = t)).getLast?.map
      (fun team => teamScore t team.name db) = some score := by
  simp only [exportScores, List.mem_map, ← lookup_exportScores]
  constructor
  · rintro ⟨⟨t, score⟩, he, rfl⟩
    exact ⟨t, AList.mem_lookup_iff.mpr he⟩
  · rintro ⟨t, ht⟩
    exact ⟨⟨t, score⟩, AList.mem_lookup_iff.mp ht, rfl⟩

/-- No team has two records. -/
theorem nodup_exportScores (db : Database) :
    ((exportScores db).map TeamScore.teamID).Nodup := by
  have hkey : ∀ e ∈ ((getServiceScores db).foldl addService
      ((getTeams db).foldl startTeam ∅)).entries, (TeamScore.teamID ∘ Sigma.snd) e = e.1 := by
    rintro ⟨t, score⟩ he
    have hlookup := AList.mem_lookup_iff.mpr he
    rw [lookup_exportScores] at hlookup
    obtain ⟨team, _, rfl⟩ := Option.map_eq_some_iff.mp hlookup
    rfl
  rw [exportScores, List.map_map, List.map_congr_left hkey]
  exact AList.keys_nodup _

/-! ### The totals -/

/-- Sums over the records of a team's services are sums over the team's rows. -/
theorem sum_teamRecords {ρ : Type} (key : ρ → Nat × GoString) (f : ρ → Int) (rows : List ρ)
    {db : Database} (hrows : ∀ r ∈ rows, Occurs (key r) db) (g : ServiceScoreData → Int)
    (hg : ∀ k, g (serviceScore k db) = ((rows.filter (fun r => key r = k)).map f).sum) (t : Nat) :
    ((teamRecords t db).map g).sum = ((rows.filter (fun r => (key r).1 = t)).map f).sum := by
  have hnd : ((teamRecords t db).map ServiceScoreData.key).Nodup :=
    (nodup_keys_getServiceScores db).sublist (List.filter_sublist.map _)
  have hkeys : ∀ r ∈ rows.filter (fun r => (key r).1 = t),
      key r ∈ (teamRecords t db).map ServiceScoreData.key := by
    intro r hr
    obtain ⟨hr, ht⟩ := List.mem_filter.mp hr
    have hmem : serviceScore (key r) db ∈ getServiceScores db :=
      mem_getServiceScores.mpr ⟨hrows r hr, rfl⟩
    exact List.mem_map.mpr ⟨_, List.mem_filter.mpr ⟨hmem, ht⟩, rfl⟩
  rw [← Rows.sum_by_key key f hnd _ hkeys, List.map_map]
  congr 1
  refine List.map_congr_left fun sd hsd => ?_
  obtain ⟨hmem, ht⟩ := List.mem_filter.mp hsd
  have hrec := (mem_getServiceScores.mp hmem).2
  have hrec' : g sd = ((rows.filter (fun r => key r = sd.key)).map f).sum :=
    (congrArg g hrec).trans (hg sd.key)
  rw [hrec', Function.comp_apply, List.filter_filter]
  congr 2
  refine List.filter_congr fun r _ => ?_
  by_cases hk : key r = sd.key
  · have hteam : sd.key.1 = t := of_decide_eq_true ht
    simp [hk, hteam]
  · simp [hk]

/-- A record whose totals are the numbers of `getTeamScore` and the sums over its own
services. -/
structure TeamScore.Agrees (score : TeamScore) (db : Database) : Prop where
  team : (score.grossPoints, score.totalSLAViolations, score.totalSLAPenalty) =
    getTeamScore db score.teamID
  net : score.totalPoints = score.grossPoints - score.totalSLAPenalty
  points : score.grossPoints = (score.services.map ServiceScore.points).sum
  violations : score.totalSLAViolations = (score.services.map ServiceScore.slaViolations).sum
  penalty : score.totalSLAPenalty = (score.services.map ServiceScore.slaPenalty).sum
  total : score.totalPoints =
    (score.services.map (fun service => service.points - service.slaPenalty)).sum

theorem agrees_teamScore (t : Nat) (name : GoString) (db : Database) :
    (teamScore t name db).Agrees db := by
  have hchecks : ∀ check ∈ db.checks, Occurs check.key db :=
    fun check h => .inl (List.mem_map_of_mem h)
  have hslas : ∀ sla ∈ db.slas, Occurs sla.key db := fun sla h => .inr (List.mem_map_of_mem h)
  have hpoints := sum_teamRecords ServiceCheckSchema.key ServiceCheckSchema.scored db.checks
    hchecks ServiceScoreData.points (fun _ => rfl) t
  have hcount := sum_teamRecords SLASchema.key (fun _ => 1) db.slas
    hslas ServiceScoreData.violations (fun _ => by simp [serviceScore]) t
  have hpenalty := sum_teamRecords SLASchema.key SLASchema.penalty db.slas
    hslas ServiceScoreData.totalPenalty (fun _ => rfl) t
  have hpassed := Rows.sum_ite_zero ServiceCheckSchema.result ServiceCheckSchema.points
    (db.checks.filter (fun check => check.teamID = t))
  have hnet : ((teamRecords t db).map (fun sd => sd.points - sd.totalPenalty)).sum =
      ((teamRecords t db).map ServiceScoreData.points).sum -
        ((teamRecords t db).map ServiceScoreData.totalPenalty).sum := by
    induction teamRecords t db with
    | nil => rfl
    | cons sd rest ih =>
      simp only [List.map_cons, List.sum_cons, ih]
      omega
  refine ⟨?_, hnet, ?_, ?_, ?_, ?_⟩
  · show (((teamRecords t db).map ServiceScoreData.points).sum,
      ((teamRecords t db).map ServiceScoreData.violations).sum,
      ((teamRecords t db).map ServiceScoreData.totalPenalty).sum) = getTeamScore db t
    rw [hpoints, hcount, hpenalty, getTeamScore]
    refine Prod.ext ?_ (Prod.ext ?_ rfl)
    · show ((db.checks.filter (fun check => check.teamID = t)).map ServiceCheckSchema.scored).sum = _
      refine hpassed.trans ?_
      rw [List.filter_filter]
      simp only [Bool.decide_and, Bool.decide_eq_true, Bool.and_comm]
    · simp [SLASchema.key]
      rfl
  all_goals simp [teamScore, toServiceScore, Function.comp_def]

/-- For every content of the tables: the service scores are one record for each service
that occurs in either table, strictly in order, and each team has exactly one record
in the export, whose totals agree with `getTeamScore` and with its own services. -/
theorem score_reports_agree (db : Database) :
    (getServiceScores db).Pairwise ServiceScoreData.Before ∧
      (∀ key, key ∈ (getServiceScores db).map ServiceScoreData.key ↔ Occurs key db) ∧
      ((exportScores db).map TeamScore.teamID).Nodup ∧
      ∀ team ∈ db.teams, ∃ score ∈ exportScores db, score.teamID = team.id ∧ score.Agrees db := by
  refine ⟨sorted_getServiceScores db, fun _ => mem_keys_getServiceScores, nodup_exportScores db,
    fun team h => ?_⟩
  have hmem : team ∈ (getTeams db).filter (fun other => other.id = team.id) :=
    List.mem_filter.mpr ⟨mem_getTeams.mpr h, by simp⟩
  obtain ⟨last, hlast⟩ := Option.ne_none_iff_exists'.mp
    (mt List.getLast?_eq_none_iff.mp (List.ne_nil_of_mem hmem))
  refine ⟨teamScore team.id last.name db, mem_exportScores.mpr ⟨team.id, ?_⟩, rfl,
    agrees_teamScore ..⟩
  rw [hlast, Option.map_some]

end QuotientScoring.WWW
