import Mathlib.Data.Multiset.Defs
import Mathlib.Logic.Equiv.Basic
import QuotientScoring.Lib.Relabel
import QuotientScoring.Lib.Rows
import QuotientScoring.WWW.Graphs

/-! What an anonymised graph tells about a team.

To whom graphs are anonymised, every series has the same name. Let active teams trade all
they own, their checks, penalties and counters: an anonymous answer is the same up to the
order of its series. The scores and the uptimes are. A series of the services also has the
id of its team, so the third answer is the same only where what trades places looks the
same: `graphs_anonymous_iff`. -/
namespace QuotientScoring.WWW
open DB GoText Config

/-- An answer without the order of its series and the order in which maps are visited. -/
inductive Unordered where
  | services (series : Multiset (GoString × Nat × Multiset StatusPoint)) (roundID : Nat)
  | scores (series : Multiset ScoreSeries)
  | uptimes (series : Option (Multiset (GoString × Multiset UptimePoint)))

def GraphData.unordered : GraphData → Unordered
  | .services series roundID => .services
      ↑(series.map (fun s => (s.name, s.id, (↑s.data : Multiset StatusPoint)))) roundID
  | .scores series => .scores ↑series
  | .uptimes series => .uptimes (series.map (fun series =>
      ↑(series.map (fun s => (s.name, (↑s.data : Multiset UptimePoint))))))

/-- The same refusal, or the same series. -/
def SameSeries (a b : Except HttpError GraphData) : Prop :=
  a.map GraphData.unordered = b.map GraphData.unordered

/-- What the columns of the tables keep: a team has its id alone, and a round's is a number of 64
bits with a sign. -/
structure GraphState.Stored (s : GraphState) : Prop where
  teams : (s.db.teams.map TeamSchema.id).Nodup
  rounds : ∀ id ∈ s.db.rounds, id ≤ maxInt

/-- All that the team `t` owns in one state the team `π t` owns in the other; only active teams
trade places. -/
structure Traded (π : Equiv.Perm Nat) (s s' : GraphState) : Prop where
  active : ∀ t, (∀ team ∈ s.db.teams, team.active → team.id ≠ t) → π t = t
  started : s'.started = s.started
  fails : s'.fails = s.fails
  teams : s'.db.teams = s.db.teams
  rounds : s'.db.rounds = s.db.rounds
  checks : s'.db.checks = s.db.checks.map (fun check => {check with teamID := π check.teamID})
  slas : s'.db.slas = s.db.slas.map (fun sla => {sla with teamID := π sla.teamID})
  scores : s'.cumulativeScores =
    s.cumulativeScores.map (fun score => {score with teamID := π score.teamID})
  uptimes : ∀ t, s'.uptimePerService.lookup (π t) = s.uptimePerService.lookup t

variable {π : Equiv.Perm Nat} {s s' : GraphState} {o o' : Orders} {conf : ConfigSettings}
  {session : Option Session}

/-! ### Who is shown -/

/-- The ids of the active teams. -/
def activeIDs (s : GraphState) : List Nat := (activeTeams s).map TeamSchema.id

theorem Traded.activeTeams (h : Traded π s s') : WWW.activeTeams s' = WWW.activeTeams s := by
  rw [WWW.activeTeams, WWW.activeTeams, getTeams, getTeams, h.teams]

theorem Traded.ids (h : Traded π s s') : activeIDs s' = activeIDs s := by
  rw [activeIDs, activeIDs, h.activeTeams]

theorem nodup_activeIDs (hstored : s.Stored) : (activeIDs s).Nodup := by
  have hsub := (List.filter_sublist (p := TeamSchema.active) (l := getTeams s.db)).map TeamSchema.id
  have hperm := (List.perm_insertionSort (fun a b : TeamSchema => a.id ≤ b.id) s.db.teams).map
    TeamSchema.id
  exact hsub.nodup (hperm.nodup_iff.mpr hstored.teams)

/-- Active teams trade places with active teams. -/
theorem Traded.perm (h : Traded π s s') (hstored : s.Stored) :
    ((activeIDs s).map π).Perm (activeIDs s) := by
  apply Relabel.perm_map (nodup_activeIDs hstored)
  intro t hnot
  apply h.active
  intro team hmem hactive hid
  apply hnot
  rw [activeIDs, ← hid]
  exact List.mem_map_of_mem (List.mem_filter.mpr ⟨mem_getTeams.mpr hmem, hactive⟩)

/-- Series that have all the same name are a list over the ids. -/
theorem map_activeTeams {β : Type} (f : Nat → β) :
    (activeTeams s).map (fun team => f team.id) = (activeIDs s).map f := by
  rw [activeIDs, List.map_map]
  rfl

/-- An anonymised answer goes to no admin. -/
theorem checkCompetitionStarted_of_scrub (hscrub : shouldScrub conf session = true)
    (started : Bool) : checkCompetitionStarted started session =
      if started then .ok () else .error ⟨403, str "Competition has not started"⟩ := by
  have hadmin : session.any (fun session => .admin ∈ session.roles) = false := by
    by_contra hadmin
    rw [shouldScrub, if_pos (by simpa using hadmin)] at hscrub
    cases hscrub
  unfold checkCompetitionStarted
  rw [if_neg (by simp [hadmin])]
  cases started <;> rfl

/-- What comes before the series of each graph. -/
def gate (s : GraphState) (session : Option Session) (queries : List GraphQuery) :
    Except HttpError Unit :=
  match checkCompetitionStarted s.started session, queries.findSome? s.fails with
  | .error err, _ => .error err
  | .ok (), some err => .error ⟨500, err⟩
  | .ok (), none => .ok ()

theorem Traded.gate (h : Traded π s s') (session : Option Session) (queries : List GraphQuery) :
    WWW.gate s' session queries = WWW.gate s session queries := by
  simp only [WWW.gate, h.started, h.fails]

/-- A graph is refused if the competition has not started, or a query fails. -/
theorem gate_error_iff (hscrub : shouldScrub conf session = true) (queries : List GraphQuery) :
    (∃ err, gate s session queries = .error err) ↔
      s.started = false ∨ ∃ query ∈ queries, s.fails query ≠ none := by
  unfold gate
  rw [checkCompetitionStarted_of_scrub hscrub]
  cases s.started with
  | false => simp
  | true =>
    simp only [if_true, Bool.true_eq_false, false_or]
    cases hfails : queries.findSome? s.fails with
    | none =>
      rw [List.findSome?_eq_none_iff] at hfails
      simpa using hfails
    | some err =>
      obtain ⟨query, hmem, hquery⟩ := List.exists_of_findSome?_eq_some hfails
      simp only [Except.error.injEq, exists_eq', true_iff]
      exact ⟨query, hmem, by simp [hquery]⟩

/-! ### The services -/

/-- What the team's last check of a service in the round has found. -/
def lastResult (round : RoundSchema) (t : Nat) (service : GoString) : Option Bool :=
  (round.checks.filter (fun check => check.teamID = t ∧ check.serviceName = service)).getLast?.map
    ServiceCheckSchema.result

def Status.ofResult : Option Bool → Status
  | none => .unknown
  | some true => .up
  | some false => .down

theorem Status.ofResult_inj {a b : Option Bool} : ofResult a = ofResult b ↔ a = b := by
  constructor
  · intro h
    cases a with
    | none =>
      cases b with
      | none => rfl
      | some b => cases b <;> cases h
    | some a =>
      cases b with
      | none => cases a <;> cases h
      | some b => cases a <;> cases b <;> first | rfl | cases h
  · intro h
    rw [h]

/-- The services of a round, each once. -/
def roundServices (round : RoundSchema) : List GoString :=
  (round.checks.map ServiceCheckSchema.serviceName).dedup

theorem nodup_roundServices (round : RoundSchema) : (roundServices round).Nodup :=
  List.nodup_dedup _

/-- The point of a service. -/
def statusPoint (round : RoundSchema) (t : Nat) (service : GoString) : StatusPoint :=
  ⟨service, .ofResult (lastResult round t service)⟩

/-- The services are the keys that the handler collects. -/
theorem mem_roundServices {round : RoundSchema} {service : GoString} :
    service ∈ o.keys (round.checks.foldl (fun m check => m.insert check.serviceName true)
      (∅ : GoMap GoString Bool)) ↔ service ∈ roundServices round := by
  rw [Orders.mem_keys, GoMap.isSome_lookup_foldl_insert ServiceCheckSchema.serviceName
    (fun _ => true), roundServices, List.mem_dedup, List.mem_map]
  simp

/-- What the first loop leaves under a service. -/
theorem lookup_unknown (uniqueServices : List GoString) (service : GoString) :
    (uniqueServices.foldl (fun temp uniqueName => temp.insert uniqueName ⟨uniqueName, .unknown⟩)
      (∅ : GoMap GoString StatusPoint)).lookup service =
      if service ∈ uniqueServices then some ⟨service, .unknown⟩ else none := by
  have hfold := Rows.foldl_observe (fun temp : GoMap GoString StatusPoint => temp.lookup service)
    (fun temp uniqueName => temp.insert uniqueName ⟨uniqueName, .unknown⟩)
    (fun uniqueName => uniqueName = service) (fun _ uniqueName => some ⟨uniqueName, .unknown⟩)
    (fun temp uniqueName => by
      by_cases hname : uniqueName = service
      · subst hname
        simp
      · simp [hname, AList.lookup_insert_ne (Ne.symm hname)])
    uniqueServices ∅
  rw [hfold, Rows.foldl_overwrite _ (⟨service, .unknown⟩ : StatusPoint)]
  · by_cases hmem : service ∈ uniqueServices
    · have hne : uniqueServices.filter (fun uniqueName => uniqueName = service) ≠ [] :=
        List.ne_nil_of_mem (List.mem_filter.mpr ⟨hmem, by simp⟩)
      rw [if_neg hne, if_pos hmem]
    · have hnil : uniqueServices.filter (fun uniqueName => uniqueName = service) = [] := by
        refine List.filter_eq_nil_iff.mpr fun uniqueName hunique hname => hmem ?_
        rw [← of_decide_eq_true hname]
        exact hunique
      rw [if_pos hnil, if_neg hmem]
      rfl
  · intro uniqueName hunique
    rw [of_decide_eq_true (List.mem_filter.mp hunique).2]

/-- What the two loops leave under a service. -/
theorem lookup_statusPoints (round : RoundSchema) (uniqueServices : List GoString) (t : Nat)
    (service : GoString) :
    (round.checks.foldl (fun temp check =>
      if t = check.teamID then
        temp.insert check.serviceName ⟨check.serviceName, if check.result then .up else .down⟩
      else temp)
      (uniqueServices.foldl (fun temp uniqueName => temp.insert uniqueName ⟨uniqueName, .unknown⟩)
        (∅ : GoMap GoString StatusPoint))).lookup service =
      ((lastResult round t service).map (fun result =>
        (⟨service, .ofResult (some result)⟩ : StatusPoint))).or
        (if service ∈ uniqueServices then some ⟨service, .unknown⟩ else none) := by
  have hfold := Rows.foldl_observe (fun temp : GoMap GoString StatusPoint => temp.lookup service)
    (fun temp check => if t = check.teamID then
        temp.insert check.serviceName ⟨check.serviceName, if check.result then .up else .down⟩
      else temp)
    (fun check : ServiceCheckSchema => check.teamID = t ∧ check.serviceName = service)
    (fun _ check => some ⟨service, .ofResult (some check.result)⟩)
    (fun temp check => by
      by_cases hteam : t = check.teamID
      · subst hteam
        by_cases hname : check.serviceName = service
        · subst hname
          cases check.result <;> simp [Status.ofResult]
        · simp [hname, AList.lookup_insert_ne (Ne.symm hname)]
      · simp [hteam, Ne.symm hteam])
    round.checks
  rw [hfold, Rows.foldl_last, lookup_unknown, lastResult, Option.map_map]
  rfl

/-- A service that the team was checked for is one of the round's. -/
theorem mem_of_lastResult {round : RoundSchema} {t : Nat} {service : GoString} {result : Bool}
    (h : lastResult round t service = some result) : service ∈ roundServices round := by
  obtain ⟨check, hlast, -⟩ := Option.map_eq_some_iff.mp h
  obtain ⟨hmem, hkey⟩ := List.mem_filter.mp (List.mem_of_getLast? hlast)
  rw [roundServices, List.mem_dedup, ← (of_decide_eq_true hkey).2]
  exact List.mem_map_of_mem hmem

/-- The points of a team: one for each service of the round. -/
theorem statusPoints_perm (o : Orders) (round : RoundSchema) (team : TeamSchema) :
    (statusPoints o round (o.keys (round.checks.foldl
      (fun m check => m.insert check.serviceName true) (∅ : GoMap GoString Bool))) team).Perm
      ((roundServices round).map (statusPoint round team.id)) := by
  unfold statusPoints
  dsimp only
  generalize hunique : o.keys (round.checks.foldl
    (fun m check => m.insert check.serviceName true) (∅ : GoMap GoString Bool)) = uniqueServices
  have hmem : ∀ service, service ∈ uniqueServices ↔ service ∈ roundServices round := by
    intro service
    rw [← hunique]
    exact mem_roundServices
  have hlookup := lookup_statusPoints round uniqueServices team.id
  revert hlookup
  generalize round.checks.foldl _ _ = temp
  intro hlookup
  -- Each key has the point of its service, and the keys are the services.
  have hpoint : ∀ e ∈ o.range temp, e.2 = statusPoint round team.id e.1 := by
    intro ⟨service, point⟩ he
    have hsome := Orders.mem_range.mp he
    rw [hlookup] at hsome
    cases hresult : lastResult round team.id service with
    | some result =>
      simp only [hresult, Option.map_some, Option.some_or, Option.some.injEq] at hsome
      simp only [statusPoint, hresult, ← hsome]
    | none =>
      simp only [hresult, Option.map_none, Option.none_or] at hsome
      split at hsome
      · simp only [statusPoint, hresult, ← Option.some.inj hsome]
        rfl
      · cases hsome
  have hkeys : (o.keys temp).Perm (roundServices round) := by
    rw [List.perm_ext_iff_of_nodup (Orders.nodup_keys o temp) (nodup_roundServices round)]
    intro service
    rw [Orders.mem_keys, hlookup, Option.isSome_or, Bool.or_eq_true, Option.isSome_map]
    constructor
    · rintro (hresult | hunique)
      · obtain ⟨result, hresult⟩ := Option.isSome_iff_exists.mp hresult
        exact mem_of_lastResult hresult
      · by_contra hnot
        rw [if_neg (fun h => hnot ((hmem service).mp h))] at hunique
        cases hunique
    · intro hservice
      rw [if_pos ((hmem service).mpr hservice)]
      exact .inr rfl
  have hmap : (o.range temp).map Prod.snd = (o.keys temp).map (statusPoint round team.id) := by
    rw [Orders.keys, List.map_map]
    exact List.map_congr_left hpoint
  rw [hmap]
  exact hkeys.map _

/-- Two teams have the same points exactly if their last checks have found the same. -/
theorem statusPoint_perm_iff {round : RoundSchema} {t t' : Nat} :
    ((roundServices round).map (statusPoint round t)).Perm
      ((roundServices round).map (statusPoint round t')) ↔
      ∀ check ∈ round.checks,
        lastResult round t check.serviceName = lastResult round t' check.serviceName := by
  rw [Relabel.perm_map_iff StatusPoint.x (fun _ => rfl) (fun _ => rfl)]
  simp only [roundServices, List.mem_dedup, List.mem_map, forall_exists_index, and_imp,
    forall_apply_eq_imp_iff₂, statusPoint, StatusPoint.mk.injEq, true_and, Status.ofResult_inj]

/-- The series of a team, without the order of its points. -/
def serviceSeries (round : RoundSchema) (t : Nat) : GoString × Nat × Multiset StatusPoint :=
  (str "Team", t, ↑((roundServices round).map (statusPoint round t)))

theorem unordered_getServiceStatus (o : Orders) (hscrub : shouldScrub conf session = true) :
    (getServiceStatus o conf s session).map GraphData.unordered =
      (gate s session [.getLastRound, .getTeams]).map (fun _ => .services
        ↑((activeIDs s).map (serviceSeries (getLastRound s.db))) (getLastRound s.db).id) := by
  unfold getServiceStatus gate
  cases checkCompetitionStarted s.started session with
  | error err => rfl
  | ok _ =>
    simp only [GraphState.query, List.findSome?_cons, List.findSome?_nil]
    cases s.fails .getLastRound with
    | some err => rfl
    | none =>
      cases s.fails .getTeams with
      | some err => rfl
      | none =>
        simp only [bind, Except.bind, hscrub, if_true, Except.map, GraphData.unordered,
          List.map_map]
        rw [← map_activeTeams]
        congr 3
        refine List.map_congr_left fun team _ => ?_
        simp only [Function.comp_apply, serviceSeries]
        rw [Multiset.coe_eq_coe.mpr (statusPoints_perm o (getLastRound s.db) team)]

/-! ### The scores -/

/-- The points of one team, the first round's first. -/
def scorePoints (rounds : List (GoMap Nat Int × Nat)) (t : Nat) : List ScorePoint :=
  rounds.filterMap (fun round => (round.1.lookup t).map (fun total => ⟨round.2 + 1, total⟩))

def scoreSeries (scores : ScoresByRound) (t : Nat) : ScoreSeries :=
  ⟨str "Team", scorePoints scores.zipIdx t⟩

/-- The entries of one round go each to the series of its team. -/
theorem foldl_addPoint (teams : List TeamSchema) (round : Nat) (entries : List (Nat × Int))
    (data : TeamSchema → List ScorePoint) :
    entries.foldl (addPoint teams round) (teams.map (fun team => ⟨team.name, data team⟩)) =
      teams.map (fun team => ⟨team.name, data team ++
        (entries.filter (fun e => e.1 = team.id)).map (fun e => ⟨round + 1, e.2⟩)⟩) := by
  induction entries generalizing data with
  | nil => simp
  | cons e rest ih =>
    have hstep : addPoint teams round (teams.map (fun team => ⟨team.name, data team⟩)) e =
        teams.map (fun team => ⟨team.name,
          data team ++ if e.1 = team.id then [⟨round + 1, e.2⟩] else []⟩) := by
      rw [addPoint, List.zipWith_map_right, List.zipWith_self]
      refine List.map_congr_left fun team _ => ?_
      by_cases hteam : e.1 = team.id
      · rw [if_pos hteam.symm, if_pos hteam]
      · rw [if_neg (Ne.symm hteam), if_neg hteam, List.append_nil]
    rw [List.foldl_cons, hstep, ih]
    refine List.map_congr_left fun team _ => ?_
    by_cases hteam : e.1 = team.id <;> simp [hteam]

/-- The loop over the rounds, in whatever order the maps are visited. -/
theorem foldl_rounds (o : Orders) (teams : List TeamSchema) (rounds : List (GoMap Nat Int × Nat))
    (data : TeamSchema → List ScorePoint) :
    rounds.foldl (fun series allTeamsThisRound =>
      (o.range allTeamsThisRound.1).foldl (addPoint teams allTeamsThisRound.2) series)
      (teams.map (fun team => ⟨team.name, data team⟩)) =
      teams.map (fun team => ⟨team.name, data team ++ scorePoints rounds team.id⟩) := by
  induction rounds generalizing data with
  | nil => simp [scorePoints]
  | cons round rest ih =>
    rw [List.foldl_cons, foldl_addPoint, ih]
    refine List.map_congr_left fun team _ => ?_
    rw [Orders.filter_range, List.append_assoc]
    cases hteam : round.1.lookup team.id <;> simp [scorePoints, hteam]

theorem unordered_getScoreStatus (o : Orders) (hscrub : shouldScrub conf session = true) :
    (getScoreStatus o conf s session).map GraphData.unordered =
      (gate s session [.getServiceCheckSumByRound, .getTeams]).map (fun _ => .scores
        ↑((activeIDs s).map (scoreSeries (getServiceCheckSumByRound s.db s.cumulativeScores)))) := by
  unfold getScoreStatus gate
  cases checkCompetitionStarted s.started session with
  | error err => rfl
  | ok _ =>
    simp only [GraphState.query, List.findSome?_cons, List.findSome?_nil]
    cases s.fails .getServiceCheckSumByRound with
    | some err => rfl
    | none =>
      cases s.fails .getTeams with
      | some err => rfl
      | none =>
        simp only [bind, Except.bind, hscrub, if_true, Except.map, GraphData.unordered]
        rw [foldl_rounds o (activeTeams s) _ (fun _ => []), Multiset.coe_eq_coe.mpr
          (o.sortFunc_perm compareSeries _), List.map_map, ← map_activeTeams]
        rfl

theorem scorePoints_moved {π : Nat → Nat} {scores scores' : ScoresByRound}
    (h : List.Forall₂ (fun m m' => ∀ t, m'.lookup (π t) = m.lookup t) scores scores') (k t : Nat) :
    scorePoints (scores'.zipIdx k) (π t) = scorePoints (scores.zipIdx k) t := by
  induction h generalizing k with
  | nil => rfl
  | cons hm _ ih =>
    simp only [List.zipIdx_cons, scorePoints, List.filterMap_cons, hm t]
    rw [show List.filterMap _ _ = _ from ih (k + 1)]
    rfl

theorem GraphState.Stored.inRange (h : s.Stored) {r : Nat} (hpos : 1 ≤ r)
    (hle : r ≤ (getLastRound s.db).id) : InRange r (getLastRound s.db).id := by
  refine ⟨hpos, hle, ?_⟩
  unfold getLastRound
  cases hm : s.db.rounds.max? with
  | none => exact Nat.zero_le _
  | some id => exact h.rounds id (List.max?_mem hm)

/-- Where teams trade places, so do their scores. -/
theorem Traded.scoreSeries (h : Traded π s s') (hstored : s.Stored) (t : Nat) :
    WWW.scoreSeries (getServiceCheckSumByRound s'.db s'.cumulativeScores) (π t) =
      WWW.scoreSeries (getServiceCheckSumByRound s.db s.cumulativeScores) t := by
  have hlen : (getServiceCheckSumByRound s.db s.cumulativeScores).length =
      (getServiceCheckSumByRound s'.db s'.cumulativeScores).length := by
    rw [length_getServiceCheckSumByRound, length_getServiceCheckSumByRound,
      getLastRound_id_congr h.rounds]
  have hrounds : List.Forall₂ (fun m m' : GoMap Nat Int => ∀ t, m'.lookup (π t) = m.lookup t)
      (getServiceCheckSumByRound s.db s.cumulativeScores)
      (getServiceCheckSumByRound s'.db s'.cumulativeScores) := by
    rw [List.forall₂_iff_get]
    refine ⟨hlen, fun i hi hi' t => ?_⟩
    have hr := hstored.inRange (Nat.succ_pos i)
      (by rw [length_getServiceCheckSumByRound] at hi; exact hi)
    have hentry := entry_renamed π.injective h.rounds h.slas s.cumulativeScores t hr
    rw [← h.scores] at hentry
    simpa [entry, List.getElem?_eq_getElem, hi, hi'] using hentry
  rw [WWW.scoreSeries, WWW.scoreSeries, scorePoints_moved hrounds 0 t]

/-! ### The uptimes -/

/-- The counters of a team. -/
def GraphState.uptime (s : GraphState) (t : Nat) : GoMap GoString Uptime :=
  (s.uptimePerService.lookup t).getD ∅

/-- A service that some active team has a counter for. -/
def CountedService (s : GraphState) (service : GoString) : Prop :=
  ∃ t ∈ activeIDs s, ((s.uptime t).lookup service).isSome

/-- The services are those the handler collects. -/
theorem mem_uniqueServices (o : Orders) (service : GoString) :
    service ∈ o.keys ((activeTeams s).foldl (fun m team =>
      (o.keys (s.uptime team.id)).foldl (fun m service => m.insert service true) m)
      (∅ : GoMap GoString Bool)) ↔ CountedService s service := by
  have hteams : ∀ (teams : List TeamSchema) (m : GoMap GoString Bool),
      ((teams.foldl (fun m team =>
        (o.keys (s.uptime team.id)).foldl (fun m service => m.insert service true) m) m).lookup
          service).isSome ↔
        (m.lookup service).isSome ∨ ∃ team ∈ teams, ((s.uptime team.id).lookup service).isSome := by
    intro teams
    induction teams with
    | nil => simp
    | cons team rest ih =>
      intro m
      have hteam := GoMap.isSome_lookup_foldl_insert (fun service : GoString => service)
        (fun _ => true) (o.keys (s.uptime team.id)) m service
      rw [List.foldl_cons, ih, hteam]
      simp only [exists_eq_right, Orders.mem_keys, List.mem_cons, exists_eq_or_imp, or_assoc]
  rw [Orders.mem_keys, hteams]
  simp [CountedService, activeIDs]

/-- The series of a team, without the order of its points. -/
def uptimeSeries (s : GraphState) (services : List GoString) (t : Nat) :
    GoString × Multiset UptimePoint :=
  (str "Team", ↑(services.map (uptimePoint (s.uptime t))))

/-- JSON has a text for all points of a team. -/
def encodablePoints (s : GraphState) (services : List GoString) (t : Nat) : Bool :=
  services.all (fun service => (uptimePoint (s.uptime t) service).uptime.isFinite)

/-- The series, if all of them can be written. -/
def uptimeAnswer (s : GraphState) (services : List GoString) : Unordered :=
  .uptimes (if (activeIDs s).all (encodablePoints s services) then
    some ↑((activeIDs s).map (uptimeSeries s services)) else none)

theorem unordered_uptimes (services : List GoString) :
    let series := ((activeTeams s).map (fun team =>
      (⟨team.name, services.map (uptimePoint (s.uptime team.id))⟩ : UptimeSeries))).map
        (fun series => {series with name := str "Team"})
    GraphData.unordered (.uptimes (if encodable series then some series else none)) =
      uptimeAnswer s services := by
  intro series
  have hseries : series.map (fun s => (s.name, (↑s.data : Multiset UptimePoint))) =
      (activeIDs s).map (uptimeSeries s services) := by
    rw [← map_activeTeams, List.map_map, List.map_map]
    rfl
  have hencodable : encodable series = (activeIDs s).all (encodablePoints s services) := by
    rw [encodable, List.all_map, List.all_map, activeIDs, List.all_map]
    congr 1
    funext team
    exact List.all_map
  rw [GraphData.unordered, uptimeAnswer, hencodable, ← hseries]
  split <;> rfl

theorem unordered_getUptimeStatus (o : Orders) (hscrub : shouldScrub conf session = true) :
    ∃ services, services.Nodup ∧ (∀ service, service ∈ services ↔ CountedService s service) ∧
      (getUptimeStatus o conf s session).map GraphData.unordered =
        (gate s session [.getTeams]).map (fun _ => uptimeAnswer s services) := by
  refine ⟨_, Orders.nodup_keys o _, mem_uniqueServices o, ?_⟩
  unfold getUptimeStatus gate
  cases checkCompetitionStarted s.started session with
  | error err => rfl
  | ok _ =>
    simp only [GraphState.query, List.findSome?_cons, List.findSome?_nil]
    cases s.fails .getTeams with
    | some err => rfl
    | none =>
      simp only [bind, Except.bind, hscrub, if_true, Except.map]
      exact congrArg Except.ok (unordered_uptimes _)

theorem Traded.uptime (h : Traded π s s') (t : Nat) : s'.uptime (π t) = s.uptime t := by
  rw [GraphState.uptime, GraphState.uptime, h.uptimes]

/-- Where teams trade places, so do their uptimes, and JSON has a text for the same ones. -/
theorem Traded.uptimeAnswer (h : Traded π s s') (hstored : s.Stored) {services services' : List GoString}
    (hperm : services.Perm services') :
    WWW.uptimeAnswer s' services' = WWW.uptimeAnswer s services := by
  have hseries : ∀ t, uptimeSeries s' services' (π t) = uptimeSeries s services t := by
    intro t
    rw [uptimeSeries, uptimeSeries, h.uptime, Multiset.coe_eq_coe.mpr (hperm.map _)]
  have hencodable : ∀ t, encodablePoints s' services' (π t) = encodablePoints s services t := by
    intro t
    rw [encodablePoints, encodablePoints, h.uptime, hperm.all_eq]
  have hall := (Relabel.perm_map_of_moved (h.perm hstored) hencodable).all_eq (f := id)
  rw [List.all_map, List.all_map] at hall
  rw [WWW.uptimeAnswer, WWW.uptimeAnswer, h.ids,
    Multiset.coe_eq_coe.mpr (Relabel.perm_map_of_moved (h.perm hstored) hseries)]
  simp only [Function.id_comp] at hall
  rw [hall]

/-! ### Two runs -/

/-- In the last round every active team has the same results as the team it trades places with. -/
def SameResults (π : Equiv.Perm Nat) (s : GraphState) : Prop :=
  ∀ t ∈ activeIDs s, ∀ check ∈ (getLastRound s.db).checks,
    lastResult (getLastRound s.db) (π t) check.serviceName =
      lastResult (getLastRound s.db) t check.serviceName

theorem Traded.getLastRound (h : Traded π s s') :
    DB.getLastRound s'.db = ⟨(DB.getLastRound s.db).id, (DB.getLastRound s.db).checks.map
      (fun check => {check with teamID := π check.teamID})⟩ := by
  unfold DB.getLastRound
  rw [h.rounds, h.checks]
  cases s.db.rounds.max? with
  | none => rfl
  | some id =>
    simp only
    rw [List.filter_map]
    rfl

theorem Traded.lastResult (h : Traded π s s') (t : Nat) (service : GoString) :
    WWW.lastResult (DB.getLastRound s'.db) (π t) service =
      WWW.lastResult (DB.getLastRound s.db) t service := by
  have hfilter : (fun check : ServiceCheckSchema =>
      decide (check.teamID = π t ∧ check.serviceName = service)) ∘
      (fun check : ServiceCheckSchema => {check with teamID := π check.teamID}) =
      fun check => decide (check.teamID = t ∧ check.serviceName = service) := by
    funext check
    simp
  rw [WWW.lastResult, WWW.lastResult, h.getLastRound, List.filter_map, hfilter, List.getLast?_map,
    Option.map_map]
  rfl

/-- Where teams trade places, so do the points of their checks in the last round. -/
theorem Traded.statusPoints (h : Traded π s s') (t : Nat) :
    (serviceSeries (DB.getLastRound s'.db) (π t)).2.2 =
      (serviceSeries (DB.getLastRound s.db) t).2.2 := by
  have hservices : roundServices (DB.getLastRound s'.db) = roundServices (DB.getLastRound s.db) := by
    rw [roundServices, roundServices, h.getLastRound, List.map_map]
    rfl
  have hpoint : statusPoint (DB.getLastRound s'.db) (π t) =
      statusPoint (DB.getLastRound s.db) t := by
    funext service
    rw [statusPoint, statusPoint, h.lastResult]
  simp only [serviceSeries, hservices, hpoint]

/-- A series shows its team by the id, so nothing may have moved. -/
theorem services_same_iff (h : Traded π s s') (hstored : s.Stored)
    (hscrub : shouldScrub conf session = true) (o o' : Orders) :
    SameSeries (getServiceStatus o conf s session) (getServiceStatus o' conf s' session) ↔
      (∃ err, gate s session [.getLastRound, .getTeams] = .error err) ∨ SameResults π s := by
  rw [SameSeries, unordered_getServiceStatus o hscrub, unordered_getServiceStatus o' hscrub, h.gate,
    h.ids]
  cases gate s session [.getLastRound, .getTeams] with
  | error err => simp [Except.map]
  | ok _ =>
    have hid : (getLastRound s'.db).id = (getLastRound s.db).id := by rw [h.getLastRound]
    have hseries : ∀ t, serviceSeries (getLastRound s.db) t = serviceSeries (getLastRound s'.db) t ↔
        (serviceSeries (getLastRound s.db) t).2.2 = (serviceSeries (getLastRound s'.db) t).2.2 := by
      intro t
      simp [serviceSeries]
    have hpoints : ∀ t t', (serviceSeries (getLastRound s.db) t).2.2 =
        (serviceSeries (getLastRound s.db) t').2.2 ↔ ∀ check ∈ (getLastRound s.db).checks,
          lastResult (getLastRound s.db) t check.serviceName =
            lastResult (getLastRound s.db) t' check.serviceName := by
      intro t t'
      rw [← statusPoint_perm_iff]
      exact Multiset.coe_eq_coe
    simp only [Except.map, Except.ok.injEq, Unordered.services.injEq, hid, and_true, reduceCtorEq,
      exists_false, false_or, Multiset.coe_eq_coe]
    rw [Relabel.perm_map_iff (fun series => series.2.1) (fun _ => rfl) (fun _ => rfl)]
    simp only [hseries]
    rw [Relabel.forall_moved_iff (h.perm hstored)
      (f := fun t => (serviceSeries (getLastRound s.db) t).2.2) h.statusPoints]
    simp only [hpoints, SameResults]

/-- Where teams trade places, the services that are counted are the same. -/
theorem Traded.countedService (h : Traded π s s') (hstored : s.Stored) (service : GoString) :
    CountedService s' service ↔ CountedService s service := by
  unfold CountedService
  rw [h.ids]
  constructor
  · rintro ⟨t', ht', hcounted⟩
    obtain ⟨t, ht, rfl⟩ := List.mem_map.mp ((h.perm hstored).mem_iff.mpr ht')
    rw [h.uptime] at hcounted
    exact ⟨t, ht, hcounted⟩
  · rintro ⟨t, ht, hcounted⟩
    refine ⟨π t, (h.perm hstored).mem_iff.mp (List.mem_map_of_mem ht), ?_⟩
    rw [h.uptime]
    exact hcounted

theorem scores_same (h : Traded π s s') (hstored : s.Stored)
    (hscrub : shouldScrub conf session = true) (o o' : Orders) :
    SameSeries (getScoreStatus o conf s session) (getScoreStatus o' conf s' session) := by
  rw [SameSeries, unordered_getScoreStatus o hscrub, unordered_getScoreStatus o' hscrub, h.gate,
    h.ids, Multiset.coe_eq_coe.mpr
      (Relabel.perm_map_of_moved (h.perm hstored) (h.scoreSeries hstored))]

theorem uptimes_same (h : Traded π s s') (hstored : s.Stored)
    (hscrub : shouldScrub conf session = true) (o o' : Orders) :
    SameSeries (getUptimeStatus o conf s session) (getUptimeStatus o' conf s' session) := by
  obtain ⟨services, hnodup, hmem, hanswer⟩ := unordered_getUptimeStatus (s := s) o hscrub
  obtain ⟨services', hnodup', hmem', hanswer'⟩ := unordered_getUptimeStatus (s := s') o' hscrub
  have hperm : services.Perm services' := by
    rw [List.perm_ext_iff_of_nodup hnodup hnodup']
    intro service
    rw [hmem, hmem', h.countedService hstored]
  rw [SameSeries, hanswer, hanswer', h.gate, h.uptimeAnswer hstored hperm]

/-- To whom graphs are anonymised, all three answers are the same, up to the order of series,
after active teams have traded what they own, exactly if the services are not answered or no
team has traded a result of the last round for another. -/
theorem graphs_anonymous_iff (h : Traded π s s') (hstored : s.Stored)
    (hscrub : shouldScrub conf session = true) (o o' : Orders) :
    (∀ graph, SameSeries (handleGraph o conf s session graph) (handleGraph o' conf s' session graph)) ↔
      (s.started = false ∨ s.fails .getLastRound ≠ none ∨ s.fails .getTeams ≠ none) ∨
        SameResults π s := by
  have hgate := gate_error_iff (s := s) hscrub [.getLastRound, .getTeams]
  simp only [List.mem_cons, List.not_mem_nil, or_false, exists_eq_or_imp, exists_eq_left] at hgate
  rw [← hgate, ← services_same_iff h hstored hscrub o o']
  constructor
  · intro hall
    exact hall .services
  · intro hservices graph
    cases graph with
    | services => exact hservices
    | scores => exact scores_same h hstored hscrub o o'
    | uptimes => exact uptimes_same h hstored hscrub o o'

/-- Two teams, the second five points behind, and what their checks have found in the last round. -/
def rivals (first second : Bool) : GraphState where
  started := true
  db := {
    teams := [teamOne, ⟨2, str "team02", str "02", true⟩]
    rounds := [1, 2]
    checks := [⟨1, 2, str "ssh", 5, first, [], []⟩, ⟨2, 2, str "ssh", 5, second, [], []⟩] }
  cumulativeScores := [⟨2, 1, 10⟩, ⟨2, 2, 5⟩]

/-- The two teams trade places. -/
def rivalsTraded (first second : Bool) : GraphState :=
  { rivals first second with
    db := {(rivals first second).db with
      checks := [⟨2, 2, str "ssh", 5, first, [], []⟩, ⟨1, 2, str "ssh", 5, second, [], []⟩] }
    cumulativeScores := [⟨2, 2, 10⟩, ⟨2, 1, 5⟩] }

theorem traded_rivals (first second : Bool) :
    Traded (Equiv.swap 1 2) (rivals first second) (rivalsTraded first second) where
  active := by
    intro t ht
    have h1 : t ≠ 1 := Ne.symm (ht teamOne (by simp [rivals]) rfl)
    have h2 : t ≠ 2 := Ne.symm (ht ⟨2, str "team02", str "02", true⟩ (by simp [rivals]) rfl)
    exact Equiv.swap_apply_of_ne_of_ne h1 h2
  started := rfl
  fails := rfl
  teams := rfl
  rounds := rfl
  checks := rfl
  slas := rfl
  scores := rfl
  uptimes _ := rfl

theorem stored_rivals (first second : Bool) : (rivals first second).Stored where
  teams := by
    show [1, 2].Nodup
    decide
  rounds := by
    show ∀ id ∈ [1, 2], id ≤ maxInt
    decide

/-- The scores trade places and are answered alike. -/
theorem graphs_anonymous_rivals : (rivals true true).cumulativeScores ≠
      (rivalsTraded true true).cumulativeScores ∧
    ∀ (o o' : Orders) (graph : Graph), SameSeries (handleGraph o {} (rivals true true) none graph)
      (handleGraph o' {} (rivalsTraded true true) none graph) := by
  refine ⟨by decide, fun o o' => ?_⟩
  apply (graphs_anonymous_iff (traded_rivals true true) (stored_rivals true true) rfl o o').mpr
  right
  intro t ht
  have hid : t = 1 ∨ t = 2 := by
    have hids : activeIDs (rivals true true) = [1, 2] := by decide
    rw [hids] at ht
    simpa using ht
  rcases hid with rfl | rfl
  · decide +kernel
  · decide +kernel

/-- The series of the services say by their ids whose check has passed. -/
theorem services_not_anonymous :
    ¬∀ (conf : ConfigSettings) (session : Option Session) (π : Equiv.Perm Nat) (s s' : GraphState)
      (o o' : Orders), shouldScrub conf session = true → s.Stored → Traded π s s' → ∀ graph,
        SameSeries (handleGraph o conf s session graph) (handleGraph o' conf s' session graph) := by
  intro hall
  have hservices := hall {} none (Equiv.swap 1 2) (rivals true false) (rivalsTraded true false)
    .plain .plain rfl (stored_rivals true false) (traded_rivals true false) .services
  rcases (services_same_iff (traded_rivals true false) (stored_rivals true false) rfl .plain
    .plain).mp hservices with ⟨err, herr⟩ | hsame
  · cases herr
  · have hresult := hsame 1 (by decide) ⟨1, 2, str "ssh", 5, true, [], []⟩ (by decide +kernel)
    revert hresult
    decide +kernel

end QuotientScoring.WWW
