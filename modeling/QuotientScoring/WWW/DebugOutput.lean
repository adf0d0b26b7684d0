import QuotientScoring.WWW.Graphs
import QuotientScoring.WWW.Teams

/-! Who may see what a check has printed.

The debug output and the error of a check hold the credentials it used. Teams read their
own checks with one handler and a summary of them with another, and the three graphs are
made from the same rows. `debug_output_hidden`: to a session that may not see the two
columns, none of the five answers depends on them. Each handler is shown to answer as it
does from a database without the columns; of those, two that differ in nothing else have
the same. -/
namespace QuotientScoring.WWW
open DB GoText Config

/-- The database without the debug output and the errors of its checks. -/
def withoutDebug (db : Database) : Database := {db with checks := db.checks.map scrubbed}

/-- The two are the same database, but for debug output and errors of checks. -/
structure DebugOnly (db db' : Database) : Prop where
  teams : db.teams = db'.teams
  rounds : db.rounds = db'.rounds
  slas : db.slas = db'.slas
  checks : List.Forall₂ (fun check check' => scrubbed check = scrubbed check') db.checks db'.checks

theorem DebugOnly.withoutDebug_eq {db db' : Database} (h : DebugOnly db db') :
    withoutDebug db = withoutDebug db' := by
  have hmap : ∀ {checks checks' : List ServiceCheckSchema},
      List.Forall₂ (fun check check' => scrubbed check = scrubbed check') checks checks' →
        checks.map scrubbed = checks'.map scrubbed := by
    intro checks checks' hchecks
    induction hchecks with
    | nil => rfl
    | cons hcheck _ ih => rw [List.map_cons, List.map_cons, hcheck, ih]
  simp only [withoutDebug, h.teams, h.rounds, h.slas, hmap h.checks]

/-- What is answered from scrubbed databases as from the databases themselves does not tell two
apart. -/
theorem DebugOnly.congr {β : Type} {db db' : Database} (h : DebugOnly db db')
    {f : Database → β} (hf : ∀ db, f (withoutDebug db) = f db) : f db = f db' := by
  rw [← hf db, h.withoutDebug_eq, hf db']

/-- Conditions on the other columns choose the same rows. -/
theorem filter_scrubbed {p : ServiceCheckSchema → Bool} (hp : p ∘ scrubbed = p)
    (checks : List ServiceCheckSchema) :
    (checks.map scrubbed).filter p = (checks.filter p).map scrubbed := by
  rw [List.filter_map, hp]

theorem scrubbed_scrubbed : scrubbed ∘ scrubbed = scrubbed := rfl

/-! ### The two handlers of services -/

section Services
variable (conf : ConfigSettings) (site : TeamSite) (session : Session)

/-- The state of the handlers over a scrubbed database. -/
def TeamSite.scrubbed : TeamSite := {site with db := withoutDebug site.db}

theorem servicesTeam_scrubbed (teamID : GoString) :
    servicesTeam conf site.scrubbed session teamID = servicesTeam conf site session teamID := rfl

theorem serviceSummary_scrubbed (teamID : Nat) (name : GoString) :
    serviceSummary site.scrubbed teamID name = serviceSummary site teamID name := by
  have hround : ∀ id, ((site.db.checks.map scrubbed).filter (fun check =>
      check.roundID = id ∧ check.teamID = teamID ∧ check.serviceName = name)).map scrubbed =
      (site.db.checks.filter (fun check =>
        check.roundID = id ∧ check.teamID = teamID ∧ check.serviceName = name)).map scrubbed := by
    intro id
    rw [filter_scrubbed rfl, List.map_map, scrubbed_scrubbed]
  simp only [serviceSummary, TeamSite.scrubbed, withoutDebug, hround]

theorem getTeamSummary_scrubbed (teamID : GoString) :
    getTeamSummary conf site.scrubbed session teamID = getTeamSummary conf site session teamID := by
  have hnames : ∀ id, ((site.db.checks.map scrubbed).filter (fun check => check.teamID = id)).map
      ServiceCheckSchema.serviceName =
      (site.db.checks.filter (fun check => check.teamID = id)).map ServiceCheckSchema.serviceName := by
    intro id
    rw [filter_scrubbed rfl, List.map_map]
    rfl
  have hsummary : serviceSummary site.scrubbed = serviceSummary site := by
    funext id name
    exact serviceSummary_scrubbed site id name
  unfold getTeamSummary
  rw [servicesTeam_scrubbed, hsummary]
  simp only [TeamSite.scrubbed, withoutDebug, hnames]

/-- Rows are ordered by their rounds, so scrubbing them first or last is the same. -/
theorem getServiceAll_scrubbed (hadmin : .admin ∉ session.roles)
    (hhidden : .red ∈ session.roles ∨ conf.miscSettings.showDebugToBlueTeam = false)
    (teamID serviceID : GoString) :
    getServiceAll conf site.scrubbed session teamID serviceID =
      getServiceAll conf site session teamID serviceID := by
  have hservice : ∀ id, (((site.db.checks.map scrubbed).filter (fun check =>
      check.teamID = id ∧ check.serviceName = serviceID)).insertionSort
        (fun a b => b.roundID ≤ a.roundID)).map scrubbed =
      ((site.db.checks.filter (fun check =>
        check.teamID = id ∧ check.serviceName = serviceID)).insertionSort
          (fun a b => b.roundID ≤ a.roundID)).map scrubbed := by
    intro id
    rw [filter_scrubbed rfl, ← List.map_insertionSort (fun a b => b.roundID ≤ a.roundID)
      (fun a b => b.roundID ≤ a.roundID) scrubbed _ (fun _ _ _ _ => Iff.rfl), List.map_map,
      scrubbed_scrubbed]
  have hscrub : .admin ∉ session.roles ∧
      (.red ∈ session.roles ∨ conf.miscSettings.showDebugToBlueTeam = false) := ⟨hadmin, hhidden⟩
  unfold getServiceAll
  rw [servicesTeam_scrubbed]
  simp only [TeamSite.scrubbed, withoutDebug, if_pos hscrub, hservice]

end Services

/-! ### The graphs -/

section Graphs
variable (o : Orders) (conf : ConfigSettings) (s : GraphState) (session : Option Session)

/-- The state of the graphs over a scrubbed database. -/
def GraphState.scrubbed : GraphState := {s with db := withoutDebug s.db}

/-- The last round has the same checks, without the two columns. -/
theorem getLastRound_withoutDebug (db : Database) :
    getLastRound (withoutDebug db) =
      ⟨(getLastRound db).id, (getLastRound db).checks.map scrubbed⟩ := by
  unfold getLastRound
  simp only [withoutDebug]
  cases db.rounds.max? with
  | none => rfl
  | some id =>
    simp only
    rw [filter_scrubbed rfl]

theorem statusPoints_scrubbed (round : RoundSchema) (uniqueServices : List GoString)
    (team : TeamSchema) :
    statusPoints o ⟨round.id, round.checks.map scrubbed⟩ uniqueServices team =
      statusPoints o round uniqueServices team := by
  simp only [statusPoints, List.foldl_map]
  rfl

theorem getServiceStatus_scrubbed :
    getServiceStatus o conf s.scrubbed session = getServiceStatus o conf s session := by
  have hquery : ∀ {α : Type} (query : GraphQuery) (value : α),
      s.scrubbed.query query value = s.query query value := fun _ _ => rfl
  have hteams : activeTeams s.scrubbed = activeTeams s := rfl
  unfold getServiceStatus
  rw [hteams]
  simp only [hquery]
  simp only [GraphState.scrubbed, getLastRound_withoutDebug, GraphState.query]
  cases s.fails .getLastRound with
  | some err => rfl
  | none => simp only [bind, Except.bind, List.foldl_map, statusPoints_scrubbed, scrubbed]

/-- Of the rounds only the number of the last one is read. -/
theorem getServiceCheckSumByRound_withoutDebug (db : Database) (view : List CumulativeScore) :
    getServiceCheckSumByRound (withoutDebug db) view = getServiceCheckSumByRound db view := by
  unfold getServiceCheckSumByRound
  rw [getLastRound_withoutDebug]
  rfl

theorem getScoreStatus_scrubbed :
    getScoreStatus o conf s.scrubbed session = getScoreStatus o conf s session := by
  unfold getScoreStatus
  rw [show getServiceCheckSumByRound s.scrubbed.db s.scrubbed.cumulativeScores =
    getServiceCheckSumByRound s.db s.cumulativeScores from
      getServiceCheckSumByRound_withoutDebug s.db s.cumulativeScores]
  rfl

theorem handleGraph_scrubbed (graph : Graph) :
    handleGraph o conf s.scrubbed session graph = handleGraph o conf s session graph := by
  cases graph with
  | services => exact getServiceStatus_scrubbed o conf s session
  | scores => exact getScoreStatus_scrubbed o conf s session
  | uptimes => rfl

end Graphs

/-! ### Two runs -/

variable {conf : ConfigSettings} {session : Session} {db db' : Database}

/-- A session that may not see debug output is answered alike from two databases that differ in
nothing else: both handlers of services, for every path, and the three graphs, which also a
request without a session may ask for. -/
theorem debug_output_hidden (hadmin : .admin ∉ session.roles)
    (hhidden : .red ∈ session.roles ∨ conf.miscSettings.showDebugToBlueTeam = false)
    (hdiff : DebugOnly db db') :
    (∀ (site : TeamSite) (teamID serviceID : GoString),
      getServiceAll conf {site with db := db} session teamID serviceID =
        getServiceAll conf {site with db := db'} session teamID serviceID) ∧
    (∀ (site : TeamSite) (teamID : GoString),
      getTeamSummary conf {site with db := db} session teamID =
        getTeamSummary conf {site with db := db'} session teamID) ∧
    ∀ (o : Orders) (s : GraphState) (request : Option Session) (graph : Graph),
      handleGraph o conf {s with db := db} request graph =
        handleGraph o conf {s with db := db'} request graph := by
  refine ⟨fun site teamID serviceID => ?_, fun site teamID => ?_, fun o s request graph => ?_⟩
  · apply hdiff.congr (f := fun db => getServiceAll conf {site with db := db} session teamID serviceID)
    intro db
    exact getServiceAll_scrubbed conf {site with db := db} session hadmin hhidden teamID serviceID
  · apply hdiff.congr (f := fun db => getTeamSummary conf {site with db := db} session teamID)
    intro db
    exact getTeamSummary_scrubbed conf {site with db := db} session teamID
  · apply hdiff.congr (f := fun db => handleGraph o conf {s with db := db} request graph)
    intro db
    exact handleGraph_scrubbed o conf {s with db := db} request graph

/-- A failed check of the first team, with what it printed. -/
def oneFailure (debug : GoString) : Database where
  teams := [teamOne]
  rounds := [1]
  checks := [⟨1, 1, str "ssh", 5, false, str "login failed", debug⟩]

/-- A team whose own check has printed a password, where teams are not shown debug output. -/
theorem debug_output_hidden_team : oneFailure (str "creds root:hunter2") ≠ oneFailure [] ∧
    ∀ (site : TeamSite),
      getServiceAll {} {site with db := oneFailure (str "creds root:hunter2")}
        ⟨str "team01", [.team]⟩ (str "1") (str "ssh") =
      getServiceAll {} {site with db := oneFailure []}
        ⟨str "team01", [.team]⟩ (str "1") (str "ssh") := by
  refine ⟨by decide +kernel, fun site => ?_⟩
  have hhidden := @debug_output_hidden {} ⟨str "team01", [.team]⟩
    (oneFailure (str "creds root:hunter2")) (oneFailure []) (by simp) (.inr rfl)
    ⟨rfl, rfl, rfl, .cons rfl .nil⟩
  exact hhidden.1 site (str "1") (str "ssh")

end QuotientScoring.WWW
