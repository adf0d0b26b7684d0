import QuotientScoring.DB.ScoreOverTime
import QuotientScoring.DB.Counters
import QuotientScoring.Lib.GoOrder
import QuotientScoring.WWW.Api

/-! The three graphs, and whom they are shown to.

Two settings say that graphs are not for the public and not for teams. The
handlers stand behind a middleware that lets everybody through, and no handler
reads either setting: `respondGraph_visibility`. Where a setting hides the graphs they
are answered as anywhere else, and `graphs_shown_where_hidden` gives for each of them
two states of a started competition that the answers tell apart. -/
namespace QuotientScoring.WWW
open DB GoText Config

/-- The calls of the database the handlers make. -/
inductive GraphQuery where
  | getLastRound
  | getServiceCheckSumByRound
  | getTeams
deriving DecidableEq

/-- What the handlers read: the tables, the view over them, the counters of the engine, and
the calls that fail. -/
structure GraphState where
  started : Bool
  db : Database := {}
  cumulativeScores : List CumulativeScore := []
  uptimePerService : UptimeMap := ∅
  fails : GraphQuery → Option GoString := fun _ => none

def GraphState.query {α : Type} (s : GraphState) (query : GraphQuery) (value : α) :
    Except HttpError α :=
  match s.fails query with
  | some err => .error ⟨500, err⟩
  | none => .ok value

/-- The values of a point: not checked, passed, failed. -/
inductive Status where
  | unknown
  | up
  | down
deriving DecidableEq

structure StatusPoint where
  x : GoString
  y : Status
deriving DecidableEq

structure StatusSeries where
  name : GoString
  id : Nat
  data : List StatusPoint
deriving DecidableEq

structure ScorePoint where
  round : Nat
  total : Int
deriving DecidableEq

structure ScoreSeries where
  name : GoString
  data : List ScorePoint
deriving DecidableEq

structure UptimePoint where
  service : GoString
  uptime : Float

structure UptimeSeries where
  name : GoString
  data : List UptimePoint

/-- What a handler writes. A number that JSON has no text for leaves the body empty. -/
inductive GraphData where
  | services (series : List StatusSeries) (roundID : Nat)
  | scores (series : List ScoreSeries)
  | uptimes (series : Option (List UptimeSeries))

variable (o : Orders) (conf : ConfigSettings) (s : GraphState) (session : Option Session)

def shouldScrub : Bool :=
  if session.any (fun session => .admin ∈ session.roles) then false
  else !conf.uiSettings.allowNonAnonymizedGraphsForBlueTeam

/-- The active teams. -/
def activeTeams : List TeamSchema := (getTeams s.db).filter TeamSchema.active

/-- One point for each service of the round: the last check of the team decides. -/
def statusPoints (round : RoundSchema) (uniqueServices : List GoString) (team : TeamSchema) :
    List StatusPoint :=
  let temp := uniqueServices.foldl (fun temp uniqueName => temp.insert uniqueName ⟨uniqueName, .unknown⟩)
    (∅ : GoMap GoString StatusPoint)
  let temp := round.checks.foldl (fun temp check =>
    if team.id = check.teamID then
      temp.insert check.serviceName ⟨check.serviceName, if check.result then .up else .down⟩
    else temp) temp
  (o.range temp).map Prod.snd

def getServiceStatus : Except HttpError GraphData := do
  checkCompetitionStarted s.started session
  let round ← s.query .getLastRound (getLastRound s.db)
  let uniqueServicesMap := round.checks.foldl (fun m check => m.insert check.serviceName true)
    (∅ : GoMap GoString Bool)
  let uniqueServices := o.keys uniqueServicesMap
  let teams ← s.query .getTeams (activeTeams s)
  let series := teams.map (fun team =>
    ⟨team.name, team.id, statusPoints o round uniqueServices team⟩)
  .ok (.services (if shouldScrub conf session then
    series.map (fun series => {series with name := str "Team"}) else series) round.id)

/-- One entry of one round goes to the series of the team it is of. -/
def addPoint (teams : List TeamSchema) (round : Nat) (series : List ScoreSeries) (e : Nat × Int) :
    List ScoreSeries :=
  List.zipWith (fun team series =>
    if team.id = e.1 then {series with data := series.data ++ [⟨round + 1, e.2⟩]} else series)
    teams series

/-- The higher total in the last point comes first; empty series come last. -/
def compareSeries (a b : ScoreSeries) : Int :=
  match a.data.getLast? with
  | none => 1
  | some lastA =>
    match b.data.getLast? with
    | none => -1
    | some lastB => lastB.total - lastA.total

def getScoreStatus : Except HttpError GraphData := do
  checkCompetitionStarted s.started session
  let scores ← s.query .getServiceCheckSumByRound (getServiceCheckSumByRound s.db s.cumulativeScores)
  let teams ← s.query .getTeams (activeTeams s)
  let series := teams.map (fun team => ⟨team.name, []⟩)
  let series := scores.zipIdx.foldl (fun series allTeamsThisRound =>
    (o.range allTeamsThisRound.1).foldl (addPoint teams allTeamsThisRound.2) series) series
  let series := if shouldScrub conf session then
    series.map (fun series => {series with name := str "Team"}) else series
  .ok (.scores (o.sortFunc compareSeries series))

/-- The quotient of the two counters; a service without an entry is just below zero. -/
def uptimePoint (uptime : GoMap GoString Uptime) (servicename : GoString) : UptimePoint :=
  ⟨servicename, match uptime.lookup servicename with
    | none => -0.01
    | some uptime => Float.ofInt uptime.passedChecks / Float.ofInt uptime.totalChecks⟩

/-- JSON has no text for infinities and for what is not a number. -/
def encodable (series : List UptimeSeries) : Bool :=
  series.all (fun series => series.data.all (fun point => point.uptime.isFinite))

def getUptimeStatus : Except HttpError GraphData := do
  checkCompetitionStarted s.started session
  let teams ← s.query .getTeams (activeTeams s)
  let uptime := fun team : TeamSchema => (s.uptimePerService.lookup team.id).getD ∅
  let uniqueServicesMap := teams.foldl (fun m team =>
    (o.keys (uptime team)).foldl (fun m service => m.insert service true) m)
    (∅ : GoMap GoString Bool)
  let uniqueServices := o.keys uniqueServicesMap
  let series := teams.map (fun team =>
    ⟨team.name, uniqueServices.map (uptimePoint (uptime team))⟩)
  let series := if shouldScrub conf session then
    series.map (fun series => {series with name := str "Team"}) else series
  .ok (.uptimes (if encodable series then some series else none))

/-! ### The routes -/

/-- `GET /api/graphs/services`, `/scores` and `/uptimes`. -/
inductive Graph where
  | services
  | scores
  | uptimes
deriving DecidableEq

def handleGraph : Graph → Except HttpError GraphData
  | .services => getServiceStatus o conf s session
  | .scores => getScoreStatus o conf s session
  | .uptimes => getUptimeStatus o conf s session

/-- The roles of the middleware in front of the three. -/
def unauth : List Role := [.anonymous, .team, .admin, .red, .inject]

/-- The answer to a request with a cookie or without one: a refusal of the middleware, or what
the handler writes. -/
def respondGraph (server : LdapServer) (oidcRoles : GoString → Option (List Role))
    (token : Option Cookie) (graph : Graph) : Except Refused (Except HttpError GraphData) :=
  (authentication unauth (authenticate conf server oidcRoles token)).map
    (fun session => handleGraph o conf s session graph)

/-- Whatever the two settings are, the answer is the same. -/
theorem respondGraph_visibility (server : LdapServer)
    (oidcRoles : GoString → Option (List Role)) (token : Option Cookie) (graph : Graph)
    (publicGraphs blueTeam : Bool) :
    respondGraph o {conf with uiSettings := {conf.uiSettings with
      enablePublicGraphs := publicGraphs, disableGraphsForBlueTeam := blueTeam}}
      s server oidcRoles token graph = respondGraph o conf s server oidcRoles token graph := by
  cases graph <;> rfl

/-! ### One series for each active team -/

/-- How many series the body holds. -/
def GraphData.size : GraphData → Option Nat
  | .services series _ => some series.length
  | .scores series => some series.length
  | .uptimes series => series.map List.length

variable {o conf s session}

theorem length_foldl_addPoint {teams : List TeamSchema} (round : Nat) (entries : List (Nat × Int))
    {series : List ScoreSeries} (h : series.length = teams.length) :
    (entries.foldl (addPoint teams round) series).length = teams.length := by
  induction entries generalizing series with
  | nil => exact h
  | cons e rest ih =>
    apply ih
    simp [addPoint, h]

theorem length_foldl_rounds {teams : List TeamSchema} (scores : List (GoMap Nat Int × Nat))
    {series : List ScoreSeries} (h : series.length = teams.length) :
    (scores.foldl (fun series allTeamsThisRound =>
      (o.range allTeamsThisRound.1).foldl (addPoint teams allTeamsThisRound.2) series)
      series).length = teams.length := by
  induction scores generalizing series with
  | nil => exact h
  | cons round rest ih =>
    apply ih
    exact length_foldl_addPoint round.2 (o.range round.1) h

/-- A started competition whose database answers, and an engine that has counted nothing yet. -/
structure GraphState.Fresh (s : GraphState) : Prop where
  started : s.started = true
  answers : ∀ query, s.fails query = none
  uncounted : s.uptimePerService = ∅

theorem GraphState.Fresh.query {α : Type} (h : s.Fresh) (query : GraphQuery) (value : α) :
    s.query query value = .ok value := by
  simp [GraphState.query, h.answers]

/-- Without counters there is no service to make a point of. -/
theorem uniqueServices_fresh (o : Orders) (h : s.Fresh) (teams : List TeamSchema) :
    o.keys (teams.foldl (fun m team =>
      (o.keys ((s.uptimePerService.lookup team.id).getD ∅)).foldl
        (fun m service => m.insert service true) m) (∅ : GoMap GoString Bool)) = [] := by
  have hid : (fun (m : GoMap GoString Bool) (team : TeamSchema) =>
      (o.keys ((s.uptimePerService.lookup team.id).getD ∅)).foldl
        (fun m service => m.insert service true) m) = fun m _ => m := by
    funext m team
    simp [h.uncounted]
  rw [hid, List.foldl_fixed, Orders.keys_empty]

/-- Every graph is answered with one series for each active team. -/
theorem size_handleGraph (o : Orders) (conf : ConfigSettings) (session : Option Session)
    (h : s.Fresh) (graph : Graph) : ∃ data, handleGraph o conf s session graph = .ok data ∧
      data.size = some (activeTeams s).length := by
  have hstarted := checkCompetitionStarted_true session
  cases graph with
  | services =>
    refine ⟨_, by
      simp only [handleGraph, getServiceStatus, h.started, hstarted, h.query, bind, Except.bind]
      rfl, ?_⟩
    cases shouldScrub conf session <;> simp [GraphData.size]
  | scores =>
    refine ⟨_, by
      simp only [handleGraph, getScoreStatus, h.started, hstarted, h.query, bind, Except.bind]
      rfl, ?_⟩
    have hlen := @length_foldl_rounds o (activeTeams s)
      (getServiceCheckSumByRound s.db s.cumulativeScores).zipIdx
      ((activeTeams s).map (fun team => ⟨team.name, []⟩)) (by simp)
    cases shouldScrub conf session <;> simp [GraphData.size, hlen]
  | uptimes =>
    refine ⟨_, by
      simp only [handleGraph, getUptimeStatus, h.started, hstarted, h.query, bind, Except.bind]
      rfl, ?_⟩
    rw [uniqueServices_fresh o h]
    cases shouldScrub conf session <;> simp [GraphData.size, encodable]

/-- A competition that has just started, with these teams. -/
def justStarted (teams : List TeamSchema) : GraphState := {started := true, db := {teams := teams}}

theorem fresh_justStarted (teams : List TeamSchema) : (justStarted teams).Fresh :=
  ⟨rfl, fun _ => rfl, rfl⟩

def teamOne : TeamSchema := ⟨1, str "team01", str "01", true⟩

/-- A handler that is reached tells a competition with one active team from one with none. -/
theorem respondGraph_ne {server : LdapServer} {oidcRoles : GoString → Option (List Role)}
    {token : Option Cookie} {session : Option Session}
    (hreached : authentication unauth (authenticate conf server oidcRoles token) = .ok session)
    (graph : Graph) (o o' : Orders) :
    respondGraph o conf (justStarted []) server oidcRoles token graph ≠
      respondGraph o' conf (justStarted [teamOne]) server oidcRoles token graph := by
  obtain ⟨data, hdata, hsize⟩ := size_handleGraph o conf session (fresh_justStarted []) graph
  obtain ⟨data', hdata', hsize'⟩ :=
    size_handleGraph o' conf session (fresh_justStarted [teamOne]) graph
  have hlen : (activeTeams (justStarted [])).length ≠ (activeTeams (justStarted [teamOne])).length := by
    decide
  simp only [respondGraph, hreached, Except.map, hdata, hdata']
  intro heq
  obtain rfl : data = data' := Except.ok.inj (Except.ok.inj heq)
  exact hlen (Option.some.inj (hsize.symm.trans hsize'))

/-! ### Where the graphs are to be hidden -/

/-- The settings hide the graphs from the request: it has no session and the graphs are not
public, or its session has no role but team and teams are not to see them. -/
def GraphsHidden (conf : ConfigSettings) (user : GoString × List Role) : Prop :=
  (user.1 = [] ∧ conf.uiSettings.enablePublicGraphs = false) ∨
  (user.1 ≠ [] ∧ user.2 ≠ [] ∧ (∀ role ∈ user.2, role = .team) ∧
    conf.uiSettings.disableGraphsForBlueTeam = true)

/-- The middleware lets such a request through. -/
theorem authentication_of_hidden {user : GoString × List Role} (h : GraphsHidden conf user) :
    ∃ session, authentication unauth user = .ok session := by
  obtain ⟨hanonymous, -⟩ | ⟨hname, hroles, hteam, -⟩ := h
  · exact ⟨none, by simp [authentication, hanonymous, unauth]⟩
  · obtain ⟨role, hrole⟩ := List.exists_mem_of_ne_nil _ hroles
    have hany : user.2.any (fun role => role ∈ unauth) = true := by
      refine List.any_eq_true.mpr ⟨role, hrole, ?_⟩
      rw [hteam role hrole]
      decide
    exact ⟨some ⟨user.1, user.2⟩, by rw [authentication, if_neg hname, if_pos hany]⟩

/-- Under every configuration and for every request that the graphs are hidden from, each
handler answers differently in two states of a started competition, in whatever order the
maps are visited. -/
theorem graphs_shown_where_hidden {server : LdapServer}
    {oidcRoles : GoString → Option (List Role)} {token : Option Cookie}
    (h : GraphsHidden conf (authenticate conf server oidcRoles token)) (graph : Graph) :
    ∃ s s', s.started = true ∧ s'.started = true ∧ ∀ o o' : Orders,
      respondGraph o conf s server oidcRoles token graph ≠
        respondGraph o' conf s' server oidcRoles token graph := by
  obtain ⟨session, hreached⟩ := authentication_of_hidden h
  exact ⟨justStarted [], justStarted [teamOne], rfl, rfl, respondGraph_ne hreached graph⟩

/-- A file that hides the graphs from everyone it can. -/
def hidingFile : ConfigSettings :=
  {userFile [] [⟨str "team01", str "x"⟩] with
    uiSettings := {enablePublicGraphs := false, disableGraphsForBlueTeam := true}}

/-- The public and a team, both to be kept from the graphs. -/
theorem graphs_shown_where_hidden_both :
    (∀ graph, ∃ s s', s.started = true ∧ s'.started = true ∧ ∀ o o' : Orders,
      respondGraph o hidingFile s .none (fun _ => none) none graph ≠
        respondGraph o' hidingFile s' .none (fun _ => none) none graph) ∧
    ∀ graph, ∃ s s', s.started = true ∧ s'.started = true ∧ ∀ o o' : Orders,
      respondGraph o hidingFile s .none (fun _ => none)
        (some ⟨str "team01", some (str "local")⟩) graph ≠
        respondGraph o' hidingFile s' .none (fun _ => none)
          (some ⟨str "team01", some (str "local")⟩) graph := by
  constructor
  · apply graphs_shown_where_hidden
    exact .inl ⟨rfl, rfl⟩
  · apply graphs_shown_where_hidden
    have huser : authenticate hidingFile .none (fun _ => none)
        (some ⟨str "team01", some (str "local")⟩) = (str "team01", [.team]) := by decide +kernel
    rw [huser]
    exact .inr ⟨by simp, by simp, by simp, rfl⟩

/-- With the graphs closed to the public, a request without a session is told from an accepted
configuration how many teams there are. -/
theorem public_graphs_shown :
    let raw := hidingFile
    let conf := setConfig .plain {} raw
    Accepts .plain raw conf ∧ conf.uiSettings.enablePublicGraphs = false ∧
    ¬∀ (graph : Graph) (s s' : GraphState), s.started = true → s'.started = true →
      ∀ o : Orders, respondGraph o conf s .none (fun _ => none) none graph =
        respondGraph o conf s' .none (fun _ => none) none graph := by
  intro raw conf
  refine ⟨by decide +kernel, by decide +kernel, ?_⟩
  intro hall
  have hreached : authentication unauth (authenticate conf .none (fun _ => none) none) = .ok none :=
    rfl
  exact respondGraph_ne hreached .services .plain .plain
    (hall .services (justStarted []) (justStarted [teamOne]) rfl rfl .plain)

end QuotientScoring.WWW
