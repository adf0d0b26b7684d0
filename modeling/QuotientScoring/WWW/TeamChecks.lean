import QuotientScoring.DB.TeamServiceChecks
import QuotientScoring.Engine.Enqueue
import QuotientScoring.WWW.Api
import Mathlib.Data.List.Dedup

/-! The switches of teams and services, as requests set them and rounds obey them.

`UpdateTeamChecks` sets one switch after another, and what it has set stays set when it stops at
an error. Any number of requests may be under way while `rvb` and `GetTeamChecks` read switch
after switch.

`switches_kept`: whatever the order, a switch is as it was set last, and a request that reports
success has set all of its switches. `switches_obeyed`: a round leaves out exactly the checks
whose switch is off when it reads it, and those whose switch cannot be read; the page shows every
team with every service, and each switch as a round that reads with it obeys it. -/
namespace QuotientScoring.WWW
open DB Engine GoText Transition Writers

/-! ### The handlers -/

def serviceStateError : HttpError := ⟨500, str "Failed to retrieve service state"⟩

structure TeamState where
  teamID : Nat
  teamName : GoString
  services : List (GoString × Bool)
deriving DecidableEq, Repr

/-- The services of the configuration, each once. -/
def checkNames (conf : Config.ConfigSettings) : List GoString :=
  (conf.allChecks.map (fun check => check.service.name)).dedup

def teamState (names : List GoString) (read : Nat → GoString → Option Bool) (team : TeamSchema) :
    Option TeamState := do
  let services ← names.mapM (fun name => (read team.id name).map (fun enabled => (name, enabled)))
  some ⟨team.id, team.name, services⟩

/-- `GetTeamChecks`, with the switches as they are read. The order of the services is that of a
map, and is left open. -/
def getTeamChecks (conf : Config.ConfigSettings) (teams : Option (List TeamSchema))
    (read : Nat → GoString → Option Bool) : Except HttpError (List GoString × List TeamState) :=
  match teams with
  | none => .error ⟨500, str "Failed to retrieve teams"⟩
  | some teams =>
    match teams.mapM (teamState (checkNames conf) read) with
    | none => .error serviceStateError
    | some states => .ok (checkNames conf, states)

/-- What `UpdateTeamChecks` has answered. -/
def updateTeamChecksReply : Progress SwitchUpdate → Option (Except HttpError Unit)
  | .idle | .writing _ _ => none
  | .refused => some (.error ⟨400, str "Invalid request body"⟩)
  | .failed _ _ => some (.error ⟨500, str "Failed to update service state"⟩)
  | .succeeded _ => some (.ok ())

/-! ### Any number of requests -/

/-- The requests that set switches, and the table. -/
abbrev SwitchSite (ι : Type) := SharedStore ι SwitchTable SwitchUpdate

section
variable {ι : Type} [DecidableEq ι]

/-- Requests from an empty table. -/
def switchRequests (ι : Type) [DecidableEq ι] : System (SwitchSite ι) (Action ι SwitchUpdate) :=
  writers switches {}

/-- The value the switch was set to last, by whichever request. -/
def lastSet (s : SwitchSite ι) (teamID : Nat) (serviceName : GoString) : Option Bool :=
  lastWrite SwitchUpdate.key SwitchUpdate.enabled (s.journal.map Prod.snd) (teamID, serviceName)

theorem isTeamServiceEnabled_eq {G : SwitchSite ι → Action ι SwitchUpdate → Prop} {s : SwitchSite ι}
    (h : Reachable (switchRequests ι) G s) (teamID : Nat) (serviceName : GoString) :
    isTeamServiceEnabled s.store teamID serviceName =
      if storableKey (teamID, serviceName) then some ((lastSet s teamID serviceName).getD true)
      else none := by
  rw [(journaled_of_reachable h).store]
  exact isTeamServiceEnabled_foldl _ teamID serviceName

/-- A request that has the switch for itself. -/
theorem lastSet_of_alone {G : SwitchSite ι → Action ι SwitchUpdate → Prop} {s : SwitchSite ι}
    (h : Reachable (switchRequests ι) G s) {i : ι} {teamID : Nat} {serviceName : GoString}
    (halone : ∀ j, j ≠ i → ∀ u ∈ (s.body j).getD [], u.key ≠ (teamID, serviceName)) :
    lastSet s teamID serviceName =
      lastWrite SwitchUpdate.key SwitchUpdate.enabled (s.writtenBy i) (teamID, serviceName) := by
  have hjournaled := journaled_of_reachable h
  have hown : ∀ e ∈ s.journal, e.2.key = (teamID, serviceName) → e.1 = i := by
    intro e he hkey
    by_contra hne
    have hwritten : e.2 ∈ s.writtenBy e.1 :=
      List.mem_map.mpr ⟨e, List.mem_filter.mpr ⟨he, by simp⟩, rfl⟩
    exact halone e.1 hne e.2 ((hjournaled.beginning e.1).subset hwritten) hkey
  have hsame : (s.journal.map Prod.snd).filter (fun u => u.key = (teamID, serviceName)) =
      (s.writtenBy i).filter (fun u => u.key = (teamID, serviceName)) := by
    rw [SharedStore.writtenBy, List.filter_map, List.filter_map, List.filter_filter]
    congr 1
    apply List.filter_congr
    intro e he
    by_cases hkey : e.2.key = (teamID, serviceName)
    · simp [hkey, hown e he hkey]
    · simp [hkey]
  rw [lastSet, ← lastWrite_filter, hsame, lastWrite_filter]

/-- In every state that any number of requests reach: the rows are those of distinct keys; a
switch reads as it was set last, or as on; each request has set a beginning of its switches, in
their order, none if it was refused and all if it has answered with success; and then a switch
that no other request is about is as its last entry for it says. -/
theorem switches_kept {s : SwitchSite ι}
    (h : Reachable (switchRequests ι) (fun _ _ => True) s) :
    s.store.Indexed ∧
    (∀ teamID serviceName, isTeamServiceEnabled s.store teamID serviceName =
      if storableKey (teamID, serviceName) then some ((lastSet s teamID serviceName).getD true)
      else none) ∧
    (∀ i, s.writtenBy i <+: (s.body i).getD []) ∧
    (∀ i, ∀ u ∈ s.writtenBy i, u.teamID < 2 ^ 63 ∧ StorableText u.serviceName) ∧
    ∀ i, updateTeamChecksReply (s.progress i) = some (.ok ()) →
      s.writtenBy i = (s.body i).getD [] ∧
      ∀ teamID serviceName,
        (∀ j, j ≠ i → ∀ u ∈ (s.body j).getD [], u.key ≠ (teamID, serviceName)) →
        lastSet s teamID serviceName =
          lastWrite SwitchUpdate.key SwitchUpdate.enabled ((s.body i).getD [])
            (teamID, serviceName) := by
  have hjournaled := journaled_of_reachable h
  refine ⟨?_, isTeamServiceEnabled_eq h, hjournaled.beginning, ?_, ?_⟩
  · rw [hjournaled.store]
    exact indexed_foldl SwitchTable.indexed_empty _
  · intro i u hu
    obtain ⟨e, he, rfl⟩ := List.mem_map.mp hu
    exact storableKey_iff.mp (hjournaled.accepted e (List.mem_filter.mp he).1)
  · intro i hreply
    have hsucceeded : ∃ written, s.progress i = .succeeded written := by
      cases hprogress : s.progress i with
      | succeeded written => exact ⟨written, rfl⟩
      | idle | refused | writing written left | failed written left =>
        rw [hprogress] at hreply
        cases hreply
    obtain ⟨written, hprogress⟩ := hsucceeded
    have hall := hjournaled.succeeded hprogress
    refine ⟨hall, ?_⟩
    intro teamID serviceName halone
    rw [← hall]
    exact lastSet_of_alone h halone

/-- Requests `true` and `false` set one switch, one after the other; the second loses its
acknowledgement. -/
def overtaken : List (Action Bool SwitchUpdate) :=
  let web := str "web"
  [.begin true (some [⟨1, web, false⟩]), .begin false (some [⟨1, web, true⟩, ⟨2, web, false⟩]),
   .write true, .finish true, .lose false]

theorem exists_overtaken : ∃ s : SwitchSite Bool,
    Reachable (switchRequests Bool) (fun _ _ => True) s ∧
      (updateTeamChecksReply (s.progress true) = some (.ok ()) ∧
        lastSet s 1 (str "web") = some true ∧ lastSet s 2 (str "web") = none) :=
  Reachable.exists_of_replay _ ⟨{}, fun _ => .idle, [], fun _ => none⟩ overtaken
    ⟨rfl, fun _ => ⟨rfl, rfl⟩, rfl⟩ (by decide +kernel)

/-- The first has succeeded, and its switch is on again. -/
theorem switches_kept_overtaken : ∃ s : SwitchSite Bool,
    s.writtenBy true = (s.body true).getD [] ∧
      isTeamServiceEnabled s.store 1 (str "web") = some true := by
  obtain ⟨s, hreach, hreply, hlast, -⟩ := exists_overtaken
  obtain ⟨-, hreads, -, -, hsucceeded⟩ := switches_kept hreach
  refine ⟨s, (hsucceeded true hreply).1, ?_⟩
  rw [hreads, hlast]
  decide +kernel

/-! ### Rounds and the page -/

/-- What a reader finds who asks for one switch after another, each at its moment, in the state
that the requests have come to by then; `none` where the query fails. -/
def readSwitch (moments : Nat → GoString → Option (SwitchSite ι)) (teamID : Nat)
    (serviceName : GoString) : Option Bool :=
  (moments teamID serviceName).bind (fun s => isTeamServiceEnabled s.store teamID serviceName)

/-- The switch can be read, and is on unless it was last set to off. -/
def SwitchReads (moments : Nat → GoString → Option (SwitchSite ι)) (teamID : Nat)
    (serviceName : GoString) (on : Bool) : Prop :=
  storableKey (teamID, serviceName) = true ∧
    ∃ s, moments teamID serviceName = some s ∧
      (on = true ↔ lastSet s teamID serviceName ≠ some false)

instance (moments : Nat → GoString → Option (SwitchSite ι)) (teamID : Nat) (serviceName : GoString)
    (on : Bool) : Decidable (SwitchReads moments teamID serviceName on) :=
  decidable_of_iff (storableKey (teamID, serviceName) = true ∧
    ∃ s ∈ moments teamID serviceName, (on = true ↔ lastSet s teamID serviceName ≠ some false))
    Iff.rfl

variable {moments : Nat → GoString → Option (SwitchSite ι)}

theorem readSwitch_eq_some
    (h : ∀ teamID serviceName s, moments teamID serviceName = some s →
      Reachable (switchRequests ι) (fun _ _ => True) s) {teamID : Nat} {serviceName : GoString}
    {on : Bool} : readSwitch moments teamID serviceName = some on ↔
      SwitchReads moments teamID serviceName on := by
  unfold readSwitch SwitchReads
  cases hmoment : moments teamID serviceName with
  | none => simp
  | some s =>
    have hread := isTeamServiceEnabled_eq (h _ _ s hmoment) teamID serviceName
    rw [Option.bind_some, hread]
    by_cases hkey : storableKey (teamID, serviceName) = true
    · rw [if_pos hkey]
      rcases hlast : lastSet s teamID serviceName with - | (- | -)
        <;> cases on <;> simp [hkey, hlast]
    · simp [hkey]

theorem mapM_eq_some {α β : Type} {f : α → Option β} {l : List α} {r : List β} :
    l.mapM f = some r ↔ List.Forall₂ (fun a b => f a = some b) l r := by
  induction l generalizing r with
  | nil => cases r <;> simp
  | cons a rest ih =>
    rw [List.mapM_cons]
    cases r with
    | nil => cases f a <;> cases rest.mapM f <;> simp
    | cons b r =>
      rw [List.forall₂_cons, ← ih]
      cases f a <;> cases rest.mapM f <;> simp

theorem exists_mapM_eq_some {α β : Type} {f : α → Option β} {l : List α} :
    (∃ r, l.mapM f = some r) ↔ ∀ a ∈ l, ∃ b, f a = some b := by
  induction l with
  | nil => simp
  | cons a rest ih =>
    rw [List.forall_mem_cons, ← ih, List.mapM_cons]
    cases f a <;> cases rest.mapM f <;> simp

/-- A team on the page. -/
def Shows (names : List GoString) (on : GoString → Bool → Prop) (team : TeamSchema)
    (state : TeamState) : Prop :=
  state.teamID = team.id ∧ state.teamName = team.name ∧
    List.Forall₂ (fun name entry => entry.1 = name ∧ on name entry.2) names state.services

theorem teamState_eq_some {names : List GoString} {read : Nat → GoString → Option Bool}
    {team : TeamSchema} {state : TeamState} : teamState names read team = some state ↔
      Shows names (fun name on => read team.id name = some on) team state := by
  have hentry : ∀ (name : GoString) (entry : GoString × Bool),
      (read team.id name).map (fun enabled => (name, enabled)) = some entry ↔
        entry.1 = name ∧ read team.id name = some entry.2 := by
    intro name entry
    rw [Option.map_eq_some_iff]
    constructor
    · rintro ⟨on, hread, rfl⟩
      exact ⟨rfl, hread⟩
    · rintro ⟨rfl, hread⟩
      exact ⟨entry.2, hread, rfl⟩
  unfold teamState Shows
  simp only [Option.bind_eq_bind, Option.bind_eq_some_iff, mapM_eq_some, hentry]
  constructor
  · rintro ⟨services, hservices, hstate⟩
    obtain rfl := Option.some.inj hstate
    exact ⟨rfl, rfl, hservices⟩
  · rintro ⟨hid, hname, hservices⟩
    exact ⟨state.services, hservices, by rw [← hid, ← hname]⟩

theorem exists_teamState {names : List GoString} {read : Nat → GoString → Option Bool}
    {team : TeamSchema} : (∃ state, teamState names read team = some state) ↔
      ∀ name ∈ names, ∃ on, read team.id name = some on := by
  have hentry : ∀ name, (∃ entry, (read team.id name).map (fun on => (name, on)) = some entry) ↔
      ∃ on, read team.id name = some on := by
    intro name
    cases read team.id name <;> simp
  simp only [← hentry, ← exists_mapM_eq_some]
  rw [teamState]
  cases names.mapM (fun name => (read team.id name).map (fun on => (name, on))) <;> simp

omit [DecidableEq ι] in
/-- What the switches decide when a round reads them. -/
theorem enqueued_readSwitch (hread : ∀ teamID serviceName,
      readSwitch moments teamID serviceName = some true ↔
        SwitchReads moments teamID serviceName true)
    (around : Surroundings) (teams : List TeamSchema) (allRunners : List Checks.Runner) :
    enqueued {around with isTeamServiceEnabled := readSwitch moments} teams allRunners =
      (enqueued {around with isTeamServiceEnabled := fun _ _ => some true} teams allRunners).filter
        (fun task => SwitchReads moments task.1.id task.2.service.name true) := by
  unfold enqueued
  rw [List.filter_flatMap]
  refine congrArg (fun enqueue => teams.flatMap enqueue) (funext fun team => ?_)
  rw [List.filter_map, List.filter_filter]
  refine congrArg (List.map _) (List.filter_congr fun check _ => ?_)
  rw [Bool.eq_iff_iff, Bool.and_eq_true, Function.comp_apply, decide_eq_true_iff, ← hread]
  simp only [Enqueues, taskCredentials, Bool.and_eq_true, beq_iff_eq]
  tauto

/-- However requests set switches meanwhile, once a round has its teams: it enqueues exactly the
tasks that it would with every switch on, in their order, less those of switches that it cannot read
or reads after they were last set to off; the page is there exactly if every switch can be read, and
then it has every team with every service of the configuration once, on exactly if a round that read
it then would not leave it out. -/
theorem switches_obeyed (h : ∀ teamID serviceName s, moments teamID serviceName = some s →
      Reachable (switchRequests ι) (fun _ _ => True) s) :
    (∀ (around : Surroundings) teams allRunners,
      enqueued {around with isTeamServiceEnabled := readSwitch moments} teams allRunners =
        (enqueued {around with isTeamServiceEnabled := fun _ _ => some true} teams
          allRunners).filter
            (fun task => SwitchReads moments task.1.id task.2.service.name true)) ∧
    ∀ (conf : Config.ConfigSettings) teams,
      (checkNames conf).Nodup ∧
      (∀ page, getTeamChecks conf (some teams) (readSwitch moments) = .ok page ↔
        page.1 = checkNames conf ∧
          List.Forall₂ (fun team => Shows (checkNames conf) (SwitchReads moments team.id) team)
            teams page.2) ∧
      ((∃ page, getTeamChecks conf (some teams) (readSwitch moments) = .ok page) ↔
        ∀ team ∈ teams, ∀ name ∈ checkNames conf, ∃ on, SwitchReads moments team.id name on) := by
  have hread := fun {teamID serviceName on} =>
    @readSwitch_eq_some ι _ moments h teamID serviceName on
  refine ⟨?_, fun conf teams => ⟨List.nodup_dedup _, ?_, ?_⟩⟩
  · exact enqueued_readSwitch fun _ _ => hread
  · rintro ⟨names, states⟩
    have hstates : teams.mapM (teamState (checkNames conf) (readSwitch moments)) = some states ↔
        List.Forall₂ (fun team => Shows (checkNames conf) (SwitchReads moments team.id) team)
          teams states := by
      simp only [mapM_eq_some, teamState_eq_some, hread]
    rw [← hstates, getTeamChecks]
    cases teams.mapM (teamState (checkNames conf) (readSwitch moments)) with
    | none => simp
    | some states' => simp [eq_comm]
  · have hpage : (∃ page, getTeamChecks conf (some teams) (readSwitch moments) = .ok page) ↔
        ∃ states, teams.mapM (teamState (checkNames conf) (readSwitch moments)) = some states := by
      rw [getTeamChecks]
      cases teams.mapM (teamState (checkNames conf) (readSwitch moments)) <;> simp
    rw [hpage, exists_mapM_eq_some]
    simp only [exists_teamState, hread]

end

/-- A round in that state has the first team's check. -/
theorem switches_obeyed_overtaken : ∃ s : SwitchSite Bool, ∀ (team : TeamSchema) check,
    team.id = 1 → check.service.name = str "web" →
      enqueued {Surroundings.plain with isTeamServiceEnabled := readSwitch (fun _ _ => some s)}
          [team] [check] =
        enqueued Surroundings.plain [team] [check] := by
  obtain ⟨s, hreach, -, hlast, -⟩ := exists_overtaken
  refine ⟨s, fun team check hteam hcheck => ?_⟩
  have hmoments : ∀ (teamID : Nat) (serviceName : GoString) t, some s = some t →
      Reachable (switchRequests Bool) (fun _ _ => True) t := by
    rintro teamID serviceName t ht
    exact Option.some.inj ht ▸ hreach
  obtain ⟨hrounds, -⟩ := switches_obeyed hmoments
  refine (hrounds Surroundings.plain [team] [check]).trans (List.filter_eq_self.mpr ?_)
  rintro ⟨team', check'⟩ hmem
  obtain ⟨⟨hteam', hcheck'⟩, -⟩ := (mem_enqueued _).mp hmem
  obtain rfl := List.mem_singleton.mp hteam'
  obtain rfl := List.mem_singleton.mp hcheck'
  dsimp only
  rw [decide_eq_true_iff, hteam, hcheck]
  exact ⟨by decide +kernel, s, rfl, by simp [hlast]⟩

end QuotientScoring.WWW
