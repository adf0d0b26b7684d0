import QuotientScoring.DB.AddTeams
import QuotientScoring.Engine.ConfigReload
import QuotientScoring.WWW.Authentication
import QuotientScoring.WWW.UpdateTeams

/-! The teams of a site over all its starts.

A start loads the configuration, enters its teams and those of the directory, and comes
up; one that fails on the way leaves what it has entered. From then on that the engine is
there the watcher may load the file again, while the start goes on or later, and overwrites the
configuration that the start reads. While the site is up teams may be updated, and at any time
the process may end. Another start goes on from the table that is left.

`enrolled`: over all of this a team keeps its row, its id and its name, every id is a
team's own, and whoever a start that came up has asked for is found ever after. A reload
enters nobody once the teams have been read: a name that no start has asked for is looked up
as no team. -/
namespace QuotientScoring.WWW
open DB GoText Config Engine Program Transition

/-- Why a start ends. A configuration at which `checkConfig` panics has no refusal. -/
inductive StartError where
  | config (refusal : Option Refusal)
  | redis (err : GoString)
  | watcher
  | database (err : GoString)
  | addTeams (err : GoString)

structure Host where
  teams : TeamRows := {}
  live : Option ConfigSettings := none

/-- What a start finds: the file, the entries of the directory, and what the watcher loads before
`AddTeams` goes through the teams, before it asks for a directory, and before the site is up. -/
structure Launch where
  file : Except GoString GoString
  entries : List GoString := []
  beforeTeams : List (Except GoString GoString) := []
  beforeDirectory : List (Except GoString GoString) := []
  beforeUp : List (Except GoString GoString) := []

/-- A process that ends in the middle of a start is one whose next call fails. -/
inductive HostAction where
  | start (launch : Launch) (faults : List (Option TeamFault))
  | reload (file : Except GoString GoString)
  | update (failsAt : Option Nat) (form : Option (List TeamUpdate))
  | stop

variable (env : Environment) (toml : GoString → Except GoString ConfigSettings)

/-- `NewEngine`: the file is loaded, and Redis answers. -/
def newEngine (file : Except GoString GoString) :
    Program (Faulty TeamRows TeamFault) StartError ConfigSettings :=
  match setConfigFrom env toml file {} with
  | none => throw (.config none)
  | some (.error refusal, _) => throw (.config (some refusal))
  | some (.ok (), conf) => callOut .redis conf

/-- The configuration is read after the watcher has loaded it again, which may have panicked. -/
def readConf (conf : Option ConfigSettings) :
    Program (Faulty TeamRows TeamFault) StartError ConfigSettings :=
  match conf with
  | none => throw .watcher
  | some conf => pure conf

/-- `main`, up to where the engine and the router start. -/
def startUp (launch : Launch) : Program (Faulty TeamRows TeamFault) StartError ConfigSettings := do
  let conf ← newEngine env toml launch.file
  callOut .database ()
  let conf ← readConf (reloads env toml conf launch.beforeTeams)
  let later := reloads env toml conf launch.beforeDirectory
  wrap .addTeams (addTeams conf later launch.entries)
  readConf (later.bind (fun conf => reloads env toml conf launch.beforeUp))

def hostStep (s : Host) : HostAction → Option Host
  | .start launch faults =>
    match s.live with
    | some _ => none
    | none =>
      let run := exec (startUp env toml launch) ⟨s.teams, faults⟩
      some ⟨run.2.state, run.1.toOption⟩
  | .reload file => s.live.map (fun conf =>
      {s with live := (setConfigFrom env toml file conf).map Prod.snd})
  | .update failsAt form => s.live.map (fun _ =>
      {s with teams := {s.teams with db := (answerUpdateTeams failsAt form s.teams.db).2}})
  | .stop => s.live.map (fun _ => {s with live := none})

def host : System Host HostAction where
  initial := fun s => s = {}
  step := hostStep env toml

/-! ### One start -/

/-- The configuration that `AddTeams` begins with: that of the file, or one that the watcher has put
in its place. -/
def Launch.Reads (launch : Launch) (conf : ConfigSettings) : Prop :=
  ∃ first, setConfigFrom env toml launch.file {} = some (.ok (), first) ∧
    reloads env toml first launch.beforeTeams = some conf

/-- The names that `AddTeams` asks for. -/
def Launch.asks (launch : Launch) (conf : ConfigSettings) : List GoString :=
  askedFor conf (reloads env toml conf launch.beforeDirectory) launch.entries

/-- The configuration with which the site comes up. -/
def Launch.up (launch : Launch) (conf : ConfigSettings) : Option ConfigSettings :=
  (reloads env toml conf launch.beforeDirectory).bind
    (fun conf => reloads env toml conf launch.beforeUp)

/-- What a start leaves: the table as it was, or grown by rows for the names it asked for. -/
def Entered (launch : Launch) (t t' : TeamRows) : Prop :=
  t' = t ∨ ∃ conf, launch.Reads env toml conf ∧ Grows (launch.asks env toml conf) t t'

variable {env toml} {launch : Launch}

theorem newEngine_spec (file : Except GoString GoString) (t : TeamRows) :
    Triple (fun s => s.state = t) (newEngine env toml file)
      (fun conf s => setConfigFrom env toml file {} = some (.ok (), conf) ∧ s.state = t)
      (fun s => s.state = t) := by
  unfold newEngine
  split
  · exact Triple.throw (fun _ h => h)
  · exact Triple.throw (fun _ h => h)
  · rename_i conf hloads
    refine (callOut_spec StartError.redis conf t).imp (fun _ h => h) ?_ (fun _ h => h)
    rintro _ s ⟨rfl, hs⟩
    exact ⟨hloads, hs⟩

theorem readConf_spec {P : Faulty TeamRows TeamFault → Prop} (conf : Option ConfigSettings) :
    Triple P (readConf conf) (fun found s => conf = some found ∧ P s) P := by
  unfold readConf
  cases conf with
  | none => exact Triple.throw (fun _ h => h)
  | some conf => exact Triple.pure (fun _ h => ⟨rfl, h⟩)

/-- A start that comes up has entered every name it asked for, and one that does not has entered
nobody else. -/
theorem startUp_spec (launch : Launch) (t : TeamRows) :
    Triple (fun s => s.state = t) (startUp env toml launch)
      (fun live s => ∃ conf, launch.Reads env toml conf ∧ launch.up env toml conf = some live ∧
        Grows (launch.asks env toml conf) t s.state ∧
        s.state.HasAll (launch.asks env toml conf))
      (fun s => Entered env toml launch t s.state) := by
  refine ((newEngine_spec launch.file t).imp (fun _ h => h) (fun _ _ h => h)
    (fun _ h => .inl h)).bind fun first => Triple.of_forall ?_
  rintro s ⟨hfirst, hs⟩
  refine ((callOut_spec StartError.database () t).imp ?_ (fun _ _ h => h)
    (fun _ h => .inl h)).bind_value ?_
  · rintro s' rfl
    exact hs
  refine ((readConf_spec _).imp (fun _ h => h) (fun _ _ h => h) (fun _ h => .inl h)).bind
    fun conf => Triple.of_forall ?_
  rintro s₁ ⟨hconf, hs₁⟩
  have hreads : launch.Reads env toml conf := ⟨first, hfirst, hconf⟩
  -- whatever the watcher loads from now on, the teams are those of this configuration
  refine (((addTeams_spec conf _ launch.entries t).wrap StartError.addTeams).imp ?_
    (fun _ _ h => h) (fun _ h => .inr ⟨conf, hreads, h⟩)).bind fun _ => ?_
  · rintro s' rfl
    exact hs₁
  · refine (readConf_spec _).imp (fun _ h => h) ?_ (fun _ h => .inr ⟨conf, hreads, h.1⟩)
    rintro live s' ⟨hlive, hgrows, hhas⟩
    exact ⟨conf, hreads, hlive, hgrows, hhas⟩

theorem readConf_succeeds (conf : ConfigSettings) (n : Nat) :
    Triple (Clear n) (readConf (some conf)) (fun found s => found = conf ∧ Clear n s)
      (fun _ => False) := Triple.pure (fun _ h => ⟨rfl, h⟩)

/-- A start comes up if no call fails, every name can be stored, and the sequence lasts. -/
theorem startUp_succeeds {conf live : ConfigSettings} (hreads : launch.Reads env toml conf)
    (hup : launch.up env toml conf = some live)
    (hnames : ∀ name ∈ launch.asks env toml conf, StorableText name) :
    Triple (Clear (launch.asks env toml conf).length) (startUp env toml launch)
      (fun made _ => made = live) (fun _ => False) := by
  obtain ⟨first, hfirst, hconf⟩ := hreads
  obtain ⟨later, hlater, hlive⟩ := Option.bind_eq_some_iff.mp hup
  have hengine : newEngine env toml launch.file = callOut StartError.redis first := by
    rw [newEngine, hfirst]
  unfold Launch.asks at hnames ⊢
  rw [hlater] at hnames ⊢
  rw [startUp, hengine]
  refine (callOut_succeeds StartError.redis first _).bind_value ?_
  refine (callOut_succeeds StartError.database () _).bind_value ?_
  rw [hconf]
  refine (readConf_succeeds conf _).bind_value ?_
  dsimp only
  rw [hlater, Option.bind_some, hlive]
  refine ((addTeams_succeeds hnames).wrap StartError.addTeams).bind fun _ => ?_
  exact Triple.pure (fun _ _ => rfl)

/-! ### One step -/

/-- What one step makes of the table. -/
inductive Changes (env : Environment) (toml : GoString → Except GoString ConfigSettings) :
    HostAction → TeamRows → TeamRows → Prop where
  | start {launch : Launch} {faults : List (Option TeamFault)} {conf : ConfigSettings}
      {t t' : TeamRows} :
      launch.Reads env toml conf → Grows (launch.asks env toml conf) t t' →
      Changes env toml (.start launch faults) t t'
  | update {failsAt : Option Nat} {entries : List TeamUpdate} {t : TeamRows} :
      Changes env toml (.update failsAt (some entries)) t
        {t with db := (updateTeams failsAt entries t.db).2}
  | nothing {a : HostAction} {t : TeamRows} : Changes env toml a t t

variable {s s' : Host} {a : HostAction} {t t' : TeamRows}

/-- A start is made by a site that is down: it comes up with every name entered that it asked for,
or stays down with some of them. -/
theorem hostStep_start {faults : List (Option TeamFault)}
    (h : hostStep env toml s (.start launch faults) = some s') : s.live = none ∧
      match s'.live with
      | none => Entered env toml launch s.teams s'.teams
      | some live => ∃ conf, launch.Reads env toml conf ∧ launch.up env toml conf = some live ∧
          Grows (launch.asks env toml conf) s.teams s'.teams ∧
          s'.teams.HasAll (launch.asks env toml conf) := by
  cases hdown : s.live with
  | some live =>
    rw [hostStep, hdown] at h
    cases h
  | none =>
    rw [hostStep, hdown] at h
    obtain rfl := Option.some.inj h
    have hspec := @startUp_spec env toml launch s.teams
    refine ⟨rfl, ?_⟩
    rcases hrun : exec (startUp env toml launch) ⟨s.teams, faults⟩ with ⟨err | live, after⟩
    · exact hspec.of_error rfl hrun
    · exact hspec.of_ok rfl hrun

theorem hostStep_changes (h : hostStep env toml s a = some s') :
    Changes env toml a s.teams s'.teams := by
  cases a with
  | start launch faults =>
    have hstart := (hostStep_start h).2
    split at hstart
    · rcases hstart with hsame | ⟨conf, hreads, hgrows⟩
      · rw [hsame]
        exact .nothing
      · exact .start hreads hgrows
    · obtain ⟨conf, hreads, -, hgrows, -⟩ := hstart
      exact .start hreads hgrows
  | reload file =>
    obtain ⟨conf, -, rfl⟩ := Option.map_eq_some_iff.mp h
    exact .nothing
  | update failsAt form =>
    obtain ⟨conf, -, rfl⟩ := Option.map_eq_some_iff.mp h
    cases form with
    | none => exact .nothing
    | some entries => exact .update
  | stop =>
    obtain ⟨conf, -, rfl⟩ := Option.map_eq_some_iff.mp h
    exact .nothing

@[simp] theorem assigned_name (entries : List TeamUpdate) (team : TeamSchema) :
    (assigned entries team).name = team.name := by
  unfold assigned
  split <;> rfl

theorem teams_updateTeams (failsAt : Option Nat) (entries : List TeamUpdate) (db : Database) :
    (updateTeams failsAt entries db).2.teams =
      db.teams.map (assigned (applied failsAt entries)) := by
  rw [updateTeams_eq, foldl_updateTeam]

theorem Changes.sound (h : Changes env toml a t t') (ht : t.Sound) : t'.Sound := by
  cases h with
  | start _ hgrows => exact hgrows.sound ht
  | update => exact ht.map (assigned_id _) (assigned_name _) (teams_updateTeams ..) rfl
  | nothing => exact ht

/-- Every row keeps its id and its name. -/
def Lasting (t t' : TeamRows) : Prop :=
  ∀ team ∈ t.db.teams, ∃ team' ∈ t'.db.teams, team'.id = team.id ∧ team'.name = team.name

theorem Changes.lasting (h : Changes env toml a t t') : Lasting t t' := by
  intro team hteam
  cases h with
  | start _ hgrows => exact ⟨team, hgrows.subset hteam, rfl, rfl⟩
  | @update failsAt entries =>
    refine ⟨assigned (applied failsAt entries) team, ?_, assigned_id _ team, assigned_name _ team⟩
    rw [teams_updateTeams]
    exact List.mem_map_of_mem hteam
  | nothing => exact ⟨team, hteam, rfl, rfl⟩

/-- A row that was not there has a name that this start asked for. -/
theorem Changes.asked (h : Changes env toml a t t') : ∀ team ∈ t'.db.teams,
    (∃ old ∈ t.db.teams, old.name = team.name) ∨
    ∃ launch faults conf, a = .start launch faults ∧ launch.Reads env toml conf ∧
      team.name ∈ launch.asks env toml conf := by
  intro team hteam
  cases h with
  | @start launch faults conf _ _ hreads hgrows =>
    rcases hgrows.asked team hteam with hold | hname
    · exact .inl ⟨team, hold, rfl⟩
    · exact .inr ⟨launch, faults, conf, rfl, hreads, hname⟩
  | update =>
    rw [teams_updateTeams] at hteam
    obtain ⟨old, hold, rfl⟩ := List.mem_map.mp hteam
    exact .inl ⟨old, hold, (assigned_name _ old).symm⟩
  | nothing => exact .inl ⟨team, hteam, rfl⟩

/-! ### The table by itself -/

/-- A table that creations and updates of teams lead to. -/
abbrev Made (db : Database) : Prop := Reachable teamTable (fun _ _ => True) db

theorem made_of_grow {names : List GoString} (h : Grow names t t') (ht : t.Sound)
    (hmade : Made t.db) : Made t'.db := by
  cases h with
  | draw _ => exact hmade
  | @store name _ _ hnew =>
    refine hmade.step (a := .create (t.sequence + 1) name) trivial (if_neg ?_)
    rw [Bool.not_eq_true, List.any_eq_false]
    intro team hteam
    have hid : team.id ≠ t.sequence + 1 := Nat.ne_of_lt (Nat.lt_succ_of_le (ht.given team hteam))
    simpa [hid] using hnew team hteam

theorem made_of_grows {names : List GoString} (h : Grows names t t') (ht : t.Sound)
    (hmade : Made t.db) : Made t'.db := by
  induction h with
  | refl => exact hmade
  | tail hgrows hgrow ih => exact made_of_grow hgrow (Grows.sound hgrows ht) ih

theorem Changes.made (h : Changes env toml a t t') (ht : t.Sound) (hmade : Made t.db) :
    Made t'.db := by
  cases h with
  | start _ hgrows => exact made_of_grows hgrows ht hmade
  | @update failsAt entries => exact hmade.step (a := .update entries failsAt) trivial rfl
  | nothing => exact hmade

/-! ### Runs -/

variable {actions : List HostAction}

theorem sound_of_run (h : Run (host env toml) {} actions s) : s.teams.Sound := by
  refine Run.invariant (I := fun _ s => s.teams.Sound) ?_ ?_ h
  · exact TeamRows.sound_empty
  · intro _ s₁ a s₂ hsound hstep
    exact (hostStep_changes hstep).sound hsound

theorem made_of_run (h : Run (host env toml) {} actions s) : Made s.teams.db := by
  have hboth : s.teams.Sound ∧ Made s.teams.db := by
    refine Run.invariant (I := fun _ s => s.teams.Sound ∧ Made s.teams.db) ?_ ?_ h
    · exact ⟨TeamRows.sound_empty, .initial rfl⟩
    · intro _ s₁ a s₂ hbefore hstep
      have hchanges := hostStep_changes hstep
      exact ⟨hchanges.sound hbefore.1, hchanges.made hbefore.1 hbefore.2⟩
  exact hboth.2

/-- Some start of the run asked for the name. -/
def AskedIn (env : Environment) (toml : GoString → Except GoString ConfigSettings)
    (actions : List HostAction) (name : GoString) : Prop :=
  ∃ launch faults conf, HostAction.start launch faults ∈ actions ∧
    launch.Reads env toml conf ∧ name ∈ launch.asks env toml conf

theorem asked_of_run (h : Run (host env toml) {} actions s) :
    ∀ team ∈ s.teams.db.teams, AskedIn env toml actions team.name := by
  refine Run.invariant
    (I := fun actions s => ∀ team ∈ s.teams.db.teams, AskedIn env toml actions team.name) ?_ ?_ h
  · exact fun _ h => nomatch h
  · intro actions s₁ a s₂ hasked hstep team hteam
    rcases (hostStep_changes hstep).asked team hteam with ⟨old, hold, hname⟩ |
      ⟨launch, faults, conf, rfl, hreads, hname⟩
    · obtain ⟨launch, faults, conf, hmem, hreads, hasked⟩ := hasked old hold
      rw [hname] at hasked
      exact ⟨launch, faults, conf, List.mem_append_left _ hmem, hreads, hasked⟩
    · exact ⟨launch, faults, conf, List.mem_append_right _ (List.mem_singleton_self _), hreads,
        hname⟩

theorem lasting_of_run {later : List HostAction} (h : Run (host env toml) s later s') :
    Lasting s.teams s'.teams := by
  refine Run.invariant (I := fun _ s' => Lasting s.teams s'.teams) ?_ ?_ h
  · exact fun team hteam => ⟨team, hteam, rfl, rfl⟩
  · intro _ s₁ a s₂ hlasting hstep team hteam
    obtain ⟨team₁, hteam₁, hid₁, hname₁⟩ := hlasting team hteam
    obtain ⟨team₂, hteam₂, hid₂, hname₂⟩ := (hostStep_changes hstep).lasting team₁ hteam₁
    exact ⟨team₂, hteam₂, hid₂.trans hid₁, hname₂.trans hname₁⟩

/-- What holds of the teams after the actions. -/
structure Enrolled (env : Environment) (toml : GoString → Except GoString ConfigSettings)
    (actions : List HostAction) (s : Host) : Prop where
  /-- Ids are positive and each a team's own, and so are names. -/
  keyed : KeyedTeams s.teams.db
  /-- The table is one that single creations and updates of teams lead to. -/
  made : Made s.teams.db
  /-- A name that no start of the run has asked for is looked up as no team. -/
  unasked : ∀ name, ¬AskedIn env toml actions name →
    getTeamByUsername s.teams.db name = ⟨0, [], [], false⟩
  /-- Whatever happens later, a team is found under its name with the id it has now. -/
  lasting : ∀ later s', Run (host env toml) s later s' → ∀ team ∈ s.teams.db.teams,
    (getTeamByUsername s'.teams.db team.name).id = team.id
  /-- A start that comes up has entered every name it asked for, and none is lost later. -/
  entered : ∀ launch faults s₁ live,
    hostStep env toml s (.start launch faults) = some s₁ → s₁.live = some live →
    ∃ conf, launch.Reads env toml conf ∧ launch.up env toml conf = some live ∧
      ∀ name ∈ launch.asks env toml conf, name ≠ [] → ∀ later s', Run (host env toml) s₁ later s' →
        (getTeamByUsername s'.teams.db name).id ≠ 0 ∧
          (getTeamByUsername s'.teams.db name).name = name
  /-- A start comes up if what is loaded before it does not make it stop, no call fails, the names can
  be stored and there are numbers left. -/
  starts : s.live = none → ∀ launch conf live, launch.Reads env toml conf →
    launch.up env toml conf = some live →
    (∀ name ∈ launch.asks env toml conf, StorableText name) →
    s.teams.sequence + (launch.asks env toml conf).length < 2 ^ 63 →
    ∃ s₁, hostStep env toml s (.start launch []) = some s₁ ∧ s₁.live = some live

/-- The team of a name that has a row. -/
theorem getTeamByUsername_of_mem {db : Database} (h : KeyedTeams db) {team : TeamSchema}
    (hteam : team ∈ db.teams) : getTeamByUsername db team.name = team := by
  rw [getTeamByUsername, (find?_getTeams_eq_some h).mpr ⟨hteam, rfl⟩, Option.getD_some]

theorem has_of_start {faults : List (Option TeamFault)} {live : ConfigSettings}
    (hstep : hostStep env toml s (.start launch faults) = some s') (hlive : s'.live = some live) :
    ∃ conf, launch.Reads env toml conf ∧ launch.up env toml conf = some live ∧
      s'.teams.HasAll (launch.asks env toml conf) := by
  have hstart := (hostStep_start hstep).2
  rw [hlive] at hstart
  obtain ⟨conf, hreads, hup, -, hall⟩ := hstart
  exact ⟨conf, hreads, hup, hall⟩

theorem comes_up {conf live : ConfigSettings} (hdown : s.live = none)
    (hreads : launch.Reads env toml conf) (hup : launch.up env toml conf = some live)
    (hnames : ∀ name ∈ launch.asks env toml conf, StorableText name)
    (hroom : s.teams.sequence + (launch.asks env toml conf).length < 2 ^ 63) :
    ∃ s₁, hostStep env toml s (.start launch []) = some s₁ ∧ s₁.live = some live := by
  simp only [hostStep, hdown]
  refine ⟨_, rfl, ?_⟩
  have hspec := startUp_succeeds hreads hup hnames
  have hclear : Clear (launch.asks env toml conf).length ⟨s.teams, []⟩ := ⟨rfl, hroom⟩
  rcases hrun : exec (startUp env toml launch) ⟨s.teams, []⟩ with ⟨err | made, after⟩
  · exact (hspec.of_error hclear hrun).elim
  · obtain rfl := hspec.of_ok hclear hrun
    rfl

/-- Over all starts, reloads, updates and stops, a team keeps its row, its id and its name, and no
two teams share one; whoever a start that came up has asked for is found ever after. -/
theorem enrolled (h : Run (host env toml) {} actions s) : Enrolled env toml actions s where
  keyed := (sound_of_run h).keyed
  made := made_of_run h
  unasked := by
    intro name hname
    rw [getTeamByUsername]
    cases hfind : (getTeams s.teams.db).find? (fun team => team.name = name) with
    | none => rfl
    | some team =>
      obtain ⟨hteam, rfl⟩ := (find?_getTeams_eq_some (sound_of_run h).keyed).mp hfind
      exact absurd (asked_of_run h team hteam) hname
  lasting := by
    intro later s' hlater team hteam
    obtain ⟨team', hteam', hid, hname⟩ := lasting_of_run hlater team hteam
    rw [← hname, getTeamByUsername_of_mem (sound_of_run (h.trans hlater)).keyed hteam', hid]
  entered := by
    intro launch faults s₁ live hstep hlive
    obtain ⟨conf, hreads, hup, hall⟩ := has_of_start hstep hlive
    refine ⟨conf, hreads, hup, ?_⟩
    intro name hname hne later s' hlater
    obtain ⟨team, hteam, rfl⟩ := hall name hname hne
    obtain ⟨team', hteam', -, hname'⟩ := lasting_of_run hlater team hteam
    have hrun : Run (host env toml) {} (actions ++ [.start launch faults]) s₁ := h.snoc hstep
    have hsound := sound_of_run (hrun.trans hlater)
    rw [← hname', getTeamByUsername_of_mem hsound.keyed hteam']
    exact ⟨(hsound.pos team' hteam').ne', rfl⟩
  starts := fun hdown _ _ _ hreads hup => comes_up hdown hreads hup

/-- A file whose text is the name of its only team. -/
def teamFile (fileContent : GoString) : Except GoString ConfigSettings :=
  .ok {smallFile {} {ping := [{}]} with team := [⟨fileContent, str "pw"⟩]}

/-- The second start stops with a number drawn for a row, and the third one enters the team: that
is what the watcher loads before its own team has been read. -/
def threeStarts : List HostAction :=
  [ .start {file := .ok (str "blue")} [], .reload (.ok (str "green")),
    .update none (some [⟨1, str "01", true⟩]), .stop,
    .start {file := .ok (str "green")} [none, none, none, some ⟨str "lost", .numbered⟩],
    .start {file := .ok (str "red"), beforeTeams := [.ok (str "green")]} [] ]

theorem enrolled_three : ∃ s, Run (host .plain teamFile) {} threeStarts s ∧
    s.teams.db.teams = [⟨1, str "blue", str "01", true⟩, ⟨3, str "green", [], false⟩] ∧
    Enrolled .plain teamFile threeStarts s := by
  have hrows : ((host .plain teamFile).execute {} threeStarts).map (fun s => s.teams.db.teams) =
      some [⟨1, str "blue", str "01", true⟩, ⟨3, str "green", [], false⟩] := by decide +kernel
  obtain ⟨s, hs, hteams⟩ := Option.map_eq_some_iff.mp hrows
  exact ⟨s, Run.of_execute hs, hteams, enrolled (Run.of_execute hs)⟩

/-- A team that a reload brings in can log in, and is looked up as no team. -/
theorem reload_enters_nobody : ∃ s conf, Run (host .plain teamFile) {} (threeStarts.take 2) s ∧
    s.live = some conf ∧
    (auth conf .none (str "green") (str "pw")).toOption = some ⟨str "green", some (str "local")⟩ ∧
    (getTeamByUsername s.teams.db (str "green")).id = 0 := by
  have hend : ((host .plain teamFile).execute {} (threeStarts.take 2)).map (fun s =>
      (s.live.map (fun conf => (auth conf .none (str "green") (str "pw")).toOption),
        (getTeamByUsername s.teams.db (str "green")).id)) =
      some (some (some ⟨str "green", some (str "local")⟩), 0) := by decide +kernel
  obtain ⟨s, hs, heq⟩ := Option.map_eq_some_iff.mp hend
  obtain ⟨hlogin, hid⟩ := Prod.mk.inj heq
  obtain ⟨conf, hconf, hcookie⟩ := Option.map_eq_some_iff.mp hlogin
  exact ⟨s, conf, Run.of_execute hs, hconf, hcookie, hid⟩

end QuotientScoring.WWW
