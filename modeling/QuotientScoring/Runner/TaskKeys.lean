import QuotientScoring.Engine.Acceptance
import QuotientScoring.Runner.CreateRunner
import QuotientScoring.Lib.Decimal

/-! What tells the tasks of a competition apart.

Everything kept about a check is kept by team and service name, and a runner
shows its progress in Redis under a key printed from the round, the team, the type
and the name. Names may hold any bytes, colons too, but they come last: the parts
before are numbers and, for a task a runner takes, one of the sixteen types.
`task_keys_distinct`: no two tasks of a round share team and name, and no two
tasks that runners take share a key. -/
namespace QuotientScoring.Runner
open DB GoText Engine Decimal

def colon : UInt8 := 58

/-- `fmt.Sprintf("task:%d:%d:%s:%s", …)`. -/
def taskKey (task : Task) : GoString :=
  str "task:" ++ decimal task.roundID ++ colon :: (decimal task.teamID ++ colon ::
    (task.serviceType ++ colon :: task.serviceName))

/-- The tasks one execution of `rvb` enqueues. -/
def tasks (around : Surroundings) (round : Nat) (deadline : Int) (teams : List TeamSchema)
    (allRunners : List Checks.Runner) : List Task :=
  (enqueued around teams allRunners).map (fun x => taskFor around round deadline x.1 x.2)

/-- The team and the service a task is about. -/
def pair (task : Task) : Nat × GoString := (task.teamID, task.serviceName)

/-- A runner takes the task. -/
def Takes (json : Json) (task : Task) : Bool := (createRunner json task).isOk

/-! ### The key -/

/-- What comes before the first separator, and what comes after. -/
theorem append_cons_inj {α : Type} {sep : α} {a b rest tail : List α} (ha : sep ∉ a)
    (hb : sep ∉ b) (h : a ++ sep :: rest = b ++ sep :: tail) : a = b ∧ rest = tail := by
  induction a generalizing b with
  | nil =>
    cases b with
    | nil => exact ⟨rfl, (List.cons.inj h).2⟩
    | cons c b => exact absurd (List.cons.inj h).1 (List.ne_of_not_mem_cons hb)
  | cons c a ih =>
    cases b with
    | nil => exact absurd (List.cons.inj h).1.symm (List.ne_of_not_mem_cons ha)
    | cons d b =>
      obtain ⟨rfl, hrest⟩ := List.cons.inj h
      obtain ⟨rfl, htail⟩ := ih (List.not_mem_of_not_mem_cons ha)
        (List.not_mem_of_not_mem_cons hb) hrest
      exact ⟨rfl, htail⟩

theorem colon_notMem_decimal (n : Nat) : colon ∉ decimal n := by
  intro h
  have hdigit := isDigit_of_mem_decimal h
  revert hdigit
  decide

theorem colon_notMem_typeName (r : Checks.Runner) : colon ∉ str r.typeName := by
  have hkinds : ∀ zero ∈ kinds, colon ∉ str zero.typeName := by decide +kernel
  obtain ⟨zero, hzero, hname⟩ := exists_kind r
  exact hname ▸ hkinds zero hzero

/-- The service type of a task a runner takes is one of the sixteen. -/
theorem colon_notMem_serviceType {json : Json} {task : Task} (h : Takes json task = true) :
    colon ∉ task.serviceType := by
  unfold Takes at h
  cases hcreated : createRunner json task with
  | error err => simp [hcreated, Except.isOk, Except.toBool] at h
  | ok runner => exact typeName_createRunner hcreated ▸ colon_notMem_typeName runner

theorem taskKey_inj {t u : Task} (ht : colon ∉ t.serviceType) (hu : colon ∉ u.serviceType)
    (h : taskKey t = taskKey u) :
    t.roundID = u.roundID ∧ t.teamID = u.teamID ∧ t.serviceType = u.serviceType ∧
      t.serviceName = u.serviceName := by
  unfold taskKey at h
  rw [List.append_assoc, List.append_assoc] at h
  obtain ⟨hround, hrest⟩ := append_cons_inj (colon_notMem_decimal _) (colon_notMem_decimal _)
    (List.append_cancel_left h)
  obtain ⟨hteam, hrest⟩ := append_cons_inj (colon_notMem_decimal _) (colon_notMem_decimal _) hrest
  obtain ⟨htype, hname⟩ := append_cons_inj ht hu hrest
  exact ⟨decimal_inj.mp hround, decimal_inj.mp hteam, htype, hname⟩

/-! ### A round -/

section Round
variable {around : Surroundings} {round : Nat} {deadline : Int} {teams : List TeamSchema}
  {allRunners : List Checks.Runner}

theorem pairs_tasks : (tasks around round deadline teams allRunners).map pair =
    teams.flatMap (fun team => ((allRunners.filter (Enqueues around team)).map
      (fun check => check.service.name)).map (fun name => (team.id, name))) := by
  simp only [tasks, enqueued, List.map_flatMap, List.map_map]
  rfl

/-- Distinct teams and distinct checks make distinct tasks. -/
theorem pairs_nodup (hteams : (teams.map TeamSchema.id).Nodup)
    (hnames : (allRunners.map (fun check => check.service.name)).Nodup) :
    ((tasks around round deadline teams allRunners).map pair).Nodup := by
  rw [pairs_tasks, List.nodup_flatMap]
  constructor
  · intro team _
    exact (hnames.sublist (List.filter_sublist.map _)).map (fun a b h => (Prod.mk.inj h).2)
  · apply (List.pairwise_map.mp hteams).imp
    intro team other hne
    simp only [Function.onFun, List.disjoint_left, List.mem_map]
    rintro x ⟨name, -, rfl⟩ ⟨name', -, h⟩
    exact hne (Prod.mk.inj h).1.symm

theorem roundID_of_mem {task : Task} (h : task ∈ tasks around round deadline teams allRunners) :
    task.roundID = round := by
  obtain ⟨x, -, rfl⟩ := List.mem_map.mp h
  rfl

/-- The keys of the tasks of a round that runners take. -/
theorem keys_nodup {json : Json}
    (hpairs : ((tasks around round deadline teams allRunners).map pair).Nodup) :
    (((tasks around round deadline teams allRunners).filter (Takes json)).map taskKey).Nodup := by
  have htaken := hpairs.sublist ((@List.filter_sublist _ (Takes json) _).map pair)
  rw [List.Nodup, List.pairwise_map] at htaken ⊢
  refine htaken.imp_of_mem (fun ht hu hne hkey => hne ?_)
  obtain ⟨-, hteam, -, hname⟩ := taskKey_inj
    (colon_notMem_serviceType (List.mem_filter.mp ht).2)
    (colon_notMem_serviceType (List.mem_filter.mp hu).2) hkey
  exact Prod.ext hteam hname

end Round

/-! ### A competition -/

/-- What one round starts from: the teams, the state around `rvb` and its deadline. -/
structure RoundStart where
  around : Surroundings
  teams : List TeamSchema
  deadline : Int

/-- The tasks of a round. -/
def RoundStart.tasks (start : RoundStart) (round : Nat) (conf : Config.ConfigSettings) :
    List Task :=
  Runner.tasks start.around round start.deadline start.teams conf.allChecks

/-- Whatever the switches, the credentials and the clock do from round to round: the tasks of
one round differ in team or service, and of all tasks that runners take no two, of one round
or of different ones, have one key unless they agree in round, team, type and service. -/
theorem task_keys_distinct {env : Config.Environment} {raw conf : Config.ConfigSettings}
    (h : Config.Accepts env raw conf) (json : Json) (starts : Nat → RoundStart)
    (hteams : ∀ round, ((starts round).teams.map TeamSchema.id).Nodup) :
    (∀ round, (((starts round).tasks round conf).map pair).Nodup) ∧
    (∀ rounds : List Nat, rounds.Nodup →
      ((rounds.flatMap (fun round => ((starts round).tasks round conf).filter (Takes json))).map
        taskKey).Nodup) ∧
    (∀ t u : Task, Takes json t = true → Takes json u = true → taskKey t = taskKey u →
      t.roundID = u.roundID ∧ t.teamID = u.teamID ∧ t.serviceType = u.serviceType ∧
        t.serviceName = u.serviceName) := by
  have hpairs : ∀ round, (((starts round).tasks round conf).map pair).Nodup :=
    fun round => pairs_nodup (hteams round) h.names_nodup
  refine ⟨hpairs, fun rounds hrounds => ?_, fun t u ht hu hkey =>
    taskKey_inj (colon_notMem_serviceType ht) (colon_notMem_serviceType hu) hkey⟩
  rw [List.map_flatMap, List.nodup_flatMap]
  constructor
  · exact fun round _ => keys_nodup (hpairs round)
  · apply hrounds.imp
    intro round other hne
    simp only [Function.onFun, List.disjoint_left, List.mem_map]
    rintro key ⟨t, ht, rfl⟩ ⟨u, hu, hkey⟩
    obtain ⟨htasks, htakes⟩ := List.mem_filter.mp ht
    obtain ⟨hutasks, hutakes⟩ := List.mem_filter.mp hu
    have hround := (taskKey_inj (colon_notMem_serviceType hutakes)
      (colon_notMem_serviceType htakes) hkey).1
    exact hne ((roundID_of_mem htasks).symm.trans (hround.symm.trans (roundID_of_mem hutasks)))

/-- Two teams and one ping check, over three rounds. -/
theorem ping_keys_distinct :
    let conf := Config.setConfig .plain {} (Config.smallFile {} {ping := [{}]})
    let start : RoundStart :=
      ⟨pingAround "Ping", [⟨1, [], str "01", true⟩, ⟨2, [], str "02", true⟩], 0⟩
    (([1, 2, 3].flatMap (fun round =>
      (start.tasks round conf).filter (Takes (pingJson "Ping")))).map taskKey).Nodup := by
  intro conf start
  have haccepted : Config.Accepts .plain (Config.smallFile {} {ping := [{}]}) conf := by
    decide +kernel
  exact (task_keys_distinct haccepted (pingJson "Ping") (fun _ => start)
    (fun _ => by decide)).2.1 [1, 2, 3] (by decide)

end QuotientScoring.Runner
