import QuotientScoring.Engine.Enqueue

/-! The way of a check from the engine to a runner.

The engine sends a check as JSON, under the service type the check gives for
itself; the runner makes an empty check of the type with that name and decodes
into it. `Verify` fills the service type in only where the file has none, so a
type written in the file is believed. `rebuilt_iff`: an enqueued check arrives as
it was sent exactly if the file gives no type, or the right one. -/
namespace QuotientScoring.Runner
open DB GoText Engine Checks

/-- `encoding/json`, for what goes over the queue. Decoding fills in a check of the type
it is given. -/
structure Json where
  unmarshal : List UInt8 → Checks.Runner → Except GoString Checks.Runner
  marshalTask : Task → List UInt8
  unmarshalTask : List UInt8 → Except GoString Task
  typeName_unmarshal : ∀ {data : List UInt8} {zero r : Checks.Runner},
    unmarshal data zero = .ok r → r.typeName = zero.typeName

/-- An empty check of each type. -/
def kinds : List Checks.Runner :=
  [ .custom {}, .dns {}, .ftp {}, .imap {}, .ldap {}, .ping {}, .pop3 {}, .rdp {}, .smb {},
    .smtp {}, .sql {}, .ssh {}, .tcp {}, .vnc {}, .web {}, .winRM {} ]

def newRunner (serviceType : GoString) : Option Checks.Runner :=
  kinds.find? (fun zero => str zero.typeName = serviceType)

variable (json : Json)

def createRunner (task : Task) : Except GoString Checks.Runner :=
  match newRunner task.serviceType with
  | none => .error (str "unknown service type: " ++ task.serviceType)
  | some zero =>
    match json.unmarshal task.checkData zero with
    | .error err => .error (str "failed to unmarshal check data: " ++ err)
    | .ok runner => .ok runner

/-- The JSON of a check and of its task decodes to what it was made from. -/
structure RoundTrips (check : Checks.Runner) (sent : Task) : Prop where
  check : ∀ zero ∈ kinds, zero.typeName = check.typeName →
    json.unmarshal sent.checkData zero = .ok check
  task : json.unmarshalTask (json.marshalTask sent) = .ok sent

/-- What arrives: the task as it was sent, and from it the same check, as `Verify`
accepted it. -/
structure Arrives (env : Config.Environment) (args : VerifyArgs) (r check : Checks.Runner)
    (sent task : Task) (runner : Checks.Runner) : Prop where
  decoded : json.unmarshalTask (json.marshalTask sent) = .ok task
  created : createRunner json task = .ok runner
  typeName : runner.typeName = check.typeName
  fields : runner = check
  verified : Config.Checked env args r runner
  teamID : task.teamID = sent.teamID
  teamIdentifier : task.teamIdentifier = sent.teamIdentifier
  serviceName : task.serviceName = sent.serviceName
  roundID : task.roundID = sent.roundID
  attempts : task.attempts = sent.attempts
  credentials : task.credentials = sent.credentials

/-- Every check has an empty one of its type. -/
theorem exists_kind (r : Checks.Runner) : ∃ zero ∈ kinds, zero.typeName = r.typeName := by
  have hname : r.typeName ∈ kinds.map Checks.Runner.typeName := by
    cases r <;> dsimp only [Checks.Runner.typeName] <;> decide +kernel
  exact List.mem_map.mp hname

theorem newRunner_eq_some {serviceType : GoString} {zero : Checks.Runner}
    (h : newRunner serviceType = some zero) : zero ∈ kinds ∧ str zero.typeName = serviceType :=
  ⟨List.mem_of_find?_eq_some h, by simpa using List.find?_some h⟩

theorem newRunner_typeName (r : Checks.Runner) : ∃ zero ∈ kinds,
    newRunner (str r.typeName) = some zero ∧ zero.typeName = r.typeName := by
  obtain ⟨kind, hmem, htype⟩ := exists_kind r
  cases hfind : newRunner (str r.typeName) with
  | none =>
    have hnone := List.find?_eq_none.mp hfind kind hmem
    simp [htype] at hnone
  | some zero =>
    obtain ⟨hzero, hname⟩ := newRunner_eq_some hfind
    exact ⟨zero, hzero, rfl, str_inj.mp hname⟩

variable {json}

/-- A runner of the right type is made only from the right name. -/
theorem typeName_createRunner {task : Task} {runner : Checks.Runner}
    (h : createRunner json task = .ok runner) : str runner.typeName = task.serviceType := by
  unfold createRunner at h
  split at h
  · cases h
  · rename_i zero hzero
    split at h
    · cases h
    · rename_i made hmade
      obtain rfl := Except.ok.inj h
      rw [json.typeName_unmarshal hmade]
      exact (newRunner_eq_some hzero).2

theorem createRunner_of_typeName {check : Checks.Runner} {sent : Task}
    (h : RoundTrips json check sent) (htype : sent.serviceType = str check.typeName) :
    createRunner json sent = .ok check := by
  obtain ⟨zero, hmem, hzero, hname⟩ := newRunner_typeName check
  rw [createRunner, htype, hzero]
  dsimp only
  rw [h.check zero hmem hname]

/-- Every check enqueued from an accepted configuration comes from one in the file, and the
runner rebuilds it from its task exactly if the file gives no service type for it, or
the name of its own type. -/
theorem rebuilt_iff {env : Config.Environment} {raw conf : Config.ConfigSettings}
    (h : Config.Accepts env raw conf) (around : Surroundings) (teams : List TeamSchema)
    (round : Nat) (deadline : Int) {team : TeamSchema} {check : Checks.Runner}
    (hx : (team, check) ∈ enqueued around teams conf.allChecks)
    (hjson : RoundTrips json check (taskFor around round deadline team check)) :
    ∃ r ∈ raw.written, ∃ box : Config.Box,
      Config.Checked env (Config.verifyArgs conf.miscSettings box) r check ∧
      ((∃ (task : Task) (runner : Checks.Runner),
        Arrives json env (Config.verifyArgs conf.miscSettings box) r check
          (taskFor around round deadline team check) task runner) ↔
        r.service.serviceType = [] ∨ r.service.serviceType = str r.typeName) := by
  have hcheck := ((mem_enqueued around).mp hx).1.2
  obtain ⟨r, hr, box, hchecked⟩ := h.accepted.exists_written hcheck
  refine ⟨r, hr, box, hchecked, ?_⟩
  have hservice := hchecked.serviceType
  have htype := hchecked.typeName
  have hright : check.service.serviceType = str check.typeName ↔
      r.service.serviceType = [] ∨ r.service.serviceType = str r.typeName := by
    rw [hservice, htype]
    split
    · rename_i hnone
      simp [hnone]
    · rename_i hsome
      simp [hsome]
  rw [← hright]
  constructor
  · intro ⟨task, runner, harrives⟩
    have hsent : task = taskFor around round deadline team check :=
      (Except.ok.inj (hjson.task.symm.trans harrives.decoded)).symm
    have hname := typeName_createRunner harrives.created
    rw [harrives.typeName, hsent] at hname
    exact hname.symm
  · intro hname
    exact ⟨_, check,
      { decoded := hjson.task
        created := createRunner_of_typeName hjson hname
        typeName := rfl
        fields := rfl
        verified := hchecked
        teamID := rfl
        teamIdentifier := rfl
        serviceName := rfl
        roundID := rfl
        attempts := rfl
        credentials := rfl }⟩

/-! ### One ping check -/

section Ping
variable (serviceType : String)

/-- The ping check of a small file, with the service type given. -/
def pingCheck : Checks.Runner :=
  .ping
    { name := str "box-ping", display := str "ping", points := 1, timeout := 30, slaPenalty := 5
      slaThreshold := 5, target := str "10.0.0.1", serviceType := str serviceType, attempts := 1
      count := 1 }

def pingData : GoString := str
  ("\x7b\"Name\":\"box-ping\",\"Display\":\"ping\",\"CredLists\":null,\"Port\":0,\"Points\":1," ++
  "\"Timeout\":30,\"SlaPenalty\":5,\"SlaThreshold\":5,\"LaunchTime\":\"0001-01-01T00:00:00Z\"," ++
  "\"StopTime\":\"0001-01-01T00:00:00Z\",\"Disabled\":false,\"Target\":\"10.0.0.1\"," ++
  "\"ServiceType\":\"" ++ serviceType ++ "\",\"Attempts\":1,\"TaskCredentials\":null," ++
  "\"Count\":1,\"AllowPacketLoss\":false,\"Percent\":0\x7d")

def pingAround : Surroundings := {Surroundings.plain with marshal := fun _ => some (pingData serviceType)}

def pingTask : Task := taskFor (pingAround serviceType) 1 60000000000 ⟨1, [], str "01", true⟩
  (pingCheck serviceType)

def pingTaskData : GoString :=
  str ("\x7b\"team_id\":1,\"team_identifier\":\"01\",\"service_type\":\"" ++ serviceType ++
    "\",\"service_name\":\"box-ping\",\"deadline\":\"1970-01-01T00:01:00Z\",\"round_id\":1," ++
    "\"attempts\":1,\"check_data\":") ++ pingData serviceType ++ str "\x7d"

/-- What `encoding/json` does with this check and its task. -/
def pingJson : Json where
  unmarshal data zero :=
    if data = pingData serviceType ∧ zero.typeName = "Ping" then .ok (pingCheck serviceType)
    else .error (str "invalid character")
  marshalTask _ := pingTaskData serviceType
  unmarshalTask data :=
    if data = pingTaskData serviceType then .ok (pingTask serviceType)
    else .error (str "invalid character")
  typeName_unmarshal := by
    intro data zero r h
    split at h
    · rename_i hping
      obtain rfl := Except.ok.inj h
      exact hping.2.symm
    · cases h

theorem ping_roundTrips :
    RoundTrips (pingJson serviceType) (pingCheck serviceType) (pingTask serviceType) := by
  have hdata : (pingTask serviceType).checkData = pingData serviceType := by
    simp [pingTask, taskFor, pingAround]
  constructor
  · intro zero _ htype
    have hping : zero.typeName = "Ping" := htype
    simp [pingJson, hdata, hping]
  · simp [pingJson]

end Ping

/-- A ping check without a service type in the file arrives. -/
theorem rebuilt_ping :
    let conf := Config.setConfig .plain {} (Config.smallFile {} {ping := [{}]})
    ∃ r ∈ (Config.smallFile {} {ping := [{}]}).written, ∃ box : Config.Box,
      ∃ (task : Task) (runner : Checks.Runner),
        Arrives (pingJson "Ping") .plain (Config.verifyArgs conf.miscSettings box) r
          (pingCheck "Ping") (pingTask "Ping") task runner := by
  intro conf
  have haccepted : Config.Accepts .plain (Config.smallFile {} {ping := [{}]}) conf := by
    decide +kernel
  have henqueued : (⟨1, [], str "01", true⟩, pingCheck "Ping") ∈
      enqueued (pingAround "Ping") [⟨1, [], str "01", true⟩] conf.allChecks := by decide +kernel
  have hwritten : (Config.smallFile {} {ping := [{}]}).written = [.ping {}] := by decide +kernel
  obtain ⟨r, hr, box, -, hiff⟩ := rebuilt_iff haccepted (pingAround "Ping")
    [⟨1, [], str "01", true⟩] 1 60000000000 henqueued (ping_roundTrips "Ping")
  have hrw := hr
  rw [hwritten, List.mem_singleton] at hrw
  subst hrw
  exact ⟨_, hr, box, hiff.mpr (.inl rfl)⟩

/-- One whose file says `servicetype = "ping"` does not: no check has that name. -/
theorem ping_not_rebuilt :
    let raw := Config.smallFile {} {ping := [{serviceType := str "ping"}]}
    let conf := Config.setConfig .plain {} raw
    Config.Accepts .plain raw conf ∧
    (⟨1, [], str "01", true⟩, pingCheck "ping") ∈
      enqueued (pingAround "ping") [⟨1, [], str "01", true⟩] conf.allChecks ∧
    RoundTrips (pingJson "ping") (pingCheck "ping") (pingTask "ping") ∧
    ∀ (args : VerifyArgs) (r : Checks.Runner), ¬∃ (task : Task) (runner : Checks.Runner),
      Arrives (pingJson "ping") .plain args r (pingCheck "ping") (pingTask "ping") task runner := by
  intro raw conf
  refine ⟨by decide +kernel, by decide +kernel, ping_roundTrips "ping", ?_⟩
  intro args r ⟨task, runner, harrives⟩
  have hname := typeName_createRunner harrives.created
  have htask : task = pingTask "ping" :=
    (Except.ok.inj ((ping_roundTrips "ping").task.symm.trans harrives.decoded)).symm
  rw [harrives.typeName, htask] at hname
  revert hname
  decide +kernel

end QuotientScoring.Runner
