import QuotientScoring.DB.Schema
import QuotientScoring.Engine.CheckRuns
import QuotientScoring.Lib.Replace
import QuotientScoring.Lib.Transition
import QuotientScoring.WWW.Api

/-! Teams are created, named and put into the event.

A team is created inactive and with an empty identifier; `UpdateTeams` gives teams
identifiers of digits and makes them active, one entry after another, and stops at the
first entry it refuses. A check's target names the team's machine: every `_` in it is
replaced by the identifier.

Nothing compares identifiers with each other. `targets_apart_of_distinct`: where every
request leaves active teams with different identifiers, two active teams never share a
target; `apart_step_iff` says that nothing less will do. Nor is a request that is refused
taken back: `all_or_nothing_iff`. -/
namespace QuotientScoring.WWW
open DB GoText Decimal Transition

/-- The target `Service.Run` checks. -/
def runTarget (target teamIdentifier : GoString) : GoString :=
  Replace.replaceAll (str "_") teamIdentifier target

/-- `^[0-9]{1,3}$` -/
def isValidIdentifier (identifier : GoString) : Bool :=
  identifier.all (fun c => IsDigit c) && 1 ≤ identifier.length && identifier.length ≤ 3

structure TeamUpdate where
  teamID : Nat
  identifier : GoString
  active : Bool
deriving DecidableEq, Repr

def TeamUpdate.row (entry : TeamUpdate) (team : TeamSchema) : TeamSchema :=
  if team.id = entry.teamID then {team with identifier := entry.identifier, active := entry.active}
  else team

def updateTeam (db : Database) (entry : TeamUpdate) : Database :=
  {db with teams := db.teams.map entry.row}

def invalidIdentifier : HttpError :=
  ⟨400, str ("Invalid identifier format. Only alphanumeric, hyphens, " ++
    "and underscores allowed.")⟩

def failedToUpdate : HttpError := ⟨500, str "Failed to update team"⟩

/-- The loop of `UpdateTeams`; `failsAt` is the entry at which the database fails, if it
does. -/
def updateTeams : Option Nat → List TeamUpdate → Database → Except HttpError Unit × Database
  | _, [], db => (.ok (), db)
  | failsAt, entry :: rest, db =>
    if !isValidIdentifier entry.identifier then (.error invalidIdentifier, db)
    else if failsAt = some 0 then (.error failedToUpdate, db)
    else updateTeams (failsAt.map (· - 1)) rest (updateTeam db entry)

/-- The entries that are applied. -/
def applied : Option Nat → List TeamUpdate → List TeamUpdate
  | _, [] => []
  | failsAt, entry :: rest =>
    if !isValidIdentifier entry.identifier || failsAt = some 0 then []
    else entry :: applied (failsAt.map (· - 1)) rest

/-- `AddTeams` creates a team it does not find, or a request updates some. -/
inductive TeamAction where
  | create (id : Nat) (name : GoString)
  | update (entries : List TeamUpdate) (failsAt : Option Nat)
deriving DecidableEq

def teamStep (db : Database) : TeamAction → Option Database
  | .create id name =>
    if db.teams.any (fun team => team.id = id || team.name = name) then none
    else some {db with teams := db.teams ++ [⟨id, name, [], false⟩]}
  | .update entries failsAt => some (updateTeams failsAt entries db).2

def teamTable : System Database TeamAction where
  initial := fun db => db.teams = []
  step := teamStep

/-- Every target with a place for the identifier differs between two active teams. -/
def TargetsApart (db : Database) : Prop :=
  ∀ a ∈ db.teams, ∀ b ∈ db.teams, a.id ≠ b.id → a.active → b.active →
    ∀ target, str "_" <:+: target → runTarget target a.identifier ≠ runTarget target b.identifier

/-! ### Targets and identifiers -/

theorem str_underscore : str "_" = [95] := by decide +kernel

theorem runTarget_inj {target identifier identifier' : GoString} (h : str "_" <:+: target)
    (heq : runTarget target identifier = runTarget target identifier') :
    identifier = identifier' := by
  unfold runTarget at heq
  rw [str_underscore] at h heq
  refine Replace.replaceAll_byte_inj ?_ heq
  exact h.subset (List.mem_singleton_self _)

/-- Two active teams have different identifiers. -/
def IdentifiersApart (db : Database) : Prop :=
  ∀ a ∈ db.teams, ∀ b ∈ db.teams, a.id ≠ b.id → a.active → b.active → a.identifier ≠ b.identifier

theorem targetsApart_iff {db : Database} : TargetsApart db ↔ IdentifiersApart db := by
  constructor
  · intro h a ha b hb hne haa hba heq
    apply h a ha b hb hne haa hba (str "_") (List.infix_refl _)
    rw [heq]
  · intro h a ha b hb hne haa hba target htarget heq
    exact h a ha b hb hne haa hba (runTarget_inj htarget heq)

/-! ### What a request makes of a row -/

/-- The row of a team after these entries: the last entry for it counts. -/
def assigned (entries : List TeamUpdate) (team : TeamSchema) : TeamSchema :=
  match entries.reverse.find? (fun entry => team.id = entry.teamID) with
  | none => team
  | some entry => {team with identifier := entry.identifier, active := entry.active}

/-- No two teams that are active after the request have one identifier. -/
def Distinct (db : Database) : TeamAction → Prop
  | .create _ _ => True
  | .update entries failsAt =>
    ∀ a ∈ db.teams, ∀ b ∈ db.teams, a.id ≠ b.id →
      (assigned (applied failsAt entries) a).active →
      (assigned (applied failsAt entries) b).active →
      (assigned (applied failsAt entries) a).identifier ≠
        (assigned (applied failsAt entries) b).identifier

instance (db : Database) : (action : TeamAction) → Decidable (Distinct db action)
  | .create _ _ => .isTrue trivial
  | .update _ _ =>
    inferInstanceAs (Decidable (∀ a ∈ db.teams, ∀ b ∈ db.teams, a.id ≠ b.id → _ → _ → _ ≠ _))

@[simp] theorem assigned_nil (team : TeamSchema) : assigned [] team = team := rfl

@[simp] theorem assigned_id (entries : List TeamUpdate) (team : TeamSchema) :
    (assigned entries team).id = team.id := by
  unfold assigned
  split <;> rfl

theorem assigned_append (entries : List TeamUpdate) (entry : TeamUpdate) (team : TeamSchema) :
    assigned (entries ++ [entry]) team = entry.row (assigned entries team) := by
  by_cases h : team.id = entry.teamID
  · have hrow : (assigned entries team).id = entry.teamID := by rw [assigned_id, h]
    rw [TeamUpdate.row, if_pos hrow]
    unfold assigned
    rw [List.reverse_append, List.reverse_singleton, List.singleton_append, List.find?_cons,
      decide_eq_true h]
    cases entries.reverse.find? (fun entry => team.id = entry.teamID) <;> rfl
  · have hrow : ¬(assigned entries team).id = entry.teamID := by rwa [assigned_id]
    rw [TeamUpdate.row, if_neg hrow]
    unfold assigned
    rw [List.reverse_append, List.reverse_singleton, List.singleton_append, List.find?_cons,
      decide_eq_false h]

/-- Entries one after another. -/
theorem foldl_updateTeam (entries : List TeamUpdate) (db : Database) :
    (entries.foldl updateTeam db).teams = db.teams.map (assigned entries) := by
  induction entries using List.reverseRecOn with
  | nil =>
    have hid : assigned [] = id := by
      funext team
      exact assigned_nil team
    rw [hid, List.map_id, List.foldl_nil]
  | append_singleton entries entry ih =>
    have hcomp : assigned (entries ++ [entry]) = entry.row ∘ assigned entries := by
      funext team
      exact assigned_append entries entry team
    rw [List.foldl_append, List.foldl_cons, List.foldl_nil, updateTeam, ih, List.map_map, hcomp]

/-- A request applies its entries up to the first one that is refused or fails. -/
theorem updateTeams_eq (failsAt : Option Nat) (entries : List TeamUpdate) (db : Database) :
    (updateTeams failsAt entries db).2 = (applied failsAt entries).foldl updateTeam db := by
  induction entries generalizing failsAt db with
  | nil => rfl
  | cons entry rest ih =>
    rw [updateTeams, applied]
    by_cases hvalid : isValidIdentifier entry.identifier = true
    · by_cases hfails : failsAt = some 0
      · simp [hvalid, hfails]
      · simpa [hvalid, hfails] using ih (failsAt.map (· - 1)) (updateTeam db entry)
    · simp [hvalid]

/-! ### Requests that are refused -/

/-- `UpdateTeams`; a body that cannot be read is `none`. -/
def answerUpdateTeams (failsAt : Option Nat) (form : Option (List TeamUpdate)) (db : Database) :
    Except HttpError Unit × Database :=
  match form with
  | none => (.error ⟨400, str "Invalid request body"⟩, db)
  | some entries => updateTeams failsAt entries db

/-- A refused request leaves every team as it was, and one that is not gives every team the values
of the last entry for it. -/
def AllOrNothing (form : Option (List TeamUpdate)) (db : Database)
    (run : Except HttpError Unit × Database) : Prop :=
  (∀ err, run.1 = .error err → run.2.teams = db.teams) ∧
    (run.1 = .ok () → ∃ entries, form = some entries ∧ run.2.teams = db.teams.map (assigned entries))

/-- The entry at a position is not applied, and neither is any after it. -/
def StopsAt (failsAt : Option Nat) (entries : List TeamUpdate) (i : Nat) : Prop :=
  ∃ entry, entries[i]? = some entry ∧ (isValidIdentifier entry.identifier = false ∨ failsAt = some i)

/-- Where some entry stops the request, the last entry for a team before the first that does has the
values that the team has. -/
def Harmless (failsAt : Option Nat) (form : Option (List TeamUpdate)) (db : Database) : Prop :=
  ∀ entries i, form = some entries → StopsAt failsAt entries i →
    (∀ j < i, ¬StopsAt failsAt entries j) →
    ∀ team ∈ db.teams, assigned (entries.take i) team = team

theorem stopsAt_zero {failsAt : Option Nat} {entry : TeamUpdate} {rest : List TeamUpdate} :
    StopsAt failsAt (entry :: rest) 0 ↔
      isValidIdentifier entry.identifier = false ∨ failsAt = some 0 := by
  unfold StopsAt
  simp

theorem stopsAt_succ {failsAt : Option Nat} {entry : TeamUpdate} {rest : List TeamUpdate} {i : Nat}
    (hfails : failsAt ≠ some 0) :
    StopsAt failsAt (entry :: rest) (i + 1) ↔ StopsAt (failsAt.map (· - 1)) rest i := by
  unfold StopsAt
  rw [List.getElem?_cons_succ]
  cases failsAt with
  | none => simp
  | some k =>
    have hk : k ≠ 0 := fun h => hfails (congrArg some h)
    have heq : k = i + 1 ↔ k - 1 = i := by omega
    simp [heq]

/-- Either no entry stops the request, and all are applied, or those before the first that
does. -/
theorem updateTeams_cases (failsAt : Option Nat) (entries : List TeamUpdate) (db : Database) :
    ((updateTeams failsAt entries db).1 = .ok () ∧ applied failsAt entries = entries ∧
      ∀ i, ¬StopsAt failsAt entries i) ∨
    (∃ err i, (updateTeams failsAt entries db).1 = .error err ∧
      applied failsAt entries = entries.take i ∧ StopsAt failsAt entries i ∧
      ∀ j < i, ¬StopsAt failsAt entries j) := by
  induction entries generalizing failsAt db with
  | nil =>
    left
    refine ⟨rfl, rfl, fun i h => ?_⟩
    obtain ⟨_, h, -⟩ := h
    simp at h
  | cons entry rest ih =>
    rw [updateTeams, applied]
    by_cases hvalid : isValidIdentifier entry.identifier = true
    · by_cases hfails : failsAt = some 0
      · right
        refine ⟨failedToUpdate, 0, ?_, ?_, stopsAt_zero.mpr (.inr hfails), fun j hj => by omega⟩
        · simp [hvalid, hfails]
        · simp [hfails]
      · have hfirst : ¬StopsAt failsAt (entry :: rest) 0 := by
          rw [stopsAt_zero]
          simp [hvalid, hfails]
        simp only [hvalid, hfails, Bool.not_true, Bool.false_eq_true, if_false, decide_false,
          Bool.or_self]
        rcases ih (failsAt.map (· - 1)) (updateTeam db entry) with ⟨hok, happlied, hnone⟩ |
          ⟨err, i, herr, happlied, hstop, hbefore⟩
        · left
          refine ⟨hok, by rw [happlied], fun i => ?_⟩
          cases i with
          | zero => exact hfirst
          | succ i => exact fun h => hnone i ((stopsAt_succ hfails).mp h)
        · right
          refine ⟨err, i + 1, herr, by rw [happlied, List.take_succ_cons],
            (stopsAt_succ hfails).mpr hstop, fun j hj => ?_⟩
          cases j with
          | zero => exact hfirst
          | succ j => exact fun h => hbefore j (by omega) ((stopsAt_succ hfails).mp h)
    · right
      have hinvalid : isValidIdentifier entry.identifier = false := by simpa using hvalid
      refine ⟨invalidIdentifier, 0, ?_, ?_, stopsAt_zero.mpr (.inl hinvalid), fun j hj => by omega⟩
      · simp [hvalid]
      · simp [hvalid]

/-- A request is all or nothing exactly if it is not stopped, or what it has applied by then is
what was there. -/
theorem all_or_nothing_iff (failsAt : Option Nat) (form : Option (List TeamUpdate)) (db : Database) :
    AllOrNothing form db (answerUpdateTeams failsAt form db) ↔ Harmless failsAt form db := by
  cases form with
  | none => exact iff_of_true ⟨fun _ _ => rfl, fun h => nomatch h⟩ (fun _ _ h => nomatch h)
  | some entries =>
    have hteams : (answerUpdateTeams failsAt (some entries) db).2.teams =
        db.teams.map (assigned (applied failsAt entries)) := by
      rw [answerUpdateTeams, updateTeams_eq, foldl_updateTeam]
    unfold AllOrNothing
    rw [hteams]
    rcases updateTeams_cases failsAt entries db with ⟨hok, happlied, hnone⟩ |
      ⟨err, i, herr, happlied, hstop, hbefore⟩
    · have hreply : (answerUpdateTeams failsAt (some entries) db).1 = .ok () := hok
      rw [hreply, happlied]
      refine iff_of_true ⟨fun _ h => (nomatch h), fun _ => ⟨entries, rfl, rfl⟩⟩ ?_
      intro entries' i hform hstop
      obtain rfl := Option.some.inj hform
      exact absurd hstop (hnone i)
    · have hreply : (answerUpdateTeams failsAt (some entries) db).1 = .error err := herr
      have hsame : db.teams.map (assigned (entries.take i)) = db.teams ↔
          ∀ team ∈ db.teams, assigned (entries.take i) team = team := by
        conv_lhs => rw [← List.map_id db.teams, List.map_map, List.map_inj_left]
        rfl
      rw [hreply, happlied]
      constructor
      · intro h entries' i' hform hstop' hbefore'
        obtain rfl := Option.some.inj hform
        obtain rfl : i' = i := by
          rcases Nat.lt_trichotomy i' i with hlt | heq | hgt
          · exact absurd hstop' (hbefore i' hlt)
          · exact heq
          · exact absurd hstop (hbefore' i hgt)
        exact hsame.mp (h.1 err rfl)
      · intro h
        exact ⟨fun _ _ => hsame.mpr (h entries i rfl hstop hbefore), fun h => nomatch h⟩

/-- The second entry of a request is refused, and the first has been applied. -/
theorem refused_half_applied :
    let db : Database := {teams := [⟨1, str "blue", str "01", true⟩, ⟨2, str "green", str "02", true⟩]}
    let run := answerUpdateTeams none (some [⟨1, str "07", false⟩, ⟨2, str "x", true⟩]) db
    run.1 = .error invalidIdentifier ∧ run.2.teams ≠ db.teams := by
  refine ⟨by decide +kernel, fun h => ?_⟩
  have hidentifiers := congrArg (List.map TeamSchema.identifier) h
  revert hidentifiers
  decide +kernel

/-! ### Runs -/

/-- A step from a table with different identifiers leads to one exactly if it is
`Distinct`. -/
theorem apart_step_iff {db db' : Database} {action : TeamAction}
    (hstep : teamTable.step db action = some db') (h : TargetsApart db) :
    TargetsApart db' ↔ Distinct db action := by
  rw [targetsApart_iff] at h ⊢
  cases action with
  | create id name =>
    simp only [teamTable, teamStep] at hstep
    split at hstep
    · cases hstep
    · cases hstep
      refine ⟨fun _ => trivial, fun _ a ha b hb hne haa hba => ?_⟩
      have hold : ∀ team ∈ db.teams ++ [⟨id, name, [], false⟩], team.active → team ∈ db.teams := by
        intro team hteam hactive
        rcases List.mem_append.mp hteam with hold | hnew
        · exact hold
        · obtain rfl := List.mem_singleton.mp hnew
          cases hactive
      exact h a (hold a ha haa) b (hold b hb hba) hne haa hba
  | update entries failsAt =>
    obtain rfl : (updateTeams failsAt entries db).2 = db' := Option.some.inj hstep
    unfold IdentifiersApart Distinct
    rw [updateTeams_eq, foldl_updateTeam]
    simp only [List.forall_mem_map, assigned_id]

theorem targets_apart_of_distinct {db : Database} (h : Reachable teamTable Distinct db) :
    ∀ a ∈ db.teams, ∀ b ∈ db.teams, a.id ≠ b.id → a.active → b.active →
      ∀ target, str "_" <:+: target →
        runTarget target a.identifier ≠ runTarget target b.identifier := by
  refine Reachable.invariant (I := TargetsApart) ?_ ?_ h
  · intro db hinit a ha
    rw [show db.teams = [] from hinit] at ha
    cases ha
  · intro db action db' hapart hdistinct hstep
    exact (apart_step_iff hstep hapart).mpr hdistinct

/-- Two teams are created and made active under these identifiers, by one request. -/
def twoActive (identifier identifier' : GoString) : List TeamAction :=
  [ .create 1 (str "blue"), .create 2 (str "green"),
    .update [⟨1, identifier, true⟩, ⟨2, identifier', true⟩] none ]

theorem targets_apart_two : ∃ db, Reachable teamTable Distinct db ∧
    ∃ a ∈ db.teams, ∃ b ∈ db.teams,
      runTarget (str "10.100.1_.2") a.identifier ≠ runTarget (str "10.100.1_.2") b.identifier := by
  obtain ⟨db, hreach, a, ha, b, hb, hne, haa, hba⟩ :=
    Reachable.exists_of_replay (S := teamTable) (G := Distinct)
      (fun db => ∃ a ∈ db.teams, ∃ b ∈ db.teams, a.id ≠ b.id ∧ a.active ∧ b.active) {}
      (twoActive (str "01") (str "02")) rfl (by decide +kernel)
  refine ⟨db, hreach, a, ha, b, hb, ?_⟩
  exact targets_apart_of_distinct hreach a ha b hb hne haa hba (str "10.100.1_.2")
    (by decide +kernel)

/-- One request gives two teams one identifier, and both are checked on one machine. -/
theorem targets_shared : ∃ db, Reachable teamTable (fun _ _ => True) db ∧
    ∃ a ∈ db.teams, ∃ b ∈ db.teams, a.id ≠ b.id ∧ a.active ∧ b.active ∧
      runTarget (str "10.100.1_.2") a.identifier = runTarget (str "10.100.1_.2") b.identifier :=
  Reachable.exists_of_replay (S := teamTable) (G := fun _ _ => True)
    (fun db => ∃ a ∈ db.teams, ∃ b ∈ db.teams, a.id ≠ b.id ∧ a.active ∧ b.active ∧
      runTarget (str "10.100.1_.2") a.identifier = runTarget (str "10.100.1_.2") b.identifier)
    {} (twoActive (str "01") (str "01")) rfl (by decide +kernel)

end QuotientScoring.WWW
