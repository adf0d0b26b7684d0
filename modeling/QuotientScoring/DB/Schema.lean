import Mathlib.Algebra.Order.Ring.Int
import Mathlib.Data.List.Sort

/-! The tables the engine keeps, and the calls that write them.

A string of the program is a byte string: nothing makes it valid UTF-8. Rows are
kept in the order they were written. A call that only reads returns what the
query promises; where a query leaves the order of its rows open, callers are
proved for every order of the table. -/
namespace QuotientScoring.DB

/-- A string: any bytes. -/
abbrev GoString := List UInt8

structure TeamSchema where
  id : Nat
  name : GoString
  identifier : GoString
  active : Bool
deriving DecidableEq, Repr

structure ServiceCheckSchema where
  teamID : Nat
  roundID : Nat
  serviceName : GoString
  points : Int
  result : Bool
  error : GoString
  debug : GoString
deriving DecidableEq, Repr

structure SLASchema where
  teamID : Nat
  roundID : Nat
  serviceName : GoString
  penalty : Int
deriving DecidableEq, Repr

structure RoundSchema where
  id : Nat
  checks : List ServiceCheckSchema
deriving DecidableEq, Repr

/-- `team_schemas`, `round_schemas` (the ids), `service_check_schemas` and `sla_schemas`. -/
structure Database where
  teams : List TeamSchema := []
  rounds : List Nat := []
  checks : List ServiceCheckSchema := []
  slas : List SLASchema := []
deriving DecidableEq, Repr

/-- Stores a round and its checks in one transaction; the foreign key of a check
is filled with the id of the round. Whether the database accepts the round is not
decided here: it refuses an id it already has, and it may fail. -/
def createRound (db : Database) (round : RoundSchema) : Database :=
  { db with
    rounds := db.rounds ++ [round.id]
    checks := db.checks ++ round.checks.map (fun check => {check with roundID := round.id}) }

def createSLA (db : Database) (sla : SLASchema) : Database :=
  {db with slas := db.slas ++ [sla]}

/-- The round with the highest id; the zero value when there is none. -/
def getLastRound (db : Database) : RoundSchema :=
  match db.rounds.max? with
  | none => ⟨0, []⟩
  | some id => ⟨id, db.checks.filter (fun check => check.roundID = id)⟩

def getTeams (db : Database) : List TeamSchema :=
  db.teams.insertionSort (fun a b => a.id ≤ b.id)

/-- The team of this name; the zero value when there is none. -/
def getTeamByUsername (db : Database) (name : GoString) : TeamSchema :=
  ((getTeams db).find? (fun team => team.name = name)).getD ⟨0, [], [], false⟩

/-- `TRUNCATE TABLE service_check_schemas, round_schemas, sla_schemas`. -/
def truncate (db : Database) : Database :=
  {db with rounds := [], checks := [], slas := []}

theorem mem_getTeams {db : Database} {team : TeamSchema} : team ∈ getTeams db ↔ team ∈ db.teams :=
  (List.perm_insertionSort _ _).mem_iff

/-- What the keys of `team_schemas` keep: ids are positive numbers of 64 bits with a sign, each
given once, and so are names. -/
structure KeyedTeams (db : Database) : Prop where
  pos : ∀ team ∈ db.teams, 0 < team.id
  bigint : ∀ team ∈ db.teams, team.id < 2 ^ 63
  ids : ∀ a ∈ db.teams, ∀ b ∈ db.teams, a.id = b.id → a = b
  names : ∀ a ∈ db.teams, ∀ b ∈ db.teams, a.name = b.name → a = b

/-- The team of this name, if there is one. -/
theorem find?_getTeams_eq_some {db : Database} (h : KeyedTeams db) {name : GoString}
    {team : TeamSchema} : (getTeams db).find? (fun team => team.name = name) = some team ↔
      team ∈ db.teams ∧ team.name = name := by
  constructor
  · intro hfind
    exact ⟨mem_getTeams.mp (List.mem_of_find?_eq_some hfind), by simpa using List.find?_some hfind⟩
  · intro ⟨hmem, hname⟩
    cases hfind : (getTeams db).find? (fun team => team.name = name) with
    | none =>
      have hnone := List.find?_eq_none.mp hfind team (mem_getTeams.mpr hmem)
      simp [hname] at hnone
    | some other =>
      have hother : other.name = name := by simpa using List.find?_some hfind
      have hmem' := mem_getTeams.mp (List.mem_of_find?_eq_some hfind)
      rw [h.names other hmem' team hmem (hother.trans hname.symm)]

/-- `getTeamByUsername` gives the id of a team exactly for its own name. -/
theorem getTeamByUsername_id {db : Database} (h : KeyedTeams db) {name : GoString}
    {team : TeamSchema} (hmem : team ∈ db.teams) :
    (getTeamByUsername db name).id = team.id ↔ team.name = name := by
  unfold getTeamByUsername
  constructor
  · intro hid
    cases hfind : (getTeams db).find? (fun team => team.name = name) with
    | none =>
      rw [hfind, Option.getD_none] at hid
      exact absurd hid (Nat.ne_of_lt (h.pos team hmem))
    | some other =>
      rw [hfind, Option.getD_some] at hid
      obtain ⟨hmem', hname⟩ := (find?_getTeams_eq_some h).mp hfind
      rw [h.ids team hmem other hmem' hid.symm]
      exact hname
  · intro hname
    rw [(find?_getTeams_eq_some h).mpr ⟨hmem, hname⟩, Option.getD_some]

/-- No saved round is later than the last one. -/
theorem le_getLastRound {db : Database} {id : Nat} (h : id ∈ db.rounds) :
    id ≤ (getLastRound db).id := by
  have hle := List.le_max?_getD_of_mem (k := 0) h
  unfold getLastRound
  cases hm : db.rounds.max? with
  | none =>
    rw [hm] at hle
    exact hle
  | some m =>
    rw [hm] at hle
    exact hle

end QuotientScoring.DB
