import QuotientScoring.Engine.Sanitize
import QuotientScoring.Lib.Keyed
import QuotientScoring.Lib.Writers

/-! Which services are switched off for a team.

There is a row for a team and a service once their switch has been set; without one the service
is on. What is set is the value that was set last: `isTeamServiceEnabled_foldl`. -/
namespace QuotientScoring.DB
open Engine Writers

structure TeamServiceCheckSchema where
  id : Nat
  teamID : Nat
  serviceName : GoString
  enabled : Bool
deriving DecidableEq, Repr

/-- The unique index. -/
def TeamServiceCheckSchema.key (row : TeamServiceCheckSchema) : Nat × GoString :=
  (row.teamID, row.serviceName)

/-- `team_service_check_schemas`, with the sequence of its ids. -/
structure SwitchTable where
  rows : List TeamServiceCheckSchema := []
  nextID : Nat := 1
deriving DecidableEq, Repr

/-- What the columns of the index can hold: a `bigint` and a text. -/
def storableKey (key : Nat × GoString) : Bool :=
  decide (key.1 < 2 ^ 63) && Utf8.valid key.2 && decide (0 ∉ key.2)

theorem storableKey_iff {key : Nat × GoString} :
    storableKey key = true ↔ key.1 < 2 ^ 63 ∧ StorableText key.2 := by
  simp only [storableKey, Bool.and_eq_true, decide_eq_true_eq, Utf8.valid_iff, StorableText]
  constructor
  · rintro ⟨⟨hteam, hchars⟩, hnul⟩
    exact ⟨hteam, hnul, hchars⟩
  · rintro ⟨hteam, hnul, hchars⟩
    exact ⟨⟨hteam, hchars⟩, hnul⟩

/-- On where there is no row. The query fails with a parameter that is no value of the column. -/
def isTeamServiceEnabled (table : SwitchTable) (teamID : Nat) (serviceName : GoString) :
    Option Bool :=
  if storableKey (teamID, serviceName) then
    some (((Keyed.first TeamServiceCheckSchema.key table.rows (teamID, serviceName)).map
      TeamServiceCheckSchema.enabled).getD true)
  else none

/-- The switch of a team and a service, as it is set. -/
structure SwitchUpdate where
  teamID : Nat
  serviceName : GoString
  enabled : Bool
deriving DecidableEq, Repr

def SwitchUpdate.key (u : SwitchUpdate) : Nat × GoString := (u.teamID, u.serviceName)

/-- The columns that a row in the way is given. -/
def SwitchUpdate.assign (u : SwitchUpdate) (row : TeamServiceCheckSchema) :
    TeamServiceCheckSchema :=
  {row with enabled := u.enabled}

@[simp] theorem SwitchUpdate.key_assign (u : SwitchUpdate) (row : TeamServiceCheckSchema) :
    (u.assign row).key = row.key := rfl

@[simp] theorem SwitchUpdate.id_assign (u : SwitchUpdate) (row : TeamServiceCheckSchema) :
    (u.assign row).id = row.id := rfl

/-- `INSERT … ON CONFLICT (team_id, service_name) DO UPDATE SET enabled = excluded.enabled`. An id
is drawn in either case. -/
def setTeamServiceEnabled (table : SwitchTable) (u : SwitchUpdate) : SwitchTable where
  rows := Keyed.upsert TeamServiceCheckSchema.key u.assign table.rows
    ⟨table.nextID, u.teamID, u.serviceName, u.enabled⟩
  nextID := table.nextID + 1

/-- The table as what requests write to. -/
def switches : Medium SwitchTable SwitchUpdate where
  write := setTeamServiceEnabled
  accepts u := storableKey u.key

/-! ### What is set -/

def SwitchTable.switch (table : SwitchTable) (key : Nat × GoString) : Option Bool :=
  (Keyed.first TeamServiceCheckSchema.key table.rows key).map TeamServiceCheckSchema.enabled

theorem switch_setTeamServiceEnabled (table : SwitchTable) (u : SwitchUpdate)
    (key : Nat × GoString) : (setTeamServiceEnabled table u).switch key =
      if u.key = key then some u.enabled else table.switch key := by
  have hfirst := Keyed.first_upsert u.key_assign table.rows
    ⟨table.nextID, u.teamID, u.serviceName, u.enabled⟩ key
  unfold SwitchTable.switch setTeamServiceEnabled
  rw [hfirst]
  show Option.map _ (if u.key = key then _ else _) = _
  split
  · cases Keyed.first TeamServiceCheckSchema.key table.rows key <;> rfl
  · rfl

/-- The rows have distinct keys, and ids that have been drawn. -/
structure SwitchTable.Indexed (table : SwitchTable) : Prop where
  keys : (table.rows.map TeamServiceCheckSchema.key).Nodup
  ids : (table.rows.map TeamServiceCheckSchema.id).Nodup
  drawn : ∀ row ∈ table.rows, row.id < table.nextID

theorem SwitchTable.indexed_empty : SwitchTable.Indexed {} :=
  ⟨List.nodup_nil, List.nodup_nil, fun _ hrow => nomatch hrow⟩

theorem SwitchTable.Indexed.set {table : SwitchTable} (h : table.Indexed) (u : SwitchUpdate) :
    (setTeamServiceEnabled table u).Indexed := by
  refine ⟨Keyed.nodup_upsert u.key_assign h.keys _, ?_, ?_⟩
  · show ((Keyed.upsert TeamServiceCheckSchema.key u.assign _ _).map _).Nodup
    unfold Keyed.upsert
    split
    · have hsame : ∀ row : TeamServiceCheckSchema,
          (if row.key = u.key then u.assign row else row).id = row.id := by
        intro row
        split <;> rfl
      rw [List.map_map]
      have hids := h.ids
      rw [← List.map_congr_left (fun row _ => hsame row)] at hids
      exact hids
    · rw [List.map_append, List.nodup_append]
      refine ⟨h.ids, List.nodup_singleton _, ?_⟩
      intro a ha b hb hab
      obtain ⟨row, hrow, rfl⟩ := List.mem_map.mp ha
      rw [List.mem_singleton.mp hb] at hab
      exact absurd hab (Nat.ne_of_lt (h.drawn row hrow))
  · show ∀ row ∈ Keyed.upsert TeamServiceCheckSchema.key u.assign _ _, row.id < table.nextID + 1
    unfold Keyed.upsert
    intro row hrow
    split at hrow
    · obtain ⟨r, hr, rfl⟩ := List.mem_map.mp hrow
      have hlt := h.drawn r hr
      split
      · exact Nat.lt_succ_of_lt hlt
      · exact Nat.lt_succ_of_lt hlt
    · rcases List.mem_append.mp hrow with hrow | hrow
      · exact Nat.lt_succ_of_lt (h.drawn row hrow)
      · rw [List.mem_singleton.mp hrow]
        exact Nat.lt_succ_self _

theorem indexed_foldl {table : SwitchTable} (h : table.Indexed) (us : List SwitchUpdate) :
    (us.foldl setTeamServiceEnabled table).Indexed := by
  induction us generalizing table with
  | nil => exact h
  | cons u rest ih => exact ih (h.set u)

/-- A switch is as it was set last. -/
theorem isTeamServiceEnabled_foldl (us : List SwitchUpdate) (teamID : Nat)
    (serviceName : GoString) : isTeamServiceEnabled (us.foldl setTeamServiceEnabled {}) teamID serviceName =
      if storableKey (teamID, serviceName) then
        some ((lastWrite SwitchUpdate.key SwitchUpdate.enabled us (teamID, serviceName)).getD true)
      else none := by
  have hempty : ∀ key, ({} : SwitchTable).switch key = none := fun _ => rfl
  have hread := read_foldl switch_setTeamServiceEnabled hempty us (teamID, serviceName)
  unfold isTeamServiceEnabled
  show (if _ then some ((SwitchTable.switch _ _).getD true) else none) = _
  rw [hread]

end QuotientScoring.DB
