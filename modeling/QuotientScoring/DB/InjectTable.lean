import QuotientScoring.DB.Injects
import QuotientScoring.Lib.GoText
import QuotientScoring.Lib.GoTime
import QuotientScoring.Lib.Keyed

/-! The table of injects, and what the handlers write to it.

A row gets its id from a sequence that only grows, and no two rows have one title.
`Save` writes over the row with the id, and a row without an id is a new one. -/
namespace QuotientScoring.DB
open GoText GoTime

/-- A whole row of `inject_schemas`. -/
structure InjectRow extends InjectSchema where
  title : GoString
  description : GoString
  dueTime : Int
  injectFileNames : List GoString
deriving DecidableEq

/-- The zero row. -/
def InjectRow.zero : InjectRow := ⟨⟨0, zeroTime, zeroTime⟩, [], [], zeroTime, []⟩

structure InjectTables where
  injects : List InjectRow
  nextID : Nat
  submissions : List SubmissionSchema

/-- The statements that may fail. -/
inductive InjectQuery where
  | getInjects
  | createInject
  | updateInject
  | deleteSubmissions
  | deleteInject
deriving DecidableEq

/-- Why a row is not stored. -/
inductive SaveError where
  | duplicatedKey
  | other (err : GoString)
deriving DecidableEq

def SaveError.error : SaveError → GoString
  | .duplicatedKey => str "duplicated key not allowed"
  | .other err => err

variable (fails : InjectQuery → Option GoString) (tables : InjectTables)

/-- The title is that of another row. -/
def TitleTaken (inject : InjectRow) : Prop :=
  ∃ row ∈ tables.injects, row.id ≠ inject.id ∧ row.title = inject.title

instance (inject : InjectRow) : Decidable (TitleTaken tables inject) :=
  inferInstanceAs (Decidable (∃ row ∈ tables.injects, _))

/-- A row goes in under the next id. The id is used up even where the title is taken. -/
def insertInject (fault : Option GoString) (inject : InjectRow) :
    InjectTables × Except SaveError InjectRow :=
  match fault with
  | some err => (tables, .error (.other err))
  | none =>
    let inject := {inject with id := tables.nextID}
    if TitleTaken tables inject then
      ({tables with nextID := tables.nextID + 1}, .error .duplicatedKey)
    else
      ({tables with injects := tables.injects ++ [inject], nextID := tables.nextID + 1}, .ok inject)

def createInject (inject : InjectRow) : InjectTables × Except SaveError InjectRow :=
  insertInject tables (fails .createInject) inject

/-- `Save`. A row with an id has just been read, so it is there. -/
def updateInject (inject : InjectRow) : InjectTables × Except SaveError InjectRow :=
  if inject.id = 0 then insertInject tables (fails .updateInject) inject
  else
    match fails .updateInject with
    | some err => (tables, .error (.other err))
    | none =>
      if TitleTaken tables inject then (tables, .error .duplicatedKey)
      else ({tables with injects := Keyed.save (fun row => row.id) tables.injects inject}, .ok inject)

/-- The submissions go first. -/
def deleteInject (inject : InjectRow) : InjectTables × Except GoString Unit :=
  match fails .deleteSubmissions with
  | some err => (tables, .error err)
  | none =>
    let tables := {tables with
      submissions := tables.submissions.filter (fun submission => submission.injectID ≠ inject.id)}
    match fails .deleteInject with
    | some err => (tables, .error err)
    | none => ({tables with injects := tables.injects.filter (fun row => row.id ≠ inject.id)}, .ok ())

/-! ### Ids -/

/-- Every row has an id of its own, which the sequence is past. -/
structure Numbered (tables : InjectTables) : Prop where
  nodup : (tables.injects.map (fun row => row.id)).Nodup
  pos : ∀ row ∈ tables.injects, 0 < row.id
  below : ∀ row ∈ tables.injects, row.id < tables.nextID
  start : 0 < tables.nextID

variable {tables} {inject : InjectRow}

theorem Numbered.of_same (h : Numbered tables) {tables' : InjectTables}
    (hsame : tables'.injects = tables.injects) (hnext : tables.nextID ≤ tables'.nextID) :
    Numbered tables' where
  nodup := by rw [hsame]; exact h.nodup
  pos := by rw [hsame]; exact h.pos
  below := by rw [hsame]; exact fun row hrow => (h.below row hrow).trans_le hnext
  start := h.start.trans_le hnext

theorem Numbered.append (h : Numbered tables) (hid : inject.id = tables.nextID) :
    Numbered {tables with injects := tables.injects ++ [inject], nextID := tables.nextID + 1} where
  nodup := by
    rw [List.map_append, List.nodup_append]
    refine ⟨h.nodup, List.nodup_singleton _, ?_⟩
    intro a ha b hb hab
    obtain ⟨row, hrow, rfl⟩ := List.mem_map.mp ha
    have hnext : row.id = tables.nextID := (hab.trans (List.mem_singleton.mp hb)).trans hid
    exact (h.below row hrow).ne hnext
  pos := by
    simp only [List.forall_mem_append, List.forall_mem_singleton, hid]
    exact ⟨h.pos, h.start⟩
  below := by
    simp only [List.forall_mem_append, List.forall_mem_singleton, hid]
    exact ⟨fun row hrow => Nat.lt_succ_of_lt (h.below row hrow), Nat.lt_succ_self _⟩
  start := Nat.succ_pos _

theorem Numbered.filter (h : Numbered tables) (p : InjectRow → Bool)
    (submissions : List SubmissionSchema) :
    Numbered {tables with injects := tables.injects.filter p, submissions := submissions} where
  nodup := h.nodup.sublist (List.filter_sublist.map _)
  pos row hrow := h.pos row (List.mem_filter.mp hrow).1
  below row hrow := h.below row (List.mem_filter.mp hrow).1
  start := h.start

/-- A row after a `Save` is the one saved, or one with another id. -/
theorem mem_save {row : InjectRow}
    (h : row ∈ Keyed.save (fun row => row.id) tables.injects inject) :
    row = inject ∨ row ∈ tables.injects ∧ row.id ≠ inject.id := by
  obtain ⟨old, hold, rfl⟩ := List.mem_map.mp h
  split
  · exact .inl rfl
  · rename_i hne
    exact .inr ⟨hold, hne⟩

theorem Numbered.save (h : Numbered tables) {old : InjectRow} (hold : old ∈ tables.injects)
    (hid : inject.id = old.id) :
    Numbered {tables with injects := Keyed.save (fun row => row.id) tables.injects inject} where
  nodup := by rw [Keyed.map_key_save]; exact h.nodup
  pos row hrow := by
    rcases mem_save hrow with rfl | ⟨hmem, -⟩
    · rw [hid]
      exact h.pos old hold
    · exact h.pos row hmem
  below row hrow := by
    rcases mem_save hrow with rfl | ⟨hmem, -⟩
    · show row.id < tables.nextID
      rw [hid]
      exact h.below old hold
    · exact h.below row hmem
  start := h.start

/-! ### What is stored -/

variable {fails}

theorem insertInject_stored (htitle : ∀ row ∈ tables.injects, row.title ≠ inject.title) :
    insertInject tables none inject =
      ({tables with
        injects := tables.injects ++ [{inject with id := tables.nextID}],
        nextID := tables.nextID + 1}, .ok {inject with id := tables.nextID}) :=
  if_neg (fun htaken => htaken.elim fun row hrow => htitle row hrow.1 hrow.2.2)

/-- A row that is refused leaves the table as it is. -/
theorem insertInject_refused (h : Numbered tables) {fault : Option GoString}
    (hrefused : fault ≠ none ∨ ∃ row ∈ tables.injects, row.title = inject.title) :
    ∃ tables' err, insertInject tables fault inject = (tables', .error err) ∧
      tables'.injects = tables.injects ∧ tables.nextID ≤ tables'.nextID := by
  cases fault with
  | some err => exact ⟨tables, .other err, rfl, rfl, le_rfl⟩
  | none =>
    obtain ⟨row, hrow, htitle⟩ := hrefused.resolve_left (fun hne => hne rfl)
    have htaken : TitleTaken tables {inject with id := tables.nextID} :=
      ⟨row, hrow, (h.below row hrow).ne, htitle⟩
    exact ⟨_, .duplicatedKey, if_pos htaken, rfl, Nat.le_succ _⟩

theorem updateInject_saved (hid : inject.id ≠ 0) (hfault : fails .updateInject = none)
    (htitle : ¬TitleTaken tables inject) : updateInject fails tables inject =
      ({tables with injects := Keyed.save (fun row => row.id) tables.injects inject}, .ok inject) := by
  rw [updateInject, if_neg hid, hfault]
  exact if_neg htitle

theorem updateInject_refused (hid : inject.id ≠ 0)
    (hrefused : fails .updateInject ≠ none ∨ TitleTaken tables inject) :
    ∃ err, updateInject fails tables inject = (tables, .error err) := by
  rw [updateInject, if_neg hid]
  cases hfault : fails .updateInject with
  | some err => exact ⟨_, rfl⟩
  | none => exact ⟨_, if_pos (hrefused.resolve_left (fun hne => hne hfault))⟩

end QuotientScoring.DB
