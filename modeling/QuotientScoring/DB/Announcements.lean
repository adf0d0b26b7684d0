import Mathlib.Data.List.Sort
import QuotientScoring.DB.InjectTable

/-! The table of announcements.

A row gets its id from a sequence that only grows, so that no id is ever used again, and no two
rows have one title. -/
namespace QuotientScoring.DB
open GoText GoTime

/-- A whole row of `announcement_schemas`. -/
structure AnnouncementRow extends AnnouncementSchema where
  title : GoString
  description : GoString
  announcementFileNames : List GoString
deriving DecidableEq

/-- The zero row. -/
def AnnouncementRow.zero : AnnouncementRow := ⟨⟨0, zeroTime⟩, [], [], []⟩

structure AnnouncementTable where
  rows : List AnnouncementRow := []
  nextID : Nat := 1

variable (fault : Option GoString) (table : AnnouncementTable)

/-- A row goes in under the next id. The id is used up even where the title is taken. -/
def createAnnouncement (announcement : AnnouncementRow) :
    AnnouncementTable × Except SaveError AnnouncementRow :=
  match fault with
  | some err => (table, .error (.other err))
  | none =>
    if ∃ row ∈ table.rows, row.title = announcement.title then
      ({table with nextID := table.nextID + 1}, .error .duplicatedKey)
    else
      let announcement := {announcement with id := table.nextID}
      (⟨table.rows ++ [announcement], table.nextID + 1⟩, .ok announcement)

/-- The newest first, and of those that open together the one with the highest id. -/
def NewerOrSame (a b : AnnouncementRow) : Prop :=
  b.openTime < a.openTime ∨ b.openTime = a.openTime ∧ b.id ≤ a.id

instance (a b : AnnouncementRow) : Decidable (NewerOrSame a b) :=
  inferInstanceAs (Decidable (_ ∨ _))

def getAnnouncements : Except GoString (List AnnouncementRow) :=
  match fault with
  | some err => .error err
  | none => .ok (table.rows.insertionSort NewerOrSame)

/-- A row that is not there any more is deleted all the same. -/
def deleteAnnouncement (announcement : AnnouncementRow) : Except GoString AnnouncementTable :=
  match fault with
  | some err => .error err
  | none => .ok {table with rows := table.rows.filter (fun row => row.id ≠ announcement.id)}

/-! ### Ids -/

variable {fault table}

/-- Every row has an id of its own, which the sequence is past. -/
structure AnnouncementTable.Numbered (table : AnnouncementTable) : Prop where
  nodup : (table.rows.map (fun row => row.id)).Nodup
  pos : ∀ row ∈ table.rows, 0 < row.id
  below : ∀ row ∈ table.rows, row.id < table.nextID
  start : 0 < table.nextID

theorem AnnouncementTable.Numbered.append (h : table.Numbered) {row : AnnouncementRow}
    (hid : row.id = table.nextID) :
    AnnouncementTable.Numbered ⟨table.rows ++ [row], table.nextID + 1⟩ where
  nodup := by
    rw [List.map_append, List.map_singleton, List.nodup_append]
    refine ⟨h.nodup, List.nodup_singleton _, fun a ha b hb hab => ?_⟩
    obtain ⟨old, hold, rfl⟩ := List.mem_map.mp ha
    have hnext : old.id = table.nextID := (hab.trans (List.mem_singleton.mp hb)).trans hid
    exact (h.below old hold).ne hnext
  pos := by
    rw [List.forall_mem_append, List.forall_mem_singleton, hid]
    exact ⟨h.pos, h.start⟩
  below := by
    rw [List.forall_mem_append, List.forall_mem_singleton, hid]
    exact ⟨fun old hold => Nat.lt_succ_of_lt (h.below old hold), Nat.lt_succ_self _⟩
  start := Nat.succ_pos _

theorem AnnouncementTable.Numbered.skip (h : table.Numbered) :
    AnnouncementTable.Numbered {table with nextID := table.nextID + 1} where
  nodup := h.nodup
  pos := h.pos
  below row hrow := Nat.lt_succ_of_lt (h.below row hrow)
  start := Nat.succ_pos _

theorem AnnouncementTable.Numbered.filter (h : table.Numbered) (p : AnnouncementRow → Bool) :
    AnnouncementTable.Numbered {table with rows := table.rows.filter p} where
  nodup := h.nodup.sublist (List.filter_sublist.map _)
  pos row hrow := h.pos row (List.mem_filter.mp hrow).1
  below row hrow := h.below row (List.mem_filter.mp hrow).1
  start := h.start

theorem AnnouncementTable.Numbered.ext (h : table.Numbered) {a b : AnnouncementRow}
    (ha : a ∈ table.rows) (hb : b ∈ table.rows) (hid : a.id = b.id) : a = b :=
  List.inj_on_of_nodup_map h.nodup ha hb hid

theorem mem_getAnnouncements {rows : List AnnouncementRow}
    (h : getAnnouncements fault table = .ok rows) {row : AnnouncementRow} :
    row ∈ rows ↔ row ∈ table.rows := by
  cases fault with
  | some err => cases h
  | none =>
    obtain rfl := Except.ok.inj h
    exact (List.perm_insertionSort _ _).mem_iff

end QuotientScoring.DB
