import QuotientScoring.DB.Announcements
import QuotientScoring.Lib.Requests
import QuotientScoring.WWW.Downloads
import QuotientScoring.WWW.Injects

/-! Making, listing and deleting announcements, while other requests do the same.

A row lists the names of the files that came with it, which lie in a directory named by its id.
A new announcement is stored first, then its directory is made, and then one file after another is
created and copied; a deletion looks its row up, deletes it, and then removes the directory.
Between these steps anything else may happen, each may fail, and the process may be stopped after
any of them. -/
namespace QuotientScoring.WWW
open DB GoText Decimal Directory Requests

structure AnnouncementForm where
  title : GoString
  description : GoString
  openTime : TimeField
  files : List (GoString × List UInt8) := []
deriving DecidableEq

abbrev UploadDir := Directory GoString (List UInt8)

/-- The table, the directories under `submissions/announcements` by their number, and all that
was ever stored, with the files that came with it. -/
structure AnnouncementStore where
  table : AnnouncementTable := {}
  dirs : Nat → Option UploadDir := fun _ => none
  made : List (AnnouncementRow × List (GoString × List UInt8)) := []

/-- What a step meets with: the error of its statement, the calls that fail, how much a copy has
written so far, and what a removal leaves. -/
structure Mishap where
  db : Option GoString := none
  disk : DiskCall → Bool := fun _ => false
  copied : Option Nat := none
  left : List GoString := []

def AnnouncementStore.setDir (s : AnnouncementStore) (id : Nat) (dir : Option UploadDir) :
    AnnouncementStore :=
  {s with dirs := Function.update s.dirs id dir}

/-! ### A new announcement -/

inductive CreateStage where
  | arrived
  | stored
  /-- The directory is there, with the files before place `i`. -/
  | uploading (i : Nat)
  /-- The file in place `i` has been created. -/
  | copying (i : Nat)
  | answered (answer : Except HttpError Unit)
  | stopped
deriving DecidableEq

/-- A request to create an announcement, and the row it has stored. -/
structure Creation where
  form : Option AnnouncementForm
  row : Option AnnouncementRow := none
  stage : CreateStage := .arrived
deriving DecidableEq

def Creation.files (c : Creation) : List (GoString × List UInt8) :=
  c.form.elim [] AnnouncementForm.files

/-- Everything before the row is stored. -/
def newAnnouncement (form : Option AnnouncementForm) : Except HttpError AnnouncementRow :=
  match form with
  | none => .error ⟨400, str "Failed to parse multipart form"⟩
  | some form =>
    if form.title = [] ∨ form.description = [] then .error ⟨400, str "Missing required fields"⟩
    else
      match form.openTime with
      | .missing => .error ⟨400, str "Missing required fields"⟩
      | .invalid => .error ⟨400, str "Invalid open time format"⟩
      | .at time => .ok ⟨⟨0, time⟩, form.title, form.description, form.files.map Prod.fst⟩

def Creation.fail (c : Creation) (code : Nat) (text : GoString) : Creation :=
  {c with stage := .answered (.error ⟨code, text⟩)}

def Creation.store (s : AnnouncementStore) (c : Creation) (mishap : Mishap) :
    AnnouncementStore × Creation :=
  match newAnnouncement c.form with
  | .error err => (s, {c with stage := .answered (.error err)})
  | .ok announcement =>
    match DB.createAnnouncement mishap.db s.table announcement with
    | (table, .error .duplicatedKey) =>
      ({s with table := table}, c.fail 400 (str "Announcement with the same title already exists"))
    | (table, .error err) => ({s with table := table}, c.fail 500 err.error)
    | (table, .ok row) =>
      ({s with table := table, made := s.made ++ [(row, c.files)]},
        {c with row := some row, stage := .stored})

def Creation.mkdir (s : AnnouncementStore) (c : Creation) (row : AnnouncementRow)
    (mishap : Mishap) : AnnouncementStore × Creation :=
  if mishap.disk .mkdirAll then (s, c.fail 500 (str "Failed to create directory"))
  else
    -- a directory that is there stays as it is
    (s.setDir row.id (some ((s.dirs row.id).getD ∅)), {c with stage := .uploading 0})

def Creation.create (s : AnnouncementStore) (c : Creation) (row : AnnouncementRow) (i : Nat)
    (mishap : Mishap) : AnnouncementStore × Creation :=
  match c.files[i]? with
  | none => (s, {c with stage := .answered (.ok ())})
  | some (name, _) =>
    if mishap.disk (.openFile i) then (s, c.fail 500 (str "Failed to open file"))
    else
      match s.dirs row.id with
      | some dir =>
        if mishap.disk (.createFile i) = false ∧ Creatable name then
          (s.setDir row.id (some (dir.insert name [])), {c with stage := .copying i})
        else (s, c.fail 500 (str "Failed to create file on disk"))
      | none => (s, c.fail 500 (str "Failed to create file on disk"))

/-- What is copied goes into the file that was created, and nowhere if it has been removed. -/
def Creation.copy (s : AnnouncementStore) (c : Creation) (row : AnnouncementRow) (i : Nat)
    (mishap : Mishap) : AnnouncementStore × Creation :=
  match c.files[i]? with
  | none => (s, {c with stage := .answered (.ok ())})
  | some (name, contents) =>
    let written := (mishap.copied.elim contents contents.take)
    let s := s.setDir row.id ((s.dirs row.id).map (fun dir =>
      if name ∈ dir then dir.insert name written else dir))
    if mishap.disk (.copy i) then (s, c.fail 500 (str "Failed to save file on disk"))
    else if mishap.copied.isSome then (s, c)
    else (s, {c with stage := .uploading (i + 1)})

def Creation.step (s : AnnouncementStore) (c : Creation) (mishap : Mishap) :
    Option (AnnouncementStore × Creation) :=
  match c.stage, c.row with
  | .arrived, _ => some (c.store s mishap)
  | .stored, some row => some (c.mkdir s row mishap)
  | .uploading i, some row => some (c.create s row i mishap)
  | .copying i, some row => some (c.copy s row i mishap)
  | _, _ => none

/-! ### A deletion -/

inductive DeleteStage where
  | arrived
  | found
  | deleted
  | answered (answer : Except HttpError Unit)
  | stopped
deriving DecidableEq

/-- A request to delete an announcement, and the row it has found. -/
structure Deletion where
  id : GoString
  row : Option AnnouncementRow := none
  stage : DeleteStage := .arrived
deriving DecidableEq

def Deletion.fail (d : Deletion) (code : Nat) (text : GoString) : Deletion :=
  {d with stage := .answered (.error ⟨code, text⟩)}

/-- The zero row stands for an announcement that is not found. -/
def Deletion.find (s : AnnouncementStore) (d : Deletion) (mishap : Mishap) : Deletion :=
  if d.id = [] then d.fail 400 (str "Missing announcement ID")
  else
    match getAnnouncements mishap.db s.table with
    | .error err => d.fail 500 err
    | .ok rows =>
      let row := (rows.find? (fun a => decimal a.id = d.id)).getD AnnouncementRow.zero
      if row.id = 0 then d.fail 404 (str "Announcement not found")
      else {d with row := some row, stage := .found}

def Deletion.delete (s : AnnouncementStore) (d : Deletion) (row : AnnouncementRow)
    (mishap : Mishap) : AnnouncementStore × Deletion :=
  match deleteAnnouncement mishap.db s.table row with
  | .error err => (s, d.fail 500 err)
  | .ok table => ({s with table := table}, {d with stage := .deleted})

def Deletion.remove (s : AnnouncementStore) (d : Deletion) (row : AnnouncementRow)
    (mishap : Mishap) : AnnouncementStore × Deletion :=
  if mishap.disk .removeAll then
    (s.setDir row.id ((s.dirs row.id).map (fun dir =>
      mishap.left.foldl (fun kept name => (dir.lookup name).elim kept (kept.insert name)) ∅)),
      d.fail 500 (str "Failed to remove announcement files"))
  else (s.setDir row.id none, {d with stage := .answered (.ok ())})

def Deletion.step (s : AnnouncementStore) (d : Deletion) (mishap : Mishap) :
    Option (AnnouncementStore × Deletion) :=
  match d.stage, d.row with
  | .arrived, _ => some (s, d.find s mishap)
  | .found, some row => some (d.delete s row mishap)
  | .deleted, some row => some (d.remove s row mishap)
  | _, _ => none

/-! ### All of them -/

inductive AnnouncementRequest where
  | create (c : Creation)
  | delete (d : Deletion)
deriving DecidableEq

/-- What comes in: a form, if it can be parsed, or the id of a route. -/
inductive AnnouncementCall where
  | create (form : Option AnnouncementForm)
  | delete (id : GoString)
deriving DecidableEq

def CreateStage.stop : CreateStage → CreateStage
  | .answered answer => .answered answer
  | _ => .stopped

def DeleteStage.stop : DeleteStage → DeleteStage
  | .answered answer => .answered answer
  | _ => .stopped

def announcementHandler :
    Handler AnnouncementStore AnnouncementCall AnnouncementRequest Mishap where
  arrive
    | .create form => .create {form := form}
    | .delete id => .delete {id := id}
  step s r mishap :=
    match r with
    | .create c => (c.step s mishap).map (fun after => (after.1, .create after.2))
    | .delete d => (d.step s mishap).map (fun after => (after.1, .delete after.2))
  stop
    | .create c => .create {c with stage := c.stage.stop}
    | .delete d => .delete {d with stage := d.stage.stop}

/-- From no announcements. -/
def announcements := announcementHandler.system (fun s => s.table = {} ∧ s.made = [] ∧
  ∀ id, s.dirs id = none)

/-- The listing: everything for an admin, and for others what is open, unless they are the red
team and are not shown any. -/
def listAnnouncements (conf : Config.ConfigSettings) (session : Session) (now : Int)
    (fault : Option GoString) (table : AnnouncementTable) :
    Except HttpError (List AnnouncementRow) :=
  match getAnnouncements fault table with
  | .error err => .error ⟨500, err⟩
  | .ok rows =>
    if .admin ∈ session.roles then .ok rows
    else if .red ∈ session.roles ∧ conf.uiSettings.showAnnouncementsForRedTeam = false then
      .error ⟨403, str "Forbidden"⟩
    else .ok (rows.filter (fun a => a.openTime < now))

end QuotientScoring.WWW
