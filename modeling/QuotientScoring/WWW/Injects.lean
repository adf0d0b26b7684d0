import Mathlib.Logic.Function.Basic
import QuotientScoring.DB.InjectTable
import QuotientScoring.Lib.Directory
import QuotientScoring.Lib.Transition
import QuotientScoring.WWW.Submissions

/-! Making, editing and deleting injects, with the files attached to them.

A row lists the names of its files, and the files lie in a directory named by its
id. The handlers write the one and then the other, and stop wherever something
fails. -/
namespace QuotientScoring.WWW
open DB GoText GoTime Decimal Transition

/-- A field of a form with a time in it, once it is parsed. -/
inductive TimeField where
  | missing
  | invalid
  | at (time : Int)
deriving DecidableEq

structure InjectForm where
  title : GoString
  description : GoString
  openTime : TimeField
  dueTime : TimeField
  closeTime : TimeField
  keepFiles : List GoString := []
  files : List (GoString × List UInt8) := []

/-- The calls of the file system that may fail. An upload is known by its place in the form. -/
inductive DiskCall where
  | mkdirAll
  | readDir
  | remove (name : GoString)
  | openFile (i : Nat)
  | createFile (i : Nat)
  | copy (i : Nat)
  | removeAll
deriving DecidableEq

/-- What goes wrong during a request: the statements and the calls that fail, how much a copy
wrote before it did, and what was left of a directory. -/
structure InjectFaults where
  query : InjectQuery → Option GoString := fun _ => none
  disk : DiskCall → Bool := fun _ => false
  copied : Nat := 0
  left : List GoString := []

abbrev InjectDir := Directory GoString (List UInt8)

/-- The tables, the directories under `config/injects` by their number, and the files of the
submissions. -/
structure InjectStore extends InjectTables where
  dirs : Nat → Option InjectDir
  files : Files

/-! ### The form -/

/-- A field that is not filled in leaves the time as it is. -/
def TimeField.parse (refusal : GoString) (current : Int) : TimeField → Except HttpError Int
  | .missing => .ok current
  | .invalid => .error ⟨400, refusal⟩
  | .at time => .ok time

/-- The inject as the form has it, if its times are in order. -/
def editInject (form : InjectForm) (inject : InjectRow) : Except HttpError InjectRow := do
  let openTime ← form.openTime.parse (str "Invalid open time format") inject.openTime
  let dueTime ← form.dueTime.parse (str "Invalid due time format") inject.dueTime
  let closeTime ← form.closeTime.parse (str "Invalid close time format") inject.closeTime
  if dueTime < openTime then .error ⟨400, str "Open time must be before due time"⟩
  else if closeTime < dueTime then .error ⟨400, str "Due time must be before close time"⟩
  else
    .ok {inject with
      title := if form.title ≠ [] then form.title else inject.title
      description := if form.description ≠ [] then form.description else inject.description
      openTime := openTime
      dueTime := dueTime
      closeTime := closeTime}

/-- A form for a new inject leaves none of the five fields out. -/
def Filled (form : InjectForm) : Prop :=
  form.title ≠ [] ∧ form.description ≠ [] ∧
    form.openTime ≠ .missing ∧ form.dueTime ≠ .missing ∧ form.closeTime ≠ .missing

instance (form : InjectForm) : Decidable (Filled form) := inferInstanceAs (Decidable (_ ∧ _))

/-! ### The files -/

variable (faults : InjectFaults)

/-- `SafeCreate`: the file, empty, in a directory that is there. -/
def safeCreate (i : Nat) (dir : Option InjectDir) (name : GoString) : Option InjectDir :=
  if faults.disk (.createFile i) = false ∧ Creatable name then
    dir.map (fun dir => dir.insert name [])
  else none

/-- The loop that both handlers end with, from the upload in place `i` on. -/
def uploadFiles (dir : Option InjectDir) :
    Nat → List (GoString × List UInt8) → Option InjectDir × Except HttpError Unit
  | _, [] => (dir, .ok ())
  | i, (name, contents) :: rest =>
    if faults.disk (.openFile i) then (dir, .error ⟨500, str "Failed to open file"⟩)
    else
      match safeCreate faults i dir name with
      | none => (dir, .error ⟨500, str "Failed to create file on disk"⟩)
      | some created =>
        if faults.disk (.copy i) then
          (some (created.insert name (contents.take faults.copied)),
            .error ⟨500, str "Failed to save file on disk"⟩)
        else uploadFiles (some (created.insert name contents)) (i + 1) rest

/-- The loop of an update over the directory: the files not to be kept are removed, and struck
from the names. -/
def removeOldFiles (keepFiles : List GoString) :
    List GoString → Option InjectDir → List GoString → Option InjectDir × Except HttpError (List GoString)
  | [], dir, names => (dir, .ok names)
  | name :: rest, dir, names =>
    if keepFiles.contains name then removeOldFiles keepFiles rest dir names
    else if faults.disk (.remove name) then (dir, .error ⟨500, str "Failed to remove old file"⟩)
    else removeOldFiles keepFiles rest (dir.map (fun dir => dir.erase name))
      (names.filter (fun other => other ≠ name))

/-! ### The handlers -/

variable (s : InjectStore)

def InjectStore.setDir (id : Nat) (dir : Option InjectDir) : InjectStore :=
  {s with dirs := Function.update s.dirs id dir}

/-- Everything before the row is stored. -/
def newInject (form : Option InjectForm) : Except HttpError (InjectRow × List (GoString × List UInt8)) :=
  match form with
  | none => .error ⟨400, str "Failed to parse multipart form"⟩
  | some form =>
    if ¬Filled form then .error ⟨400, str "Missing required fields"⟩
    else
      (editInject form InjectRow.zero).map (fun inject =>
        ({inject with injectFileNames := form.files.map Prod.fst}, form.files))

/-- The row first, then its directory and the files. -/
def createInject (form : Option InjectForm) : InjectStore × Except HttpError Unit :=
  match newInject form with
  | .error err => (s, .error err)
  | .ok (inject, files) =>
    match DB.createInject faults.query s.toInjectTables inject with
    | (tables, .error .duplicatedKey) =>
      ({s with toInjectTables := tables},
        .error ⟨400, str "Inject with the same title already exists"⟩)
    | (tables, .error err) => ({s with toInjectTables := tables}, .error ⟨500, err.error⟩)
    | (tables, .ok inject) =>
      let s := {s with toInjectTables := tables}
      if faults.disk .mkdirAll then (s, .error ⟨500, str "Failed to create directory"⟩)
      else
        -- a directory that is there stays as it is
        let (dir, answer) := uploadFiles faults (some ((s.dirs inject.id).getD ∅)) 0 files
        (s.setDir inject.id dir, answer)

/-- The inject whose id prints as the one of the route. -/
def injectOfRoute (id : GoString) : Option InjectRow :=
  s.injects.find? (fun a => decimal a.id = id)

/-- The second half of an update: old files are removed and new ones written, then the row is
saved. -/
def storeUpdate (form : InjectForm) (inject : InjectRow) : InjectStore × Except HttpError Unit :=
  if faults.disk .readDir then (s, .error ⟨500, str "Failed to read existing files"⟩)
  else
    -- no directory is an empty one here
    let dirFiles := ((s.dirs inject.id).getD ∅).readDir
    match removeOldFiles faults form.keepFiles dirFiles (s.dirs inject.id) inject.injectFileNames with
    | (dir, .error err) => (s.setDir inject.id dir, .error err)
    | (dir, .ok names) =>
      let saved := {inject with injectFileNames := names ++ form.files.map Prod.fst}
      match uploadFiles faults dir 0 form.files with
      | (dir, .error err) => (s.setDir inject.id dir, .error err)
      | (dir, .ok ()) =>
        let s := s.setDir inject.id dir
        match DB.updateInject faults.query s.toInjectTables saved with
        | (tables, .error err) => ({s with toInjectTables := tables}, .error ⟨500, err.error⟩)
        | (tables, .ok _) => ({s with toInjectTables := tables}, .ok ())

/-- The zero row stands for an inject that is not found. -/
def updateInject (id : GoString) (form : Option InjectForm) : InjectStore × Except HttpError Unit :=
  match form with
  | none => (s, .error ⟨400, str "Failed to parse multipart form"⟩)
  | some form =>
    if id = [] then (s, .error ⟨400, str "Missing inject ID"⟩)
    else
      match faults.query .getInjects with
      | some err => (s, .error ⟨500, err⟩)
      | none =>
        match editInject form ((injectOfRoute s id).getD InjectRow.zero) with
        | .error err => (s, .error err)
        | .ok inject => storeUpdate faults s form inject

/-- The row goes before its directory. -/
def deleteInject (id : GoString) : InjectStore × Except HttpError Unit :=
  if id = [] then (s, .error ⟨400, str "Missing inject ID"⟩)
  else
    match faults.query .getInjects with
    | some err => (s, .error ⟨500, err⟩)
    | none =>
      match injectOfRoute s id with
      | none => (s, .error ⟨404, str "Inject not found"⟩)
      | some inject =>
        match DB.deleteInject faults.query s.toInjectTables inject with
        | (tables, .error err) => ({s with toInjectTables := tables}, .error ⟨500, err⟩)
        | (tables, .ok ()) =>
          let s := {s with toInjectTables := tables}
          if faults.disk .removeAll then
            (s.setDir inject.id ((s.dirs inject.id).map (fun dir =>
              faults.left.foldl (fun kept name => (dir.lookup name).elim kept (kept.insert name)) ∅)),
              .error ⟨500, str "Failed to remove inject files"⟩)
          else (s.setDir inject.id none, .ok ())

/-! ### Runs -/

/-- An upload to an inject, with all that its handler finds beside the store. -/
structure Upload where
  cwd : List GoPath.Elem
  now : Int
  db : Database
  fails : SubmissionQuery → Option GoString := fun _ => none
  session : Session
  id : GoString
  form : Form

def Upload.site (upload : Upload) : InjectSite where
  cwd := upload.cwd
  now := upload.now
  db := upload.db
  injects := s.injects.map InjectRow.toInjectSchema
  submissions := s.submissions
  fails := upload.fails

inductive InjectRequest where
  | create (faults : InjectFaults) (form : Option InjectForm)
  | update (faults : InjectFaults) (id : GoString) (form : Option InjectForm)
  | delete (faults : InjectFaults) (id : GoString)
  | submit (upload : Upload)

/-- The store and the answer after a request. -/
def handle : InjectRequest → InjectStore × Except HttpError Unit
  | .create faults form => createInject faults s form
  | .update faults id form => updateInject faults s id form
  | .delete faults id => deleteInject faults s id
  | .submit upload =>
    match createSubmission (upload.site s) s.files upload.session upload.id upload.form with
    | (submissions, files, answer) => ({s with submissions := submissions, files := files}, answer)

/-- Requests one after another, from a store of some kind. -/
def injectRequests (initial : InjectStore → Prop) : System InjectStore InjectRequest where
  initial := initial
  step s request := some (handle s request).1

end QuotientScoring.WWW
