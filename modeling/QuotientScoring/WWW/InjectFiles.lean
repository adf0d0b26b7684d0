import QuotientScoring.WWW.Injects

/-! Whether the names in a row are the files in its directory.

They are after every request of a run, and a request that is refused leaves the table and
the directories alone, if each request either fails before it touches them or goes
all the way: `attachments_consistent`. -/
namespace QuotientScoring.WWW
open DB GoText GoTime Decimal Directory Transition

/-! ### What a request asks for -/

/-- The time a field leaves. -/
def TimeField.get (current : Int) : TimeField → Int
  | .at time => time
  | _ => current

/-- The times that the form gives, with the others as they are, are times and in order. -/
def TimesFit (form : InjectForm) (inject : InjectRow) : Prop :=
  form.openTime ≠ .invalid ∧ form.dueTime ≠ .invalid ∧ form.closeTime ≠ .invalid ∧
    form.openTime.get inject.openTime ≤ form.dueTime.get inject.dueTime ∧
    form.dueTime.get inject.dueTime ≤ form.closeTime.get inject.closeTime

instance (form : InjectForm) (inject : InjectRow) : Decidable (TimesFit form inject) :=
  inferInstanceAs (Decidable (_ ∧ _))

/-- The row as the form has it. -/
def InjectForm.apply (form : InjectForm) (inject : InjectRow) : InjectRow :=
  {inject with
    title := if form.title ≠ [] then form.title else inject.title
    description := if form.description ≠ [] then form.description else inject.description
    openTime := form.openTime.get inject.openTime
    dueTime := form.dueTime.get inject.dueTime
    closeTime := form.closeTime.get inject.closeTime}

theorem parse_of_ne {field : TimeField} (h : field ≠ .invalid) (refusal : GoString) (current : Int) :
    field.parse refusal current = .ok (field.get current) := by
  cases field with
  | missing => rfl
  | invalid => exact absurd rfl h
  | «at» time => rfl

theorem editInject_of_valid {form : InjectForm} {inject : InjectRow}
    (hopen : form.openTime ≠ .invalid) (hdue : form.dueTime ≠ .invalid)
    (hclose : form.closeTime ≠ .invalid) : editInject form inject =
      if form.dueTime.get inject.dueTime < form.openTime.get inject.openTime then
        .error ⟨400, str "Open time must be before due time"⟩
      else if form.closeTime.get inject.closeTime < form.dueTime.get inject.dueTime then
        .error ⟨400, str "Due time must be before close time"⟩
      else .ok (form.apply inject) := by
  simp only [editInject, parse_of_ne hopen, parse_of_ne hdue, parse_of_ne hclose]
  rfl

theorem editInject_of_fit {form : InjectForm} {inject : InjectRow} (h : TimesFit form inject) :
    editInject form inject = .ok (form.apply inject) := by
  obtain ⟨hopen, hdue, hclose, hod, hdc⟩ := h
  rw [editInject_of_valid hopen hdue hclose, if_neg (Int.not_lt.mpr hod),
    if_neg (Int.not_lt.mpr hdc)]

theorem editInject_of_not_fit {form : InjectForm} {inject : InjectRow} (h : ¬TimesFit form inject) :
    ∃ err, editInject form inject = .error err := by
  by_cases hopen : form.openTime = .invalid
  · exact ⟨_, by rw [editInject, hopen]; rfl⟩
  by_cases hdue : form.dueTime = .invalid
  · exact ⟨_, by rw [editInject, parse_of_ne hopen, hdue]; rfl⟩
  by_cases hclose : form.closeTime = .invalid
  · exact ⟨_, by rw [editInject, parse_of_ne hopen, parse_of_ne hdue, hclose]; rfl⟩
  rw [editInject_of_valid hopen hdue hclose]
  split
  · exact ⟨_, rfl⟩
  · rename_i hod
    split
    · exact ⟨_, rfl⟩
    · rename_i hdc
      exact absurd ⟨hopen, hdue, hclose, Int.not_lt.mp hod, Int.not_lt.mp hdc⟩ h

/-! ### The files -/

/-- The upload in place `i` becomes a file, empty at first. -/
def Openable (faults : InjectFaults) (i : Nat) (name : GoString) : Prop :=
  faults.disk (.openFile i) = false ∧ faults.disk (.createFile i) = false ∧ Creatable name

instance (faults : InjectFaults) (i : Nat) (name : GoString) : Decidable (Openable faults i name) :=
  inferInstanceAs (Decidable (_ ∧ _))

/-- Every upload from place `i` on is stored. -/
def Stored (faults : InjectFaults) : Nat → List (GoString × List UInt8) → Prop
  | _, [] => True
  | i, (name, _) :: rest =>
    Openable faults i name ∧ faults.disk (.copy i) = false ∧ Stored faults (i + 1) rest

variable {faults : InjectFaults} {keepFiles names : List GoString} {dir : Option InjectDir}

theorem uploadFiles_stored {files : List (GoString × List UInt8)} {i : Nat}
    (h : Stored faults i files) (hdir : files ≠ [] → dir ≠ none) :
    ∃ written, uploadFiles faults dir i files = (written, .ok ()) ∧
      written.getD ∅ = writeAll (dir.getD ∅) files := by
  induction files generalizing i dir with
  | nil => exact ⟨dir, rfl, rfl⟩
  | cons file rest ih =>
    obtain ⟨name, contents⟩ := file
    obtain ⟨⟨hopen, hcreate, hname⟩, hcopy, hrest⟩ := h
    obtain ⟨found, rfl⟩ := Option.ne_none_iff_exists'.mp (hdir (List.cons_ne_nil _ _))
    have hsafe : safeCreate faults i (some found) name = some (found.insert name []) := by
      rw [safeCreate, if_pos ⟨hcreate, hname⟩, Option.map_some]
    obtain ⟨written, hwritten, hall⟩ :=
      @ih (some (found.insert name contents)) (i + 1) hrest (fun _ => Option.some_ne_none _)
    refine ⟨written, ?_, hall⟩
    rw [uploadFiles, hsafe]
    simp only [hopen, hcopy, AList.insert_insert, Bool.false_eq_true, if_false]
    exact hwritten

/-- Where the first upload does not become a file, nothing is touched. -/
theorem uploadFiles_not_openable {file : GoString × List UInt8}
    {rest : List (GoString × List UInt8)} {i : Nat} (h : Openable faults i file.1 → dir = none) :
    ∃ err, uploadFiles faults dir i (file :: rest) = (dir, .error err) := by
  obtain ⟨name, contents⟩ := file
  rw [uploadFiles]
  split
  · exact ⟨_, rfl⟩
  · rename_i hopen
    have hnone : safeCreate faults i dir name = none := by
      rw [safeCreate]
      split
      · rename_i hsafe
        rw [h ⟨by simpa using hopen, hsafe⟩]
        rfl
      · rfl
    rw [hnone]
    exact ⟨_, rfl⟩

/-- The files that are there and not to be kept. -/
def oldFiles (keepFiles dirFiles : List GoString) : List GoString :=
  dirFiles.filter (fun name => !keepFiles.contains name)

theorem removeOldFiles_oldFiles (faults : InjectFaults) (keepFiles dirFiles : List GoString)
    (dir : Option InjectDir) (names : List GoString) :
    removeOldFiles faults keepFiles dirFiles dir names =
      removeOldFiles faults [] (oldFiles keepFiles dirFiles) dir names := by
  induction dirFiles generalizing dir names with
  | nil => rfl
  | cons name rest ih =>
    by_cases hkeep : keepFiles.contains name = true
    · have hcons : oldFiles keepFiles (name :: rest) = oldFiles keepFiles rest :=
        List.filter_cons_of_neg (by simpa using hkeep)
      rw [hcons, removeOldFiles, if_pos hkeep, ih]
    · have hcons : oldFiles keepFiles (name :: rest) = name :: oldFiles keepFiles rest :=
        List.filter_cons_of_pos (by simpa using hkeep)
      rw [hcons, removeOldFiles, removeOldFiles, if_neg hkeep, List.contains_nil,
        if_neg Bool.false_ne_true, ih]

/-- Where nothing fails, the old files are gone, and the names follow. -/
theorem removeOldFiles_removed {old : List GoString} (h : Lists names (dir.getD ∅))
    (hremove : ∀ name ∈ old, faults.disk (.remove name) = false) :
    ∃ kept left, removeOldFiles faults [] old dir names = (kept, .ok left) ∧
      Lists left (kept.getD ∅) ∧ (dir ≠ none → kept ≠ none) ∧
      ∀ name ∈ kept.getD ∅, name ∈ dir.getD ∅ ∧ name ∉ old := by
  induction old generalizing dir names with
  | nil => exact ⟨dir, names, rfl, h, id, fun name hname => ⟨hname, List.not_mem_nil⟩⟩
  | cons name rest ih =>
    have herase : (dir.map (fun dir => dir.erase name)).getD ∅ = (dir.getD ∅).erase name := by
      cases dir <;> rfl
    have herased := h.erase name
    rw [← herase] at herased
    obtain ⟨kept, left, heq, hlists, hsome, hmem⟩ :=
      ih herased (fun other hother => hremove other (List.mem_cons_of_mem _ hother))
    refine ⟨kept, left, ?_, hlists, ?_, ?_⟩
    · rw [removeOldFiles, List.contains_nil, hremove name List.mem_cons_self]
      exact heq
    · intro hdir
      apply hsome
      simpa using hdir
    · intro other hother
      obtain ⟨hin, hnot⟩ := hmem other hother
      rw [herase, AList.mem_erase] at hin
      exact ⟨hin.2, List.not_mem_cons_of_ne_of_not_mem hin.1 hnot⟩

/-! ### What is kept -/

/-- The names in each row are the files in its directory, each once, and there is no directory
for a row to come. -/
structure Attached (s : InjectStore) : Prop where
  numbered : Numbered s.toInjectTables
  listed : ∀ row ∈ s.injects, Lists row.injectFileNames ((s.dirs row.id).getD ∅)
  unused : ∀ id, id = 0 ∨ s.nextID ≤ id → s.dirs id = none

/-- The table and the directories are the same. -/
def Unchanged (s s' : InjectStore) : Prop := s'.injects = s.injects ∧ s'.dirs = s.dirs

/-- What holds after a request holds still, and an error changes nothing. -/
def Tidy (s : InjectStore) (after : InjectStore × Except HttpError Unit) : Prop :=
  Attached after.1 ∧ ∀ err, after.2 = .error err → Unchanged s after.1

variable {s : InjectStore}

theorem Attached.of_unchanged (h : Attached s) {s' : InjectStore} (hsame : Unchanged s s')
    (hnext : s.nextID ≤ s'.nextID) : Attached s' where
  numbered := h.numbered.of_same hsame.1 hnext
  listed := by rw [hsame.1, hsame.2]; exact h.listed
  unused := by
    rw [hsame.2]
    exact fun id hid => h.unused id (hid.imp_right hnext.trans)

theorem Tidy.of_unchanged (h : Attached s) {after : InjectStore × Except HttpError Unit}
    (hsame : Unchanged s after.1) (hnext : s.nextID ≤ after.1.nextID) : Tidy s after :=
  ⟨h.of_unchanged hsame hnext, fun _ _ => hsame⟩

theorem Tidy.self (h : Attached s) (answer : Except HttpError Unit) : Tidy s (s, answer) :=
  .of_unchanged h ⟨rfl, rfl⟩ le_rfl

@[simp] theorem setDir_self (s : InjectStore) (id : Nat) : s.setDir id (s.dirs id) = s := by
  rw [InjectStore.setDir, Function.update_eq_self]

/-! ### A new inject -/

/-- A form for a new inject that is accepted under a free title brings files that can all be
stored, under names of their own. -/
def CreateIntact (s : InjectStore) (faults : InjectFaults) (form : Option InjectForm) : Prop :=
  ∀ f, form = some f → Filled f → TimesFit f InjectRow.zero →
    faults.query .createInject = none → (∀ row ∈ s.injects, row.title ≠ f.title) →
      faults.disk .mkdirAll = false ∧ Stored faults 0 f.files ∧ (f.files.map Prod.fst).Nodup

/-- A row with the next id, and the directory that it lists. -/
theorem Attached.insert (h : Attached s) {inject : InjectRow} {dir : Option InjectDir}
    (hid : inject.id = s.nextID) (hlists : Lists inject.injectFileNames (dir.getD ∅)) :
    Attached (InjectStore.setDir
      {s with injects := s.injects ++ [inject], nextID := s.nextID + 1} inject.id dir) where
  numbered := h.numbered.append hid
  listed := by
    intro row hrow
    show Lists row.injectFileNames ((Function.update s.dirs inject.id dir row.id).getD ∅)
    rcases List.mem_append.mp hrow with hrow | hrow
    · have hlt := h.numbered.below row hrow
      rw [Function.update_of_ne (by omega)]
      exact h.listed row hrow
    · rw [List.mem_singleton.mp hrow, Function.update_self]
      exact hlists
  unused := by
    intro id hunused
    have hstart := h.numbered.start
    show Function.update s.dirs inject.id dir id = none
    have hle : id = 0 ∨ s.nextID + 1 ≤ id := hunused
    rw [Function.update_of_ne (by omega)]
    exact h.unused id (by omega)

/-- The row of a form that fills all fields in, with times in order. -/
def rowOf (form : InjectForm) : InjectRow :=
  {form.apply InjectRow.zero with injectFileNames := form.files.map Prod.fst}

theorem newInject_of_fit {form : InjectForm} (hfilled : Filled form)
    (hfit : TimesFit form InjectRow.zero) :
    newInject (some form) = .ok (rowOf form, form.files) := by
  simp only [newInject, hfilled, not_true, if_false, editInject_of_fit hfit]
  rfl

theorem newInject_of_not_fit {form : InjectForm}
    (h : ¬(Filled form ∧ TimesFit form InjectRow.zero)) :
    ∃ err, newInject (some form) = .error err := by
  rw [newInject]
  split
  · exact ⟨_, rfl⟩
  · rename_i hfilled
    obtain ⟨err, herr⟩ :=
      editInject_of_not_fit (fun hfit => h ⟨Decidable.not_not.mp hfilled, hfit⟩)
    exact ⟨err, by rw [herr]; rfl⟩

theorem title_rowOf {form : InjectForm} (h : Filled form) : (rowOf form).title = form.title :=
  if_pos h.1

theorem createInject_tidy (h : Attached s) {form : Option InjectForm}
    (hintact : CreateIntact s faults form) : Tidy s (createInject faults s form) := by
  cases form with
  | none => exact .self h _
  | some f =>
    unfold createInject
    by_cases hfit : Filled f ∧ TimesFit f InjectRow.zero
    · rw [newInject_of_fit hfit.1 hfit.2]
      by_cases hfree : faults.query .createInject = none ∧ ∀ row ∈ s.injects, row.title ≠ f.title
      · obtain ⟨hmkdir, hstored, hnodup⟩ := hintact f rfl hfit.1 hfit.2 hfree.1 hfree.2
        have htitle : ∀ row ∈ s.injects, row.title ≠ (rowOf f).title := by
          rw [title_rowOf hfit.1]
          exact hfree.2
        have hinsert := insertInject_stored htitle
        have hempty : s.dirs s.nextID = none := h.unused _ (.inr le_rfl)
        obtain ⟨written, hwritten, hall⟩ :=
          uploadFiles_stored hstored (fun _ => Option.some_ne_none (∅ : InjectDir))
        simp only [DB.createInject, hfree.1, hinsert, hmkdir, hempty, Option.getD_none, hwritten,
          Bool.false_eq_true, if_false]
        have hlists : Lists (rowOf f).injectFileNames (written.getD ∅) := by
          rw [hall]
          exact Lists.empty.writeAll hnodup (fun name _ => AList.notMem_empty name)
        exact ⟨h.insert rfl hlists, fun err herr => nomatch herr⟩
      · have hrefused : faults.query .createInject ≠ none ∨
            ∃ row ∈ s.injects, row.title = (rowOf f).title := by
          rw [title_rowOf hfit.1]
          by_contra hnot
          simp only [not_or, not_not, not_exists, not_and] at hnot
          exact hfree hnot
        obtain ⟨tables, err, hinsert, hsame, hnext⟩ := insertInject_refused h.numbered hrefused
        simp only [DB.createInject, hinsert]
        cases err with
        | duplicatedKey => exact .of_unchanged h ⟨hsame, rfl⟩ hnext
        | other err => exact .of_unchanged h ⟨hsame, rfl⟩ hnext
    · obtain ⟨err, herr⟩ := newInject_of_not_fit hfit
      rw [herr]
      exact .self h _

/-! ### A deleted inject -/

/-- The directory of an inject that is deleted can be removed. -/
def DeleteIntact (s : InjectStore) (faults : InjectFaults) (id : GoString) : Prop :=
  (injectOfRoute s id).isSome → faults.query .getInjects = none →
    faults.query .deleteSubmissions = none → faults.query .deleteInject = none →
      faults.disk .removeAll = false

theorem Attached.delete (h : Attached s) (inject : InjectRow) (submissions : List SubmissionSchema) :
    Attached (InjectStore.setDir
      {s with
        injects := s.injects.filter (fun row => row.id ≠ inject.id)
        submissions := submissions} inject.id none) where
  numbered := h.numbered.filter _ submissions
  listed := by
    intro row hrow
    obtain ⟨hmem, hne⟩ := List.mem_filter.mp hrow
    show Lists row.injectFileNames ((Function.update s.dirs inject.id none row.id).getD ∅)
    rw [Function.update_of_ne (of_decide_eq_true hne)]
    exact h.listed row hmem
  unused := by
    intro id hunused
    show Function.update s.dirs inject.id none id = none
    by_cases hid : id = inject.id
    · rw [hid, Function.update_self]
    · rw [Function.update_of_ne hid]
      exact h.unused id hunused

theorem deleteInject_tidy (h : Attached s) {id : GoString} (hintact : DeleteIntact s faults id) :
    Tidy s (deleteInject faults s id) := by
  unfold deleteInject
  split
  · exact .self h _
  · cases hget : faults.query .getInjects with
    | some err => exact .self h _
    | none =>
      cases hroute : injectOfRoute s id with
      | none => exact .self h _
      | some inject =>
        dsimp only
        unfold DB.deleteInject
        cases hsubmissions : faults.query .deleteSubmissions with
        | some err => exact .self h _
        | none =>
          cases hdelete : faults.query .deleteInject with
          | some err => exact .of_unchanged h ⟨rfl, rfl⟩ le_rfl
          | none =>
            have hremove := hintact (by rw [hroute]; rfl) hget hsubmissions hdelete
            simp only [hremove, Bool.false_eq_true, if_false]
            exact ⟨h.delete inject _, fun err herr => nomatch herr⟩

/-! ### An inject that is edited -/

/-- The files of the inject that the form does not keep. -/
def replaced (s : InjectStore) (form : InjectForm) (inject : InjectRow) : List GoString :=
  oldFiles form.keepFiles ((s.dirs inject.id).getD ∅).readDir

/-- The first thing to be done to the table or a directory fails. -/
def StopsFirst (s : InjectStore) (faults : InjectFaults) (form : InjectForm) (inject : InjectRow) :
    Prop :=
  match replaced s form inject, form.files with
  | name :: _, _ => faults.disk (.remove name) = true
  | [], file :: _ => Openable faults 0 file.1 → s.dirs inject.id = none
  | [], [] => faults.query .updateInject ≠ none ∨ TitleTaken s.toInjectTables inject

/-- Everything is done, and the files it brings have names of their own, none of a file that
is kept. -/
structure GoesThrough (s : InjectStore) (faults : InjectFaults) (form : InjectForm)
    (inject : InjectRow) : Prop where
  removed : ∀ name ∈ replaced s form inject, faults.disk (.remove name) = false
  stored : Stored faults 0 form.files
  dir : form.files ≠ [] → s.dirs inject.id ≠ none
  nodup : (form.files.map Prod.fst).Nodup
  fresh : ∀ name ∈ form.files.map Prod.fst, name ∈ (s.dirs inject.id).getD ∅ →
    name ∉ form.keepFiles
  saved : faults.query .updateInject = none
  title : ¬TitleTaken s.toInjectTables inject

/-- An update that is accepted stops before it touches anything or goes all the way. One that
finds no inject brings a file, which there is no directory for, or is refused by the table. -/
def UpdateIntact (s : InjectStore) (faults : InjectFaults) (id : GoString)
    (form : Option InjectForm) : Prop :=
  ∀ f, form = some f → id ≠ [] → faults.query .getInjects = none →
    faults.disk .readDir = false →
    match injectOfRoute s id with
    | none => TimesFit f InjectRow.zero → f.files ≠ [] ∨ faults.query .updateInject ≠ none ∨
        ∃ row ∈ s.injects, row.title = f.title
    | some inject => TimesFit f inject →
        StopsFirst s faults f (f.apply inject) ∨ GoesThrough s faults f (f.apply inject)

/-- A row saved with the directory that it lists. -/
theorem Attached.save (h : Attached s) {inject old : InjectRow} (hold : old ∈ s.injects)
    (hid : inject.id = old.id) {dir : Option InjectDir}
    (hlists : Lists inject.injectFileNames (dir.getD ∅)) :
    Attached (InjectStore.setDir
      {s with injects := Keyed.save (fun row => row.id) s.injects inject} inject.id dir) where
  numbered := h.numbered.save hold hid
  listed := by
    intro row hrow
    show Lists row.injectFileNames ((Function.update s.dirs inject.id dir row.id).getD ∅)
    rcases mem_save hrow with rfl | ⟨hmem, hne⟩
    · rw [Function.update_self]
      exact hlists
    · rw [Function.update_of_ne hne]
      exact h.listed row hmem
  unused := by
    intro id hunused
    have hpos := h.numbered.pos old hold
    have hlt := h.numbered.below old hold
    have hunused' : id = 0 ∨ s.nextID ≤ id := hunused
    show Function.update s.dirs inject.id dir id = none
    rw [Function.update_of_ne (by omega)]
    exact h.unused id hunused'

section Tail
variable {form : InjectForm} {inject : InjectRow}

theorem storeUpdate_of_read (hread : faults.disk .readDir = false) :
    storeUpdate faults s form inject =
      match removeOldFiles faults [] (replaced s form inject) (s.dirs inject.id)
          inject.injectFileNames with
      | (dir, .error err) => (s.setDir inject.id dir, .error err)
      | (dir, .ok names) =>
        match uploadFiles faults dir 0 form.files with
        | (dir, .error err) => (s.setDir inject.id dir, .error err)
        | (dir, .ok ()) =>
          match DB.updateInject faults.query s.toInjectTables
              {inject with injectFileNames := names ++ form.files.map Prod.fst} with
          | (tables, .error err) =>
            ({s.setDir inject.id dir with toInjectTables := tables}, .error ⟨500, err.error⟩)
          | (tables, .ok _) => ({s.setDir inject.id dir with toInjectTables := tables}, .ok ()) := by
  unfold storeUpdate
  rw [hread, if_neg Bool.false_ne_true]
  dsimp only
  rw [removeOldFiles_oldFiles]
  rfl

/-- An upload that does not become a file, with nothing removed before. -/
theorem storeUpdate_not_openable (hread : faults.disk .readDir = false)
    (hold : replaced s form inject = []) {file : GoString × List UInt8}
    {rest : List (GoString × List UInt8)} (hfiles : form.files = file :: rest)
    (hopen : Openable faults 0 file.1 → s.dirs inject.id = none) :
    ∃ err, storeUpdate faults s form inject = (s, .error err) := by
  obtain ⟨err, herr⟩ : ∃ err, uploadFiles faults (s.dirs inject.id) 0 (file :: rest) =
      (s.dirs inject.id, .error err) := uploadFiles_not_openable hopen
  rw [storeUpdate_of_read hread, hold, hfiles]
  simp only [removeOldFiles, herr, setDir_self]
  exact ⟨err, rfl⟩

/-- With nothing to remove and nothing to store, what the table refuses is refused. -/
theorem storeUpdate_refused (hread : faults.disk .readDir = false)
    (hold : replaced s form inject = []) (hfiles : form.files = []) {tables : InjectTables}
    {err : SaveError} (hrow : DB.updateInject faults.query s.toInjectTables
      {inject with injectFileNames := inject.injectFileNames ++ []} = (tables, .error err)) :
    storeUpdate faults s form inject =
      ({s with toInjectTables := tables}, .error ⟨500, err.error⟩) := by
  rw [storeUpdate_of_read hread, hold, hfiles]
  simp only [removeOldFiles, uploadFiles, List.map_nil, hrow, setDir_self]

theorem storeUpdate_stopsFirst (hid : inject.id ≠ 0) (hread : faults.disk .readDir = false)
    (hstop : StopsFirst s faults form inject) :
    ∃ err, storeUpdate faults s form inject = (s, .error err) := by
  unfold StopsFirst at hstop
  cases hold : replaced s form inject with
  | cons name rest =>
    rw [hold] at hstop
    have hfail : faults.disk (.remove name) = true := hstop
    rw [storeUpdate_of_read hread, hold]
    simp only [removeOldFiles, List.contains_nil, Bool.false_eq_true, hfail, if_false, if_true,
      setDir_self]
    exact ⟨_, rfl⟩
  | nil =>
    rw [hold] at hstop
    cases hfiles : form.files with
    | cons file rest =>
      rw [hfiles] at hstop
      exact storeUpdate_not_openable hread hold hfiles hstop
    | nil =>
      rw [hfiles] at hstop
      have hrefused : faults.query .updateInject ≠ none ∨ TitleTaken s.toInjectTables
        {inject with injectFileNames := inject.injectFileNames ++ []} := hstop
      obtain ⟨err, herr⟩ : ∃ err, DB.updateInject faults.query s.toInjectTables
          {inject with injectFileNames := inject.injectFileNames ++ []} =
            (s.toInjectTables, .error err) := updateInject_refused hid hrefused
      exact ⟨_, storeUpdate_refused hread hold hfiles herr⟩

/-- The zero row has no directory, and is a row to insert. -/
theorem storeUpdate_unmatched (h : Attached s) (hid : inject.id = 0)
    (hread : faults.disk .readDir = false)
    (hrefused : form.files ≠ [] ∨ faults.query .updateInject ≠ none ∨
      ∃ row ∈ s.injects, row.title = inject.title) :
    Unchanged s (storeUpdate faults s form inject).1 ∧
      s.nextID ≤ (storeUpdate faults s form inject).1.nextID := by
  have hdir : s.dirs inject.id = none := h.unused _ (.inl hid)
  have hold : replaced s form inject = [] := by
    rw [replaced, hdir]
    rfl
  cases hfiles : form.files with
  | cons file rest =>
    obtain ⟨err, herr⟩ := storeUpdate_not_openable hread hold hfiles (fun _ => hdir)
    rw [herr]
    exact ⟨⟨rfl, rfl⟩, le_rfl⟩
  | nil =>
    obtain ⟨tables, err, hrow, hsame, hnext⟩ := @insertInject_refused s.toInjectTables
      {inject with injectFileNames := inject.injectFileNames ++ []} h.numbered
      (faults.query .updateInject) (hrefused.resolve_left (fun hne => hne hfiles))
    have hupdate : DB.updateInject faults.query s.toInjectTables
        {inject with injectFileNames := inject.injectFileNames ++ []} = (tables, .error err) := by
      rw [DB.updateInject, if_pos hid]
      exact hrow
    rw [storeUpdate_refused hread hold hfiles hupdate]
    exact ⟨⟨hsame, rfl⟩, hnext⟩

theorem storeUpdate_goesThrough (h : Attached s) {old : InjectRow} (hold : old ∈ s.injects)
    (hid : inject.id = old.id) (hnames : inject.injectFileNames = old.injectFileNames)
    (hread : faults.disk .readDir = false) (hgo : GoesThrough s faults form inject) :
    Tidy s (storeUpdate faults s form inject) := by
  have hlists : Lists inject.injectFileNames ((s.dirs inject.id).getD ∅) := by
    rw [hid, hnames]
    exact h.listed old hold
  obtain ⟨kept, left, hremove, hleft, hsome, hkept⟩ := removeOldFiles_removed hlists hgo.removed
  obtain ⟨written, hwritten, hall⟩ :=
    uploadFiles_stored hgo.stored (fun hne => hsome (hgo.dir hne))
  have hnew : ∀ name ∈ form.files.map Prod.fst, name ∉ kept.getD ∅ := by
    intro name hname hin
    obtain ⟨hthere, hnot⟩ := hkept name hin
    apply hnot
    exact List.mem_filter.mpr
      ⟨mem_readDir.mpr hthere, by simpa using hgo.fresh name hname hthere⟩
  have hsaved := hleft.writeAll hgo.nodup hnew
  rw [← hall] at hsaved
  have hpos : inject.id ≠ 0 := by
    rw [hid]
    exact (h.numbered.pos old hold).ne'
  have hrow : DB.updateInject faults.query s.toInjectTables
      {inject with injectFileNames := left ++ form.files.map Prod.fst} = _ :=
    updateInject_saved hpos hgo.saved hgo.title
  rw [storeUpdate_of_read hread, hremove]
  dsimp only
  rw [hwritten]
  dsimp only
  rw [hrow]
  exact ⟨@Attached.save s h {inject with injectFileNames := left ++ form.files.map Prod.fst} old hold
    hid written hsaved, fun err herr => nomatch herr⟩

end Tail

/-- An update is refused with nothing touched, or stores the edited inject. -/
theorem updateInject_cases (faults : InjectFaults) (s : InjectStore) (id : GoString)
    (form : Option InjectForm) :
    (∃ err, updateInject faults s id form = (s, .error err)) ∨
      ∃ f, form = some f ∧ id ≠ [] ∧ faults.query .getInjects = none ∧
        faults.disk .readDir = false ∧
        TimesFit f ((injectOfRoute s id).getD InjectRow.zero) ∧
        updateInject faults s id form =
          storeUpdate faults s f (f.apply ((injectOfRoute s id).getD InjectRow.zero)) := by
  unfold updateInject
  cases form with
  | none => exact .inl ⟨_, rfl⟩
  | some f =>
    dsimp only
    split
    · exact .inl ⟨_, rfl⟩
    · rename_i hid
      cases hget : faults.query .getInjects with
      | some err => exact .inl ⟨_, rfl⟩
      | none =>
        by_cases hfit : TimesFit f ((injectOfRoute s id).getD InjectRow.zero)
        · rw [editInject_of_fit hfit]
          dsimp only
          cases hread : faults.disk .readDir with
          | true =>
            left
            rw [storeUpdate, hread, if_pos rfl]
            exact ⟨_, rfl⟩
          | false => exact .inr ⟨f, rfl, hid, rfl, rfl, hfit, rfl⟩
        · left
          obtain ⟨err, herr⟩ := editInject_of_not_fit hfit
          rw [herr]
          exact ⟨_, rfl⟩

/-- Nothing becomes of an update that finds no inject. -/
theorem updateInject_unmatched (h : Attached s) {id : GoString} {form : Option InjectForm}
    (hintact : UpdateIntact s faults id form) (hroute : injectOfRoute s id = none) :
    Unchanged s (updateInject faults s id form).1 ∧
      s.nextID ≤ (updateInject faults s id form).1.nextID := by
  rcases updateInject_cases faults s id form with ⟨err, herr⟩ |
    ⟨f, hform, hid, hget, hread, hfit, hstore⟩
  · rw [herr]
    exact ⟨⟨rfl, rfl⟩, le_rfl⟩
  · have hcase := hintact f hform hid hget hread
    rw [hroute] at hcase hfit hstore
    have htitle : (f.apply InjectRow.zero).title = f.title := by
      by_cases hempty : f.title = [] <;> simp [InjectForm.apply, InjectRow.zero, hempty]
    rw [← htitle] at hcase
    rw [hstore]
    exact storeUpdate_unmatched h rfl hread (hcase hfit)

theorem updateInject_tidy (h : Attached s) {id : GoString} {form : Option InjectForm}
    (hintact : UpdateIntact s faults id form) : Tidy s (updateInject faults s id form) := by
  cases hroute : injectOfRoute s id with
  | none =>
    obtain ⟨hsame, hnext⟩ := updateInject_unmatched h hintact hroute
    exact .of_unchanged h hsame hnext
  | some inject =>
    have hmem : inject ∈ s.injects := List.mem_of_find?_eq_some hroute
    rcases updateInject_cases faults s id form with ⟨err, herr⟩ |
      ⟨f, hform, hid, hget, hread, hfit, hstore⟩
    · rw [herr]
      exact .self h _
    · have hcase := hintact f hform hid hget hread
      rw [hroute] at hcase hfit hstore
      rw [hstore]
      rcases hcase hfit with hstop | hgo
      · have hpos : (f.apply inject).id ≠ 0 := (h.numbered.pos inject hmem).ne'
        obtain ⟨err, herr⟩ := storeUpdate_stopsFirst hpos hread hstop
        rw [Option.getD_some, herr]
        exact .self h _
      · exact storeUpdate_goesThrough h hmem rfl rfl hread hgo

/-! ### Runs -/

/-- A request that fails before it touches the table and the directories, or goes all the way. -/
def Intact (s : InjectStore) : InjectRequest → Prop
  | .create faults form => CreateIntact s faults form
  | .update faults id form => UpdateIntact s faults id form
  | .delete faults id => DeleteIntact s faults id
  | .submit _ => True

theorem handle_tidy (h : Attached s) {request : InjectRequest} (hintact : Intact s request) :
    Tidy s (handle s request) := by
  cases request with
  | create faults form => exact createInject_tidy h hintact
  | update faults id form => exact updateInject_tidy h hintact
  | delete faults id => exact deleteInject_tidy h hintact
  | submit upload => exact .of_unchanged h ⟨rfl, rfl⟩ le_rfl

/-- An error is answered, or no inject has the id of an update. -/
def Rejected (s : InjectStore) (request : InjectRequest) : Prop :=
  (∃ err, (handle s request).2 = .error err) ∨
    ∃ faults id form, request = .update faults id form ∧ injectOfRoute s id = none

/-- In a run of intact requests the names in each row are the files in its directory, each
once, and what is refused changes nothing. -/
theorem attachments_consistent (h : Reachable (injectRequests Attached) Intact s) :
    (∀ row ∈ s.injects, Lists row.injectFileNames ((s.dirs row.id).getD ∅)) ∧
      ∀ request, Intact s request → Rejected s request → Unchanged s (handle s request).1 := by
  have hattached : Attached s := by
    refine h.invariant (fun _ hinit => hinit) ?_
    intro s request s' hs hintact hstep
    obtain rfl := Option.some.inj hstep
    exact (handle_tidy hs hintact).1
  refine ⟨hattached.listed, ?_⟩
  intro request hintact hrefused
  rcases hrefused with ⟨err, herr⟩ | ⟨faults, id, form, rfl, hroute⟩
  · exact (handle_tidy hattached hintact).2 err herr
  · exact (updateInject_unmatched hattached hintact hroute).1

/-- No injects. -/
def noInjects : InjectStore := ⟨⟨[], 1, []⟩, fun _ => none, ∅⟩

theorem attached_noInjects : Attached noInjects where
  numbered := ⟨List.nodup_nil, by simp [noInjects], by simp [noInjects], Nat.one_pos⟩
  listed := by simp [noInjects]
  unused _ _ := rfl

/-- An inject that is open from 0 to 2, with some files. -/
def injectForm (files : List (GoString × List UInt8)) : Option InjectForm :=
  some ⟨str "memo", str "Write a memo.", .at 0, .at 1, .at 2, [], files⟩

/-- Two files, then a second inject with the same title. -/
theorem attachments_consistent_two :
    let s := (handle noInjects (.create {} (injectForm [(str "a", [1]), (str "b", [2])]))).1
    (∀ row ∈ s.injects, Lists row.injectFileNames ((s.dirs row.id).getD ∅)) ∧
      Unchanged s (handle s (.create {} (injectForm []))).1 := by
  have hintact : CreateIntact noInjects {} (injectForm [(str "a", [1]), (str "b", [2])]) := by
    intro f hf _ _ _ _
    obtain rfl := Option.some.inj hf
    exact ⟨rfl, ⟨⟨rfl, rfl, by decide +kernel⟩, rfl, ⟨rfl, rfl, by decide +kernel⟩, rfl, trivial⟩,
      by decide +kernel⟩
  have hreach := Reachable.step (S := injectRequests Attached) (G := Intact)
    (a := .create {} (injectForm [(str "a", [1]), (str "b", [2])])) (.initial attached_noInjects)
    hintact rfl
  obtain ⟨hlisted, hrefused⟩ := attachments_consistent hreach
  refine ⟨hlisted, hrefused _ ?_ ?_⟩
  · intro f hf _ _ _ hfree
    obtain rfl := Option.some.inj hf
    exact absurd rfl (hfree _ (List.mem_singleton_self _))
  · exact .inl ⟨⟨400, str "Inject with the same title already exists"⟩, by decide +kernel⟩

/-- A form with one name twice is listed twice, and an update that finds no inject makes one. -/
theorem attachments_broken :
    (∃ s, Reachable (injectRequests Attached) (fun _ _ => True) s ∧
      ∃ row ∈ s.injects, ¬Lists row.injectFileNames ((s.dirs row.id).getD ∅)) ∧
    ∃ s request, Reachable (injectRequests Attached) (fun _ _ => True) s ∧ Rejected s request ∧
      ¬Unchanged s (handle s request).1 := by
  refine ⟨?_, ?_⟩
  · refine ⟨_, Reachable.step (a := .create {} (injectForm [(str "a", [1]), (str "a", [2])]))
      (.initial attached_noInjects) trivial rfl, ?_⟩
    refine ⟨_, List.mem_singleton_self _, ?_⟩
    intro hlists
    exact absurd hlists.nodup (by decide +kernel)
  · refine ⟨noInjects, .update {} (str "7") (some ⟨[], [], .missing, .missing, .missing, [], []⟩),
      .initial attached_noInjects, .inr ⟨_, _, _, rfl, rfl⟩, ?_⟩
    intro hsame
    exact absurd hsame.1 (by decide +kernel)

end QuotientScoring.WWW
