import Mathlib.Logic.Function.Basic
import QuotientScoring.Lib.Transition
import QuotientScoring.WWW.Submissions

/-! Uploads that run at the same time.

An upload reads the highest version there is, stores a row with the next one, and
writes its file into the directory of that version. Nothing keeps two uploads of one
team to one inject from reading the same version, and then both write into one
directory. `nothing_lost`: in a run in which each upload still finds the version it
read to be the highest when it stores its row, and uploads files a directory can
hold, the versions of a team and an inject are 1 to n and every file is got back as
it was sent. -/
namespace QuotientScoring.WWW
open DB GoText GoPath Decimal Transition

/-- How far an upload is: checked, its version read, its row stored, its file written. -/
inductive Phase where
  | arrived
  | numbered
  | stored
  | finished
deriving DecidableEq

structure Request where
  submission : SubmissionSchema
  contents : List UInt8
  phase : Phase
deriving DecidableEq

variable {ι : Type} [DecidableEq ι]

/-- The table, the files and the uploads under way. -/
structure Uploads (ι : Type) where
  rows : List SubmissionSchema
  files : Files
  requests : ι → Request

inductive UploadStep (ι : Type) where
  | read (i : ι)
  | insert (i : ι)
  | write (i : ι)

def Uploads.set (s : Uploads ι) (i : ι) (request : Request) : Uploads ι :=
  {s with requests := Function.update s.requests i request}

@[simp] theorem Uploads.set_rows (s : Uploads ι) (i : ι) (request : Request) :
    (s.set i request).rows = s.rows := rfl

@[simp] theorem Uploads.set_files (s : Uploads ι) (i : ι) (request : Request) :
    (s.set i request).files = s.files := rfl

@[simp] theorem Uploads.set_self (s : Uploads ι) (i : ι) (request : Request) :
    (s.set i request).requests i = request := Function.update_self ..

theorem Uploads.set_of_ne (s : Uploads ι) {i j : ι} (request : Request) (h : j ≠ i) :
    (s.set i request).requests j = s.requests j := Function.update_of_ne h ..

/-- What holds of the upload that moves and of the others holds of all. -/
theorem Uploads.forall_set {s : Uploads ι} {i : ι} {request : Request} {P : Request → Prop}
    (hself : P request) (hother : ∀ j, j ≠ i → P (s.requests j)) (j : ι) :
    P ((s.set i request).requests j) := by
  by_cases hj : j = i
  · subst hj
    rw [Uploads.set_self]
    exact hself
  · rw [Uploads.set_of_ne s request hj]
    exact hother j hj

def uploadStep (cwd : List Elem) (s : Uploads ι) : UploadStep ι → Option (Uploads ι)
  | .read i =>
    let request := s.requests i
    if request.phase = .arrived then
      some (s.set i ⟨request.submission.beforeCreate s.rows, request.contents, .numbered⟩)
    else none
  | .insert i =>
    let request := s.requests i
    if request.phase = .numbered then
      some ({s with rows := s.rows ++ [request.submission]}.set i {request with phase := .stored})
    else none
  | .write i =>
    let request := s.requests i
    if request.phase = .stored then
      -- a file that cannot be created is missing, and the row stays
      let files := (saveFile s.files cwd request.submission request.contents).getD s.files
      some ({s with files := files}.set i {request with phase := .finished})
    else none

/-- An upload that the handler has let through to the database. -/
def Accepted (request : Request) : Prop :=
  request.phase = .arrived ∧ ∃ (site : InjectSite) (session : Session) (id : GoString) (form : Form),
    newSubmission site session id form = .ok (request.submission, request.contents)

def uploads (cwd : List Elem) : System (Uploads ι) (UploadStep ι) where
  initial s := s.rows = [] ∧ ∀ i, Accepted (s.requests i)
  step := uploadStep cwd

/-- When an upload stores its row, the version it read is still above all others of the team
and the inject, and numbers that the route of a download can name. When it writes, its
file has a name that a directory can hold. -/
def Undisturbed (s : Uploads ι) : UploadStep ι → Prop
  | .read _ => True
  | .insert i =>
    let submission := (s.requests i).submission
    (∀ version ∈ versions s.rows submission.key, version < submission.version) ∧
      submission.teamID < 2 ^ 32 ∧ submission.version < 2 ^ 32
  | .write i => Creatable (s.requests i).submission.submissionFileName

instance (s : Uploads ι) : (a : UploadStep ι) → Decidable (Undisturbed s a)
  | .read _ => inferInstanceAs (Decidable True)
  | .insert _ => inferInstanceAs (Decidable (_ ∧ _))
  | .write _ => inferInstanceAs (Decidable (Creatable _))

/-- The versions of a team and an inject are 1 to n, every row is of one upload, and a session
that may read them gets the file of each finished upload as it was sent. -/
structure NothingLost (cwd : List Elem) (s : Uploads ι) : Prop where
  versions : ∀ key, (versions s.rows key).Perm (List.range' 1 (versions s.rows key).length)
  created : ∀ row ∈ s.rows, ∃ i, (s.requests i).submission = row ∧
    ((s.requests i).phase = .stored ∨ (s.requests i).phase = .finished)
  contents : ∀ i, (s.requests i).phase = .finished → ∀ (site : InjectSite) (session : Session),
    site.cwd = cwd → site.submissions.Perm s.rows → (∀ query, site.fails query = none) →
    MayRead site session (s.requests i).submission.teamID →
    downloadSubmissionFile site s.files session (decimal (s.requests i).submission.injectID)
      (decimal (s.requests i).submission.teamID) (decimal (s.requests i).submission.version) =
      .ok ⟨str "attachment; filename=" ++ (s.requests i).submission.submissionFileName,
        (s.requests i).contents⟩

/-- An upload that no other comes between leaves what the handler leaves. -/
theorem uploadStep_alone {site : InjectSite} {session : Session} {id : GoString} {form : Form}
    {files : Files} {submission : SubmissionSchema} {contents : List UInt8}
    (hnew : newSubmission site session id form = .ok (submission, contents))
    (hstored : site.fails .createSubmission = none) (hkeys : ForeignKeys site submission)
    (requests : ι → Request) {i : ι} (hi : requests i = ⟨submission, contents, .arrived⟩) :
    ∃ s', ((uploadStep site.cwd ⟨site.submissions, files, requests⟩ (.read i)).bind
      (fun s => uploadStep site.cwd s (.insert i))).bind
      (fun s => uploadStep site.cwd s (.write i)) = some s' ∧
      s'.rows = (createSubmission site files session id form).1 ∧
      s'.files = (createSubmission site files session id form).2.1 := by
  refine ⟨_, by simp [uploadStep, hi]; rfl, ?_⟩
  simp only [createSubmission, hnew, hstored, hkeys]
  cases saveFile files site.cwd (submission.beforeCreate site.submissions) contents <;>
    simp

/-! ### Numbering -/

@[simp] theorem key_beforeCreate (submission : SubmissionSchema) (rows : List SubmissionSchema) :
    (submission.beforeCreate rows).key = submission.key := rfl

theorem max?_range'_one (n : Nat) : (List.range' 1 n).max? = if n = 0 then none else some n := by
  cases n with
  | zero => rfl
  | succ n =>
    rw [if_neg (Nat.succ_ne_zero n), List.max?_eq_some_iff]
    constructor
    · rw [List.mem_range'_1]
      omega
    · intro b hb
      rw [List.mem_range'_1] at hb
      omega

/-- After the versions 1 to n the next one is n + 1. -/
theorem version_beforeCreate {submission : SubmissionSchema} {rows : List SubmissionSchema} {n : Nat}
    (h : versions rows submission.key = List.range' 1 n) :
    (submission.beforeCreate rows).version = n + 1 := by
  rw [SubmissionSchema.beforeCreate, h, max?_range'_one]
  cases n <;> rfl

theorem versions_append (rows : List SubmissionSchema) (row : SubmissionSchema) (key : Nat × Nat) :
    versions (rows ++ [row]) key =
      versions rows key ++ if row.key = key then [row.version] else [] := by
  rw [versions, List.filter_append, List.map_append]
  by_cases h : row.key = key
  · simp [versions, h]
  · simp [versions, h]

/-! ### What undisturbed steps keep -/

def Phase.hasRow (phase : Phase) : Prop := phase = .stored ∨ phase = .finished

/-- What the tables and the files hold of an upload, as far as it is. -/
structure Fits (cwd : List Elem) (rows : List SubmissionSchema) (files : Files)
    (request : Request) : Prop where
  inject : request.submission.injectID < 2 ^ 32
  numbered : request.phase = .numbered → 1 ≤ request.submission.version ∧
    request.submission.version ≤ (versions rows request.submission.key).length + 1
  row : request.phase.hasRow → request.submission ∈ rows
  written : request.phase = .finished → Creatable request.submission.submissionFileName ∧
    files.lookup (submissionDir cwd request.submission, request.submission.submissionFileName) =
      some request.contents

/-- No two uploads share a directory. -/
def Apart (cwd : List Elem) (requests : ι → Request) : Prop :=
  ∀ i j, i ≠ j → (requests i).phase.hasRow → (requests j).phase.hasRow →
    submissionDir cwd (requests i).submission ≠ submissionDir cwd (requests j).submission

structure Kept (cwd : List Elem) (s : Uploads ι) : Prop where
  versions : ∀ key, versions s.rows key = List.range' 1 (versions s.rows key).length
  routable : ∀ row ∈ s.rows, Routable row
  fits : ∀ i, Fits cwd s.rows s.files (s.requests i)
  created : ∀ row ∈ s.rows, ∃ i, (s.requests i).submission = row ∧ (s.requests i).phase.hasRow
  apart : Apart cwd s.requests

variable {cwd : List Elem} {s : Uploads ι}

/-- Only the upload that moves has to be kept apart. -/
theorem Apart.set (h : Apart cwd s.requests) {i : ι} {request : Request}
    (hnew : request.phase.hasRow → ∀ j, j ≠ i → (s.requests j).phase.hasRow →
      submissionDir cwd (s.requests j).submission ≠ submissionDir cwd request.submission) :
    Apart cwd (s.set i request).requests := by
  intro j k hjk
  by_cases hj : j = i
  · subst hj
    rw [Uploads.set_self, Uploads.set_of_ne _ _ (Ne.symm hjk)]
    intro hrow hk
    exact (hnew hrow k (Ne.symm hjk) hk).symm
  · rw [Uploads.set_of_ne _ _ hj]
    by_cases hk : k = i
    · subst hk
      rw [Uploads.set_self]
      intro hrow hk
      exact hnew hk j hj hrow
    · rw [Uploads.set_of_ne _ _ hk]
      exact h j k hjk

/-- An upload does not mind one more row. -/
theorem Fits.append {rows : List SubmissionSchema} {files : Files} {request : Request}
    (h : Fits cwd rows files request) (row : SubmissionSchema) :
    Fits cwd (rows ++ [row]) files request where
  inject := h.inject
  numbered hphase := by
    obtain ⟨hpos, hle⟩ := h.numbered hphase
    have hlen : (DB.versions rows request.submission.key).length ≤
        (DB.versions (rows ++ [row]) request.submission.key).length := by
      rw [versions_append, List.length_append]
      exact Nat.le_add_right ..
    exact ⟨hpos, hle.trans (Nat.add_le_add_right hlen 1)⟩
  row hrow := List.mem_append_left _ (h.row hrow)
  written := h.written

omit [DecidableEq ι] in
/-- No upload with a row has the directory of a row above all others of its team and inject. -/
theorem Kept.dir_ne (h : Kept cwd s) {submission : SubmissionSchema}
    (hnew : ∀ version ∈ DB.versions s.rows submission.key, version < submission.version) {j : ι}
    (hj : (s.requests j).phase.hasRow) :
    submissionDir cwd (s.requests j).submission ≠ submissionDir cwd submission := by
  intro hdir
  obtain ⟨hkey, hversion⟩ := submissionDir_inj.mp hdir
  have hmem : (s.requests j).submission.version ∈ DB.versions s.rows submission.key :=
    List.mem_map_of_mem (List.mem_filter.mpr ⟨(h.fits j).row hj, by simpa using hkey⟩)
  have hlt := hnew _ hmem
  omega

omit [DecidableEq ι] in
/-- A row above all others of its team and inject has the next version. -/
theorem Kept.next_version (h : Kept cwd s) {i : ι} (hphase : (s.requests i).phase = .numbered)
    (hnew : ∀ version ∈ DB.versions s.rows (s.requests i).submission.key,
      version < (s.requests i).submission.version) :
    (s.requests i).submission.version =
      (DB.versions s.rows (s.requests i).submission.key).length + 1 := by
  obtain ⟨hpos, hle⟩ := (h.fits i).numbered hphase
  rw [h.versions] at hnew
  have hlast := hnew (DB.versions s.rows (s.requests i).submission.key).length
  rw [List.mem_range'_1] at hlast
  omega

omit [DecidableEq ι] in
/-- An upload without a row is not the one that created some row. -/
theorem Kept.creator_ne (h : Kept cwd s) {i : ι} (hphase : ¬(s.requests i).phase.hasRow)
    {row : SubmissionSchema} (hrow : row ∈ s.rows) :
    ∃ j, j ≠ i ∧ (s.requests j).submission = row ∧ (s.requests j).phase.hasRow := by
  obtain ⟨j, hsub, hj⟩ := h.created row hrow
  refine ⟨j, ?_, hsub, hj⟩
  rintro rfl
  exact hphase hj

/-- The version an upload reads is the next one. -/
theorem Kept.read (h : Kept cwd s) {i : ι} (hphase : (s.requests i).phase = .arrived) :
    Kept cwd (s.set i
      ⟨(s.requests i).submission.beforeCreate s.rows, (s.requests i).contents, .numbered⟩) where
  versions := h.versions
  routable := h.routable
  fits := by
    apply Uploads.forall_set
    · have hnext := version_beforeCreate (h.versions (s.requests i).submission.key)
      exact
        { inject := (h.fits i).inject
          numbered := fun _ => by simp [hnext]
          row := fun hrow => by simp [Phase.hasRow] at hrow
          written := fun hfinished => by cases hfinished }
    · intro j _
      exact h.fits j
  created row hrow := by
    obtain ⟨j, hne, hsub, hj⟩ := h.creator_ne (i := i) (by simp [Phase.hasRow, hphase]) hrow
    exact ⟨j, by rw [Uploads.set_of_ne s _ hne]; exact ⟨hsub, hj⟩⟩
  apart := h.apart.set (fun hrow => by simp [Phase.hasRow] at hrow)

/-- The row stored is the next one of its team and inject. -/
theorem Kept.insert (h : Kept cwd s) {i : ι} (hphase : (s.requests i).phase = .numbered)
    (hguard : Undisturbed s (.insert i)) :
    Kept cwd ({s with rows := s.rows ++ [(s.requests i).submission]}.set i
      {s.requests i with phase := .stored}) where
  versions key := by
    rw [Uploads.set_rows, versions_append]
    by_cases hkey : (s.requests i).submission.key = key
    · subst hkey
      rw [if_pos rfl, List.length_append, List.length_singleton, List.range'_1_concat,
        ← h.versions, h.next_version hphase hguard.1, Nat.add_comm 1]
    · rw [if_neg hkey, List.append_nil]
      exact h.versions key
  routable row hrow := by
    rcases List.mem_append.mp hrow with hrow | hrow
    · exact h.routable row hrow
    · rw [List.mem_singleton.mp hrow]
      exact ⟨(h.fits i).inject, hguard.2.1, ((h.fits i).numbered hphase).1, hguard.2.2⟩
  fits := by
    apply Uploads.forall_set
    · exact
        { inject := (h.fits i).inject
          numbered := fun hnumbered => by cases hnumbered
          row := fun _ => by simp
          written := fun hfinished => by cases hfinished }
    · intro j _
      exact (h.fits j).append _
  created row hrow := by
    rcases List.mem_append.mp hrow with hrow | hrow
    · obtain ⟨j, hne, hsub, hj⟩ := h.creator_ne (i := i) (by simp [Phase.hasRow, hphase]) hrow
      exact ⟨j, by rw [Uploads.set_of_ne _ _ hne]; exact ⟨hsub, hj⟩⟩
    · refine ⟨i, ?_⟩
      rw [Uploads.set_self, List.mem_singleton.mp hrow]
      exact ⟨rfl, .inl rfl⟩
  apart := Apart.set (s := {s with rows := s.rows ++ [(s.requests i).submission]}) h.apart
    (fun _ _ _ hj => h.dir_ne hguard.1 hj)

/-- A file is written where no other upload has one. -/
theorem Kept.write (h : Kept cwd s) {i : ι} (hphase : (s.requests i).phase = .stored)
    (hname : Creatable (s.requests i).submission.submissionFileName) :
    Kept cwd ({s with files := s.files.insert (submissionDir cwd (s.requests i).submission,
      (s.requests i).submission.submissionFileName) (s.requests i).contents}.set i
      {s.requests i with phase := .finished}) where
  versions := h.versions
  routable := h.routable
  fits := by
    apply Uploads.forall_set
    · exact
        { inject := (h.fits i).inject
          numbered := fun hnumbered => by cases hnumbered
          row := fun _ => (h.fits i).row (.inl hphase)
          written := fun _ => ⟨hname, AList.lookup_insert ..⟩ }
    · intro j hj
      refine
        { inject := (h.fits j).inject
          numbered := (h.fits j).numbered
          row := (h.fits j).row
          written := fun hfinished => ?_ }
      obtain ⟨hcreatable, hfile⟩ := (h.fits j).written hfinished
      have hdir := h.apart j i hj (.inr hfinished) (.inl hphase)
      exact ⟨hcreatable, by
        rw [← hfile]
        exact AList.lookup_insert_ne (fun heq => hdir (congrArg Prod.fst heq))⟩
  created row hrow := by
    obtain ⟨j, hsub, hj⟩ := h.created row hrow
    refine ⟨j, ?_⟩
    by_cases hji : j = i
    · subst hji
      rw [Uploads.set_self]
      exact ⟨hsub, .inr rfl⟩
    · rw [Uploads.set_of_ne _ _ hji]
      exact ⟨hsub, hj⟩
  apart := Apart.set h.apart (fun _ j hj hrow => h.apart j i hj hrow (.inl hphase))

/-! ### Runs -/

theorem kept_initial (hinit : (uploads cwd).initial s) : Kept cwd s := by
  obtain ⟨hrows, haccepted⟩ := hinit
  have hnone : ∀ i, ¬(s.requests i).phase.hasRow := by
    intro i
    simp [Phase.hasRow, (haccepted i).1]
  refine
    { versions := fun key => by simp [versions, hrows]
      routable := fun row hrow => by simp [hrows] at hrow
      fits := fun i => ?_
      created := fun row hrow => by simp [hrows] at hrow
      apart := fun i j _ hrow => absurd hrow (hnone i) }
  obtain ⟨hphase, site, session, id, form, hnew⟩ := haccepted i
  exact
    { inject := (newSubmission_eq_ok hnew).1
      numbered := fun hnumbered => by simp [hphase] at hnumbered
      row := fun hrow => absurd hrow (hnone i)
      written := fun hfinished => by simp [hphase] at hfinished }

theorem Kept.step (h : Kept cwd s) {a : UploadStep ι} {s' : Uploads ι} (hguard : Undisturbed s a)
    (hstep : uploadStep cwd s a = some s') : Kept cwd s' := by
  cases a with
  | read i =>
    simp only [uploadStep, Option.ite_none_right_eq_some, Option.some.injEq] at hstep
    obtain ⟨hphase, rfl⟩ := hstep
    exact h.read hphase
  | insert i =>
    simp only [uploadStep, Option.ite_none_right_eq_some, Option.some.injEq] at hstep
    obtain ⟨hphase, rfl⟩ := hstep
    exact h.insert hphase hguard
  | write i =>
    simp only [uploadStep, Option.ite_none_right_eq_some, Option.some.injEq] at hstep
    obtain ⟨hphase, rfl⟩ := hstep
    have hname : Creatable (s.requests i).submission.submissionFileName := hguard
    rw [saveFile_eq, if_pos hname, Option.getD_some]
    exact h.write hphase hguard

omit [DecidableEq ι] in
theorem Kept.nothingLost (h : Kept cwd s) : NothingLost cwd s where
  versions key := by
    rw [← h.versions key]
  created := h.created
  contents i hfinished site session hcwd hperm hfails hread := by
    obtain ⟨hname, hfile⟩ := (h.fits i).written hfinished
    have hmem := (h.fits i).row (.inr hfinished)
    refine downloadSubmissionFile_row hfails hread (h.routable _ hmem) (hperm.mem_iff.mpr hmem) ?_
      hname (by rw [hcwd]; exact hfile)
    intro other hother hkey hversion
    obtain ⟨j, rfl, hj⟩ := h.created other (hperm.mem_iff.mp hother)
    -- the same version means the same directory, and so the same upload
    by_contra hne
    have hji : j ≠ i := by
      rintro rfl
      exact hne rfl
    exact h.apart j i hji hj (.inr hfinished) (submissionDir_inj.mpr ⟨hkey, hversion⟩)

/-- In every run of any number of uploads whose steps are undisturbed, nothing is lost. -/
theorem nothing_lost (h : Reachable (uploads cwd) Undisturbed s) : NothingLost cwd s := by
  apply Kept.nothingLost
  exact h.invariant (fun _ => kept_initial) (fun _ _ _ hkept hguard hstep => hkept.step hguard hstep)

/-! ### Two uploads of one team -/

/-- A competition with one inject, still open. -/
def openInject : InjectSite where
  cwd := [str "app"]
  now := 5
  db := {teams := [⟨1, str "team01", str "01", true⟩]}
  injects := [⟨1, 0, 10⟩]
  submissions := []

/-- The same file name twice, with different contents. -/
def twoUploads : Uploads Bool where
  rows := []
  files := ∅
  requests second := ⟨⟨1, 1, 5, str "report.pdf", 0⟩, [if second then 2 else 1], .arrived⟩

theorem twoUploads_initial : (uploads [str "app"]).initial twoUploads := by
  refine ⟨rfl, fun second => ⟨rfl, openInject, ⟨str "team01", [.team]⟩, str "1",
    .upload (str "report.pdf") [if second then 2 else 1], ?_⟩⟩
  cases second <;> decide +kernel

/-- The second upload starts when the first has stored its row, and is written first. -/
theorem nothing_lost_two : ∃ s : Uploads Bool, Reachable (uploads [str "app"]) Undisturbed s ∧
    versions s.rows (1, 1) = [1, 2] ∧ NothingLost [str "app"] s := by
  obtain ⟨s, hreach, hversions⟩ := Reachable.exists_of_replay (G := Undisturbed)
    (fun s : Uploads Bool => versions s.rows (1, 1) = [1, 2]) twoUploads
    [.read false, .insert false, .read true, .insert true, .write true, .write false]
    twoUploads_initial (by decide +kernel)
  exact ⟨s, hreach, hversions, nothing_lost hreach⟩

/-- Both read before either stores: two rows have version 1, and one directory. -/
theorem submission_overwritten : ∃ s : Uploads Bool,
    Reachable (uploads [str "app"]) (fun _ _ => True) s ∧ ¬NothingLost [str "app"] s := by
  obtain ⟨s, hreach, hversions⟩ := Reachable.exists_of_replay (G := fun _ _ => True)
    (fun s : Uploads Bool => versions s.rows (1, 1) = [1, 1]) twoUploads
    [.read false, .read true, .insert false, .insert true, .write false, .write true]
    twoUploads_initial (by decide +kernel)
  refine ⟨s, hreach, fun hkept => ?_⟩
  have hperm := hkept.versions (1, 1)
  rw [hversions] at hperm
  revert hperm
  decide

end QuotientScoring.WWW
