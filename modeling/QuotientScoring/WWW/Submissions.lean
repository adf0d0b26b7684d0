import QuotientScoring.DB.Injects
import QuotientScoring.Lib.Decimal
import QuotientScoring.Lib.GoMap
import QuotientScoring.Lib.GoPath
import QuotientScoring.WWW.Api

/-! Uploading a submission to an inject, and getting one back.

A submission is a row with a version and a file in a directory of its own,
`submissions/<inject>/<team>/<version>`. `downloadSubmissionFile_row` says what it takes
to get the file of a row: that it is the only one with its version, and that its
numbers fit the route. -/
namespace QuotientScoring.WWW
open DB GoText GoTime GoPath Decimal

/-- The calls of the database. -/
inductive SubmissionQuery where
  | getTeamByUsername
  | getInjects
  | getSubmissionsForInject
  | createSubmission
deriving DecidableEq

/-- What the handlers find: the working directory, the clock, the tables and the calls that
fail. -/
structure InjectSite where
  cwd : List Elem
  now : Int
  db : Database
  injects : List InjectSchema
  submissions : List SubmissionSchema
  fails : SubmissionQuery → Option GoString := fun _ => none

/-- The contents of the files, by directory and name. -/
abbrev Files := GoMap (List Elem × GoString) (List UInt8)

/-- The body of an upload. -/
inductive Form where
  | invalid
  | empty
  | withoutFile
  | upload (fileName : GoString) (contents : List UInt8)

/-- A name a directory can hold a file under. -/
def Creatable (name : GoString) : Prop := Ordinary name ∧ 0 ∉ name ∧ name.length ≤ 255

instance (name : GoString) : Decidable (Creatable name) := inferInstanceAs (Decidable (_ ∧ _))

variable (site : InjectSite) (files : Files) (session : Session)

/-- `<inject>/<team>/<version>`. -/
def subDir (injectID teamID version : Nat) : GoString :=
  decimal injectID ++ slash :: decimal teamID ++ slash :: decimal version

/-- Everything before the row is created: the row, not numbered yet, and the file. -/
def newSubmission (id : GoString) (form : Form) :
    Except HttpError (SubmissionSchema × List UInt8) :=
  match parseUint 32 id with
  | none => .error ⟨400, str "Invalid inject id"⟩
  | some injectID =>
    if (site.fails .getTeamByUsername).isSome then .error ⟨500, str "Error retrieving team ID"⟩
    else
      let team := getTeamByUsername site.db session.username
      match form with
      | .invalid => .error ⟨400, str "Error parsing the form"⟩
      | .empty => .error ⟨400, str "No file uploaded"⟩
      | .withoutFile => .error ⟨400, str "Error retrieving the file"⟩
      | .upload fileName contents =>
        if (site.fails .getInjects).isSome then .error ⟨500, str "Error retrieving the injects"⟩
        else
          let inject := (site.injects.find? (fun i => i.id = injectID)).getD ⟨0, zeroTime, zeroTime⟩
          if inject.closeTime < site.now then .error ⟨400, str "Inject is closed"⟩
          else .ok (⟨team.id, injectID, site.now, fileName, 0⟩, contents)

/-- A row is refused for a team or an inject that there is not. -/
def ForeignKeys (submission : SubmissionSchema) : Prop :=
  (∃ team ∈ site.db.teams, team.id = submission.teamID) ∧
    ∃ inject ∈ site.injects, inject.id = submission.injectID

instance (submission : SubmissionSchema) : Decidable (ForeignKeys site submission) :=
  inferInstanceAs (Decidable (_ ∧ _))

/-- The last step: the file goes into the directory of the row. -/
def saveFile (cwd : List Elem) (submission : SubmissionSchema) (contents : List UInt8) :
    Option Files :=
  let uploadDir := join (str "submissions")
    (subDir submission.injectID submission.teamID submission.version)
  if Creatable submission.submissionFileName then
    some (files.insert (locate cwd uploadDir, submission.submissionFileName) contents)
  else none

/-- The table, the files and the answer after an upload that no other comes between. -/
def createSubmission (id : GoString) (form : Form) :
    List SubmissionSchema × Files × Except HttpError Unit :=
  match newSubmission site session id form with
  | .error err => (site.submissions, files, .error err)
  | .ok (submission, contents) =>
    if (site.fails .createSubmission).isSome ∨ ¬ForeignKeys site submission then
      (site.submissions, files, .error ⟨500, str "Error creating the submission"⟩)
    else
      let submission := submission.beforeCreate site.submissions
      match saveFile files site.cwd submission contents with
      | none => (site.submissions ++ [submission], files, .error ⟨500, str "Error creating the file"⟩)
      | some files => (site.submissions ++ [submission], files, .ok ())

/-- The name of the team of a row. -/
def teamName (db : Database) (submission : SubmissionSchema) : GoString :=
  ((db.teams.find? (fun team => team.id = submission.teamID)).map TeamSchema.name).getD []

/-- `GetInjects`: the injects, with the submissions that are shown. -/
def getInjects : Except HttpError (List (InjectSchema × List SubmissionSchema)) :=
  match site.fails .getInjects with
  | some err => .error ⟨500, err⟩
  | none =>
    let data := if .admin ∈ session.roles then site.injects
      else site.injects.filter (fun a => a.openTime < site.now)
    match data, site.fails .getSubmissionsForInject with
    | _ :: _, some err => .error ⟨500, err⟩
    | _, _ => .ok (data.map (fun inject =>
      let submissions := getSubmissionsForInject site.submissions inject.id
      (inject, if .admin ∈ session.roles then submissions
        else submissions.filter (fun submission =>
          teamName site.db submission = session.username))))

/-- An answer with the file of a submission. -/
structure SubmissionFile where
  disposition : GoString
  contents : List UInt8
deriving DecidableEq

/-- A name that no file can have is not found either. -/
def safeOpenFile (baseDir : GoString) (name : GoString) : Option (List UInt8) :=
  if Creatable name then files.lookup (locate site.cwd (clean baseDir), name) else none

def downloadSubmissionFile (id team version : GoString) : Except HttpError SubmissionFile :=
  match parseUint 32 id with
  | none => .error ⟨400, str "Invalid inject id"⟩
  | some injectID =>
    match parseUint 32 team with
    | none => .error ⟨400, str "Invalid team id"⟩
    | some teamID =>
      match parseUint 32 version with
      | none => .error ⟨400, str "Invalid version"⟩
      | some version =>
        if 2 ^ 63 ≤ version then .error ⟨400, str "Version out of range"⟩
        else if (site.fails .getTeamByUsername).isSome then
          .error ⟨500, str "Error retrieving team ID"⟩
        else if .admin ∉ session.roles ∧ .inject ∉ session.roles ∧
            (getTeamByUsername site.db session.username).id ≠ teamID then
          .error ⟨403, str "Forbidden"⟩
        else if (site.fails .getSubmissionsForInject).isSome then
          .error ⟨500, str "Error retrieving the submission"⟩
        else
          let submission := ((getSubmissionsForInject site.submissions injectID).find? (fun s =>
            s.injectID = injectID ∧ s.teamID = teamID ∧ s.version = version)).getD
              ⟨0, 0, zeroTime, [], 0⟩
          if submission.version = 0 then .error ⟨404, str "Submission not found"⟩
          else
            match safeOpenFile site files (str "submissions" ++ slash :: subDir injectID teamID version)
                submission.submissionFileName with
            | none => .error ⟨404, str "File not found"⟩
            | some contents =>
              .ok ⟨str "attachment; filename=" ++ submission.submissionFileName, contents⟩

variable {site files session}

/-- What it takes for an upload to get as far as the row. -/
theorem newSubmission_eq_ok_iff {id : GoString} {form : Form} {submission : SubmissionSchema}
    {contents : List UInt8} :
    newSubmission site session id form = .ok (submission, contents) ↔
      ∃ injectID fileName, parseUint 32 id = some injectID ∧
        site.fails .getTeamByUsername = none ∧ form = .upload fileName contents ∧
        site.fails .getInjects = none ∧
        site.now ≤ ((site.injects.find? (fun i => i.id = injectID)).getD
          ⟨0, zeroTime, zeroTime⟩).closeTime ∧
        submission =
          ⟨(getTeamByUsername site.db session.username).id, injectID, site.now, fileName, 0⟩ := by
  unfold newSubmission
  cases hparse : parseUint 32 id with
  | none => simp
  | some injectID =>
    cases hteam : site.fails .getTeamByUsername with
    | some err => simp
    | none =>
      cases form with
      | invalid | empty | withoutFile => simp
      | upload fileName sent =>
        cases hinjects : site.fails .getInjects with
        | some err => simp
        | none =>
          by_cases hclosed : ((site.injects.find? (fun i => i.id = injectID)).getD
              ⟨0, zeroTime, zeroTime⟩).closeTime < site.now
          · simp [hclosed]
          · have hopen := Int.not_lt.mp hclosed
            simp only [Option.isSome_none, Bool.false_eq_true, if_false, hclosed]
            constructor
            · intro h
              obtain ⟨rfl, rfl⟩ := Prod.mk.inj (Except.ok.inj h)
              exact ⟨injectID, fileName, rfl, trivial, rfl, trivial, hopen, rfl⟩
            · intro h
              obtain ⟨_, _, hid, -, hform, -, -, rfl⟩ := h
              cases hid
              cases hform
              rfl

/-- The row of an upload is for the team of the user name, and for an inject the route can name. -/
theorem newSubmission_eq_ok {id : GoString} {form : Form} {submission : SubmissionSchema}
    {contents : List UInt8} (h : newSubmission site session id form = .ok (submission, contents)) :
    submission.injectID < 2 ^ 32 ∧
      submission.teamID = (getTeamByUsername site.db session.username).id := by
  obtain ⟨injectID, fileName, hparse, -, -, -, -, rfl⟩ := newSubmission_eq_ok_iff.mp h
  exact ⟨parseUint_lt hparse, rfl⟩

/-- At most one row is added, if the upload gets so far and the table takes it. -/
theorem createSubmission_fst (id : GoString) (form : Form) :
    (createSubmission site files session id form).1 = site.submissions ++
      match newSubmission site session id form with
      | .error _ => []
      | .ok (submission, _) =>
        if (site.fails .createSubmission).isSome ∨ ¬ForeignKeys site submission then []
        else [submission.beforeCreate site.submissions] := by
  unfold createSubmission
  cases newSubmission site session id form with
  | error err => exact (List.append_nil _).symm
  | ok new =>
    obtain ⟨submission, contents⟩ := new
    dsimp only
    split
    · exact (List.append_nil _).symm
    · split <;> rfl

/-! ### The file of a row -/

/-- `submissions/<inject>/<team>/<version>`. -/
def submissionDir (cwd : List Elem) (submission : SubmissionSchema) : List Elem :=
  cwd ++ [str "submissions", decimal submission.injectID, decimal submission.teamID,
    decimal submission.version]

theorem submissionDir_inj {cwd : List Elem} {a b : SubmissionSchema} :
    submissionDir cwd a = submissionDir cwd b ↔ a.key = b.key ∧ a.version = b.version := by
  simp [submissionDir, decimal_inj, SubmissionSchema.key, and_assoc]

theorem locate_subDir (cwd : List Elem) (submission : SubmissionSchema) :
    locate cwd (clean (str "submissions" ++
      slash :: subDir submission.injectID submission.teamID submission.version)) =
      submissionDir cwd submission := by
  have hsplit : (str "submissions" ++
      slash :: subDir submission.injectID submission.teamID submission.version).splitOn slash =
      [str "submissions", decimal submission.injectID, decimal submission.teamID,
        decimal submission.version] := by
    rw [List.splitOn_append_cons_self, subDir, List.splitOn_append_cons_self,
      List.splitOn_append_cons_self, List.splitOn_eq_singleton (ordinary_decimal _).slash,
      List.splitOn_eq_singleton (ordinary_decimal _).slash,
      List.splitOn_eq_singleton (ordinary_decimal _).slash]
    have hdir : (str "submissions").splitOn slash = [str "submissions"] := by decide +kernel
    rw [hdir]
    rfl
  rw [locate_clean, hsplit, submissionDir]
  · rfl
  · intro elem helem
    rw [hsplit] at helem
    simp only [List.mem_cons, List.not_mem_nil, or_false] at helem
    rcases helem with rfl | rfl | rfl | rfl
    · decide +kernel
    all_goals exact ordinary_decimal _

theorem saveFile_eq (files : Files) (cwd : List Elem) (submission : SubmissionSchema)
    (contents : List UInt8) : saveFile files cwd submission contents =
      if Creatable submission.submissionFileName then
        some (files.insert (submissionDir cwd submission, submission.submissionFileName) contents)
      else none := by
  have hne : subDir submission.injectID submission.teamID submission.version ≠ [] := by
    simp [subDir]
  rw [saveFile, join, if_neg hne, locate_subDir]

/-- The session may get the submissions of the team. -/
def MayRead (site : InjectSite) (session : Session) (teamID : Nat) : Prop :=
  .admin ∈ session.roles ∨ .inject ∈ session.roles ∨
    (getTeamByUsername site.db session.username).id = teamID

/-- The numbers of a row that the route of a download can name. -/
structure Routable (submission : SubmissionSchema) : Prop where
  inject : submission.injectID < 2 ^ 32
  team : submission.teamID < 2 ^ 32
  pos : 0 < submission.version
  version : submission.version < 2 ^ 32

/-- Whoever is sent a file may read it. -/
theorem mayRead_of_download {id team version : GoString} {file : SubmissionFile}
    (h : downloadSubmissionFile site files session id team version = .ok file) :
    ∃ teamID, parseUint 32 team = some teamID ∧ MayRead site session teamID := by
  unfold downloadSubmissionFile at h
  split at h
  · cases h
  · split at h
    · cases h
    · rename_i teamID hteam
      refine ⟨teamID, hteam, ?_⟩
      split at h
      · cases h
      · split at h
        · cases h
        · split at h
          · cases h
          · split at h
            · cases h
            · rename_i hgate
              unfold MayRead
              by_contra hnot
              simp only [not_or] at hnot
              exact hgate hnot

/-- The file of a row is sent, if no other row has its team, inject and version. -/
theorem downloadSubmissionFile_row {submission : SubmissionSchema} {contents : List UInt8}
    (hfails : ∀ query, site.fails query = none) (hread : MayRead site session submission.teamID)
    (hroute : Routable submission) (hmem : submission ∈ site.submissions)
    (honly : ∀ other ∈ site.submissions, other.key = submission.key →
      other.version = submission.version → other = submission)
    (hname : Creatable submission.submissionFileName)
    (hfile : files.lookup (submissionDir site.cwd submission, submission.submissionFileName) =
      some contents) :
    downloadSubmissionFile site files session (decimal submission.injectID)
      (decimal submission.teamID) (decimal submission.version) =
      .ok ⟨str "attachment; filename=" ++ submission.submissionFileName, contents⟩ := by
  have hfind : (getSubmissionsForInject site.submissions submission.injectID).find? (fun s =>
      s.injectID = submission.injectID ∧ s.teamID = submission.teamID ∧
        s.version = submission.version) = some submission := by
    cases hfind : (getSubmissionsForInject site.submissions submission.injectID).find? (fun s =>
      s.injectID = submission.injectID ∧ s.teamID = submission.teamID ∧
        s.version = submission.version) with
    | none =>
      have hnone := List.find?_eq_none.mp hfind submission
        (List.mem_filter.mpr ⟨hmem, by simp⟩)
      simp at hnone
    | some other =>
      have hsame : other.injectID = submission.injectID ∧ other.teamID = submission.teamID ∧
          other.version = submission.version := by simpa using List.find?_some hfind
      have hother := (List.mem_filter.mp (List.mem_of_find?_eq_some hfind)).1
      rw [honly other hother (Prod.ext hsame.1 hsame.2.1) hsame.2.2]
  have hgate : ¬(.admin ∉ session.roles ∧ .inject ∉ session.roles ∧
      (getTeamByUsername site.db session.username).id ≠ submission.teamID) := by
    intro ⟨hadmin, hinject, hteam⟩
    obtain h | h | h := hread
    · exact hadmin h
    · exact hinject h
    · exact hteam h
  have hint : ¬2 ^ 63 ≤ submission.version := by
    have hlt := hroute.version
    omega
  have hver : submission.version ≠ 0 := by
    have hpos := hroute.pos
    omega
  have hopen : safeOpenFile site files (str "submissions" ++ slash :: subDir submission.injectID
      submission.teamID submission.version) submission.submissionFileName = some contents := by
    rw [safeOpenFile, if_pos hname, locate_subDir, hfile]
  simp only [downloadSubmissionFile, parseUint_decimal, hroute.inject, hroute.team, hroute.version,
    if_true, hint, if_false, hfails, Option.isSome_none, Bool.false_eq_true, hgate, hfind,
    Option.getD_some, hver, hopen]

end QuotientScoring.WWW
