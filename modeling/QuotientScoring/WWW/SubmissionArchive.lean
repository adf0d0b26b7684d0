import QuotientScoring.WWW.Submissions

/-! All the submissions to an inject, in one archive.

The archive has a directory for each team and version, with the file as it was uploaded, so
that files of one name do not meet. Nothing checks that: `archive_paths` says why the
names of the entries differ, and that each is a directory and a file in it. -/
namespace QuotientScoring.WWW
open DB GoText GoPath Decimal

/-- What the handler finds besides. -/
structure ArchiveSite extends InjectSite where
  getInjectByID : Option GoString := none
  /-- What gets into the archive under a path, of a file: nothing if the entry cannot be created,
  and a part of the file if it cannot be copied. -/
  written : GoString → List UInt8 → Option (List UInt8) := fun _ contents => some contents

structure Archive where
  disposition : GoString
  entries : List (GoString × List UInt8)
deriving DecidableEq

/-- `<team>_v<version>`. -/
def zipDir (db : Database) (submission : SubmissionSchema) : GoString :=
  teamName db submission ++ str "_v" ++ decimal submission.version

def zipPath (db : Database) (submission : SubmissionSchema) : GoString :=
  (join (zipDir db submission) submission.submissionFileName).text

example : zipPath {teams := [⟨1, str "Team1", str "01", true⟩]} ⟨1, 5, 1000, str "report.pdf", 2⟩ =
    str "Team1_v2/report.pdf" := by decide +kernel

variable (site : ArchiveSite) (files : Files)

/-- The entry of one submission, which is left out if its file is not found. -/
def zipEntry (injectID : Nat) (submission : SubmissionSchema) : Option (GoString × List UInt8) :=
  match safeOpenFile site.toInjectSite files
      (str "submissions" ++ slash :: subDir injectID submission.teamID submission.version)
      submission.submissionFileName with
  | none => none
  | some contents =>
    (site.written (zipPath site.db submission) contents).map (fun contents =>
      (zipPath site.db submission, contents))

def downloadAllSubmissions (id : GoString) : Except HttpError Archive :=
  match parseUint 32 id with
  | none => .error ⟨400, str "Invalid inject id"⟩
  | some injectID =>
    if site.getInjectByID.isSome ∨ ¬ site.injects.any (fun inject => inject.id = injectID) then
      .error ⟨404, str "Inject not found"⟩
    else if (site.fails .getSubmissionsForInject).isSome then
      .error ⟨500, str "Error retrieving submissions"⟩
    else
      let submissions := getSubmissionsForInject site.submissions injectID
      if submissions = [] then .error ⟨404, str "No submissions found"⟩
      else
        .ok ⟨str "attachment; filename=\"inject" ++ decimal injectID ++ str "_submissions.zip\"",
          submissions.filterMap (zipEntry site files injectID)⟩

variable {site files}

/-! ### One path -/

/-- A team's name, if it has no slash, makes an ordinary directory. -/
theorem ordinary_zipDir {db : Database} {submission : SubmissionSchema}
    (h : slash ∉ teamName db submission) : Ordinary (zipDir db submission) := by
  have hmem : 118 ∈ zipDir db submission := by
    have hv : (118 : UInt8) ∈ str "_v" := by decide +kernel
    exact List.mem_append_left _ (List.mem_append_right _ hv)
  refine ⟨?_, List.ne_nil_of_mem hmem, fun heq => ?_, fun heq => ?_⟩
  · intro hslash
    rcases List.mem_append.mp hslash with hslash | hslash
    · rcases List.mem_append.mp hslash with hslash | hslash
      · exact h hslash
      · exact absurd hslash (by decide +kernel)
    · exact (ordinary_decimal submission.version).slash hslash
  · rw [heq] at hmem
    exact absurd hmem (by decide +kernel)
  · rw [heq] at hmem
    exact absurd hmem (by decide +kernel)

/-- The path is the directory and the file in it. -/
theorem splitOn_zipPath {db : Database} {submission : SubmissionSchema}
    (hteam : slash ∉ teamName db submission) (hfile : Ordinary submission.submissionFileName) :
    (zipPath db submission).splitOn slash =
      [zipDir db submission, submission.submissionFileName] := by
  have hdir := ordinary_zipDir hteam
  rw [zipPath, text_join hdir hfile, splitOn_two hdir.slash hfile.slash]

/-- The version is what the directory ends with, and the team is what is left. -/
theorem zipDir_inj {db : Database} {s t : SubmissionSchema} :
    zipDir db s = zipDir db t ↔ teamName db s = teamName db t ∧ s.version = t.version := by
  have hv : str "_v" = [95] ++ [118] := by decide +kernel
  rw [zipDir, zipDir, hv, ← List.append_assoc, ← List.append_assoc,
    concat_decimal_inj (by decide), List.append_cancel_right_eq]

theorem zipEntry_eq_some {injectID : Nat} {submission : SubmissionSchema}
    {entry : GoString × List UInt8} (h : zipEntry site files injectID submission = some entry) :
    entry.1 = zipPath site.db submission := by
  unfold zipEntry at h
  split at h
  · cases h
  · obtain ⟨written, -, rfl⟩ := Option.map_eq_some_iff.mp h
    rfl

/-! ### The whole archive -/

/-- The submissions differ in team or version, the teams in their names, and a name is an element
of a path. -/
structure Archivable (db : Database) (submissions : List SubmissionSchema) : Prop where
  keys : (submissions.map (fun s => (s.teamID, s.version))).Nodup
  names : ∀ s ∈ submissions, ∀ t ∈ submissions, teamName db s = teamName db t →
    s.teamID = t.teamID
  teams : ∀ s ∈ submissions, slash ∉ teamName db s
  files : ∀ s ∈ submissions, Ordinary s.submissionFileName

theorem Archivable.nodup {db : Database} {submissions : List SubmissionSchema}
    (h : Archivable db submissions) : (submissions.map (zipPath db)).Nodup := by
  refine List.Nodup.map_on ?_ (List.Nodup.of_map _ h.keys)
  intro s hs t ht heq
  have hsplit := congrArg (List.splitOn slash) heq
  rw [splitOn_zipPath (h.teams s hs) (h.files s hs), splitOn_zipPath (h.teams t ht) (h.files t ht)]
    at hsplit
  have hdir : zipDir db s = zipDir db t := (List.cons.inj hsplit).1
  obtain ⟨hname, hversion⟩ := zipDir_inj.mp hdir
  exact List.inj_on_of_nodup_map h.keys hs ht (Prod.ext (h.names s hs t ht hname) hversion)

/-- The entries are those of the submissions, in their order, some left out. -/
theorem entries_sublist (injectID : Nat) (submissions : List SubmissionSchema) :
    ((submissions.filterMap (zipEntry site files injectID)).map Prod.fst).Sublist
      (submissions.map (zipPath site.db)) := by
  induction submissions with
  | nil => exact List.Sublist.refl _
  | cons submission rest ih =>
    rw [List.filterMap_cons, List.map_cons]
    split
    · exact ih.cons _
    · rename_i entry hentry
      rw [List.map_cons, zipEntry_eq_some hentry]
      exact ih.cons_cons _

theorem downloadAllSubmissions_eq_ok {id : GoString} {archive : Archive}
    (h : downloadAllSubmissions site files id = .ok archive) :
    ∃ injectID, parseUint 32 id = some injectID ∧ archive.entries =
      (getSubmissionsForInject site.submissions injectID).filterMap
        (zipEntry site files injectID) := by
  unfold downloadAllSubmissions at h
  split at h
  · cases h
  · rename_i injectID hid
    refine ⟨injectID, hid, ?_⟩
    split at h
    · cases h
    · split at h
      · cases h
      · dsimp only at h
        split at h
        · cases h
        · obtain rfl := Except.ok.inj h
          rfl

/-- No two submissions to an inject have one path in the archive, every path is a directory and a
file in it, and the entries of the archive have these paths, each at most once. -/
theorem archive_paths {injectID : Nat}
    (h : Archivable site.db (getSubmissionsForInject site.submissions injectID)) :
    let paths := (getSubmissionsForInject site.submissions injectID).map (zipPath site.db)
    paths.Nodup ∧
      (∀ path ∈ paths, ∃ dir file, path.splitOn slash = [dir, file] ∧ Ordinary dir ∧
        Ordinary file) ∧
      ∀ id archive, parseUint 32 id = some injectID →
        downloadAllSubmissions site files id = .ok archive →
        (archive.entries.map Prod.fst).Sublist paths := by
  refine ⟨h.nodup, ?_, ?_⟩
  · intro path hpath
    obtain ⟨s, hs, rfl⟩ := List.mem_map.mp hpath
    exact ⟨_, _, splitOn_zipPath (h.teams s hs) (h.files s hs), ordinary_zipDir (h.teams s hs),
      h.files s hs⟩
  · intro id archive hid harchive
    obtain ⟨injectID', hid', hentries⟩ := downloadAllSubmissions_eq_ok harchive
    obtain rfl : injectID = injectID' := Option.some.inj (hid.symm.trans hid')
    rw [hentries]
    exact entries_sublist injectID _

/-- Two teams upload a report to inject 5, and the first does so again. -/
def reportSite : ArchiveSite where
  cwd := [str "app"]
  now := 1200
  db := {teams := [⟨1, str "Team1", str "01", true⟩, ⟨2, str "Team1_v1", str "02", true⟩]}
  injects := [⟨5, 900, 1700⟩]
  submissions := [⟨1, 5, 1000, str "report.pdf", 1⟩, ⟨2, 5, 1010, str "report.pdf", 1⟩,
    ⟨1, 5, 1020, str "report.pdf", 2⟩]

theorem report_paths :
    let paths := (getSubmissionsForInject reportSite.submissions 5).map (zipPath reportSite.db)
    paths.Nodup ∧
      (∀ path ∈ paths, ∃ dir file, path.splitOn slash = [dir, file] ∧ Ordinary dir ∧
        Ordinary file) ∧
      ∀ id archive, parseUint 32 id = some 5 →
        downloadAllSubmissions reportSite ∅ id = .ok archive →
        (archive.entries.map Prod.fst).Sublist paths :=
  archive_paths ⟨by decide +kernel, by decide +kernel, by decide +kernel, by decide +kernel⟩

end QuotientScoring.WWW
