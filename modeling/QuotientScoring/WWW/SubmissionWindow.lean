import QuotientScoring.WWW.Injects

/-! Whether submissions are stored only while their inject is shown and not closed.

A team is shown an inject once its open time has passed. An upload is refused after the
close time, but nothing looks at the open time: a row is stored in the window of its
inject exactly if the inject was open by then, `stored_in_window_iff`.
`submissions_in_window` is about whole runs. -/
namespace QuotientScoring.WWW
open DB GoText GoTime Decimal Transition

variable {s : InjectStore}

/-- What a request stores, beside the injects there were. -/
def stored (s : InjectStore) (request : InjectRequest) :
    List (SubmissionSchema × List InjectRow) :=
  match request with
  | .submit _ => ((handle s request).1.submissions.drop s.submissions.length).map (fun row =>
      (row, s.injects))
  | _ => []

/-- The inject was there, shown to the team and not closed. -/
def InWindow (entry : SubmissionSchema × List InjectRow) : Prop :=
  ∃ inject ∈ entry.2, inject.id = entry.1.injectID ∧ inject.openTime < entry.1.submissionTime ∧
    entry.1.submissionTime ≤ inject.closeTime

/-- An upload that nothing speaks against but, perhaps, the times of its inject. -/
structure Storable (upload : Upload) (injectID : Nat) : Prop where
  id : parseUint 32 upload.id = some injectID
  works : ∀ query, query ≠ .getSubmissionsForInject → upload.fails query = none
  form : ∃ fileName contents, upload.form = .upload fileName contents
  team : ∃ team ∈ upload.db.teams,
    team.id = (getTeamByUsername upload.db upload.session.username).id

/-- An upload to an inject that is not closed is to one that is open. -/
def Timely (s : InjectStore) : InjectRequest → Prop
  | .submit upload => ∀ inject ∈ s.injects, Storable upload inject.id →
      upload.now ≤ inject.closeTime → inject.openTime < upload.now
  | _ => True

/-! ### What an upload stores -/

theorem stored_submit (upload : Upload) : stored s (.submit upload) =
    (match newSubmission (upload.site s) upload.session upload.id upload.form with
      | .error _ => []
      | .ok (submission, _) =>
        if (upload.fails .createSubmission).isSome ∨ ¬ForeignKeys (upload.site s) submission then []
        else [submission.beforeCreate s.submissions]).map (fun row => (row, s.injects)) := by
  have hrows : (handle s (.submit upload)).1.submissions =
      (createSubmission (upload.site s) s.files upload.session upload.id upload.form).1 := rfl
  have hsite : (upload.site s).submissions = s.submissions := rfl
  rw [stored, hrows, createSubmission_fst, hsite, List.drop_left]
  rfl

/-- What is stored is of the time of the upload, for an inject that is not closed. -/
theorem of_mem_stored {upload : Upload} {entry : SubmissionSchema × List InjectRow}
    (h : entry ∈ stored s (.submit upload)) :
    entry.2 = s.injects ∧ entry.1.submissionTime = upload.now ∧ ∃ inject ∈ s.injects,
      entry.1.injectID = inject.id ∧ Storable upload inject.id ∧ upload.now ≤ inject.closeTime := by
  rw [stored_submit] at h
  cases hnew : newSubmission (upload.site s) upload.session upload.id upload.form with
  | error err =>
    rw [hnew] at h
    cases h
  | ok new =>
    obtain ⟨submission, contents⟩ := new
    rw [hnew] at h
    dsimp only at h
    split at h
    · cases h
    · rename_i haccept
      obtain ⟨hcreate, hkeys⟩ := not_or.mp haccept
      obtain rfl := List.mem_singleton.mp h
      obtain ⟨injectID, fileName, hparse, hteam, hform, hinjects, hopen, rfl⟩ :=
        newSubmission_eq_ok_iff.mp hnew
      obtain ⟨hteams, there, hthere, hid⟩ := Decidable.not_not.mp hkeys
      cases hfind : (upload.site s).injects.find? (fun i => i.id = injectID) with
      | none =>
        have hnone := List.find?_eq_none.mp hfind there hthere
        exact absurd (decide_eq_true hid) hnone
      | some found =>
        rw [hfind, Option.getD_some] at hopen
        have hfound : found.id = injectID := by simpa using List.find?_some hfind
        obtain ⟨inject, hinject, rfl⟩ := List.mem_map.mp (List.mem_of_find?_eq_some hfind)
        refine ⟨rfl, rfl, inject, hinject, hfound.symm, ?_, hopen⟩
        refine ⟨by rw [hparse, hfound], ?_, ⟨fileName, contents, hform⟩, hteams⟩
        intro query hquery
        cases query with
        | getTeamByUsername => exact hteam
        | getInjects => exact hinjects
        | getSubmissionsForInject => exact absurd rfl hquery
        | createSubmission => simpa using hcreate

/-- The upload to an inject that is not closed is stored. -/
theorem exists_mem_stored (h : Numbered s.toInjectTables) {upload : Upload} {inject : InjectRow}
    (hinject : inject ∈ s.injects) (hstorable : Storable upload inject.id)
    (hopen : upload.now ≤ inject.closeTime) :
    ∃ entry ∈ stored s (.submit upload), entry.2 = s.injects ∧
      entry.1.injectID = inject.id ∧ entry.1.submissionTime = upload.now := by
  obtain ⟨fileName, contents, hform⟩ := hstorable.form
  have hfind : (upload.site s).injects.find? (fun i => i.id = inject.id) =
      some inject.toInjectSchema := by
    have hnd : ((s.injects.map InjectRow.toInjectSchema).map (fun i => i.id)).Nodup := by
      rw [List.map_map]
      exact h.nodup
    exact Keyed.first_key hnd (List.mem_map_of_mem hinject)
  have hnew : newSubmission (upload.site s) upload.session upload.id upload.form =
      .ok (⟨(getTeamByUsername upload.db upload.session.username).id, inject.id, upload.now,
        fileName, 0⟩, contents) := by
    refine newSubmission_eq_ok_iff.mpr ⟨inject.id, fileName, hstorable.id,
      hstorable.works _ (by decide), hform, hstorable.works _ (by decide), ?_, rfl⟩
    rw [hfind]
    exact hopen
  have hkeys : ForeignKeys (upload.site s) ⟨(getTeamByUsername upload.db upload.session.username).id,
      inject.id, upload.now, fileName, 0⟩ :=
    ⟨hstorable.team, inject.toInjectSchema, List.mem_map_of_mem hinject, rfl⟩
  rw [stored_submit, hnew]
  dsimp only
  rw [if_neg (by simp [hstorable.works .createSubmission (by decide), hkeys])]
  exact ⟨_, List.mem_singleton_self _, rfl, rfl, rfl⟩

theorem inWindow_of_timely {request : InjectRequest} (h : Timely s request)
    {entry : SubmissionSchema × List InjectRow} (hentry : entry ∈ stored s request) :
    InWindow entry := by
  cases request with
  | submit upload =>
    obtain ⟨hinjects, htime, inject, hinject, hid, hstorable, hopen⟩ := of_mem_stored hentry
    unfold InWindow
    rw [hinjects, htime]
    exact ⟨inject, hinject, hid.symm, h inject hinject hstorable hopen, hopen⟩
  | create | update | delete => cases hentry

/-- What a request stores is stored in the window of its inject exactly if it is timely. -/
theorem stored_in_window_iff (h : Numbered s.toInjectTables) (request : InjectRequest) :
    (∀ entry ∈ stored s request, InWindow entry) ↔ Timely s request := by
  cases request with
  | submit upload =>
    constructor
    · intro hall inject hinject hstorable hopen
      obtain ⟨entry, hentry, hinjects, hid, htime⟩ := exists_mem_stored h hinject hstorable hopen
      obtain ⟨shown, hshown, hshownID, hreleased, -⟩ := hall entry hentry
      rw [hinjects] at hshown
      have heq := List.inj_on_of_nodup_map h.nodup hshown hinject (hshownID.trans hid)
      rw [← heq, ← htime]
      exact hreleased
    · intro htimely entry hentry
      exact inWindow_of_timely htimely hentry
  | create | update | delete =>
    exact ⟨fun _ => trivial, fun _ entry hentry => nomatch hentry⟩

/-! ### Runs -/

/-- Requests one after another from any store, beside a record of what they store. -/
def recordedRequests : System (InjectStore × List (SubmissionSchema × List InjectRow)) InjectRequest :=
  (injectRequests (fun _ => True)).recorded stored

/-- In a run of timely requests every submission is stored in the window of its inject. -/
theorem submissions_in_window {r : InjectStore × List (SubmissionSchema × List InjectRow)}
    (h : Reachable recordedRequests (fun r request => Timely r.1 request) r) :
    ∀ entry ∈ r.2, InWindow entry := by
  have hstep : ∀ s request, Reachable (injectRequests (fun _ => True)) Timely s → Timely s request →
      ∀ entry ∈ stored s request, InWindow entry :=
    fun s request _ htimely entry hentry => inWindow_of_timely htimely hentry
  exact (Reachable.forall_recorded hstep h).2

/-- One inject, open after 0 and until 10. -/
def memoInject : InjectStore :=
  ⟨⟨[⟨⟨1, 0, 10⟩, str "memo", str "Write a memo.", 5, []⟩], 2, []⟩, fun _ => none, ∅⟩

/-- A report for it. -/
def reportAt (now : Int) : InjectRequest :=
  .submit
    { cwd := [str "app"]
      now := now
      db := {teams := [⟨1, str "team01", str "01", true⟩]}
      session := ⟨str "team01", [.team]⟩
      id := str "1"
      form := .upload (str "report.pdf") [1] }

theorem submissions_in_window_one :
    (stored memoInject (reportAt 5)).length = 1 ∧
      ∀ entry ∈ stored memoInject (reportAt 5), InWindow entry := by
  refine ⟨by decide +kernel, ?_⟩
  have htimely : Timely memoInject (reportAt 5) := by
    intro inject hinject _ _
    obtain rfl := List.mem_singleton.mp hinject
    decide
  have hreach : Reachable recordedRequests (fun r request => Timely r.1 request)
      ((handle memoInject (reportAt 5)).1, stored memoInject (reportAt 5)) :=
    .step (a := reportAt 5) (.initial ⟨trivial, rfl⟩ : Reachable recordedRequests _ (memoInject, []))
      htimely rfl
  exact submissions_in_window hreach

/-- A submission is stored before the inject is shown to anybody. -/
theorem submission_too_early : ∃ r, Reachable recordedRequests (fun _ _ => True) r ∧
    ∃ entry ∈ r.2, ¬InWindow entry := by
  refine ⟨_, .step (a := reportAt 0) (.initial ⟨trivial, rfl⟩ :
    Reachable recordedRequests _ (memoInject, [])) trivial rfl, ?_⟩
  refine ⟨(⟨1, 1, 0, str "report.pdf", 1⟩, memoInject.injects), by decide +kernel, ?_⟩
  intro hwindow
  obtain ⟨inject, hinject, -, hreleased, -⟩ := hwindow
  obtain rfl := List.mem_singleton.mp hinject
  exact absurd hreleased (by decide)

end QuotientScoring.WWW
