import QuotientScoring.Engine.PasswordChanges

/-! What `ResetCredentials` leaves of a credential table.

A reset reads the rows of a team and credlist, and rewrites those that have an original
one after another. No two rows have one key, so each is still as it was read when its
turn comes, and the whole loop is one map over the table: `credentials_reset`. What a
row becomes does not depend on the password it had, and neither a change nor a reset
touches an original, so a reset after any changes of the rows it resets is the reset
alone. -/
namespace QuotientScoring.Engine
open DB Program Keyed Transition

/-- What a reset makes of a row: an original is looked up for it, and gives the password. -/
def afterReset (db : CredentialDatabase) (teamID : Nat) (credlistName : GoString)
    (row : CredentialSchema) : CredentialSchema :=
  if row.teamID = teamID ∧ row.credlistName = credlistName then
    match db.original credlistName row.username with
    | some orig => {row with password := orig.password}
    | none => row
  else row

/-- The passwords of a credlist's originals by their users, as a reset lists them. -/
def originalPasswords (scan : Scan) (db : CredentialDatabase) (credlistName : GoString) :
    GoMap GoString GoString :=
  (scan.originals (db.originals.filter (fun orig => orig.credlistName = credlistName))).foldl
    (fun origMap orig => origMap.insert orig.username orig.password) ∅

/-- One turn of the loop. -/
def resetOne (origMap : GoMap GoString GoString) (changedBy : GoString) (db : CredentialDatabase)
    (cred : CredentialSchema) : CredentialDatabase :=
  match origMap.lookup cred.username with
  | none => db
  | some origPassword => changed db cred origPassword changedBy

/-- The row that turn saves, if it saves one. -/
def resetRow (origMap : GoMap GoString GoString) (cred : CredentialSchema) :
    Option CredentialSchema :=
  (origMap.lookup cred.username).map (fun origPassword => {cred with password := origPassword})

/-- A row of the team and credlist without its password. -/
def unset (teamID : Nat) (credlistName : GoString) (row : CredentialSchema) : CredentialSchema :=
  if row.teamID = teamID ∧ row.credlistName = credlistName then {row with password := []} else row

/-- Batches of changes of one team and credlist, one call after another. -/
def CredentialSite.updates (records : GoString → List (List GoString)) (site : CredentialSite)
    (teamID : Nat) (credlistName : GoString) (batches : List (List GoString × List GoString)) :
    CredentialSite :=
  batches.foldl (fun site batch =>
    site.step records (.update teamID credlistName batch.1 batch.2 [])) site

variable {records : GoString → List (List GoString)} {db : CredentialDatabase} {site : CredentialSite}
  {teamID : Nat} {credlistName changedBy : GoString}

/-! ### The originals -/

theorem lookup_originalPasswords (scan : Scan) (hs : Sound records db) (credlistName username : GoString) :
    (originalPasswords scan db credlistName).lookup username =
      (db.original credlistName username).map OriginalCredentialSchema.password := by
  have hperm := scan.originals_perm (db.originals.filter (fun orig => orig.credlistName = credlistName))
  have hmem : ∀ orig, orig ∈ scan.originals
      (db.originals.filter (fun orig => orig.credlistName = credlistName)) ↔
      orig ∈ db.originals ∧ orig.credlistName = credlistName := by
    intro orig
    rw [hperm.mem_iff]
    simp
  have hnd : ((scan.originals (db.originals.filter
      (fun orig => orig.credlistName = credlistName))).map OriginalCredentialSchema.username).Nodup := by
    refine ((hperm.map _).nodup_iff).mpr (List.Nodup.map_on ?_ (hs.originals_nodup.of_map.filter _))
    intro a ha b hb hab
    have ha' : a ∈ db.originals ∧ a.credlistName = credlistName := by simpa using ha
    have hb' : b ∈ db.originals ∧ b.credlistName = credlistName := by simpa using hb
    exact List.inj_on_of_nodup_map hs.originals_nodup ha'.1 hb'.1
      (Prod.ext (ha'.2.trans hb'.2.symm) hab)
  apply Option.ext
  intro password
  rw [originalPasswords, GoMap.lookup_foldl_insert hnd, Option.map_eq_some_iff]
  have hkey : ∀ orig : OriginalCredentialSchema,
      db.original credlistName username = some orig ↔ orig ∈ db.originals ∧
        orig.credlistName = credlistName ∧ orig.username = username := by
    intro orig
    rw [CredentialDatabase.original, first_eq_some hs.originals_nodup, OriginalCredentialSchema.key,
      Prod.mk.injEq]
  simp [hkey, hmem, and_assoc]

/-! ### The loop -/

theorem exec_resetOne (origMap : GoMap GoString GoString) (cred : CredentialSchema)
    (db : CredentialDatabase) :
    exec (resetCredential origMap cred.teamID cred.credlistName changedBy cred) ⟨db, []⟩ =
      (.ok (), ⟨resetOne origMap changedBy db cred, []⟩) := by
  rw [exec_resetCredential]
  unfold resetOne
  cases origMap.lookup cred.username <;> rfl

theorem credentials_resetOne (origMap : GoMap GoString GoString) (cred : CredentialSchema) :
    (resetOne origMap changedBy db cred).credentials =
      (resetRow origMap cred).elim db.credentials (save CredentialSchema.key db.credentials) := by
  unfold resetOne resetRow
  cases origMap.lookup cred.username <;> rfl

theorem credentials_foldl_resetOne (origMap : GoMap GoString GoString)
    (creds : List CredentialSchema) :
    (creds.foldl (resetOne origMap changedBy) db).credentials =
      creds.foldl (fun rows cred =>
        (resetRow origMap cred).elim rows (save CredentialSchema.key rows)) db.credentials := by
  induction creds generalizing db with
  | nil => rfl
  | cons cred rest ih => rw [List.foldl_cons, ih, credentials_resetOne, List.foldl_cons]

theorem afterReset_eq (scan : Scan) (hs : Sound records db) (teamID : Nat) (credlistName : GoString)
    (row : CredentialSchema) :
    afterReset db teamID credlistName row =
      if row.teamID = teamID ∧ row.credlistName = credlistName then
        (resetRow (originalPasswords scan db credlistName) row).getD row
      else row := by
  unfold afterReset resetRow
  rw [lookup_originalPasswords scan hs]
  cases db.original credlistName row.username <;> rfl

/-- The loop rewrites the rows it read, in their places. -/
theorem exec_resetTeamCredlist (scan : Scan) (hs : Sound records db) (teamID : Nat)
    (credlistName changedBy : GoString) :
    ∃ db', exec (resetTeamCredlist scan teamID credlistName changedBy) ⟨db, []⟩ =
      (.ok (), ⟨db', []⟩) ∧ db'.credentials = db.credentials.map (afterReset db teamID credlistName) := by
  have hmem := mem_teamRows scan db teamID credlistName
  have hnd := nodup_teamRows scan hs.credentials_nodup teamID credlistName
  generalize hcreds : scan.credentials (db.credentials.filter
    (fun cred => cred.teamID = teamID && cred.credlistName = credlistName)) = creds at hmem hnd
  generalize horig : originalPasswords scan db credlistName = origMap
  have hloop : exec (creds.forM (resetCredential origMap teamID credlistName changedBy)) ⟨db, []⟩ =
      (.ok ⟨⟩, ⟨creds.foldl (resetOne origMap changedBy) db, []⟩) := by
    refine exec_forM creds (fun cred hcred db => ?_) db
    obtain ⟨-, rfl, rfl⟩ := (hmem cred).mp hcred
    exact exec_resetOne origMap cred db
  refine ⟨creds.foldl (resetOne origMap changedBy) db, ?_, ?_⟩
  · rw [resetTeamCredlist, exec_bind_ok (exec_select _ _), getOriginalCredentials,
      exec_bind_ok (exec_select _ _), hcreds, ← hloop, ← horig]
    rfl
  · have hkey : ∀ cred cred', resetRow origMap cred = some cred' → cred'.key = cred.key := by
      intro cred cred' h
      obtain ⟨password, -, rfl⟩ := Option.map_eq_some_iff.mp h
      rfl
    rw [credentials_foldl_resetOne, foldl_save hkey creds hnd hs.credentials_nodup
      (fun cred hcred => ((hmem cred).mp hcred).1)]
    apply List.map_congr_left
    intro row hrow
    have hread : row.key ∈ creds.map CredentialSchema.key ↔
        row.teamID = teamID ∧ row.credlistName = credlistName := by
      constructor
      · intro h
        obtain ⟨cred, hcred, heq⟩ := List.mem_map.mp h
        obtain rfl := List.inj_on_of_nodup_map hs.credentials_nodup ((hmem cred).mp hcred).1 hrow heq
        exact ((hmem cred).mp hcred).2
      · intro h
        exact List.mem_map_of_mem ((hmem row).mpr ⟨hrow, h⟩)
    simp only [hread]
    rw [afterReset_eq scan hs, horig]

/-! ### Calls of one team and credlist -/

theorem unset_afterChanges (changes : List (GoString × GoString)) (row : CredentialSchema) :
    unset teamID credlistName (afterChanges teamID credlistName changes row) =
      unset teamID credlistName row := by
  unfold afterChanges unset
  by_cases h : row.teamID = teamID ∧ row.credlistName = credlistName
  · simp [h]
  · simp [h]

theorem unset_afterReset (row : CredentialSchema) :
    unset teamID credlistName (afterReset db teamID credlistName row) =
      unset teamID credlistName row := by
  unfold afterReset
  split
  · rename_i h
    split
    · simp [unset, h]
    · rfl
  · rfl

/-- A row that has an original forgets its password in a reset. -/
theorem afterReset_unset {row : CredentialSchema}
    (h : ∃ orig ∈ db.originals, orig.key = row.key.2) :
    afterReset db teamID credlistName (unset teamID credlistName row) =
      afterReset db teamID credlistName row := by
  by_cases hrow : row.teamID = teamID ∧ row.credlistName = credlistName
  · have hsome : (db.original credlistName row.username).isSome := by
      rw [← hrow.2]
      exact first_isSome.mpr h
    obtain ⟨orig, horig⟩ := Option.isSome_iff_exists.mp hsome
    simp [afterReset, unset, hrow, horig]
  · rw [unset, if_neg hrow]

/-- What a change or a reset of the team and credlist leaves alone. -/
structure Absorbed (teamID : Nat) (credlistName : GoString) (site site' : CredentialSite) : Prop where
  originals : site'.db.originals = site.db.originals
  rows : site'.db.credentials.map (unset teamID credlistName) =
    site.db.credentials.map (unset teamID credlistName)
  credlists : site'.credlists = site.credlists
  mutexes : site'.mutexes = site.mutexes

theorem Absorbed.refl (site : CredentialSite) : Absorbed teamID credlistName site site :=
  ⟨rfl, rfl, rfl, rfl⟩

theorem Absorbed.trans {site site' site'' : CredentialSite}
    (h : Absorbed teamID credlistName site site') (h' : Absorbed teamID credlistName site' site'') :
    Absorbed teamID credlistName site site'' :=
  ⟨h'.originals.trans h.originals, h'.rows.trans h.rows, h'.credlists.trans h.credlists,
    h'.mutexes.trans h.mutexes⟩

theorem absorbed_update (site : CredentialSite) (teamID : Nat) (credlistName : GoString)
    (usernames passwords : List GoString) :
    Absorbed teamID credlistName site
      (site.step records (.update teamID credlistName usernames passwords [])) := by
  show Absorbed teamID credlistName site {site with db := (exec
    (updateCredentials site teamID credlistName usernames passwords) ⟨site.db, []⟩).2.state}
  by_cases hlist : credlistName ∈ site.credlistPaths
  · by_cases hmutex : teamID ∈ site.mutexes
    · by_cases hlength : usernames.length = passwords.length
      · rw [exec_updateCredentials hlist hmutex hlength]
        refine ⟨originals_changeAll.1, ?_, rfl, rfl⟩
        show (changeAll _ _ _ _ _).credentials.map _ = _
        rw [credentials_changeAll, List.map_map]
        exact List.map_congr_left (fun row _ => unset_afterChanges _ row)
      · rw [updateCredentials, if_neg (by simpa using hlist), if_neg (by simpa using hmutex),
          if_pos hlength]
        exact Absorbed.refl site
    · rw [updateCredentials, if_neg (by simpa using hlist), if_pos (by simpa using hmutex)]
      exact Absorbed.refl site
  · rw [updateCredentials, if_pos (by simpa using hlist)]
    exact Absorbed.refl site

theorem absorbed_updates (site : CredentialSite) (teamID : Nat) (credlistName : GoString)
    (batches : List (List GoString × List GoString)) :
    Absorbed teamID credlistName site (site.updates records teamID credlistName batches) := by
  induction batches generalizing site with
  | nil => exact Absorbed.refl site
  | cons batch rest ih => exact (absorbed_update site _ _ batch.1 batch.2).trans (ih _)

/-! ### The call -/

/-- A call is refused unless the credlist is configured and the team has a mutex. -/
def Admits (site : CredentialSite) (teamID : Nat) (credlistName : GoString) : Prop :=
  credlistName ∈ site.credlistPaths ∧ teamID ∈ site.mutexes

theorem exec_resetCredentials_refused (scan : Scan) (changedBy : GoString)
    (h : ¬Admits site teamID credlistName) :
    (exec (resetCredentials scan site teamID credlistName changedBy) ⟨site.db, []⟩).1 ≠ .ok (some ()) ∧
    (exec (resetCredentials scan site teamID credlistName changedBy) ⟨site.db, []⟩).2.state =
      site.db := by
  by_cases hlist : credlistName ∈ site.credlistPaths
  · have hmutex : teamID ∉ site.mutexes := fun hmutex => h ⟨hlist, hmutex⟩
    rw [resetCredentials, if_neg (by simpa using hlist), if_pos (by simpa using hmutex)]
    refine ⟨?_, rfl⟩
    show (Except.ok none : Except GoString (Option Unit)) ≠ .ok (some ())
    decide
  · rw [resetCredentials, if_pos (by simpa using hlist)]
    refine ⟨?_, rfl⟩
    show (Except.error _ : Except GoString (Option Unit)) ≠ .ok (some ())
    exact fun hok => nomatch hok

theorem exec_resetCredentials (scan : Scan) (hs : Sound records site.db) (changedBy : GoString)
    (h : Admits site teamID credlistName) :
    ∃ db', exec (resetCredentials scan site teamID credlistName changedBy) ⟨site.db, []⟩ =
      (.ok (some ()), ⟨db', []⟩) ∧
      db'.credentials = site.db.credentials.map (afterReset site.db teamID credlistName) := by
  obtain ⟨db', hrun, hrows⟩ := exec_resetTeamCredlist scan hs teamID credlistName changedBy
  refine ⟨db', ?_, hrows⟩
  rw [resetCredentials, if_neg (by simpa using h.1), if_neg (by simpa using h.2), exec_bind_ok hrun]
  rfl

theorem credentials_step_reset (scan : Scan) (hs : Sound records site.db) (changedBy : GoString)
    (h : Admits site teamID credlistName) :
    (site.step records (.reset scan teamID credlistName changedBy [])).db.credentials =
      site.db.credentials.map (afterReset site.db teamID credlistName) := by
  obtain ⟨db', hrun, hrows⟩ := exec_resetCredentials scan hs changedBy h
  show (exec (resetCredentials scan site teamID credlistName changedBy)
    ⟨site.db, []⟩).2.state.credentials = _
  rw [hrun, hrows]

theorem step_reset_refused (scan : Scan) (changedBy : GoString) (h : ¬Admits site teamID credlistName) :
    site.step records (.reset scan teamID credlistName changedBy []) = site := by
  have hdb := (exec_resetCredentials_refused scan changedBy h).2
  show {site with db := (exec (resetCredentials scan site teamID credlistName changedBy)
    ⟨site.db, []⟩).2.state} = site
  rw [hdb]

theorem step_update_refused (usernames passwords : List GoString)
    (h : ¬Admits site teamID credlistName) :
    site.step records (.update teamID credlistName usernames passwords []) = site := by
  show {site with db := (exec (updateCredentials site teamID credlistName usernames passwords)
    ⟨site.db, []⟩).2.state} = site
  by_cases hlist : credlistName ∈ site.credlistPaths
  · have hmutex : teamID ∉ site.mutexes := fun hmutex => h ⟨hlist, hmutex⟩
    rw [updateCredentials, if_neg (by simpa using hlist), if_pos (by simpa using hmutex)]
    rfl
  · rw [updateCredentials, if_pos (by simpa using hlist)]
    rfl

theorem updates_refused (batches : List (List GoString × List GoString))
    (h : ¬Admits site teamID credlistName) :
    site.updates records teamID credlistName batches = site := by
  induction batches with
  | nil => rfl
  | cons batch rest ih =>
    show CredentialSite.updates records
      (site.step records (.update teamID credlistName batch.1 batch.2 [])) _ _ rest = site
    rw [step_update_refused batch.1 batch.2 h, ih]

theorem absorbed_reset (scan : Scan) (hs : Sound records site.db) (teamID : Nat)
    (credlistName changedBy : GoString) :
    Absorbed teamID credlistName site
      (site.step records (.reset scan teamID credlistName changedBy [])) := by
  by_cases h : Admits site teamID credlistName
  · refine ⟨(keeps_resetCredentials writable_rewrites scan site teamID credlistName changedBy
      ⟨site.db, []⟩).originals, ?_, rfl, rfl⟩
    rw [credentials_step_reset scan hs changedBy h, List.map_map]
    exact List.map_congr_left (fun row _ => unset_afterReset row)
  · rw [step_reset_refused scan changedBy h]
    exact Absorbed.refl site

/-! ### Runs -/

/-- Every row was seeded from an original, and no original goes. -/
theorem original_of_reachable {G : CredentialSite → CredentialAction → Prop}
    (h : Reachable (credentialRuns records) G site) :
    ∀ cred ∈ site.db.credentials, ∃ orig ∈ site.db.originals, orig.key = cred.key.2 := by
  induction h with
  | initial h =>
    intro cred hcred
    rw [h.2.1] at hcred
    cases hcred
  | @step site site' action hreach hg hstep ih =>
    have hsound := sound_of_reachable (hreach.step hg hstep)
    obtain rfl := Option.some.inj hstep
    have hrewrites : ∀ {db' : CredentialDatabase}, Rewrites site.db db' →
        ∀ cred ∈ db'.credentials, ∃ orig ∈ db'.originals, orig.key = cred.key.2 := by
      intro db' hr cred hcred
      have hkey : cred.key ∈ site.db.credentials.map CredentialSchema.key := by
        rw [← hr.keys]
        exact List.mem_map_of_mem hcred
      obtain ⟨cred', hcred', heq⟩ := List.mem_map.mp hkey
      rw [hr.originals, ← heq]
      exact ih cred' hcred'
    cases action with
    | addTeam _ => exact ih
    | configure _ => exact ih
    | restart => exact ih
    | seed scan faults =>
      have hext : Extends records site.db _ := (ensureCredentialsSeeded_spec scan faults site rfl).1
      intro cred hcred
      rcases hext.credential_new cred.key cred (first_key hsound.credentials_nodup hcred) with
        hold | ⟨-, orig, horig, hrow⟩
      · obtain ⟨orig, horig, hkey⟩ := ih cred (mem_of_first hold)
        exact ⟨orig, hext.originals_sub orig horig, hkey⟩
      · exact ⟨orig, horig, (congrArg (fun row => row.key.2) hrow).symm⟩
    | update teamID name usernames passwords faults =>
      exact hrewrites (keeps_updateCredentials writable_rewrites site teamID name usernames passwords
        ⟨site.db, faults⟩)
    | reset scan teamID name changedBy faults =>
      exact hrewrites (keeps_resetCredentials writable_rewrites scan site teamID name changedBy
        ⟨site.db, faults⟩)

/-- What a reset leaves does not depend on what it absorbs. -/
theorem credentials_reset_of_absorbed {site' : CredentialSite} (hs : Sound records site.db)
    (hs' : Sound records site'.db)
    (horig : ∀ cred ∈ site.db.credentials, ∃ orig ∈ site.db.originals, orig.key = cred.key.2)
    (horig' : ∀ cred ∈ site'.db.credentials, ∃ orig ∈ site'.db.originals, orig.key = cred.key.2)
    (habs : Absorbed teamID credlistName site site') (h : Admits site teamID credlistName)
    (scan scan' : Scan) (changedBy changedBy' : GoString) :
    (site'.step records (.reset scan' teamID credlistName changedBy' [])).db.credentials =
      (site.step records (.reset scan teamID credlistName changedBy [])).db.credentials := by
  have h' : Admits site' teamID credlistName := by
    rw [Admits, CredentialSite.credlistPaths, habs.credlists, habs.mutexes]
    exact h
  have hsame : afterReset site'.db teamID credlistName = afterReset site.db teamID credlistName := by
    funext row
    unfold afterReset CredentialDatabase.original
    rw [habs.originals]
  have hforget : ∀ {db : CredentialDatabase},
      (∀ cred ∈ db.credentials, ∃ orig ∈ db.originals, orig.key = cred.key.2) →
      db.credentials.map (afterReset db teamID credlistName) =
        (db.credentials.map (unset teamID credlistName)).map (afterReset db teamID credlistName) := by
    intro db hdb
    rw [List.map_map]
    exact List.map_congr_left (fun row hrow => (afterReset_unset (hdb row hrow)).symm)
  rw [credentials_step_reset scan' hs' changedBy' h', credentials_step_reset scan hs changedBy h,
    hforget horig', hforget horig, hsame, habs.rows]

theorem reachable_updates (h : Reachable (credentialRuns records) (fun _ _ => True) site)
    (teamID : Nat) (credlistName : GoString) (batches : List (List GoString × List GoString)) :
    Reachable (credentialRuns records) (fun _ _ => True)
      (site.updates records teamID credlistName batches) := by
  induction batches generalizing site with
  | nil => exact h
  | cons batch rest ih =>
    exact ih (.step (a := .update teamID credlistName batch.1 batch.2 []) h trivial rfl)

/-- A reset gives every row of the team and credlist that has an original its password and
leaves the other rows, or is refused and leaves all; changes of the rows it resets, and a
reset of them before it, make no difference to it. -/
theorem reset_absorbs (h : Reachable (credentialRuns records) (fun _ _ => True) site)
    (scan : Scan) (teamID : Nat) (credlistName changedBy : GoString) :
    let run := exec (resetCredentials scan site teamID credlistName changedBy) ⟨site.db, []⟩
    let after := fun (s : CredentialSite) (scan : Scan) (changedBy : GoString) =>
      s.step records (.reset scan teamID credlistName changedBy [])
    (run.1 = .ok (some ()) ↔ credlistName ∈ site.credlistPaths ∧ teamID ∈ site.mutexes) ∧
    (run.1 = .ok (some ()) →
      run.2.state.credentials = site.db.credentials.map (afterReset site.db teamID credlistName)) ∧
    (run.1 ≠ .ok (some ()) → run.2.state = site.db) ∧
    (∀ batches scan' changedBy',
      (after (site.updates records teamID credlistName batches) scan' changedBy').db.credentials =
        (after site scan changedBy).db.credentials) ∧
    ∀ scan' changedBy', (after (after site scan changedBy) scan' changedBy').db.credentials =
      (after site scan changedBy).db.credentials := by
  intro run after
  have hsound := sound_of_reachable h
  have horig := original_of_reachable h
  by_cases haccept : Admits site teamID credlistName
  · obtain ⟨db', hrun, hrows⟩ := exec_resetCredentials scan hsound changedBy haccept
    have hok : run.1 = .ok (some ()) := congrArg Prod.fst hrun
    refine ⟨iff_of_true hok haccept, fun _ => ?_, fun hne => absurd hok hne,
      fun batches scan' changedBy' => ?_, fun scan' changedBy' => ?_⟩
    · show run.2.state.credentials = _
      rw [← hrows]
      exact congrArg (fun r => r.2.state.credentials) hrun
    · have hreach := reachable_updates h teamID credlistName batches
      exact credentials_reset_of_absorbed hsound (sound_of_reachable hreach) horig
        (original_of_reachable hreach) (absorbed_updates site _ _ batches) haccept _ _ _ _
    · have hreach : Reachable (credentialRuns records) (fun _ _ => True) (after site scan changedBy) :=
        .step h trivial rfl
      exact credentials_reset_of_absorbed hsound (sound_of_reachable hreach) horig
        (original_of_reachable hreach) (absorbed_reset scan hsound _ _ changedBy) haccept _ _ _ _
  · obtain ⟨hne, hdb⟩ := exec_resetCredentials_refused scan changedBy haccept
    have hreset : ∀ scan changedBy, after site scan changedBy = site := fun scan changedBy =>
      step_reset_refused scan changedBy haccept
    refine ⟨iff_of_false hne haccept, fun hok => absurd hok hne, fun _ => hdb,
      fun batches scan' changedBy' => ?_, fun scan' changedBy' => ?_⟩
    · rw [updates_refused batches haccept, hreset, hreset]
    · rw [hreset scan, hreset]

/-- Team 1 changes both its passwords, one of them twice, before it is reset. -/
theorem reset_absorbs_changes :
    let site := freshSite.step twoRecords (.seed Scan.plain [])
    let updated := site.updates twoRecords 1 [108]
      [([[97], [98]], [[120], [121]]), ([[97]], [[122]])]
    updated.db.credentials.map CredentialSchema.password = [[122], [121]] ∧
    (updated.step twoRecords (.reset Scan.plain 1 [108] [100] [])).db.credentials =
      (site.step twoRecords (.reset Scan.plain 1 [108] [100] [])).db.credentials := by
  intro site updated
  have hreach : Reachable (credentialRuns twoRecords) (fun _ _ => True) site :=
    .step (a := .seed Scan.plain []) (.initial ⟨rfl, rfl, rfl⟩) trivial rfl
  refine ⟨by decide +kernel, ?_⟩
  dsimp only [updated]
  exact (reset_absorbs hreach Scan.plain 1 [108] [100]).2.2.2.1 _ Scan.plain [100]

end QuotientScoring.Engine
