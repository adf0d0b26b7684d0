import QuotientScoring.Engine.PCRHistory

/-! What `UpdateCredentials` leaves of a credential table.

A batch of changes may repeat names and name rows that are not there. Changing one
password rewrites the rows of one key and appends one entry, or does nothing, so a
whole batch is a loop of such changes over the table, and what a row ends with is what
the last change of its name gave it. `update_credentials` says all of it, for a call
whose queries succeed. -/
namespace QuotientScoring.Engine
open DB Program Keyed

/-- The row of a key gets a password. -/
def setPassword (key : Nat × GoString × GoString) (password : GoString) (row : CredentialSchema) :
    CredentialSchema :=
  if row.key = key then {row with password := password} else row

variable (teamID : Nat) (credlistName changedBy : GoString)

/-- The team has a row of the credlist for this name. -/
def Known (db : CredentialDatabase) (username : GoString) : Bool :=
  (db.credential (teamID, credlistName, username)).isSome

/-- One change of a batch. -/
def changeOne (db : CredentialDatabase) (change : GoString × GoString) : CredentialDatabase :=
  match db.credential (teamID, credlistName, change.1) with
  | none => db
  | some cred => changed db cred change.2 changedBy

def changeAll (db : CredentialDatabase) (changes : List (GoString × GoString)) :
    CredentialDatabase :=
  changes.foldl (changeOne teamID credlistName changedBy) db

/-- The password given at the last occurrence of a name. -/
def lastPassword (changes : List (GoString × GoString)) (username : GoString) : Option GoString :=
  changes.reverse.lookup username

/-- What a batch makes of a row. -/
def afterChanges (changes : List (GoString × GoString)) (row : CredentialSchema) :
    CredentialSchema :=
  if row.teamID = teamID ∧ row.credlistName = credlistName then
    {row with password := (lastPassword changes row.username).getD row.password}
  else row

variable {teamID credlistName changedBy} {db : CredentialDatabase}
  {change : GoString × GoString} {changes : List (GoString × GoString)}

/-! ### One change -/

theorem known_changeOne : Known teamID credlistName
    (changeOne teamID credlistName changedBy db change) = Known teamID credlistName db := by
  funext username
  unfold changeOne Known
  split
  · rfl
  · rw [credential_changed, Option.isSome_map]

/-- Without a row of the key, nothing is rewritten. -/
theorem map_setPassword_of_none {key : Nat × GoString × GoString}
    (h : db.credential key = none) (password : GoString) :
    db.credentials.map (setPassword key password) = db.credentials := by
  have hnone := first_eq_none.mp h
  calc db.credentials.map (setPassword key password) = db.credentials.map id :=
        List.map_congr_left (fun row hrow => if_neg (hnone row hrow))
    _ = db.credentials := List.map_id _

theorem originals_changeOne :
    (changeOne teamID credlistName changedBy db change).originals = db.originals ∧
    (changeOne teamID credlistName changedBy db change).toDatabase = db.toDatabase := by
  unfold changeOne
  split <;> exact ⟨rfl, rfl⟩

theorem credentials_changeOne :
    (changeOne teamID credlistName changedBy db change).credentials =
      db.credentials.map (setPassword (teamID, credlistName, change.1) change.2) := by
  unfold changeOne
  split
  · rename_i hnone
    exact (map_setPassword_of_none hnone _).symm
  · rename_i cred hcred
    have hkey := key_of_credential hcred
    apply List.map_congr_left
    intro row _
    rw [← hkey, setPassword]
    show (if row.key = cred.key then _ else row) = _
    split
    · rename_i hrow
      simp only [CredentialSchema.key, Prod.mk.injEq] at hrow
      simp [hrow]
    · rfl

theorem history_changeOne : ∃ added : List PCRHistorySchema,
    (changeOne teamID credlistName changedBy db change).history = db.history ++ added ∧
    added.map (fun entry => (entry.key, entry.newPassword, entry.changedBy)) =
      ([change].filter (fun c => Known teamID credlistName db c.1)).map
        (fun c => ((teamID, credlistName, c.1), c.2, changedBy)) := by
  unfold changeOne
  split
  · rename_i hnone
    exact ⟨[], (List.append_nil _).symm, by simp [Known, hnone]⟩
  · rename_i cred hcred
    refine ⟨[_], rfl, ?_⟩
    have hkey := key_of_credential hcred
    simp only [CredentialSchema.key] at hkey
    simp [Known, hcred, PCRHistorySchema.key, hkey]

/-! ### A batch -/

theorem lastPassword_concat (before : List (GoString × GoString)) (last : GoString × GoString)
    (username : GoString) : lastPassword (before ++ [last]) username =
      if username = last.1 then some last.2 else lastPassword before username := by
  obtain ⟨name, password⟩ := last
  rw [lastPassword, List.reverse_append, List.reverse_singleton, List.singleton_append,
    List.lookup_cons]
  by_cases h : username = name
  · simp [h]
  · rw [beq_false_of_ne h, if_neg h, lastPassword]

theorem foldl_setPassword (row : CredentialSchema) :
    changes.foldl (fun row c => setPassword (teamID, credlistName, c.1) c.2 row) row =
      afterChanges teamID credlistName changes row := by
  induction changes using List.reverseRecOn with
  | nil => simp [afterChanges, lastPassword]
  | append_singleton before last ih =>
    rw [List.foldl_append, List.foldl_cons, List.foldl_nil, ih]
    unfold afterChanges
    by_cases hrow : row.teamID = teamID ∧ row.credlistName = credlistName
    · obtain ⟨rfl, rfl⟩ := hrow
      by_cases hname : row.username = last.1
      · simp [setPassword, CredentialSchema.key, lastPassword_concat, hname]
      · simp [setPassword, CredentialSchema.key, lastPassword_concat, hname]
    · have hkey : row.key ≠ (teamID, credlistName, last.1) := by
        intro h
        simp only [CredentialSchema.key, Prod.mk.injEq] at h
        exact hrow ⟨h.1, h.2.1⟩
      rw [if_neg hrow, if_neg hrow, setPassword, if_neg hkey]

theorem credentials_changeAll :
    (changeAll teamID credlistName changedBy db changes).credentials =
      db.credentials.map (afterChanges teamID credlistName changes) := by
  have hfold : ∀ db : CredentialDatabase,
      (changeAll teamID credlistName changedBy db changes).credentials = db.credentials.map
        (fun row => changes.foldl
          (fun row c => setPassword (teamID, credlistName, c.1) c.2 row) row) := by
    induction changes with
    | nil => exact fun db => (List.map_id _).symm
    | cons first rest ih =>
      intro db
      rw [changeAll, List.foldl_cons, ← changeAll, ih, credentials_changeOne, List.map_map]
      rfl
  rw [hfold db]
  exact List.map_congr_left (fun row _ => foldl_setPassword row)

theorem history_changeAll : ∃ added : List PCRHistorySchema,
    (changeAll teamID credlistName changedBy db changes).history = db.history ++ added ∧
    added.map (fun entry => (entry.key, entry.newPassword, entry.changedBy)) =
      (changes.filter (fun c => Known teamID credlistName db c.1)).map
        (fun c => ((teamID, credlistName, c.1), c.2, changedBy)) := by
  induction changes generalizing db with
  | nil => exact ⟨[], (List.append_nil _).symm, rfl⟩
  | cons first rest ih =>
    obtain ⟨one, hone, hentry⟩ := @history_changeOne teamID credlistName changedBy db first
    obtain ⟨more, hmore, hentries⟩ := @ih (changeOne teamID credlistName changedBy db first)
    refine ⟨one ++ more, ?_, ?_⟩
    · rw [changeAll, List.foldl_cons, ← changeAll, hmore, hone, List.append_assoc]
    · rw [List.map_append, hentry, hentries, known_changeOne, ← List.map_append,
        ← List.filter_append]
      rfl

theorem originals_changeAll :
    (changeAll teamID credlistName changedBy db changes).originals = db.originals ∧
    (changeAll teamID credlistName changedBy db changes).toDatabase = db.toDatabase := by
  induction changes generalizing db with
  | nil => exact ⟨rfl, rfl⟩
  | cons first rest ih =>
    obtain ⟨horiginals, hdb⟩ := @originals_changeOne teamID credlistName changedBy db first
    exact ⟨ih.1.trans horiginals, ih.2.trans hdb⟩

/-- A change of a user there is no row for does nothing. -/
theorem changeOne_of_unknown (h : Known teamID credlistName db change.1 = false) :
    changeOne teamID credlistName changedBy db change = db := by
  have hnone : db.credential (teamID, credlistName, change.1) = none := by
    simpa [Known] using h
  rw [changeOne, hnone]

theorem length_history_changeAll :
    (changeAll teamID credlistName changedBy db changes).history.length =
      db.history.length + changes.countP (fun c => Known teamID credlistName db c.1) := by
  obtain ⟨added, hadded, hentries⟩ := @history_changeAll teamID credlistName changedBy db changes
  have hlength := congrArg List.length hentries
  rw [List.length_map, List.length_map, ← List.countP_eq_length_filter] at hlength
  rw [hadded, List.length_append, hlength]

/-- Some changes can be left out of a batch exactly if there is no row for any of them: each that
has a row leaves an entry in the history. -/
theorem changeAll_filter_iff {α : Type} (f : α → GoString × GoString) (p : α → Bool)
    (xs : List α) :
    changeAll teamID credlistName changedBy db ((xs.filter p).map f) =
        changeAll teamID credlistName changedBy db (xs.map f) ↔
      ∀ x ∈ xs, p x = false → Known teamID credlistName db (f x).1 = false := by
  constructor
  · intro heq x hx hp
    have hlength := congrArg (fun db => db.history.length) heq
    simp only [length_history_changeAll, List.countP_map, Nat.add_left_cancel_iff] at hlength
    rw [List.countP_eq_countP_filter_add xs _ p, Nat.left_eq_add, List.countP_eq_zero] at hlength
    exact Bool.eq_false_of_not_eq_true
      (hlength x (List.mem_filter.mpr ⟨hx, by simp [hp]⟩))
  · intro hunknown
    induction xs generalizing db with
    | nil => rfl
    | cons x rest ih =>
      obtain ⟨hx, hrest⟩ := List.forall_mem_cons.mp hunknown
      cases hp : p x with
      | true =>
        rw [List.filter_cons_of_pos hp, List.map_cons, List.map_cons]
        refine ih fun y hy hpy => ?_
        rw [known_changeOne]
        exact hrest y hy hpy
      | false =>
        have hskip : changeOne teamID credlistName changedBy db (f x) = db :=
          changeOne_of_unknown (hx hp)
        rw [List.filter_cons_of_neg (by simp [hp]), List.map_cons, ih hrest]
        conv_rhs => rw [changeAll, List.foldl_cons, hskip]
        rfl

/-- The loop of `UpdateCredentials` is the loop of its changes. -/
theorem exec_updateEach (updatedCount : Nat) (skipped : List GoString) :
    exec (updateEach teamID credlistName changedBy changes updatedCount skipped) ⟨db, []⟩ =
      (.ok (updatedCount + (changes.filter (fun c => Known teamID credlistName db c.1)).length,
          skipped ++ (changes.map Prod.fst).filter (fun name => !Known teamID credlistName db name),
          none),
        ⟨changeAll teamID credlistName changedBy db changes, []⟩) := by
  induction changes generalizing updatedCount skipped db with
  | nil =>
    rw [List.map_nil, List.filter_nil, List.filter_nil, List.append_nil]
    rfl
  | cons change rest ih =>
    obtain ⟨username, password⟩ := change
    have hrows := @known_changeOne teamID credlistName changedBy db (username, password)
    rw [updateEach, exec_bind, exec_attempt, exec_updateCredential, changeAll, List.foldl_cons,
      ← changeAll]
    cases hcred : db.credential (teamID, credlistName, username) with
    | none =>
      have hone : changeOne teamID credlistName changedBy db (username, password) = db := by
        simp [changeOne, hcred]
      have habsent : Known teamID credlistName db username = false := by
        simp [Known, hcred]
      simp [ih, hone, habsent]
    | some cred =>
      have hone : changeOne teamID credlistName changedBy db (username, password) =
          changed db cred password changedBy := by
        simp [changeOne, hcred]
      have hpresent : Known teamID credlistName db username = true := by
        simp [Known, hcred]
      rw [hone] at hrows
      simp [ih, hone, hpresent, hrows, Nat.add_assoc, Nat.add_comm]

/-! ### The call -/

/-- What a call that is not refused returns and leaves. -/
structure Updated (db db' : CredentialDatabase) (teamID : Nat) (credlistName : GoString)
    (usernames passwords : List GoString) (updatedCount : Nat) (skipped : List GoString) :
    Prop where
  entries : updatedCount + skipped.length = usernames.length
  skipped : skipped = usernames.filter (fun name => !Known teamID credlistName db name)
  /-- The rows are the ones there were, one for one, each as the last change of it left it. -/
  rows : db'.credentials =
    db.credentials.map (afterChanges teamID credlistName (usernames.zip passwords))
  originals : db'.originals = db.originals
  tables : db'.toDatabase = db.toDatabase
  history : ∃ added : List PCRHistorySchema, db'.history = db.history ++ added ∧
    added.length = updatedCount ∧
    added.map (fun entry => (entry.key, entry.newPassword)) =
      ((usernames.zip passwords).filter (fun c => Known teamID credlistName db c.1)).map
        (fun c => ((teamID, credlistName, c.1), c.2))

theorem updated_changeAll {usernames passwords : List GoString}
    (hlength : usernames.length = passwords.length) :
    Updated db (changeAll teamID credlistName changedBy db (usernames.zip passwords)) teamID
      credlistName usernames passwords
      ((usernames.zip passwords).filter (fun c => Known teamID credlistName db c.1)).length
      (usernames.filter (fun name => !Known teamID credlistName db name)) := by
  have hnames : (usernames.zip passwords).map Prod.fst = usernames :=
    List.map_fst_zip (Nat.le_of_eq hlength)
  obtain ⟨added, hadded, hentries⟩ := @history_changeAll teamID credlistName changedBy db
    (usernames.zip passwords)
  refine
    { entries := ?_
      skipped := rfl
      rows := credentials_changeAll
      originals := originals_changeAll.1
      tables := originals_changeAll.2
      history := ⟨added, hadded, ?_, ?_⟩ }
  · have hcount : ((usernames.zip passwords).filter
        (fun c => Known teamID credlistName db c.1)).length =
        (usernames.filter (Known teamID credlistName db)).length := by
      conv_rhs => rw [← hnames, List.filter_map, List.length_map]
      rfl
    rw [hcount]
    exact (List.length_eq_length_filter_add _).symm
  · simpa using congrArg List.length hentries
  · have hpairs := congrArg (List.map (fun entry => (entry.1, entry.2.1))) hentries
    rw [List.map_map, List.map_map] at hpairs
    exact hpairs

/-- A call that is not refused makes its changes. -/
theorem exec_updateCredentials {site : CredentialSite} {usernames passwords : List GoString}
    (hlist : credlistName ∈ site.credlistPaths) (hmutex : teamID ∈ site.mutexes)
    (hlength : usernames.length = passwords.length) :
    exec (updateCredentials site teamID credlistName usernames passwords) ⟨site.db, []⟩ =
      (.ok (some
          (((usernames.zip passwords).filter
              (fun c => Known teamID credlistName site.db c.1)).length,
            usernames.filter (fun name => !Known teamID credlistName site.db name), none)),
        ⟨changeAll teamID credlistName (GoText.str "team" ++ Decimal.decimal teamID) site.db
          (usernames.zip passwords), []⟩) := by
  rw [updateCredentials, if_neg (by simpa using hlist), if_neg (by simpa using hmutex),
    if_neg (not_not_intro hlength), exec_bind_ok (exec_updateEach 0 []),
    List.map_fst_zip (Nat.le_of_eq hlength), Nat.zero_add, List.nil_append]
  rfl

/-- A call that names no configured credlist, or whose lists differ in length, is refused and
changes nothing; any other makes the changes it can and says which it skipped. -/
theorem update_credentials (site : CredentialSite) (teamID : Nat) (credlistName : GoString)
    (usernames passwords : List GoString) (hmutex : teamID ∈ site.mutexes) :
    let run := exec (updateCredentials site teamID credlistName usernames passwords) ⟨site.db, []⟩
    if credlistName ∉ site.credlistPaths ∨ usernames.length ≠ passwords.length then
      (∃ err, run.1 = .ok (some (0, [], some err))) ∧ run.2.state = site.db
    else ∃ updatedCount skipped, run.1 = .ok (some (updatedCount, skipped, none)) ∧
      Updated site.db run.2.state teamID credlistName usernames passwords updatedCount skipped := by
  dsimp only
  by_cases hlist : credlistName ∈ site.credlistPaths
  · by_cases hlength : usernames.length = passwords.length
    · rw [if_neg (by simp [hlist, hlength]), exec_updateCredentials hlist hmutex hlength]
      exact ⟨_, _, rfl, updated_changeAll hlength⟩
    · rw [if_pos (.inr hlength), updateCredentials, if_neg (by simpa using hlist),
        if_neg (by simpa using hmutex), if_pos hlength]
      exact ⟨⟨_, rfl⟩, rfl⟩
  · rw [if_pos (.inl hlist), updateCredentials, if_pos (by simpa using hlist)]
    exact ⟨⟨_, rfl⟩, rfl⟩

/-- Team 1 changes the password of `a` twice, and that of a user it does not have. -/
theorem update_credentials_repeated :
    let site := freshSite.step twoRecords (.seed Scan.plain [])
    let run := exec (updateCredentials site 1 [108] [[97], [122], [97]] [[120], [120], [121]])
      ⟨site.db, []⟩
    run.1 = .ok (some (2, [[122]], none)) ∧
    Updated site.db run.2.state 1 [108] [[97], [122], [97]] [[120], [120], [121]] 2 [[122]] := by
  intro site run
  have hupdated := update_credentials site 1 [108] [[97], [122], [97]] [[120], [120], [121]]
    (by decide +kernel)
  rw [if_neg (by decide +kernel)] at hupdated
  obtain ⟨updatedCount, skipped, hreply, hdone⟩ := hupdated
  have hrun : run.1 = .ok (some (2, [[122]], none)) := by decide +kernel
  obtain ⟨rfl, hskipped⟩ := Prod.mk.inj (Option.some.inj (Except.ok.inj (hrun.symm.trans hreply)))
  obtain ⟨rfl, -⟩ := Prod.mk.inj hskipped
  exact ⟨hrun, hdone⟩

end QuotientScoring.Engine
