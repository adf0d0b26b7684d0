import QuotientScoring.Engine.PasswordResets
import QuotientScoring.Lib.Trail

/-! What a failed password change leaves behind.

`UpdateCredentials` saves each row and then logs it, `ResetCredentials` logs it and then
saves it, and neither takes back what it has done when a later query fails. A query that
fails leaves the tables as it found them, so the tables are as before the call exactly
when the failing query comes before the first write. `untraced_iff` says which queries
these are. -/
namespace QuotientScoring.Engine
open DB Program Keyed

/-- Every row of credentials and of history is as it was, stamps included. -/
structure Untouched (db db' : CredentialDatabase) : Prop where
  credentials : db'.credentials = db.credentials
  updatedAt : ∀ cred ∈ db.credentials, db'.updatedAt cred.key = db.updatedAt cred.key
  history : db'.history = db.history

theorem Untouched.refl (db : CredentialDatabase) : Untouched db db := ⟨rfl, fun _ _ => rfl, rfl⟩

section Updates
variable (teamID : Nat) (credlistName : GoString) (db : CredentialDatabase)

/-- The queries of a batch: a name without a row takes one, a change takes three. -/
def updateCalls (changes : List (GoString × GoString)) : Nat :=
  (changes.map (fun c => if Known teamID credlistName db c.1 then 3 else 1)).sum

/-- The names before the first one that has a row. -/
def firstKnown (changes : List (GoString × GoString)) : Nat :=
  changes.findIdx (fun c => Known teamID credlistName db c.1)

/-- The batch ends before the query `n`, or that is a query up to the first save. -/
def UpdateUntraced (changes : List (GoString × GoString)) (n : Nat) : Prop :=
  updateCalls teamID credlistName db changes ≤ n ∨ n < firstKnown teamID credlistName db changes + 2

/-- The rows a reset rewrites. -/
def resettable : Nat :=
  (db.credentials.filter (fun cred => cred.teamID = teamID && cred.credlistName = credlistName &&
    (db.original credlistName cred.username).isSome)).length

/-- The reset ends before the query `n`, or that is a query up to the first entry. -/
def ResetUntraced (n : Nat) : Prop := 2 + 2 * resettable teamID credlistName db ≤ n ∨ n ≤ 2

end Updates

/-- What the queries of one change find. -/
def foundByChange (teamID : Nat) (credlistName : GoString) (change : GoString × GoString)
    (db : CredentialDatabase) : List CredentialDatabase :=
  match db.credential (teamID, credlistName, change.1) with
  | none => [db]
  | some cred => [db, db, db.saveCredential {cred with password := change.2}]

/-- What the queries of one turn of a reset find. -/
def foundByReset (origMap : GoMap GoString GoString) (changedBy : GoString) (cred : CredentialSchema)
    (db : CredentialDatabase) : List CredentialDatabase :=
  match origMap.lookup cred.username with
  | none => []
  | some origPassword => [db, db.createHistory
      ⟨cred.teamID, cred.credlistName, cred.username, cred.password, origPassword, changedBy⟩]

variable {teamID : Nat} {credlistName changedBy : GoString} {db : CredentialDatabase}
  {change : GoString × GoString} {changes : List (GoString × GoString)}

/-! ### Entries are never taken back -/

/-- Some entry was logged. -/
theorem not_untouched {entry : PCRHistorySchema} {entries : List PCRHistorySchema}
    {db db' : CredentialDatabase} (h : db'.history = db.history ++ entry :: entries) :
    ¬Untouched db db' := by
  intro huntouched
  have hlength := congrArg List.length (h.symm.trans huntouched.history)
  simp at hlength

/-- Some row was saved, with whatever password. -/
theorem not_untouched_saveCredential {cred : CredentialSchema} (hcred : cred ∈ db.credentials)
    (password : GoString) : ¬Untouched db (db.saveCredential {cred with password := password}) := by
  intro huntouched
  have hstamp := huntouched.updatedAt cred hcred
  have hlater := updatedAt_saveCredential db {cred with password := password}
  exact absurd hstamp (Nat.ne_of_gt hlater)

/-- The history of one table begins that of the other. -/
def Logs (db db' : CredentialDatabase) : Prop := db.history <+: db'.history

theorem Logs.trans (db db' db'' : CredentialDatabase) (h : Logs db db') (h' : Logs db' db'') :
    Logs db db'' := List.IsPrefix.trans h h'

theorem not_untouched_of_logs {entry : PCRHistorySchema} {db db₁ db' : CredentialDatabase}
    (h₁ : db₁.history = db.history ++ [entry]) (h : Logs db₁ db') : ¬Untouched db db' := by
  obtain ⟨rest, hrest⟩ := h
  rw [h₁, List.append_assoc] at hrest
  exact not_untouched hrest.symm

theorem logs_changeOne : Logs db (changeOne teamID credlistName changedBy db change) := by
  unfold changeOne
  split
  · exact List.prefix_refl _
  · exact List.prefix_append _ _

theorem logs_foundByChange {db' : CredentialDatabase}
    (h : db' ∈ foundByChange teamID credlistName change db) : Logs db db' := by
  have hhistory : db'.history = db.history := by
    unfold foundByChange at h
    split at h
    · rw [List.mem_singleton.mp h]
    · simp only [List.mem_cons, List.not_mem_nil, or_false] at h
      rcases h with rfl | rfl | rfl <;> rfl
  show db.history <+: db'.history
  exact hhistory ▸ List.prefix_refl _

theorem logs_resetOne (origMap : GoMap GoString GoString) (db : CredentialDatabase)
    (cred : CredentialSchema) : Logs db (resetOne origMap changedBy db cred) := by
  unfold resetOne
  split
  · exact List.prefix_refl _
  · exact List.prefix_append _ _

theorem logs_foundByReset {origMap : GoMap GoString GoString} {cred : CredentialSchema}
    {db db' : CredentialDatabase} (h : db' ∈ foundByReset origMap changedBy cred db) : Logs db db' := by
  unfold foundByReset at h
  split at h
  · cases h
  · simp only [List.mem_cons, List.not_mem_nil, or_false] at h
    rcases h with rfl | rfl
    · exact List.prefix_refl _
    · exact List.prefix_append _ _

/-- Once a loop has logged an entry, whatever a later query finds has been touched. -/
theorem loopTrail_logged_iff {α : Type} {found : α → CredentialDatabase → List CredentialDatabase}
    {f : CredentialDatabase → α → CredentialDatabase} (hf : ∀ db a, Logs db (f db a))
    (hfound : ∀ a db, ∀ db' ∈ found a db, Logs db db') (xs : List α)
    {entry : PCRHistorySchema} {db₁ : CredentialDatabase}
    (hlogged : db₁.history = db.history ++ [entry]) (n : Nat) :
    (∀ db', (loopTrail found f xs db₁)[n]? = some db' → Untouched db db') ↔
      (loopTrail found f xs db₁).length ≤ n := by
  constructor
  · intro h
    by_contra hlt
    have hquery := List.getElem?_eq_getElem (Nat.lt_of_not_le hlt)
    have hlogs := mem_loopTrail Logs.trans hf hfound xs db₁ _ (List.mem_of_getElem? hquery)
    exact not_untouched_of_logs hlogged hlogs (h _ hquery)
  · intro hle db' hquery
    rw [List.getElem?_eq_none hle] at hquery
    cases hquery

/-! ### Updates -/

theorem exec_updateCredential_known {username password : GoString} {cred : CredentialSchema}
    (hcred : db.credential (teamID, credlistName, username) = some cred)
    (faults : List (Option GoString)) :
    exec (updateCredential teamID credlistName username password changedBy)
        ⟨db, none :: none :: none :: faults⟩ =
      (.ok (), ⟨changed db cred password changedBy, faults⟩) := by
  obtain ⟨hteam, hname⟩ := Prod.mk.inj (key_of_credential hcred)
  obtain ⟨hlist, huser⟩ := Prod.mk.inj hname
  subst hteam hlist huser
  have hread : exec (select (fun db => db.credential (cred.teamID, cred.credlistName, cred.username)))
      ⟨db, none :: none :: none :: faults⟩ = (.ok (some cred), ⟨db, none :: none :: faults⟩) := by
    rw [← hcred]
    rfl
  rw [updateCredential, exec_bind_ok hread]
  rfl

/-- A query that fails is the one whose error the change returns. -/
theorem exec_updateCredential_cut {username password : GoString} {n : Nat} {e : GoString}
    {found : CredentialDatabase}
    (h : (foundByChange teamID credlistName (username, password) db)[n]? = some found) :
    exec (updateCredential teamID credlistName username password changedBy) ⟨db, failAt n e⟩ =
      (.error e, ⟨found, []⟩) := by
  unfold foundByChange at h
  split at h
  · cases n with
    | zero =>
      obtain rfl := Option.some.inj h
      rfl
    | succ n => cases h
  · rename_i cred hcred
    have hread : ∀ faults : List (Option GoString), exec (select (fun db =>
        db.credential (teamID, credlistName, username))) ⟨db, none :: faults⟩ =
        (.ok (some cred), ⟨db, faults⟩) := by
      intro faults
      rw [← hcred]
      rfl
    match n with
    | 0 =>
      obtain rfl := Option.some.inj h
      rfl
    | 1 =>
      obtain rfl := Option.some.inj h
      rw [updateCredential]
      exact exec_bind_ok (hread [some e])
    | 2 =>
      obtain rfl := Option.some.inj h
      rw [updateCredential]
      exact exec_bind_ok (hread [none, some e])
    | n + 3 => cases h

/-- One turn: a change that is not cut is made or skipped, and the loop goes on. -/
theorem exec_updateEach_cons (updatedCount : Nat) (skipped : List GoString)
    (faults : List (Option GoString)) :
    ∃ updatedCount' skipped', exec (updateEach teamID credlistName changedBy (change :: changes)
        updatedCount skipped) ⟨db, List.replicate
          (foundByChange teamID credlistName change db).length none ++ faults⟩ =
      exec (updateEach teamID credlistName changedBy changes updatedCount' skipped')
        ⟨changeOne teamID credlistName changedBy db change, faults⟩ := by
  obtain ⟨username, password⟩ := change
  unfold foundByChange changeOne
  cases hcred : db.credential (teamID, credlistName, username) with
  | none =>
    refine ⟨updatedCount, skipped ++ [username], ?_⟩
    have hread : exec (updateCredential teamID credlistName username password changedBy)
        ⟨db, none :: faults⟩ = (.error credentialNotFound, ⟨db, faults⟩) := by
      have hselect : exec (select (fun db => db.credential (teamID, credlistName, username)))
          ⟨db, none :: faults⟩ = (.ok none, ⟨db, faults⟩) := by
        rw [← hcred]
        rfl
      rw [updateCredential, exec_bind_ok hselect]
      rfl
    show exec (updateEach _ _ _ _ _ _) ⟨db, none :: faults⟩ = _
    rw [updateEach, exec_bind, exec_attempt, hread]
    simp
  | some cred =>
    refine ⟨updatedCount + 1, skipped, ?_⟩
    show exec (updateEach _ _ _ _ _ _) ⟨db, none :: none :: none :: faults⟩ = _
    rw [updateEach, exec_bind, exec_attempt, exec_updateCredential_known hcred]

/-- The states the queries of a batch find. -/
def foundByUpdate (teamID : Nat) (credlistName changedBy : GoString)
    (changes : List (GoString × GoString)) (db : CredentialDatabase) : List CredentialDatabase :=
  loopTrail (foundByChange teamID credlistName) (changeOne teamID credlistName changedBy) changes db

/-- A failure that is not taken for a missing row ends the batch. -/
theorem exec_updateEach_cut {n : Nat} {e : GoString} (he : e ≠ credentialNotFound)
    {found : CredentialDatabase}
    (h : (foundByUpdate teamID credlistName changedBy changes db)[n]? = some found)
    (updatedCount : Nat) (skipped : List GoString) :
    ∃ updatedCount' skipped', exec (updateEach teamID credlistName changedBy changes updatedCount
        skipped) ⟨db, failAt n e⟩ =
      (.ok (updatedCount', skipped', some e), ⟨found, []⟩) := by
  induction changes generalizing n db updatedCount skipped with
  | nil => cases h
  | cons change rest ih =>
    rw [foundByUpdate, loopTrail] at h
    rcases Nat.lt_or_ge n (foundByChange teamID credlistName change db).length with hlt | hge
    · rw [List.getElem?_append_left hlt] at h
      obtain ⟨username, password⟩ := change
      refine ⟨updatedCount, skipped, ?_⟩
      rw [updateEach, exec_bind, exec_attempt, exec_updateCredential_cut h]
      dsimp only
      rw [if_neg he]
      rfl
    · rw [List.getElem?_append_right hge] at h
      obtain ⟨k, rfl⟩ := Nat.exists_eq_add_of_le hge
      rw [Nat.add_sub_cancel_left] at h
      obtain ⟨updatedCount₁, skipped₁, hstep⟩ := @exec_updateEach_cons teamID credlistName changedBy db
        change rest updatedCount skipped (failAt k e)
      rw [failAt_add, hstep]
      exact ih h updatedCount₁ skipped₁

/-- A batch that ends before the failure, or takes it for a missing row, returns no error. -/
theorem exec_updateEach_past {n : Nat} {e : GoString}
    (h : e = credentialNotFound ∨ (foundByUpdate teamID credlistName changedBy changes db).length ≤ n)
    (updatedCount : Nat) (skipped : List GoString) :
    ∃ updatedCount' skipped' s, exec (updateEach teamID credlistName changedBy changes updatedCount
        skipped) ⟨db, failAt n e⟩ = (.ok (updatedCount', skipped', none), s) := by
  induction changes generalizing n db updatedCount skipped with
  | nil => exact ⟨updatedCount, skipped, _, rfl⟩
  | cons change rest ih =>
    rw [foundByUpdate, loopTrail, List.length_append] at h
    rcases Nat.lt_or_ge n (foundByChange teamID credlistName change db).length with hlt | hge
    · have he : e = credentialNotFound := h.elim id (fun hle => absurd hle (by omega))
      obtain ⟨username, password⟩ := change
      have hcut := @exec_updateCredential_cut teamID credlistName changedBy db username password n e _
        (List.getElem?_eq_getElem hlt)
      rw [updateEach, exec_bind, exec_attempt, hcut]
      dsimp only
      rw [if_pos he, exec_updateEach]
      exact ⟨_, _, _, rfl⟩
    · obtain ⟨k, rfl⟩ := Nat.exists_eq_add_of_le hge
      obtain ⟨updatedCount₁, skipped₁, hstep⟩ := @exec_updateEach_cons teamID credlistName changedBy db
        change rest updatedCount skipped (failAt k e)
      rw [failAt_add, hstep]
      exact ih (h.imp_right (fun hle => by unfold foundByUpdate; omega)) updatedCount₁ skipped₁

theorem length_foundByUpdate :
    (foundByUpdate teamID credlistName changedBy changes db).length =
      updateCalls teamID credlistName db changes := by
  induction changes generalizing db with
  | nil => rfl
  | cons change rest ih =>
    have hknown := @known_changeOne teamID credlistName changedBy db change
    have hrest : updateCalls teamID credlistName (changeOne teamID credlistName changedBy db change) rest =
        updateCalls teamID credlistName db rest := by
      unfold updateCalls
      rw [hknown]
    have hfirst : (foundByChange teamID credlistName change db).length =
        if Known teamID credlistName db change.1 then 3 else 1 := by
      unfold foundByChange Known
      cases db.credential (teamID, credlistName, change.1) <;> rfl
    rw [foundByUpdate, loopTrail, List.length_append, ← foundByUpdate, ih, hrest, hfirst,
      updateCalls, updateCalls, List.map_cons, List.sum_cons]

/-- A name without a row is asked for first, and the count begins after it. -/
theorem updateUntraced_absent (habsent : Known teamID credlistName db change.1 = false) (n : Nat) :
    UpdateUntraced teamID credlistName db (change :: changes) (n + 1) ↔
      UpdateUntraced teamID credlistName db changes n := by
  have hcalls : updateCalls teamID credlistName db (change :: changes) =
      updateCalls teamID credlistName db changes + 1 := by
    simp [updateCalls, habsent, Nat.add_comm]
  have hfirst : firstKnown teamID credlistName db (change :: changes) =
      firstKnown teamID credlistName db changes + 1 := by
    simp [firstKnown, List.findIdx_cons, habsent]
  rw [UpdateUntraced, UpdateUntraced, hcalls, hfirst]
  omega

/-- A name without a row is asked for, and that is all. -/
theorem foundByUpdate_absent (h : db.credential (teamID, credlistName, change.1) = none) :
    foundByUpdate teamID credlistName changedBy (change :: changes) db =
      db :: foundByUpdate teamID credlistName changedBy changes db := by
  have hone : changeOne teamID credlistName changedBy db change = db :=
    changeOne_of_unknown (by simp [Known, h])
  rw [foundByUpdate, loopTrail, hone, foundByChange, h]
  rfl

theorem foundByUpdate_known {cred : CredentialSchema}
    (h : db.credential (teamID, credlistName, change.1) = some cred) :
    foundByUpdate teamID credlistName changedBy (change :: changes) db =
      [db, db, db.saveCredential {cred with password := change.2}] ++
        foundByUpdate teamID credlistName changedBy changes (changed db cred change.2 changedBy) := by
  rw [foundByUpdate, loopTrail, foundByChange, h, changeOne, h]
  rfl

theorem foundByUpdate_untouched_iff (n : Nat) :
    (∀ found, (foundByUpdate teamID credlistName changedBy changes db)[n]? = some found →
      Untouched db found) ↔ UpdateUntraced teamID credlistName db changes n := by
  induction changes generalizing n with
  | nil =>
    refine iff_of_true (fun _ h => nomatch h) (.inl ?_)
    exact Nat.zero_le n
  | cons change rest ih =>
    have hlength := @length_foundByUpdate teamID credlistName changedBy db (change :: rest)
    cases hcred : db.credential (teamID, credlistName, change.1) with
    | none =>
      have habsent : Known teamID credlistName db change.1 = false := by simp [Known, hcred]
      cases n with
      | zero =>
        refine iff_of_true (fun found h => ?_) (.inr (Nat.lt_add_left _ Nat.two_pos))
        rw [foundByUpdate_absent hcred] at h
        obtain rfl := Option.some.inj h
        exact .refl db
      | succ n =>
        rw [foundByUpdate_absent hcred, List.getElem?_cons_succ, ih n, updateUntraced_absent habsent]
    | some cred =>
      have hpresent : Known teamID credlistName db change.1 = true := by simp [Known, hcred]
      have hfirst : firstKnown teamID credlistName db (change :: rest) = 0 := by
        simp [firstKnown, List.findIdx_cons, hpresent]
      rw [UpdateUntraced, hfirst, ← hlength, foundByUpdate_known hcred]
      rcases n with _ | _ | _ | n
      · refine iff_of_true (fun found h => ?_) (.inr (by omega))
        obtain rfl := Option.some.inj h
        exact .refl db
      · refine iff_of_true (fun found h => ?_) (.inr (by omega))
        obtain rfl := Option.some.inj h
        exact .refl db
      · -- The row has been saved, and its entry fails.
        have hsaved := not_untouched_saveCredential (mem_of_first hcred) change.2
        refine iff_of_false (fun h => hsaved (h _ rfl)) ?_
        simp
      · -- The first change has been logged.
        have hrest : (∀ found, (foundByUpdate teamID credlistName changedBy rest
            (changed db cred change.2 changedBy))[n]? = some found → Untouched db found) ↔
              (foundByUpdate teamID credlistName changedBy rest
                (changed db cred change.2 changedBy)).length ≤ n :=
          loopTrail_logged_iff (fun _ _ => logs_changeOne) (fun _ _ _ => logs_foundByChange) rest
            rfl n
        refine hrest.trans ?_
        rw [List.length_append]
        simp
        omega

/-! ### Resets -/

theorem trail_select {α : Type} (f : CredentialDatabase → α) (db : CredentialDatabase) :
    Trail (select f) db [db] (f db, db) := Trail.call id _ db

theorem trail_resetCredential (origMap : GoMap GoString GoString) (cred : CredentialSchema)
    (db : CredentialDatabase) :
    Trail (resetCredential origMap cred.teamID cred.credlistName changedBy cred) db
      (foundByReset origMap changedBy cred db) ((), resetOne origMap changedBy db cred) := by
  unfold resetCredential foundByReset resetOne
  cases origMap.lookup cred.username with
  | none => exact Trail.pure () db
  | some origPassword => exact (Trail.call id _ db).bind (Trail.call id _ _)

theorem length_loopTrail_reset (origMap : GoMap GoString GoString) (creds : List CredentialSchema)
    (db : CredentialDatabase) :
    (loopTrail (foundByReset origMap changedBy) (resetOne origMap changedBy) creds db).length =
      2 * creds.countP (fun cred => (origMap.lookup cred.username).isSome) := by
  induction creds generalizing db with
  | nil => rfl
  | cons cred rest ih =>
    rw [loopTrail, List.length_append, ih, List.countP_cons, foundByReset]
    cases origMap.lookup cred.username with
    | none => simp
    | some origPassword =>
      simp
      omega

theorem loopTrail_reset_untouched_iff (origMap : GoMap GoString GoString)
    (creds : List CredentialSchema) (n : Nat) :
    (∀ found, (loopTrail (foundByReset origMap changedBy) (resetOne origMap changedBy) creds db)[n]? =
        some found → Untouched db found) ↔
      2 * creds.countP (fun cred => (origMap.lookup cred.username).isSome) ≤ n ∨ n = 0 := by
  induction creds with
  | nil =>
    refine iff_of_true (fun _ h => nomatch h) (.inl ?_)
    exact Nat.zero_le n
  | cons cred rest ih =>
    have hlength := @length_loopTrail_reset changedBy origMap (cred :: rest) db
    rw [← hlength]
    cases hlookup : origMap.lookup cred.username with
    | none =>
      have htrail : loopTrail (foundByReset origMap changedBy) (resetOne origMap changedBy)
          (cred :: rest) db =
          loopTrail (foundByReset origMap changedBy) (resetOne origMap changedBy) rest db := by
        rw [loopTrail, foundByReset, resetOne, hlookup]
        rfl
      rw [htrail, ih, length_loopTrail_reset]
    | some origPassword =>
      have htrail : loopTrail (foundByReset origMap changedBy) (resetOne origMap changedBy)
          (cred :: rest) db = [db, db.createHistory ⟨cred.teamID, cred.credlistName, cred.username,
            cred.password, origPassword, changedBy⟩] ++
          loopTrail (foundByReset origMap changedBy) (resetOne origMap changedBy) rest
            (changed db cred origPassword changedBy) := by
        rw [loopTrail, foundByReset, resetOne, hlookup]
      rw [htrail]
      match n with
      | 0 =>
        refine iff_of_true (fun found h => ?_) (.inr rfl)
        obtain rfl := Option.some.inj h
        exact .refl _
      | 1 =>
        refine iff_of_false (fun h => not_untouched rfl (h _ rfl)) ?_
        simp
      | n + 2 =>
        -- The first row has been logged.
        have hrest : (∀ found, (loopTrail (foundByReset origMap changedBy)
            (resetOne origMap changedBy) rest (changed db cred origPassword changedBy))[n]? =
              some found → Untouched db found) ↔
              (loopTrail (foundByReset origMap changedBy) (resetOne origMap changedBy) rest
                (changed db cred origPassword changedBy)).length ≤ n :=
          loopTrail_logged_iff (logs_resetOne origMap) (fun _ _ _ => logs_foundByReset) rest rfl n
        refine hrest.trans ?_
        rw [List.length_append]
        simp
        omega

/-- The rows a reset reads and has an original for, whatever order it lists them in. -/
theorem countP_reset (scan : Scan) (teamID : Nat) (credlistName : GoString) (db : CredentialDatabase) :
    (scan.credentials (db.credentials.filter (fun cred =>
        cred.teamID = teamID && cred.credlistName = credlistName))).countP
      (fun cred => ((originalPasswords scan db credlistName).lookup cred.username).isSome) =
      resettable teamID credlistName db := by
  have hlookup : ∀ username, ((originalPasswords scan db credlistName).lookup username).isSome =
      (db.original credlistName username).isSome := by
    intro username
    rw [Bool.eq_iff_iff, originalPasswords, GoMap.isSome_lookup_foldl_insert,
      CredentialDatabase.original, first_isSome]
    simp [(scan.originals_perm _).mem_iff, OriginalCredentialSchema.key, and_assoc]
  rw [(scan.credentials_perm _).countP_eq, List.countP_filter, List.countP_eq_length_filter, resettable]
  congr 1
  apply List.filter_congr
  intro cred _
  rw [hlookup, Bool.and_comm]

theorem trail_resetTeamCredlist (scan : Scan) (teamID : Nat) (credlistName changedBy : GoString)
    (db : CredentialDatabase) :
    ∃ loop r, Trail (resetTeamCredlist scan teamID credlistName changedBy) db ([db] ++ ([db] ++ loop)) r ∧
      ∀ n, (∀ found, loop[n]? = some found → Untouched db found) ↔
        2 * resettable teamID credlistName db ≤ n ∨ n = 0 := by
  have hmem := mem_teamRows scan db teamID credlistName
  have hcount := countP_reset scan teamID credlistName db
  generalize hcreds : scan.credentials (db.credentials.filter (fun cred =>
    cred.teamID = teamID && cred.credlistName = credlistName)) = creds at hmem hcount
  generalize horig : originalPasswords scan db credlistName = origMap at hcount
  have hloop : Trail (creds.forM (resetCredential origMap teamID credlistName changedBy)) db
      (loopTrail (foundByReset origMap changedBy)
        (fun db cred => resetOne origMap changedBy db cred) creds db)
      (⟨⟩, creds.foldl (resetOne origMap changedBy) db) := by
    refine Trail.forM creds (fun cred hcred db => ?_) db
    obtain ⟨-, rfl, rfl⟩ := (hmem cred).mp hcred
    exact trail_resetCredential origMap cred db
  refine ⟨loopTrail (foundByReset origMap changedBy)
    (fun db cred => resetOne origMap changedBy db cred) creds db,
    (⟨⟩, creds.foldl (resetOne origMap changedBy) db), ?_, fun n => ?_⟩
  · rw [resetTeamCredlist]
    refine (trail_select _ db).bind ?_
    dsimp only
    rw [hcreds]
    refine (trail_select _ db).bind ?_
    rw [← horig] at hloop ⊢
    exact hloop
  · rw [← hcount]
    exact loopTrail_reset_untouched_iff origMap creds n

/-! ### The calls -/

/-- The error an update returns. -/
def updateError (reply : Except GoString (Option (Nat × List GoString × Option GoString))) :
    Option GoString :=
  match reply with
  | .ok (some (_, _, err)) => err
  | _ => none

theorem update_untraced_iff {site : CredentialSite} {usernames passwords : List GoString}
    (hlength : usernames.length = passwords.length) (haccept : Admits site teamID credlistName)
    (n : Nat) (e : GoString) :
    let run := exec (updateCredentials site teamID credlistName usernames passwords)
      ⟨site.db, failAt n e⟩
    ((∃ err, updateError run.1 = some err) → Untouched site.db run.2.state) ↔
      e = credentialNotFound ∨
        UpdateUntraced teamID credlistName site.db (usernames.zip passwords) n := by
  rw [updateCredentials, if_neg (by simpa using haccept.1), if_neg (by simpa using haccept.2),
    if_neg (not_not_intro hlength)]
  dsimp only
  rw [← foundByUpdate_untouched_iff]
  by_cases hpast : e = credentialNotFound ∨ (foundByUpdate teamID credlistName
      (GoText.str "team" ++ Decimal.decimal teamID) (usernames.zip passwords) site.db).length ≤ n
  · obtain ⟨updatedCount, skipped, s, hrun⟩ := exec_updateEach_past hpast 0 []
    rw [exec_bind_ok hrun]
    refine iff_of_true (fun h => absurd h ?_) (hpast.imp_right fun hle found h => ?_)
    · show ¬∃ err, (none : Option GoString) = some err
      simp
    · rw [List.getElem?_eq_none hle] at h
      cases h
  · obtain ⟨he, hlt⟩ := not_or.mp hpast
    have hfound := List.getElem?_eq_getElem (Nat.lt_of_not_le hlt)
    obtain ⟨updatedCount, skipped, hrun⟩ := exec_updateEach_cut he hfound 0 []
    rw [exec_bind_ok hrun, hfound]
    constructor
    · intro h
      right
      intro found heq
      obtain rfl := Option.some.inj heq
      exact h ⟨e, rfl⟩
    · intro h _
      exact (h.resolve_left he) _ rfl

theorem reset_untraced_iff {site : CredentialSite} (scan : Scan) (changedBy : GoString)
    (haccept : Admits site teamID credlistName) (n : Nat) (e : GoString) :
    let run := exec (resetCredentials scan site teamID credlistName changedBy) ⟨site.db, failAt n e⟩
    ((∃ err, run.1 = .error err) → Untouched site.db run.2.state) ↔
      ResetUntraced teamID credlistName site.db n := by
  obtain ⟨loop, r, htrail, hloop⟩ :=
    trail_resetTeamCredlist scan teamID credlistName changedBy site.db
  rw [resetCredentials, if_neg (by simpa using haccept.1), if_neg (by simpa using haccept.2)]
  dsimp only
  rw [htrail.error_imp_iff (fun _ => ⟨some (), rfl⟩) (Untouched site.db), ResetUntraced]
  have hsame : ∀ found, some site.db = some found → Untouched site.db found := by
    intro found h
    obtain rfl := Option.some.inj h
    exact .refl _
  rcases n with _ | _ | n
  · exact iff_of_true hsame (.inr (by omega))
  · exact iff_of_true hsame (.inr (by omega))
  · show (∀ found, loop[n]? = some found → Untouched site.db found) ↔ _
    rw [hloop]
    omega

/-- One query of a call fails. Where the call then returns an error, credentials and history
are as before if it is refused anyway, and otherwise exactly if the query comes before the
call's first write. -/
theorem untraced_iff (site : CredentialSite) (scan : Scan) (teamID : Nat)
    (credlistName changedBy : GoString) (usernames passwords : List GoString) (n : Nat)
    (e : GoString) :
    let update := exec (updateCredentials site teamID credlistName usernames passwords)
      ⟨site.db, failAt n e⟩
    let reset := exec (resetCredentials scan site teamID credlistName changedBy)
      ⟨site.db, failAt n e⟩
    (((∃ err, updateError update.1 = some err) → Untouched site.db update.2.state) ↔
      ¬Admits site teamID credlistName ∨ usernames.length ≠ passwords.length ∨
        e = credentialNotFound ∨
        UpdateUntraced teamID credlistName site.db (usernames.zip passwords) n) ∧
    (((∃ err, reset.1 = .error err) → Untouched site.db reset.2.state) ↔
      ¬Admits site teamID credlistName ∨ ResetUntraced teamID credlistName site.db n) := by
  dsimp only
  by_cases haccept : Admits site teamID credlistName
  · refine ⟨?_, ?_⟩
    · by_cases hlength : usernames.length = passwords.length
      · refine (update_untraced_iff hlength haccept n e).trans ?_
        simp [haccept, hlength]
      · refine iff_of_true (fun _ => ?_) (.inr (.inl hlength))
        rw [updateCredentials, if_neg (by simpa using haccept.1), if_neg (by simpa using haccept.2),
          if_pos hlength]
        exact .refl _
    · refine (reset_untraced_iff scan changedBy haccept n e).trans ?_
      simp [haccept]
  · refine ⟨iff_of_true (fun _ => ?_) (.inl haccept), iff_of_true (fun _ => ?_) (.inl haccept)⟩
    · unfold updateCredentials
      split
      · exact .refl _
      split
      · exact .refl _
      · rename_i hlist hmutex
        exact absurd ⟨by simpa using hlist, by simpa using hmutex⟩ haccept
    · unfold resetCredentials
      split
      · exact .refl _
      split
      · exact .refl _
      · rename_i hlist hmutex
        exact absurd ⟨by simpa using hlist, by simpa using hmutex⟩ haccept

/-- The password of `a` is saved and its entry is not: the batch returns the error of the
entry. Then the entry of a reset is logged and its row is not saved. -/
theorem failure_traced :
    let site := freshSite.step twoRecords (.seed Scan.plain [])
    let update := exec (updateCredentials site 1 [108] [[97]] [[120]]) ⟨site.db, failAt 2 [101]⟩
    let reset := exec (resetCredentials Scan.plain site 1 [108] [100]) ⟨site.db, failAt 3 [101]⟩
    (updateError update.1 = some [101] ∧ ¬Untouched site.db update.2.state ∧
      update.2.state.credentials.map CredentialSchema.password = [[120], [50]] ∧
      update.2.state.history = []) ∧
    (reset.1 = .error [101] ∧ ¬Untouched site.db reset.2.state ∧
      reset.2.state.credentials = site.db.credentials ∧ reset.2.state.history.length = 1) := by
  intro site update reset
  refine ⟨⟨by decide +kernel, fun h => ?_, by decide +kernel, by decide +kernel⟩,
    ⟨by decide +kernel, fun h => ?_, by decide +kernel, by decide +kernel⟩⟩
  · have hpassword := congrArg (List.map CredentialSchema.password) h.credentials
    revert hpassword
    decide +kernel
  · have hlength := congrArg List.length h.history
    revert hlength
    decide +kernel

end QuotientScoring.Engine
