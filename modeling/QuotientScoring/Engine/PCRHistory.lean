import QuotientScoring.Engine.Seeding

/-! The history of password changes.

Every change of a password is saved and logged, in one order by `UpdateCredential`
and in the other by `ResetTeamCredlist`; `changed` is what both leave. `Audited` says
of every row that the entries of its history lead, one after another, from its
original password to the one it holds. Seedings keep it wherever they are cut, and so
do updates and resets whose queries succeed: `history_chains`. -/
namespace QuotientScoring.Engine
open DB Program Keyed Transition

/-- The entries lead from one password to another. -/
def Chain (first : GoString) : List PCRHistorySchema → GoString → Prop
  | [], last => last = first
  | entry :: rest, last => entry.oldPassword = first ∧ Chain entry.newPassword rest last

theorem chain_append {first last : GoString} {entries : List PCRHistorySchema}
    (h : Chain first entries last) {entry : PCRHistorySchema} (hold : entry.oldPassword = last) :
    Chain first (entries ++ [entry]) entry.newPassword := by
  induction entries generalizing first with
  | nil =>
    obtain rfl : last = first := h
    exact ⟨hold, rfl⟩
  | cons head rest ih => exact ⟨h.1, ih h.2⟩

/-- The entries of a row, in the order of their creation. -/
def historyOf (db : CredentialDatabase) (key : Nat × GoString × GoString) :
    List PCRHistorySchema :=
  db.history.filter (fun entry => entry.key = key)

/-- The history of every row leads from its original password to its own, and where
there is no row there is no history. -/
structure Audited (db : CredentialDatabase) : Prop where
  chained : ∀ key cred, db.credential key = some cred →
    ∃ orig ∈ db.originals, orig.key = key.2 ∧ Chain orig.password (historyOf db key) cred.password
  unlogged : ∀ key, db.credential key = none → historyOf db key = []

/-! ### Seeding -/

theorem Audited.extends {records : GoString → List (List GoString)} {db db' : CredentialDatabase}
    (h : Audited db) (hext : Extends records db db') : Audited db' := by
  have hhistory : ∀ key, historyOf db' key = historyOf db key := by
    intro key
    rw [historyOf, hext.history, historyOf]
  refine ⟨fun key cred hcred => ?_, fun key hnone => ?_⟩
  · rw [hhistory]
    rcases hext.credential_new key cred hcred with hold | ⟨hnone, orig, horig, rfl⟩
    · obtain ⟨orig, horig, hkey, hchain⟩ := h.chained key cred hold
      exact ⟨orig, hext.originals_sub orig horig, hkey, hchain⟩
    · rw [h.unlogged key hnone]
      exact ⟨orig, horig, congrArg Prod.snd (key_of_credential hcred), rfl⟩
  · rw [hhistory]
    apply h.unlogged
    cases hdb : db.credential key with
    | none => rfl
    | some cred =>
      rw [hext.credential_kept key cred hdb] at hnone
      cases hnone

/-! ### One change -/

/-- A row gets a new password, and the change is logged. -/
def changed (db : CredentialDatabase) (cred : CredentialSchema) (newPassword changedBy : GoString) :
    CredentialDatabase :=
  (db.saveCredential {cred with password := newPassword}).createHistory
    ⟨cred.teamID, cred.credlistName, cred.username, cred.password, newPassword, changedBy⟩

theorem credential_changed (db : CredentialDatabase) (cred : CredentialSchema)
    (newPassword changedBy : GoString) (key : Nat × GoString × GoString) :
    (changed db cred newPassword changedBy).credential key =
      (db.credential key).map
        (fun row => if cred.key = key then {cred with password := newPassword} else row) :=
  first_save _ _ _

theorem historyOf_changed (db : CredentialDatabase) (cred : CredentialSchema)
    (newPassword changedBy : GoString) (key : Nat × GoString × GoString) :
    historyOf (changed db cred newPassword changedBy) key =
      historyOf db key ++ (if cred.key = key then
        [⟨cred.teamID, cred.credlistName, cred.username, cred.password, newPassword, changedBy⟩]
      else []) := by
  have hkey : ∀ entry : PCRHistorySchema, entry = ⟨cred.teamID, cred.credlistName, cred.username,
      cred.password, newPassword, changedBy⟩ → entry.key = cred.key := fun _ h => h ▸ rfl
  show (db.history ++ [_]).filter _ = _
  rw [List.filter_append]
  by_cases h : cred.key = key
  · rw [if_pos h, List.filter_singleton, hkey _ rfl, decide_eq_true h]
    rfl
  · rw [if_neg h, List.filter_singleton, hkey _ rfl, decide_eq_false h]
    rfl

theorem Audited.changed {db : CredentialDatabase} (h : Audited db) {cred : CredentialSchema}
    (hcred : db.credential cred.key = some cred) (newPassword changedBy : GoString) :
    Audited (changed db cred newPassword changedBy) := by
  refine ⟨fun key row hrow => ?_, fun key hnone => ?_⟩
  · rw [credential_changed] at hrow
    rw [historyOf_changed]
    by_cases hkey : cred.key = key
    · subst hkey
      rw [hcred, Option.map_some, if_pos rfl] at hrow
      obtain rfl := Option.some.inj hrow
      obtain ⟨orig, horig, hk, hchain⟩ := h.chained _ cred hcred
      rw [if_pos rfl]
      exact ⟨orig, horig, hk, chain_append hchain rfl⟩
    · simp only [if_neg hkey, Option.map_id'] at hrow
      rw [if_neg hkey, List.append_nil]
      exact h.chained key row hrow
  · rw [credential_changed, Option.map_eq_none_iff] at hnone
    have hne : cred.key ≠ key := by
      rintro rfl
      rw [hcred] at hnone
      cases hnone
    rw [historyOf_changed, if_neg hne, List.append_nil]
    exact h.unlogged key hnone

/-! ### Updates -/

theorem exec_updateCredential (teamID : Nat)
    (credlistName username newPassword changedBy : GoString) (db : CredentialDatabase) :
    exec (updateCredential teamID credlistName username newPassword changedBy) ⟨db, []⟩ =
      match db.credential (teamID, credlistName, username) with
      | none => (.error credentialNotFound, ⟨db, []⟩)
      | some cred => (.ok (), ⟨changed db cred newPassword changedBy, []⟩) := by
  cases hcred : db.credential (teamID, credlistName, username) with
  | none =>
    rw [updateCredential, exec_bind_ok (exec_select _ _)]
    simp only [hcred]
    rfl
  | some cred =>
    obtain ⟨hteam, hname⟩ := Prod.mk.inj (key_of_credential hcred)
    obtain ⟨hlist, huser⟩ := Prod.mk.inj hname
    subst hteam hlist huser
    rw [updateCredential, exec_bind_ok (exec_select _ _)]
    simp only [hcred]
    rfl

/-- With no faults, every change is made or skipped. -/
theorem audited_updateEach (teamID : Nat) (credlistName changedBy : GoString)
    (changes : List (GoString × GoString)) (updatedCount : Nat) (skipped : List GoString)
    {db : CredentialDatabase} (h : Audited db) :
    ∃ reply db', exec (updateEach teamID credlistName changedBy changes updatedCount skipped)
      ⟨db, []⟩ = (.ok reply, ⟨db', []⟩) ∧ Audited db' := by
  induction changes generalizing updatedCount skipped db with
  | nil => exact ⟨_, db, rfl, h⟩
  | cons change rest ih =>
    obtain ⟨username, password⟩ := change
    rw [updateEach, exec_bind, exec_attempt, exec_updateCredential]
    cases hcred : db.credential (teamID, credlistName, username) with
    | none => simpa using ih updatedCount (skipped ++ [username]) h
    | some cred =>
      have hkey : db.credential cred.key = some cred := by
        rw [key_of_credential hcred]
        exact hcred
      exact ih (updatedCount + 1) skipped (h.changed hkey password changedBy)

theorem audited_updateCredentials (site : CredentialSite) (teamID : Nat) (credlistName : GoString)
    (usernames passwords : List GoString) (h : Audited site.db) :
    Audited (exec (updateCredentials site teamID credlistName usernames passwords)
      ⟨site.db, []⟩).2.state := by
  unfold updateCredentials
  split
  · exact h
  split
  · exact h
  split
  · exact h
  · obtain ⟨reply, db', hrun, haudited⟩ := audited_updateEach teamID credlistName
      (GoText.str "team" ++ Decimal.decimal teamID) (usernames.zip passwords) 0 [] h
    rw [exec_bind_ok hrun]
    exact haudited

/-! ### Resets -/

theorem exec_resetCredential (origMap : GoMap GoString GoString) (changedBy : GoString)
    (cred : CredentialSchema) (db : CredentialDatabase) :
    exec (resetCredential origMap cred.teamID cred.credlistName changedBy cred) ⟨db, []⟩ =
      match origMap.lookup cred.username with
      | none => (.ok (), ⟨db, []⟩)
      | some origPassword => (.ok (), ⟨changed db cred origPassword changedBy, []⟩) := by
  unfold resetCredential
  cases origMap.lookup cred.username <;> rfl

/-- The rows that were read are reset one by one. Each is still as it was read when its
turn comes: no two have one key. -/
theorem audited_resetEach (origMap : GoMap GoString GoString) (teamID : Nat)
    (credlistName changedBy : GoString) (creds : List CredentialSchema) {db : CredentialDatabase}
    (h : Audited db) (hnd : (creds.map CredentialSchema.key).Nodup)
    (hteam : ∀ cred ∈ creds, cred.teamID = teamID ∧ cred.credlistName = credlistName)
    (hcreds : ∀ cred ∈ creds, db.credential cred.key = some cred) :
    ∃ db', exec (creds.forM (resetCredential origMap teamID credlistName changedBy)) ⟨db, []⟩ =
      (.ok (), ⟨db', []⟩) ∧ Audited db' := by
  induction creds generalizing db with
  | nil => exact ⟨db, rfl, h⟩
  | cons cred rest ih =>
    obtain ⟨hnot, hrest⟩ := List.nodup_cons.mp hnd
    obtain ⟨rfl, rfl⟩ := hteam cred (List.mem_cons_self ..)
    have hteam' := fun c hc => hteam c (List.mem_cons_of_mem _ hc)
    have hcreds' := fun c hc => hcreds c (List.mem_cons_of_mem _ hc)
    rw [exec_forM_cons, exec_bind, exec_resetCredential]
    cases origMap.lookup cred.username with
    | none => exact ih h hrest hteam' hcreds'
    | some origPassword =>
      have hcred := hcreds cred (List.mem_cons_self ..)
      refine ih (h.changed hcred origPassword changedBy) hrest hteam' fun c hc => ?_
      have hne : cred.key ≠ c.key := fun heq => hnot (heq ▸ List.mem_map_of_mem hc)
      rw [credential_changed, hcreds' c hc, Option.map_some, if_neg hne]

theorem audited_resetCredentials (scan : Scan) (site : CredentialSite) (teamID : Nat)
    (credlistName changedBy : GoString) (h : Audited site.db)
    (hnd : (site.db.credentials.map CredentialSchema.key).Nodup) :
    Audited (exec (resetCredentials scan site teamID credlistName changedBy)
      ⟨site.db, []⟩).2.state := by
  unfold resetCredentials
  split
  · exact h
  split
  · exact h
  · have hmem := mem_teamRows scan site.db teamID credlistName
    obtain ⟨db', hrun, haudited⟩ := audited_resetEach _ teamID credlistName changedBy _ h
      (nodup_teamRows scan hnd teamID credlistName)
      (fun cred hcred => ((hmem cred).mp hcred).2)
      (fun cred hcred => first_key hnd ((hmem cred).mp hcred).1)
    have hreset : exec (resetTeamCredlist scan teamID credlistName changedBy) ⟨site.db, []⟩ =
        (.ok (), ⟨db', []⟩) := by
      rw [resetTeamCredlist, exec_bind_ok (exec_select _ _), getOriginalCredentials,
        exec_bind_ok (exec_select _ _)]
      exact hrun
    rw [exec_bind_ok hreset]
    exact haudited

/-! ### Runs -/

/-- The queries of an update or a reset succeed; a seeding may be cut anywhere. -/
def Unfailing (_ : CredentialSite) : CredentialAction → Prop
  | .update _ _ _ _ faults => faults = []
  | .reset _ _ _ _ faults => faults = []
  | _ => True

variable {records : GoString → List (List GoString)}

theorem audited_of_reachable {site : CredentialSite}
    (h : Reachable (credentialRuns records) Unfailing site) : Audited site.db := by
  induction h with
  | initial h =>
    refine ⟨fun key cred hcred => ?_, fun key _ => ?_⟩
    · simp [CredentialDatabase.credential, h.2.1, first] at hcred
    · simp [historyOf, h.2.2]
  | @step site _ action hreach hg hstep ih =>
    obtain rfl := Option.some.inj hstep
    cases action with
    | addTeam _ => exact ⟨ih.chained, ih.unlogged⟩
    | configure _ => exact ih
    | restart => exact ih
    | seed scan faults => exact ih.extends (ensureCredentialsSeeded_spec scan faults site rfl).1
    | update teamID name usernames passwords faults =>
      obtain rfl : faults = [] := hg
      exact audited_updateCredentials site teamID name usernames passwords ih
    | reset scan teamID name changedBy faults =>
      obtain rfl : faults = [] := hg
      exact audited_resetCredentials scan site teamID name changedBy ih
        (sound_of_reachable hreach).credentials_nodup

/-- The history of every row leads from the seeded password to the current one; a team
and user without a row has no history. -/
theorem history_chains {site : CredentialSite}
    (h : Reachable (credentialRuns records) Unfailing site) (key : Nat × GoString × GoString) :
    (∀ cred ∈ site.db.credentials, cred.key = key →
      ∃ orig ∈ site.db.originals, orig.key = key.2 ∧
        Chain orig.password (historyOf site.db key) cred.password) ∧
    ((∀ cred ∈ site.db.credentials, cred.key ≠ key) → historyOf site.db key = []) := by
  have haudited := audited_of_reachable h
  refine ⟨fun cred hmem hkey => ?_, fun hnone => ?_⟩
  · subst hkey
    exact haudited.chained cred.key cred
      (first_key (sound_of_reachable h).credentials_nodup hmem)
  · exact haudited.unlogged key (first_eq_none.mpr hnone)

/-- A team changes one password twice in one request, and is reset. -/
def updatedAndReset : CredentialSite :=
  ((freshSite.step twoRecords (.seed Scan.plain [])).step twoRecords
    (.update 1 [108] [[97], [97]] [[120], [121]] [])).step twoRecords
      (.reset Scan.plain 1 [108] [100] [])

theorem history_chains_reset :
    (historyOf updatedAndReset.db (1, [108], [97])).map
        (fun entry => (entry.oldPassword, entry.newPassword)) =
      [([49], [120]), ([120], [121]), ([121], [49])] ∧
    ∃ orig ∈ updatedAndReset.db.originals, orig.key = ([108], [97]) ∧
      Chain orig.password (historyOf updatedAndReset.db (1, [108], [97])) [49] := by
  have hreach : Reachable (credentialRuns twoRecords) Unfailing updatedAndReset :=
    .step (a := .reset Scan.plain 1 [108] [100] [])
      (.step (a := .update 1 [108] [[97], [97]] [[120], [121]] [])
        (.step (a := .seed Scan.plain []) (.initial ⟨rfl, rfl, rfl⟩) trivial rfl) rfl rfl) rfl rfl
  refine ⟨by decide +kernel, ?_⟩
  exact (history_chains hreach (1, [108], [97])).1 ⟨1, [108], [97], [49]⟩ (by decide +kernel) rfl

end QuotientScoring.Engine
