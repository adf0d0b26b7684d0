import QuotientScoring.DB.Credentials

/-! What the two seeding calls do to the credential tables, whole or cut.

`addOriginals` and `addTeam` are the whole work of `SeedOriginalCredentials` and of
`SeedTeamCredentials`. `Extends` is all that is left to say of a call that was cut:
rows stay, an original that is new has the first password of its user in its
credlist's records, and a credential that is new has the password of an original. -/
namespace QuotientScoring.DB
open Keyed

/-- What `SeedOriginalCredentials` does when no query fails. -/
def addOriginals (credlistName : GoString) (records : List (List GoString))
    (db : CredentialDatabase) : CredentialDatabase :=
  { db with
    originals :=
      (originalsOf credlistName records).foldl (firstOrCreate OriginalCredentialSchema.key)
        db.originals }

/-- The row a team gets for an original. -/
def OriginalCredentialSchema.forTeam (teamID : Nat) (orig : OriginalCredentialSchema) :
    CredentialSchema :=
  ⟨teamID, orig.credlistName, orig.username, orig.password⟩

/-- What `SeedTeamCredentials` does, given the originals it read. -/
def addRows (teamID : Nat) (originals : List OriginalCredentialSchema) (db : CredentialDatabase) :
    CredentialDatabase :=
  originals.foldl (fun db orig => db.firstOrCreateCredential (orig.forTeam teamID)) db

def addTeam (scan : Scan) (teamID : Nat) (db : CredentialDatabase) : CredentialDatabase :=
  addRows teamID (scan.originals db.originals) db

/-! ### The rows afterwards -/

theorem credentials_addRows (teamID : Nat) (originals : List OriginalCredentialSchema)
    (db : CredentialDatabase) : (addRows teamID originals db).credentials =
      (originals.map (fun orig => orig.forTeam teamID)).foldl (firstOrCreate CredentialSchema.key)
        db.credentials := by
  induction originals generalizing db with
  | nil => rfl
  | cons orig rest ih => exact ih (db.firstOrCreateCredential (orig.forTeam teamID))

@[simp] theorem originals_addRows (teamID : Nat) (originals : List OriginalCredentialSchema)
    (db : CredentialDatabase) : (addRows teamID originals db).originals = db.originals := by
  induction originals generalizing db with
  | nil => rfl
  | cons orig rest ih => exact ih (db.firstOrCreateCredential (orig.forTeam teamID))

@[simp] theorem history_addRows (teamID : Nat) (originals : List OriginalCredentialSchema)
    (db : CredentialDatabase) : (addRows teamID originals db).history = db.history := by
  induction originals generalizing db with
  | nil => rfl
  | cons orig rest ih => exact ih (db.firstOrCreateCredential (orig.forTeam teamID))

@[simp] theorem toDatabase_addRows (teamID : Nat) (originals : List OriginalCredentialSchema)
    (db : CredentialDatabase) : (addRows teamID originals db).toDatabase = db.toDatabase := by
  induction originals generalizing db with
  | nil => rfl
  | cons orig rest ih => exact ih (db.firstOrCreateCredential (orig.forTeam teamID))

theorem original_addOriginals (credlistName : GoString) (records : List (List GoString))
    (db : CredentialDatabase) (name username : GoString) :
    (addOriginals credlistName records db).original name username =
      (db.original name username).or
        (if name = credlistName then
          (firstPassword records username).map (OriginalCredentialSchema.mk credlistName username)
        else none) := by
  unfold CredentialDatabase.original addOriginals
  rw [first_foldl, first_originalsOf]

@[simp] theorem originals_addTeam (scan : Scan) (teamID : Nat) (db : CredentialDatabase) :
    (addTeam scan teamID db).originals = db.originals := originals_addRows ..

theorem credential_addRows (teamID : Nat) (originals : List OriginalCredentialSchema)
    (db : CredentialDatabase) (key : Nat × GoString × GoString) :
    (addRows teamID originals db).credential key =
      (db.credential key).or
        (first CredentialSchema.key (originals.map (fun orig => orig.forTeam teamID)) key) := by
  rw [CredentialDatabase.credential, credentials_addRows, first_foldl]
  rfl

/-- A team that was seeded has a row for each original. -/
theorem credential_addTeam (scan : Scan) (teamID : Nat) {db : CredentialDatabase}
    {orig : OriginalCredentialSchema} (h : orig ∈ db.originals) :
    ((addTeam scan teamID db).credential (teamID, orig.key)).isSome := by
  have hnew : (first CredentialSchema.key
      ((scan.originals db.originals).map (fun orig => orig.forTeam teamID))
      (teamID, orig.key)).isSome :=
    first_isSome.mpr ⟨orig.forTeam teamID,
      List.mem_map_of_mem ((scan.originals_perm _).mem_iff.mpr h), rfl⟩
  rw [addTeam, credential_addRows, Option.isSome_or, hnew, Bool.or_true]

/-- Seeding a team writes no other team's rows. -/
theorem credential_addTeam_ne (scan : Scan) {teamID other : Nat} (hne : teamID ≠ other)
    (db : CredentialDatabase) (name : GoString × GoString) :
    (addTeam scan teamID db).credential (other, name) = db.credential (other, name) := by
  have hnone : first CredentialSchema.key
      ((scan.originals db.originals).map (fun orig => orig.forTeam teamID)) (other, name) = none := by
    apply first_eq_none.mpr
    intro cred hcred hkey
    obtain ⟨orig, _, rfl⟩ := List.mem_map.mp hcred
    exact hne (congrArg Prod.fst hkey)
  rw [addTeam, credential_addRows, hnone, Option.or_none]

/-! ### What a cut call leaves -/

/-- What seeding does to the tables, wherever it stops. -/
structure Extends (records : GoString → List (List GoString)) (db db' : CredentialDatabase) :
    Prop where
  database : db'.toDatabase = db.toDatabase
  history : db'.history = db.history
  original_kept : ∀ name username orig, db.original name username = some orig →
    db'.original name username = some orig
  credential_kept : ∀ key cred, db.credential key = some cred → db'.credential key = some cred
  original_new : ∀ name username orig, db'.original name username = some orig →
    db.original name username = some orig ∨
      firstPassword (records name) username = some orig.password
  credential_new : ∀ key cred, db'.credential key = some cred →
    db.credential key = some cred ∨
      (db.credential key = none ∧ ∃ orig ∈ db'.originals, cred = orig.forTeam key.1)
  originals_nodup : (db.originals.map OriginalCredentialSchema.key).Nodup →
    (db'.originals.map OriginalCredentialSchema.key).Nodup
  credentials_nodup : (db.credentials.map CredentialSchema.key).Nodup →
    (db'.credentials.map CredentialSchema.key).Nodup
  originals_sub : ∀ orig ∈ db.originals, orig ∈ db'.originals

variable {records : GoString → List (List GoString)}

theorem Extends.refl (db : CredentialDatabase) : Extends records db db where
  database := rfl
  history := rfl
  original_kept _ _ _ h := h
  credential_kept _ _ h := h
  original_new _ _ _ h := .inl h
  credential_new _ _ h := .inl h
  originals_nodup h := h
  credentials_nodup h := h
  originals_sub _ h := h

theorem Extends.trans {db db' db'' : CredentialDatabase} (h : Extends records db db')
    (h' : Extends records db' db'') : Extends records db db'' where
  database := h'.database.trans h.database
  history := h'.history.trans h.history
  original_kept name username orig hs := h'.original_kept _ _ _ (h.original_kept _ _ _ hs)
  credential_kept key cred hs := h'.credential_kept _ _ (h.credential_kept _ _ hs)
  original_new name username orig hs := by
    rcases h'.original_new _ _ _ hs with hmid | hfirst
    · exact h.original_new _ _ _ hmid
    · exact .inr hfirst
  credential_new key cred hs := by
    rcases h'.credential_new _ _ hs with hmid | ⟨hnone, hnew⟩
    · rcases h.credential_new _ _ hmid with hold | ⟨hnone, orig, horig, hrow⟩
      · exact .inl hold
      · exact .inr ⟨hnone, orig, h'.originals_sub orig horig, hrow⟩
    · refine .inr ⟨?_, hnew⟩
      cases hdb : db.credential key with
      | none => rfl
      | some old =>
        rw [h.credential_kept _ _ hdb] at hnone
        cases hnone
  originals_nodup hnd := h'.originals_nodup (h.originals_nodup hnd)
  credentials_nodup hnd := h'.credentials_nodup (h.credentials_nodup hnd)
  originals_sub orig hmem := h'.originals_sub orig (h.originals_sub orig hmem)

/-- Folds of extensions extend. -/
theorem Extends.foldl {α : Type} {f : CredentialDatabase → α → CredentialDatabase}
    (hf : ∀ db a, Extends records db (f db a)) (xs : List α) (db : CredentialDatabase) :
    Extends records db (xs.foldl f db) := by
  induction xs generalizing db with
  | nil => exact Extends.refl db
  | cons x rest ih => exact (hf db x).trans (ih (f db x))

theorem Extends.original_isSome {db db' : CredentialDatabase} (h : Extends records db db')
    {name username : GoString} (hs : (db.original name username).isSome) :
    (db'.original name username).isSome := by
  obtain ⟨orig, horig⟩ := Option.isSome_iff_exists.mp hs
  rw [h.original_kept _ _ _ horig, Option.isSome_some]

theorem Extends.credential_isSome {db db' : CredentialDatabase} (h : Extends records db db')
    {key : Nat × GoString × GoString} (hs : (db.credential key).isSome) :
    (db'.credential key).isSome := by
  obtain ⟨cred, hcred⟩ := Option.isSome_iff_exists.mp hs
  rw [h.credential_kept _ _ hcred, Option.isSome_some]

/-- The originals of the first records of a credlist. -/
theorem extends_addOriginals {credlistName : GoString} {read : List (List GoString)}
    (hread : read <+: records credlistName) (db : CredentialDatabase) :
    Extends records db (addOriginals credlistName read db) where
  database := rfl
  history := rfl
  original_kept name username orig hs := by rw [original_addOriginals, hs, Option.some_or]
  credential_kept _ _ hs := hs
  original_new name username orig hs := by
    rw [original_addOriginals] at hs
    rcases Option.or_eq_some_iff.mp hs with hold | ⟨_, hnew⟩
    · exact .inl hold
    · right
      split at hnew
      · rename_i hname
        subst hname
        obtain ⟨password, hfirst, rfl⟩ := Option.map_eq_some_iff.mp hnew
        exact firstPassword_of_prefix hread hfirst
      · cases hnew
  credential_new _ _ hs := .inl hs
  originals_nodup hnd := nodup_foldl _ hnd
  credentials_nodup hnd := hnd
  originals_sub _ hmem := mem_foldl _ hmem

/-- The rows of a team for some of the originals. -/
theorem extends_addRows (teamID : Nat) {originals : List OriginalCredentialSchema}
    {db : CredentialDatabase} (hsub : ∀ orig ∈ originals, orig ∈ db.originals) :
    Extends records db (addRows teamID originals db) where
  database := toDatabase_addRows ..
  history := history_addRows ..
  original_kept _ _ _ hs := by rwa [CredentialDatabase.original, originals_addRows]
  credential_kept key cred hs := by rw [credential_addRows, hs, Option.some_or]
  original_new _ _ _ hs := by
    rw [CredentialDatabase.original, originals_addRows] at hs
    exact .inl hs
  credential_new key cred hs := by
    rw [credential_addRows] at hs
    rw [originals_addRows]
    rcases Option.or_eq_some_iff.mp hs with hold | ⟨hnone, hnew⟩
    · exact .inl hold
    · obtain ⟨orig, horig, rfl⟩ := List.mem_map.mp (mem_of_first hnew)
      obtain rfl := key_of_first hnew
      exact .inr ⟨hnone, orig, hsub orig horig, rfl⟩
  originals_nodup hnd := by rwa [originals_addRows]
  credentials_nodup hnd := by
    rw [credentials_addRows]
    exact nodup_foldl _ hnd
  originals_sub _ hmem := by rwa [originals_addRows]

theorem extends_addTeam (scan : Scan) (teamID : Nat) (db : CredentialDatabase) :
    Extends records db (addTeam scan teamID db) :=
  extends_addRows teamID fun _ horig => (scan.originals_perm _).mem_iff.mp horig

/-! ### The calls perform it -/

theorem performs_select {α : Type} (f : CredentialDatabase → α) (db : CredentialDatabase) :
    Program.Performs (Extends records) (select f) db (f db, db) :=
  Program.Performs.call (Extends.refl db) id _

/-- The originals, written one by one. -/
theorem addOriginals_eq_foldl (credlistName : GoString) (read : List (List GoString))
    (db : CredentialDatabase) :
    addOriginals credlistName read db =
      read.foldl (fun db cred =>
        match cred with
        | [username, password] => db.firstOrCreateOriginal ⟨credlistName, username, password⟩
        | _ => db) db := by
  induction read generalizing db with
  | nil => rfl
  | cons cred rest ih =>
    rw [List.foldl_cons, ← ih]
    match cred with
    | [_, _] => rfl
    | [] => rfl
    | [_] => rfl
    | _ :: _ :: _ :: _ => rfl

theorem performs_bind {α β : Type} {x : Queries α} {k : α → Queries β} {a : α}
    {r : β × CredentialDatabase} {db db₁ : CredentialDatabase}
    (hx : Program.Performs (Extends records) x db (a, db₁))
    (hrel : Extends records db db₁) (hk : Program.Performs (Extends records) (k a) db₁ r) :
    Program.Performs (Extends records) (x >>= k) db r :=
  Program.Performs.bind (R := Extends records) (fun _ _ _ => Extends.trans) hx hrel hk

theorem performs_forM {α : Type} {g : α → Queries Unit}
    {f : CredentialDatabase → α → CredentialDatabase} (hf : ∀ db a, Extends records db (f db a))
    (hg : ∀ a db, Program.Performs (Extends records) (g a) db ((), f db a)) (xs : List α)
    (db : CredentialDatabase) :
    Program.Performs (Extends records) (xs.forM g) db ((), xs.foldl f db) :=
  Program.Performs.forM (R := Extends records) (fun _ _ _ => Extends.trans) (fun a db => hf db a) hg
    xs db

theorem performs_seedOriginalCredentials (credlistName : GoString) (db : CredentialDatabase) :
    Program.Performs (Extends records)
      (seedOriginalCredentials credlistName (records credlistName)) db
      ((), addOriginals credlistName (records credlistName) db) := by
  rw [addOriginals_eq_foldl]
  refine (Program.Performs.forM_prefix ?_ (records credlistName) db).mono ?_
  · intro cred db
    match cred with
    | [_, _] => exact Program.Performs.call rfl _ _
    | [] => exact Program.Performs.pure _ _
    | [_] => exact Program.Performs.pure _ _
    | _ :: _ :: _ :: _ => exact Program.Performs.pure _ _
  · rintro _ ⟨written, hpre, rfl⟩
    rw [← addOriginals_eq_foldl]
    exact extends_addOriginals hpre db

theorem performs_seedTeamCredentials (scan : Scan) (teamID : Nat) (db : CredentialDatabase) :
    Program.Performs (Extends records) (seedTeamCredentials scan teamID) db
      ((), addTeam scan teamID db) := by
  refine performs_bind (performs_select _ db) (Extends.refl db) ?_
  refine (Program.Performs.forM_prefix ?_ (scan.originals db.originals) db).mono ?_
  · intro orig db
    exact Program.Performs.call rfl _ _
  · rintro _ ⟨written, hpre, rfl⟩
    have hsub : ∀ orig ∈ written, orig ∈ db.originals := fun _ horig =>
      (scan.originals_perm _).mem_iff.mp (hpre.subset horig)
    exact extends_addRows teamID hsub

end QuotientScoring.DB
