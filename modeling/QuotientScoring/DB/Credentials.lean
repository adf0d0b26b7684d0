import QuotientScoring.DB.Schema
import QuotientScoring.Lib.GoMap
import QuotientScoring.Lib.GoText
import QuotientScoring.Lib.Keyed
import QuotientScoring.Lib.Program

/-! The credential tables, and the calls that write them.

Each call is a program whose every query may fail. Rows are listed in the order
they were created and carry no ids: a row of `original_credential_schemas` or of
`credential_schemas` is known by the columns of its unique index. The column `updated_at`
of the latter is kept beside the rows, so that rows can be compared by what was set in
them. A query without an order lists its rows as its `Scan` does. -/
namespace QuotientScoring.DB
open GoText Keyed

structure OriginalCredentialSchema where
  credlistName : GoString
  username : GoString
  password : GoString
deriving DecidableEq, Repr

structure CredentialSchema where
  teamID : Nat
  credlistName : GoString
  username : GoString
  password : GoString
deriving DecidableEq, Repr

structure PCRHistorySchema where
  teamID : Nat
  credlistName : GoString
  username : GoString
  oldPassword : GoString
  newPassword : GoString
  changedBy : GoString
deriving DecidableEq, Repr

def OriginalCredentialSchema.key (row : OriginalCredentialSchema) : GoString × GoString :=
  (row.credlistName, row.username)

def CredentialSchema.key (row : CredentialSchema) : Nat × GoString × GoString :=
  (row.teamID, row.credlistName, row.username)

def PCRHistorySchema.key (row : PCRHistorySchema) : Nat × GoString × GoString :=
  (row.teamID, row.credlistName, row.username)

structure CredentialDatabase extends Database where
  originals : List OriginalCredentialSchema := []
  credentials : List CredentialSchema := []
  history : List PCRHistorySchema := []
  /-- The rows of `credential_schemas` that were created or saved, one after another. The place of
  a write is the time it was made at: the clock moves on from one write to the next. -/
  written : List (Nat × GoString × GoString) := []
deriving DecidableEq, Repr

/-- The order in which a query lists its rows when it asks for none. -/
structure Scan where
  originals : List OriginalCredentialSchema → List OriginalCredentialSchema
  originals_perm : ∀ rows, (originals rows).Perm rows
  credentials : List CredentialSchema → List CredentialSchema
  credentials_perm : ∀ rows, (credentials rows).Perm rows

def Scan.plain : Scan := ⟨id, fun _ => .refl _, id, fun _ => .refl _⟩

namespace CredentialDatabase
variable (db : CredentialDatabase)

def original (credlistName username : GoString) : Option OriginalCredentialSchema :=
  first OriginalCredentialSchema.key db.originals (credlistName, username)

def credential (key : Nat × GoString × GoString) : Option CredentialSchema :=
  first CredentialSchema.key db.credentials key

def firstOrCreateOriginal (row : OriginalCredentialSchema) : CredentialDatabase :=
  {db with originals := firstOrCreate OriginalCredentialSchema.key db.originals row}

/-- The column `updated_at`: the time of the last write to the row. -/
def updatedAt (key : Nat × GoString × GoString) : Nat :=
  (db.written.reverse.dropWhile (fun other => other ≠ key)).length

def firstOrCreateCredential (row : CredentialSchema) : CredentialDatabase :=
  { db with
    credentials := firstOrCreate CredentialSchema.key db.credentials row
    written := if (db.credential row.key).isSome then db.written else db.written ++ [row.key] }

/-- `Save` stamps the row. -/
def saveCredential (row : CredentialSchema) : CredentialDatabase :=
  { db with
    credentials := save CredentialSchema.key db.credentials row
    written := db.written ++ [row.key] }

def createHistory (row : PCRHistorySchema) : CredentialDatabase :=
  {db with history := db.history ++ [row]}

end CredentialDatabase

/-! ### The calls -/

abbrev Queries (α : Type) := Program (Faulty CredentialDatabase GoString) GoString α

/-- A query that only reads. -/
def select {α : Type} (f : CredentialDatabase → α) : Queries α :=
  Program.call id (fun db => (f db, db))

def write (f : CredentialDatabase → CredentialDatabase) : Queries Unit :=
  Program.call id (fun db => ((), f db))

@[simp] theorem exec_select {α : Type} (f : CredentialDatabase → α) (db : CredentialDatabase) :
    Program.exec (select f) ⟨db, []⟩ = (.ok (f db), ⟨db, []⟩) := rfl

def seedOriginalCredentials (credlistName : GoString) (credentials : List (List GoString)) :
    Queries Unit :=
  credentials.forM fun cred =>
    match cred with
    | [username, password] =>
      write (fun db => db.firstOrCreateOriginal ⟨credlistName, username, password⟩)
    | _ => pure ()

def seedTeamCredentials (scan : Scan) (teamID : Nat) : Queries Unit := do
  let originals ← select (fun db => scan.originals db.originals)
  originals.forM fun orig =>
    write (fun db =>
      db.firstOrCreateCredential ⟨teamID, orig.credlistName, orig.username, orig.password⟩)

def getAllTeamCredentials (scan : Scan) (teamID : Nat) : Queries (List CredentialSchema) :=
  select (fun db => scan.credentials (db.credentials.filter (fun cred => cred.teamID = teamID)))

def isCredentialsSeeded : Queries Bool := select (fun db => db.originals.length > 0)

def getOriginalCredentials (scan : Scan) (credlistName : GoString) :
    Queries (List OriginalCredentialSchema) :=
  select (fun db => scan.originals (db.originals.filter (fun orig => orig.credlistName = credlistName)))

/-- The text by which `UpdateCredentials` knows a missing row from a failure. -/
def credentialNotFound : GoString := str "credential not found"

def updateCredential (teamID : Nat) (credlistName username newPassword changedBy : GoString) :
    Queries Unit := do
  match ← select (fun db => db.credential (teamID, credlistName, username)) with
  | none => throw credentialNotFound
  | some cred =>
    write (fun db => db.saveCredential {cred with password := newPassword})
    write (fun db => db.createHistory
      ⟨teamID, credlistName, username, cred.password, newPassword, changedBy⟩)

/-- A row goes back to its original password, if it has one: logged, then saved. -/
def resetCredential (origMap : GoMap GoString GoString) (teamID : Nat)
    (credlistName changedBy : GoString) (cred : CredentialSchema) : Queries Unit :=
  match origMap.lookup cred.username with
  | none => pure ()
  | some origPassword => do
    write (fun db => db.createHistory
      ⟨teamID, credlistName, cred.username, cred.password, origPassword, changedBy⟩)
    write (fun db => db.saveCredential {cred with password := origPassword})

def resetTeamCredlist (scan : Scan) (teamID : Nat) (credlistName changedBy : GoString) :
    Queries Unit := do
  let currentCreds ← select (fun db => scan.credentials (db.credentials.filter (fun cred =>
    cred.teamID = teamID && cred.credlistName = credlistName)))
  let originals ← getOriginalCredentials scan credlistName
  let origMap := originals.foldl (fun origMap orig => origMap.insert orig.username orig.password)
    (∅ : GoMap GoString GoString)
  currentCreds.forM (resetCredential origMap teamID credlistName changedBy)

/-! ### What the tables hold -/

/-- A row that is saved is stamped later than ever before. -/
theorem updatedAt_saveCredential (db : CredentialDatabase) (row : CredentialSchema) :
    db.updatedAt row.key < (db.saveCredential row).updatedAt row.key := by
  have hold : db.updatedAt row.key ≤ db.written.length := by
    rw [← List.length_reverse]
    exact (List.dropWhile_sublist _).length_le
  have hnew : (db.saveCredential row).updatedAt row.key = db.written.length + 1 := by
    simp [CredentialDatabase.updatedAt, CredentialDatabase.saveCredential]
  omega

/-- The rows that a reset of a team's credlist reads. -/
theorem mem_teamRows (scan : Scan) (db : CredentialDatabase) (teamID : Nat)
    (credlistName : GoString) (cred : CredentialSchema) :
    cred ∈ scan.credentials (db.credentials.filter (fun cred =>
        cred.teamID = teamID && cred.credlistName = credlistName)) ↔
      cred ∈ db.credentials ∧ cred.teamID = teamID ∧ cred.credlistName = credlistName := by
  rw [(scan.credentials_perm _).mem_iff]
  simp

theorem nodup_teamRows (scan : Scan) {db : CredentialDatabase}
    (hnd : (db.credentials.map CredentialSchema.key).Nodup) (teamID : Nat)
    (credlistName : GoString) :
    ((scan.credentials (db.credentials.filter (fun cred =>
      cred.teamID = teamID && cred.credlistName = credlistName))).map CredentialSchema.key).Nodup :=
  ((scan.credentials_perm _).map _).nodup_iff.mpr ((List.filter_sublist.map _).nodup hnd)

theorem key_of_credential {db : CredentialDatabase} {key : Nat × GoString × GoString}
    {cred : CredentialSchema} (h : db.credential key = some cred) : cred.key = key :=
  key_of_first h

/-- The password of the first record of two fields with this user name. -/
def firstPassword (records : List (List GoString)) (username : GoString) : Option GoString :=
  records.findSome? fun cred =>
    match cred with
    | [user, password] => if user = username then some password else none
    | _ => none

/-- What is first in the first records is first in all of them. -/
theorem firstPassword_of_prefix {read records : List (List GoString)} (h : read <+: records)
    {username password : GoString} (hp : firstPassword read username = some password) :
    firstPassword records username = some password := by
  obtain ⟨rest, rfl⟩ := h
  rw [firstPassword, List.findSome?_append]
  exact Option.or_eq_some_iff.mpr (.inl hp)

/-- The rows `SeedOriginalCredentials` writes, where none has their keys. -/
def originalsOf (credlistName : GoString) (records : List (List GoString)) :
    List OriginalCredentialSchema :=
  records.filterMap fun cred =>
    match cred with
    | [username, password] => some ⟨credlistName, username, password⟩
    | _ => none

theorem first_originalsOf (credlistName : GoString) (records : List (List GoString))
    (name username : GoString) :
    first OriginalCredentialSchema.key (originalsOf credlistName records) (name, username) =
      if name = credlistName then
        (firstPassword records username).map (OriginalCredentialSchema.mk credlistName username)
      else none := by
  induction records with
  | nil => simp [originalsOf, first, firstPassword]
  | cons cred rest ih =>
    rcases cred with _ | ⟨user, _ | ⟨password, _ | ⟨_, _⟩⟩⟩
    · exact ih
    · exact ih
    · have hcons : originalsOf credlistName ([user, password] :: rest) =
          [⟨credlistName, user, password⟩] ++ originalsOf credlistName rest := rfl
      rw [hcons, first_append, ih]
      by_cases hname : name = credlistName
      · subst hname
        by_cases huser : user = username
        · simp [first, firstPassword, OriginalCredentialSchema.key, huser]
        · simp [first, firstPassword, OriginalCredentialSchema.key, huser]
      · have hname' : ¬credlistName = name := fun h => hname h.symm
        simp [first, OriginalCredentialSchema.key, hname, hname']
    · exact ih

end QuotientScoring.DB
