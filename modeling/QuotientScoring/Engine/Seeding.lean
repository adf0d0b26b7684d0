import QuotientScoring.Engine.Credentials

/-! Seeding, cut anywhere and started again.

`EnsureCredentialsSeeded` decides what is left to do by asking whether there is any
original at all, any row of a team, any original of a credlist; what it does, it
does row by row. `addCredentials` is what a call does that returns, and `Extends`
what every call does. `seeding_converges_iff`: a call that returns leaves everything
in place exactly if the tables it found were `Resumable`: no credlist and, unless
all teams are seeded again, no team had been left with some rows but not all. -/
namespace QuotientScoring.Engine
open DB Program Transition

variable (records : GoString → List (List GoString))

/-! ### What a call does that returns -/

def addCredlist (db : CredentialDatabase) (credlistPath : GoString) : CredentialDatabase :=
  addOriginals credlistPath (records credlistPath) db

def addTeams (scan : Scan) (teams : List TeamSchema) (db : CredentialDatabase) :
    CredentialDatabase :=
  teams.foldl (fun db team => addTeam scan team.id db) db

def addNewTeam (scan : Scan) (db : CredentialDatabase) (team : TeamSchema) : CredentialDatabase :=
  if ∀ cred ∈ db.credentials, cred.teamID ≠ team.id then addTeam scan team.id db else db

def addNewCredlist (scan : Scan) (teams : List TeamSchema) (db : CredentialDatabase)
    (credlistPath : GoString) : CredentialDatabase :=
  if ∀ orig ∈ db.originals, orig.credlistName ≠ credlistPath then
    addTeams scan teams (addCredlist records db credlistPath)
  else db

def addCredentials (scan : Scan) (credlistPaths : List GoString) (teams : List TeamSchema)
    (db : CredentialDatabase) : CredentialDatabase :=
  if db.originals = [] then
    addTeams scan teams (credlistPaths.foldl (addCredlist records) db)
  else
    credlistPaths.foldl (addNewCredlist records scan teams) (teams.foldl (addNewTeam scan) db)

variable {records}

theorem extends_addCredlist (db : CredentialDatabase) (credlistPath : GoString) :
    Extends records db (addCredlist records db credlistPath) :=
  extends_addOriginals (List.prefix_refl _) db

theorem extends_addTeams (scan : Scan) (teams : List TeamSchema) (db : CredentialDatabase) :
    Extends records db (addTeams scan teams db) :=
  Extends.foldl (fun db team => extends_addTeam scan team.id db) teams db

theorem extends_addNewTeam (scan : Scan) (db : CredentialDatabase) (team : TeamSchema) :
    Extends records db (addNewTeam scan db team) := by
  unfold addNewTeam
  split
  · exact extends_addTeam scan team.id db
  · exact Extends.refl db

theorem extends_addNewCredlist (scan : Scan) (teams : List TeamSchema) (db : CredentialDatabase)
    (credlistPath : GoString) :
    Extends records db (addNewCredlist records scan teams db credlistPath) := by
  unfold addNewCredlist
  split
  · exact (extends_addCredlist db credlistPath).trans (extends_addTeams scan teams _)
  · exact Extends.refl db

theorem extends_addCredentials (scan : Scan) (credlistPaths : List GoString)
    (teams : List TeamSchema) (db : CredentialDatabase) :
    Extends records db (addCredentials records scan credlistPaths teams db) := by
  unfold addCredentials
  split
  · exact (Extends.foldl extends_addCredlist credlistPaths db).trans (extends_addTeams scan teams _)
  · exact (Extends.foldl (extends_addNewTeam scan) teams db).trans
      (Extends.foldl (extends_addNewCredlist scan teams) credlistPaths _)

/-! ### The program performs it -/

theorem performs_seedCredlist (credlistPath : GoString) (db : CredentialDatabase) :
    Performs (Extends records) (seedCredlist records credlistPath) db
      ((), addCredlist records db credlistPath) := by
  have hopen : Performs (Extends records) safeOpenInDir db ((), db) :=
    performs_bind (Performs.wrap _ (performs_select _ db))
      (Extends.refl db) (performs_select _ db)
  refine performs_bind (Performs.wrap _ hopen) (Extends.refl db) ?_
  refine performs_bind (Performs.wrap _ (performs_select _ db))
    (Extends.refl db) ?_
  exact Performs.wrap _ (performs_seedOriginalCredentials credlistPath db)

theorem performs_seedTeam (scan : Scan) (team : TeamSchema) (db : CredentialDatabase) :
    Performs (Extends records) (seedTeam scan team) db ((), addTeam scan team.id db) :=
  Performs.wrap _ (performs_seedTeamCredentials scan team.id db)

theorem performs_seedTeams (scan : Scan) (teams : List TeamSchema) (db : CredentialDatabase) :
    Performs (Extends records) (teams.forM (seedTeam scan)) db ((), addTeams scan teams db) :=
  performs_forM (fun db team => extends_addTeam scan team.id db) (performs_seedTeam scan) teams db

theorem performs_seedNewTeam (scan : Scan) (team : TeamSchema) (db : CredentialDatabase) :
    Performs (Extends records) (seedNewTeam scan team) db ((), addNewTeam scan db team) := by
  refine performs_bind (Performs.wrap _ (performs_select _ db))
    (Extends.refl db) ?_
  have hempty : (scan.credentials (db.credentials.filter
      (fun cred => cred.teamID = team.id))).length = 0 ↔
        ∀ cred ∈ db.credentials, cred.teamID ≠ team.id := by
    rw [(scan.credentials_perm _).length_eq]
    simp [List.filter_eq_nil_iff]
  unfold addNewTeam
  by_cases hnew : ∀ cred ∈ db.credentials, cred.teamID ≠ team.id
  · rw [if_pos hnew, if_pos (hempty.mpr hnew)]
    exact performs_seedTeam scan team db
  · rw [if_neg hnew, if_neg (fun h => hnew (hempty.mp h))]
    exact Performs.pure _ db

theorem performs_seedNewCredlist (scan : Scan) (teams : List TeamSchema) (credlistPath : GoString)
    (db : CredentialDatabase) :
    Performs (Extends records) (seedNewCredlist records scan teams credlistPath) db
      ((), addNewCredlist records scan teams db credlistPath) := by
  refine performs_bind (Performs.wrap _ (performs_select _ db))
    (Extends.refl db) ?_
  have hempty : (scan.originals (db.originals.filter
      (fun orig => orig.credlistName = credlistPath))).length = 0 ↔
        ∀ orig ∈ db.originals, orig.credlistName ≠ credlistPath := by
    rw [(scan.originals_perm _).length_eq]
    simp [List.filter_eq_nil_iff]
  unfold addNewCredlist
  by_cases hnew : ∀ orig ∈ db.originals, orig.credlistName ≠ credlistPath
  · rw [if_pos hnew, if_pos (hempty.mpr hnew)]
    exact performs_bind (performs_seedCredlist credlistPath db)
      (extends_addCredlist db credlistPath) (performs_seedTeams scan teams _)
  · rw [if_neg hnew, if_neg (fun h => hnew (hempty.mp h))]
    exact Performs.pure _ db

theorem performs_seedCredentials (scan : Scan) (credlistPaths : List GoString)
    (teams : List TeamSchema) (db : CredentialDatabase) :
    Performs (Extends records) (seedCredentials records scan credlistPaths teams) db
      ((), addCredentials records scan credlistPaths teams db) := by
  refine performs_bind (Performs.wrap _ (performs_select _ db))
    (Extends.refl db) ?_
  unfold addCredentials
  by_cases hempty : db.originals = []
  · rw [if_pos hempty, if_pos (by simp [hempty])]
    exact performs_bind
      (performs_forM extends_addCredlist performs_seedCredlist credlistPaths db)
      (Extends.foldl extends_addCredlist credlistPaths db) (performs_seedTeams scan teams _)
  · rw [if_neg hempty, if_neg (by simp [hempty])]
    exact performs_bind
      (performs_forM (extends_addNewTeam scan) (performs_seedNewTeam scan) teams db)
      (Extends.foldl (extends_addNewTeam scan) teams db)
      (performs_forM (extends_addNewCredlist scan teams) (performs_seedNewCredlist scan teams)
        credlistPaths _)

/-! ### Credlists and teams that are in place -/

/-- Every user of the credlist's records has an original. -/
def Complete (records : GoString → List (List GoString)) (db : CredentialDatabase)
    (credlistPath : GoString) : Prop :=
  ∀ username, (firstPassword (records credlistPath) username).isSome →
    (db.original credlistPath username).isSome

/-- There is an original of the credlist. -/
def Listed (db : CredentialDatabase) (credlistPath : GoString) : Prop :=
  ∃ orig ∈ db.originals, orig.credlistName = credlistPath

/-- The team has a row for every original. -/
def Provided (db : CredentialDatabase) (teamID : Nat) : Prop :=
  ∀ orig ∈ db.originals, (db.credential (teamID, orig.key)).isSome

/-- The team has a row. -/
def HasRow (db : CredentialDatabase) (teamID : Nat) : Prop :=
  ∃ cred ∈ db.credentials, cred.teamID = teamID

theorem hasRow_iff {db : CredentialDatabase} {teamID : Nat} :
    HasRow db teamID ↔ ∃ name, (db.credential (teamID, name)).isSome := by
  constructor
  · rintro ⟨cred, hmem, rfl⟩
    exact ⟨(cred.credlistName, cred.username), Keyed.first_isSome.mpr ⟨cred, hmem, rfl⟩⟩
  · rintro ⟨name, hname⟩
    obtain ⟨cred, hmem, hkey⟩ := Keyed.first_isSome.mp hname
    exact ⟨cred, hmem, congrArg Prod.fst hkey⟩

theorem Complete.extends {db db' : CredentialDatabase} {path : GoString}
    (hc : Complete records db path) (h : Extends records db db') : Complete records db' path :=
  fun username hfirst => h.original_isSome (hc username hfirst)

theorem Provided.extends {db db' : CredentialDatabase} {teamID : Nat} (hp : Provided db teamID)
    (h : Extends records db db') (horig : db'.originals = db.originals) : Provided db' teamID := by
  intro orig hmem
  rw [horig] at hmem
  exact h.credential_isSome (hp orig hmem)

/-! ### One credlist -/

theorem complete_addCredlist (db : CredentialDatabase) (path : GoString) :
    Complete records (addCredlist records db path) path := by
  intro username hfirst
  obtain ⟨password, hpassword⟩ := Option.isSome_iff_exists.mp hfirst
  rw [addCredlist, original_addOriginals, if_pos rfl, hpassword, Option.map_some]
  cases db.original path username <;> rfl

theorem original_addCredlist_ne {path other : GoString} (hne : other ≠ path)
    (db : CredentialDatabase) (username : GoString) :
    (addCredlist records db path).original other username = db.original other username := by
  rw [addCredlist, original_addOriginals, if_neg hne, Option.or_none]

@[simp] theorem originals_addTeams (scan : Scan) (teams : List TeamSchema)
    (db : CredentialDatabase) : (addTeams scan teams db).originals = db.originals := by
  induction teams generalizing db with
  | nil => rfl
  | cons team rest ih => exact (ih (addTeam scan team.id db)).trans (originals_addTeam ..)

theorem original_addNewCredlist_ne (scan : Scan) (teams : List TeamSchema) {path other : GoString}
    (hne : other ≠ path) (db : CredentialDatabase) (username : GoString) :
    (addNewCredlist records scan teams db path).original other username =
      db.original other username := by
  unfold addNewCredlist
  split
  · rw [CredentialDatabase.original, originals_addTeams]
    exact original_addCredlist_ne hne db username
  · rfl

theorem listed_iff {db : CredentialDatabase} {path : GoString} :
    Listed db path ↔ ∃ username, (db.original path username).isSome := by
  constructor
  · rintro ⟨orig, hmem, rfl⟩
    exact ⟨orig.username, Keyed.first_isSome.mpr ⟨orig, hmem, rfl⟩⟩
  · rintro ⟨username, hname⟩
    obtain ⟨orig, hmem, hkey⟩ := Keyed.first_isSome.mp hname
    exact ⟨orig, hmem, congrArg Prod.fst hkey⟩

theorem listed_addNewCredlist_ne (scan : Scan) (teams : List TeamSchema) {path other : GoString}
    (hne : other ≠ path) (db : CredentialDatabase) :
    Listed (addNewCredlist records scan teams db path) other ↔ Listed db other := by
  simp only [listed_iff, original_addNewCredlist_ne scan teams hne]

theorem addNewCredlist_of_listed (scan : Scan) (teams : List TeamSchema) {path : GoString}
    {db : CredentialDatabase} (h : Listed db path) :
    addNewCredlist records scan teams db path = db := by
  obtain ⟨orig, hmem, hname⟩ := h
  exact if_neg fun hnone => hnone orig hmem hname

theorem addNewCredlist_of_not_listed (scan : Scan) (teams : List TeamSchema) {path : GoString}
    {db : CredentialDatabase} (h : ¬Listed db path) :
    addNewCredlist records scan teams db path =
      addTeams scan teams (addCredlist records db path) :=
  if_pos fun orig hmem hname => h ⟨orig, hmem, hname⟩

/-! ### One team -/

theorem provided_addTeam (scan : Scan) (teamID : Nat) (db : CredentialDatabase) :
    Provided (addTeam scan teamID db) teamID := by
  intro orig hmem
  rw [originals_addTeam] at hmem
  exact credential_addTeam scan teamID hmem

theorem provided_addTeams (scan : Scan) {teams : List TeamSchema} {team : TeamSchema}
    (h : team ∈ teams) (db : CredentialDatabase) :
    Provided (addTeams scan teams db) team.id := by
  induction teams generalizing db with
  | nil => cases h
  | cons head rest ih =>
    rcases List.mem_cons.mp h with rfl | hrest
    · have hext : Extends (fun _ => []) (addTeam scan team.id db)
          (addTeams scan rest (addTeam scan team.id db)) := extends_addTeams scan rest _
      exact (provided_addTeam scan team.id db).extends hext (originals_addTeams scan rest _)
    · exact ih hrest (addTeam scan head.id db)

@[simp] theorem originals_addNewTeam (scan : Scan) (db : CredentialDatabase) (team : TeamSchema) :
    (addNewTeam scan db team).originals = db.originals := by
  unfold addNewTeam
  split
  · exact originals_addTeam scan team.id db
  · rfl

@[simp] theorem originals_addNewTeams (scan : Scan) (teams : List TeamSchema)
    (db : CredentialDatabase) :
    (teams.foldl (addNewTeam scan) db).originals = db.originals := by
  induction teams generalizing db with
  | nil => rfl
  | cons team rest ih => rw [List.foldl_cons, ih, originals_addNewTeam]

theorem addNewTeam_of_hasRow (scan : Scan) {team : TeamSchema} {db : CredentialDatabase}
    (h : HasRow db team.id) : addNewTeam scan db team = db := by
  obtain ⟨cred, hmem, hid⟩ := h
  exact if_neg fun hnone => hnone cred hmem hid

theorem addNewTeam_of_not_hasRow (scan : Scan) {team : TeamSchema} {db : CredentialDatabase}
    (h : ¬HasRow db team.id) : addNewTeam scan db team = addTeam scan team.id db :=
  if_pos fun cred hmem hid => h ⟨cred, hmem, hid⟩

theorem credential_addNewTeam_ne (scan : Scan) {team : TeamSchema} {other : Nat}
    (hne : team.id ≠ other) (db : CredentialDatabase) (name : GoString × GoString) :
    (addNewTeam scan db team).credential (other, name) = db.credential (other, name) := by
  unfold addNewTeam
  split
  · exact credential_addTeam_ne scan hne db name
  · rfl

/-! ### All credlists and all teams -/

/-- A credlist that has an original is left as it is. -/
theorem original_addNewCredlists (scan : Scan) (teams : List TeamSchema) (paths : List GoString)
    {path : GoString} {db : CredentialDatabase} (h : Listed db path) (username : GoString) :
    (paths.foldl (addNewCredlist records scan teams) db).original path username =
      db.original path username := by
  induction paths generalizing db with
  | nil => rfl
  | cons head rest ih =>
    rw [List.foldl_cons]
    by_cases hhead : path = head
    · subst hhead
      rw [addNewCredlist_of_listed scan teams h]
      exact ih h
    · rw [ih ((listed_addNewCredlist_ne scan teams hhead db).mpr h),
        original_addNewCredlist_ne scan teams hhead]

/-- Where every credlist is listed, nothing is done. -/
theorem addNewCredlists_of_listed (scan : Scan) (teams : List TeamSchema) {paths : List GoString}
    {db : CredentialDatabase} (h : ∀ path ∈ paths, Listed db path) :
    paths.foldl (addNewCredlist records scan teams) db = db := by
  induction paths with
  | nil => rfl
  | cons head rest ih =>
    rw [List.foldl_cons, addNewCredlist_of_listed scan teams (h head (List.mem_cons_self ..))]
    exact ih fun path hpath => h path (List.mem_cons_of_mem _ hpath)

/-- Where no credlist is left half seeded, all are complete in the end. -/
theorem complete_addNewCredlists (scan : Scan) (teams : List TeamSchema) {paths : List GoString}
    {db : CredentialDatabase} (h : ∀ path ∈ paths, Listed db path → Complete records db path) :
    ∀ path ∈ paths, Complete records (paths.foldl (addNewCredlist records scan teams) db) path := by
  induction paths generalizing db with
  | nil => exact fun _ hpath => nomatch hpath
  | cons head rest ih =>
    rw [List.foldl_cons]
    have hhead : Complete records (addNewCredlist records scan teams db head) head := by
      by_cases hl : Listed db head
      · rw [addNewCredlist_of_listed scan teams hl]
        exact h head (List.mem_cons_self ..) hl
      · rw [addNewCredlist_of_not_listed scan teams hl]
        exact (complete_addCredlist db head).extends (extends_addTeams scan teams _)
    intro path hpath
    rcases List.mem_cons.mp hpath with rfl | hrest
    · exact hhead.extends (Extends.foldl (extends_addNewCredlist scan teams) rest _)
    · refine ih (fun other hother hl => ?_) path hrest
      by_cases hne : other = head
      · rw [hne]
        exact hhead
      · have hold := h other (List.mem_cons_of_mem _ hother)
          ((listed_addNewCredlist_ne scan teams hne db).mp hl)
        exact hold.extends (extends_addNewCredlist scan teams db head)

/-- All teams are seeded again with a new credlist, if there is one. -/
theorem provided_addNewCredlists (scan : Scan) {teams : List TeamSchema} {paths : List GoString}
    {db : CredentialDatabase}
    (h : (∀ team ∈ teams, Provided db team.id) ∨ ∃ path ∈ paths, ¬Listed db path) :
    ∀ team ∈ teams,
      Provided (paths.foldl (addNewCredlist records scan teams) db) team.id := by
  induction paths generalizing db with
  | nil =>
    rcases h with h | ⟨_, hpath, _⟩
    · exact h
    · cases hpath
  | cons head rest ih =>
    rw [List.foldl_cons]
    apply ih
    by_cases hl : Listed db head
    · rw [addNewCredlist_of_listed scan teams hl]
      refine h.imp id fun ⟨path, hpath, hnot⟩ => ⟨path, ?_, hnot⟩
      rcases List.mem_cons.mp hpath with rfl | hrest
      · exact absurd hl hnot
      · exact hrest
    · rw [addNewCredlist_of_not_listed scan teams hl]
      exact .inl fun team hteam => provided_addTeams scan hteam _

/-- A team that has a row is left as it is. -/
theorem credential_addNewTeams (scan : Scan) (teams : List TeamSchema) {teamID : Nat}
    {db : CredentialDatabase} (h : HasRow db teamID) (name : GoString × GoString) :
    (teams.foldl (addNewTeam scan) db).credential (teamID, name) =
      db.credential (teamID, name) := by
  induction teams generalizing db with
  | nil => rfl
  | cons head rest ih =>
    rw [List.foldl_cons]
    by_cases hhead : head.id = teamID
    · subst hhead
      rw [addNewTeam_of_hasRow scan h]
      exact ih h
    · have hrow : HasRow (addNewTeam scan db head) teamID := by
        obtain ⟨name', hname⟩ := hasRow_iff.mp h
        exact hasRow_iff.mpr ⟨name', by rwa [credential_addNewTeam_ne scan hhead]⟩
      rw [ih hrow, credential_addNewTeam_ne scan hhead]

/-- Where no team is left half seeded, all are provided for in the end. -/
theorem provided_addNewTeams (scan : Scan) {teams : List TeamSchema} {db : CredentialDatabase}
    (h : ∀ team ∈ teams, HasRow db team.id → Provided db team.id) :
    ∀ team ∈ teams, Provided (teams.foldl (addNewTeam scan) db) team.id := by
  induction teams generalizing db with
  | nil => exact fun _ hteam => nomatch hteam
  | cons head rest ih =>
    rw [List.foldl_cons]
    have hext : Extends (fun _ => []) db (addNewTeam scan db head) :=
      extends_addNewTeam scan db head
    have hhead : Provided (addNewTeam scan db head) head.id := by
      by_cases hrow : HasRow db head.id
      · rw [addNewTeam_of_hasRow scan hrow]
        exact h head (List.mem_cons_self ..) hrow
      · rw [addNewTeam_of_not_hasRow scan hrow]
        exact provided_addTeam scan head.id db
    intro team hteam
    rcases List.mem_cons.mp hteam with rfl | hrest
    · have hrest : Extends (fun _ => []) (addNewTeam scan db team)
          (rest.foldl (addNewTeam scan) (addNewTeam scan db team)) :=
        Extends.foldl (extends_addNewTeam scan) rest _
      exact hhead.extends hrest (originals_addNewTeams scan rest _)
    · refine ih (fun other hother hrow => ?_) team hrest
      by_cases hid : head.id = other.id
      · rw [← hid]
        exact hhead
      · have hrow' : HasRow db other.id := by
          obtain ⟨name, hname⟩ := hasRow_iff.mp hrow
          rw [credential_addNewTeam_ne scan hid] at hname
          exact hasRow_iff.mpr ⟨name, hname⟩
        exact (h other (List.mem_cons_of_mem _ hother) hrow').extends hext
          (originals_addNewTeam scan db head)

/-! ### One call -/

/-- What a call that returned left behind is what it should: the tables follow the
configuration and the teams. -/
structure Settled (records : GoString → List (List GoString)) (paths : List GoString)
    (teams : List TeamSchema) (db : CredentialDatabase) : Prop where
  complete : ∀ path ∈ paths, Complete records db path
  provided : ∀ team ∈ teams, Provided db team.id

/-- No credlist has been left with some of its originals and, unless all teams will be
seeded again, no team with some of its rows. -/
structure Resumable (records : GoString → List (List GoString)) (paths : List GoString)
    (teams : List TeamSchema) (db : CredentialDatabase) : Prop where
  credlists : ∀ path ∈ paths, Listed db path → Complete records db path
  teams : db.originals = [] ∨ (∃ path ∈ paths, ¬Listed db path) ∨
    ∀ team ∈ teams, HasRow db team.id → Provided db team.id

theorem settled_of_resumable (scan : Scan) {paths : List GoString} {teams : List TeamSchema}
    {db : CredentialDatabase} (h : Resumable records paths teams db) :
    Settled records paths teams (addCredentials records scan paths teams db) := by
  unfold addCredentials
  split
  · refine ⟨fun path hpath => ?_, fun team hteam => provided_addTeams scan hteam _⟩
    obtain ⟨before, after, rfl⟩ := List.append_of_mem hpath
    rw [List.foldl_append, List.foldl_cons]
    exact ((complete_addCredlist _ path).extends
      (Extends.foldl extends_addCredlist after _)).extends (extends_addTeams scan teams _)
  · rename_i hne
    have hlisted : ∀ path, Listed (teams.foldl (addNewTeam scan) db) path ↔ Listed db path := by
      intro path
      unfold Listed
      rw [originals_addNewTeams]
    refine ⟨complete_addNewCredlists scan teams fun path hpath hl => ?_,
      provided_addNewCredlists scan ?_⟩
    · exact (h.credlists path hpath ((hlisted path).mp hl)).extends
        (Extends.foldl (extends_addNewTeam scan) teams db)
    · rcases h.teams with hnil | ⟨path, hpath, hnot⟩ | hteams
      · exact absurd hnil hne
      · exact .inr ⟨path, hpath, fun hl => hnot ((hlisted path).mp hl)⟩
      · exact .inl (provided_addNewTeams scan hteams)

theorem resumable_of_settled (scan : Scan) {paths : List GoString} {teams : List TeamSchema}
    {db : CredentialDatabase}
    (h : Settled records paths teams (addCredentials records scan paths teams db)) :
    Resumable records paths teams db := by
  unfold addCredentials at h
  split at h
  · rename_i hnil
    refine ⟨fun path _ ⟨orig, hmem, _⟩ => ?_, .inl hnil⟩
    rw [hnil] at hmem
    cases hmem
  · have horiginal : ∀ path username, Listed db path →
        (paths.foldl (addNewCredlist records scan teams)
          (teams.foldl (addNewTeam scan) db)).original path username =
            db.original path username := by
      intro path username hl
      have hl' : Listed (teams.foldl (addNewTeam scan) db) path := by
        unfold Listed
        rwa [originals_addNewTeams]
      rw [original_addNewCredlists scan teams paths hl', CredentialDatabase.original,
        originals_addNewTeams]
      rfl
    refine ⟨fun path hpath hl username hfirst => ?_, .inr ?_⟩
    · rw [← horiginal path username hl]
      exact h.complete path hpath username hfirst
    · by_cases hlisted : ∃ path ∈ paths, ¬Listed db path
      · exact .inl hlisted
      · right
        have hall : ∀ path ∈ paths, Listed (teams.foldl (addNewTeam scan) db) path := by
          intro path hpath
          unfold Listed
          rw [originals_addNewTeams]
          exact Classical.not_not.mp fun hnot => hlisted ⟨path, hpath, hnot⟩
        rw [addNewCredlists_of_listed scan teams hall] at h
        intro team hteam hrow orig hmem
        rw [← credential_addNewTeams scan teams hrow]
        exact h.provided team hteam orig (by rwa [originals_addNewTeams])

/-! ### Every reachable state -/

/-- What the unique indexes and the order of seeding keep. -/
structure Sound (records : GoString → List (List GoString)) (db : CredentialDatabase) : Prop where
  originals_nodup : (db.originals.map OriginalCredentialSchema.key).Nodup
  credentials_nodup : (db.credentials.map CredentialSchema.key).Nodup
  original_first : ∀ name username orig, db.original name username = some orig →
    firstPassword (records name) username = some orig.password

theorem Sound.extends {db db' : CredentialDatabase} (hs : Sound records db)
    (h : Extends records db db') : Sound records db' where
  originals_nodup := h.originals_nodup hs.originals_nodup
  credentials_nodup := h.credentials_nodup hs.credentials_nodup
  original_first name username orig horig :=
    (h.original_new name username orig horig).elim (hs.original_first name username orig) id

/-- Passwords may change and history may be written, but no row comes or goes. -/
structure Rewrites (db db' : CredentialDatabase) : Prop where
  originals : db'.originals = db.originals
  keys : db'.credentials.map CredentialSchema.key = db.credentials.map CredentialSchema.key

theorem Rewrites.refl (db : CredentialDatabase) : Rewrites db db := ⟨rfl, rfl⟩

theorem Rewrites.trans (db db' db'' : CredentialDatabase) (h : Rewrites db db')
    (h' : Rewrites db' db'') : Rewrites db db'' :=
  ⟨h'.originals.trans h.originals, h'.keys.trans h.keys⟩

theorem Sound.rewrites {db db' : CredentialDatabase} (hs : Sound records db)
    (h : Rewrites db db') : Sound records db' where
  originals_nodup := by
    rw [h.originals]
    exact hs.originals_nodup
  credentials_nodup := by
    rw [h.keys]
    exact hs.credentials_nodup
  original_first name username orig horig := by
    unfold CredentialDatabase.original at horig
    rw [h.originals] at horig
    exact hs.original_first name username orig horig

/-- A relation that holds across every single write of an update or a reset. -/
structure Writable (R : CredentialDatabase → CredentialDatabase → Prop) : Prop where
  refl : ∀ db, R db db
  trans : ∀ db db' db'', R db db' → R db' db'' → R db db''
  save : ∀ db row, R db (db.saveCredential row)
  log : ∀ db row, R db (db.createHistory row)

theorem writable_rewrites : Writable Rewrites where
  refl := Rewrites.refl
  trans := Rewrites.trans
  save _ row := ⟨rfl, Keyed.map_key_save _ row⟩
  log _ _ := ⟨rfl, rfl⟩

section Writable
variable {R : CredentialDatabase → CredentialDatabase → Prop} (hR : Writable R)
include hR

theorem keeps_select {α : Type} (f : CredentialDatabase → α) : Keeps R (select f) :=
  Keeps.call hR.refl id hR.refl

theorem keeps_saveCredential (row : CredentialSchema) :
    Keeps R (write (fun db => db.saveCredential row)) :=
  Keeps.call hR.refl id fun db => hR.save db row

theorem keeps_createHistory (row : PCRHistorySchema) :
    Keeps R (write (fun db => db.createHistory row)) :=
  Keeps.call hR.refl id fun db => hR.log db row

theorem keeps_updateCredential (teamID : Nat)
    (credlistName username newPassword changedBy : GoString) :
    Keeps R (updateCredential teamID credlistName username newPassword changedBy) := by
  refine Keeps.bind hR.trans (keeps_select hR _) fun found => ?_
  match found with
  | none => exact Keeps.throw hR.refl _
  | some cred =>
    exact Keeps.bind hR.trans (keeps_saveCredential hR _) fun _ => keeps_createHistory hR _

theorem keeps_updateEach (teamID : Nat) (credlistName changedBy : GoString)
    (changes : List (GoString × GoString)) (updatedCount : Nat) (skipped : List GoString) :
    Keeps R (updateEach teamID credlistName changedBy changes updatedCount skipped) := by
  induction changes generalizing updatedCount skipped with
  | nil => exact Keeps.pure hR.refl _
  | cons change rest ih =>
    refine Keeps.bind hR.trans (keeps_updateCredential hR _ _ _ _ _).attempt fun result => ?_
    match result with
    | .ok () => exact ih _ _
    | .error err =>
      by_cases herr : err = credentialNotFound
      · simpa only [if_pos herr] using ih updatedCount (skipped ++ [change.1])
      · simpa only [if_neg herr] using Keeps.pure hR.refl _

theorem keeps_updateCredentials (site : CredentialSite) (teamID : Nat) (credlistName : GoString)
    (usernames passwords : List GoString) :
    Keeps R (updateCredentials site teamID credlistName usernames passwords) := by
  unfold updateCredentials
  split
  · exact Keeps.pure hR.refl _
  split
  · exact Keeps.pure hR.refl _
  split
  · exact Keeps.pure hR.refl _
  · exact Keeps.bind hR.trans (keeps_updateEach hR _ _ _ _ _ _) fun _ => Keeps.pure hR.refl _

theorem keeps_resetCredential (origMap : GoMap GoString GoString) (teamID : Nat)
    (credlistName changedBy : GoString) (cred : CredentialSchema) :
    Keeps R (resetCredential origMap teamID credlistName changedBy cred) := by
  unfold resetCredential
  split
  · exact Keeps.pure hR.refl _
  · exact Keeps.bind hR.trans (keeps_createHistory hR _) fun _ => keeps_saveCredential hR _

theorem keeps_resetTeamCredlist (scan : Scan) (teamID : Nat) (credlistName changedBy : GoString) :
    Keeps R (resetTeamCredlist scan teamID credlistName changedBy) := by
  refine Keeps.bind hR.trans (keeps_select hR _) fun currentCreds => ?_
  refine Keeps.bind hR.trans (keeps_select hR _) fun originals => ?_
  exact Keeps.forM hR.refl hR.trans (keeps_resetCredential hR _ _ _ _) currentCreds

theorem keeps_resetCredentials (scan : Scan) (site : CredentialSite) (teamID : Nat)
    (credlistName changedBy : GoString) :
    Keeps R (resetCredentials scan site teamID credlistName changedBy) := by
  unfold resetCredentials
  split
  · exact Keeps.throw hR.refl _
  split
  · exact Keeps.pure hR.refl _
  · exact Keeps.bind hR.trans (keeps_resetTeamCredlist hR _ _ _ _) fun _ => Keeps.pure hR.refl _

end Writable

/-- A call of `EnsureCredentialsSeeded`, in one statement. -/
theorem ensureCredentialsSeeded_spec (scan : Scan) (faults : List (Option GoString))
    (site : CredentialSite) {result : Except GoString Unit} {site' : CredentialSite}
    (h : ensureCredentialsSeeded records scan faults site = (result, site')) :
    Extends records site.db site'.db ∧ site'.credlists = site.credlists ∧
      (result = .ok () → site'.db =
        addCredentials records scan site.credlistPaths (getTeams site.db.toDatabase) site.db) := by
  have hteams : Performs (Extends records)
      (wrap (ε := GoString) (GoText.str "failed to get teams: " ++ ·)
        (select (fun db => getTeams db.toDatabase))) site.db
      (getTeams site.db.toDatabase, site.db) := Performs.wrap _ (performs_select _ site.db)
  unfold ensureCredentialsSeeded at h
  rcases hx : exec (wrap (GoText.str "failed to get teams: " ++ ·)
    (select (fun db => getTeams db.toDatabase))) ⟨site.db, faults⟩ with ⟨err | teams, db, faults'⟩
  · rw [hx] at h
    obtain ⟨rfl, rfl⟩ := Prod.mk.inj h
    exact ⟨hteams.of_error hx, rfl, fun hok => nomatch hok⟩
  · obtain ⟨rfl, rfl⟩ : getTeams site.db.toDatabase = teams ∧ site.db = db :=
      Prod.mk.inj (hteams.of_ok hx)
    have hseed : Performs (Extends records) (seedCredentials records scan site.credlistPaths
        (getTeams site.db.toDatabase)) site.db _ := performs_seedCredentials scan _ _ site.db
    have hext := hseed.rel (extends_addCredentials scan _ _ site.db) faults'
    rw [hx] at h
    dsimp only at h
    rcases hrun : exec (seedCredentials records scan site.credlistPaths
      (getTeams site.db.toDatabase)) ⟨site.db, faults'⟩ with ⟨err | u, s⟩
    · rw [hrun] at h hext
      obtain ⟨rfl, rfl⟩ := Prod.mk.inj h
      exact ⟨hext, rfl, fun hok => nomatch hok⟩
    · rw [hrun] at h hext
      obtain ⟨rfl, rfl⟩ := Prod.mk.inj h
      exact ⟨hext, rfl, fun _ => (Prod.mk.inj (hseed.of_ok hrun)).2.symm⟩

theorem sound_of_reachable {site : CredentialSite} {G : CredentialSite → CredentialAction → Prop}
    (h : Reachable (credentialRuns records) G site) : Sound records site.db := by
  induction h with
  | initial h =>
    refine ⟨?_, ?_, fun name username orig horig => ?_⟩
    · simp [h.1]
    · simp [h.2.1]
    · simp [CredentialDatabase.original, h.1, Keyed.first] at horig
  | @step site _ action _ _ hstep ih =>
    obtain rfl := Option.some.inj hstep
    cases action with
    | addTeam _ => exact ⟨ih.originals_nodup, ih.credentials_nodup, ih.original_first⟩
    | configure _ => exact ih
    | restart => exact ih
    | seed scan faults => exact ih.extends (ensureCredentialsSeeded_spec scan faults site rfl).1
    | update teamID name usernames passwords faults =>
      exact ih.rewrites (keeps_updateCredentials writable_rewrites site teamID name usernames
        passwords ⟨site.db, faults⟩)
    | reset scan teamID name changedBy faults =>
      exact ih.rewrites (keeps_resetCredentials writable_rewrites scan site teamID name changedBy
        ⟨site.db, faults⟩)

/-! ### Convergence -/

/-- Every configured credlist has an original for the first record of each of its users,
and every team one row for each original. -/
structure Converged (records : GoString → List (List GoString)) (site : CredentialSite) : Prop where
  originals : ∀ credlist ∈ site.credlists, ∀ username password,
    firstPassword (records credlist.credlistPath) username = some password →
      ⟨credlist.credlistPath, username, password⟩ ∈ site.db.originals
  credentials : ∀ team ∈ site.db.teams, ∀ orig ∈ site.db.originals,
    ∃! cred, cred ∈ site.db.credentials ∧
      cred.key = (team.id, orig.credlistName, orig.username)

theorem converged_iff_settled {site : CredentialSite} (hs : Sound records site.db) :
    Converged records site ↔
      Settled records site.credlistPaths (getTeams site.db.toDatabase) site.db := by
  constructor
  · intro h
    refine ⟨fun path hpath username hfirst => ?_, fun team hteam orig horig => ?_⟩
    · obtain ⟨credlist, hcredlist, rfl⟩ := List.mem_map.mp hpath
      obtain ⟨password, hpassword⟩ := Option.isSome_iff_exists.mp hfirst
      exact Keyed.first_isSome.mpr
        ⟨_, h.originals credlist hcredlist username password hpassword, rfl⟩
    · obtain ⟨cred, ⟨hmem, hkey⟩, _⟩ := h.credentials team (mem_getTeams.mp hteam) orig horig
      exact Keyed.first_isSome.mpr ⟨cred, hmem, hkey⟩
  · intro h
    refine ⟨fun credlist hcredlist username password hpassword => ?_, fun team hteam orig horig => ?_⟩
    · have hsome := h.complete _ (List.mem_map_of_mem hcredlist) username
        (by rw [hpassword, Option.isSome_some])
      obtain ⟨orig, horig⟩ := Option.isSome_iff_exists.mp hsome
      have hkey := Keyed.key_of_first horig
      have hfirst := hs.original_first _ _ _ horig
      rw [hpassword] at hfirst
      obtain ⟨hname, huser⟩ := Prod.mk.inj hkey
      rw [← hname, ← huser, Option.some.inj hfirst]
      exact Keyed.mem_of_first horig
    · obtain ⟨cred, hcred⟩ := Option.isSome_iff_exists.mp
        (h.provided team (mem_getTeams.mpr hteam) orig horig)
      refine ⟨cred, ⟨Keyed.mem_of_first hcred, Keyed.key_of_first hcred⟩, fun other hother => ?_⟩
      exact List.inj_on_of_nodup_map hs.credentials_nodup hother.1 (Keyed.mem_of_first hcred)
        (hother.2.trans (Keyed.key_of_first hcred).symm)

/-- A call changes no password, and if it returns, everything is in place exactly when
the tables it found were resumable. -/
theorem seeding_converges_iff {site : CredentialSite}
    (h : Reachable (credentialRuns records) (fun _ _ => True) site) (scan : Scan)
    (faults : List (Option GoString)) {result : Except GoString Unit} {site' : CredentialSite}
    (hcall : ensureCredentialsSeeded records scan faults site = (result, site')) :
    (∀ cred ∈ site.db.credentials, cred ∈ site'.db.credentials ∧
      ∀ cred' ∈ site'.db.credentials, cred'.key = cred.key → cred'.password = cred.password) ∧
    (result = .ok () → (Converged records site' ↔
      Resumable records site.credlistPaths (getTeams site.db.toDatabase) site.db)) := by
  obtain ⟨hext, hcredlists, hok⟩ := ensureCredentialsSeeded_spec scan faults site hcall
  have hsound := sound_of_reachable h
  have hsound' := hsound.extends hext
  refine ⟨fun cred hmem => ?_, fun hresult => ?_⟩
  · have hkept := hext.credential_kept _ _ (Keyed.first_key hsound.credentials_nodup hmem)
    refine ⟨Keyed.mem_of_first hkept, fun cred' hmem' hkey => ?_⟩
    rw [List.inj_on_of_nodup_map hsound'.credentials_nodup hmem' (Keyed.mem_of_first hkept) hkey]
  · have hpaths : site'.credlistPaths = site.credlistPaths := by
      rw [CredentialSite.credlistPaths, hcredlists, CredentialSite.credlistPaths]
    rw [converged_iff_settled hsound', hpaths, hext.database, hok hresult]
    exact ⟨resumable_of_settled scan, settled_of_resumable scan⟩

/-- Two users in the one credlist, and one team. -/
def twoRecords : GoString → List (List GoString) := fun _ => [[[97], [49]], [[98], [50]]]

def freshSite : CredentialSite where
  db := {teams := [⟨1, [116], [49], true⟩]}
  credlists := [{credlistPath := [108]}]

theorem seeding_converges_fresh :
    Converged twoRecords (ensureCredentialsSeeded twoRecords Scan.plain [] freshSite).2 := by
  have hresumable : Resumable twoRecords freshSite.credlistPaths
      (getTeams freshSite.db.toDatabase) freshSite.db := by
    refine ⟨fun _ _ hl => ?_, .inl rfl⟩
    obtain ⟨_, hmem, _⟩ := hl
    cases hmem
  exact ((seeding_converges_iff (.initial ⟨rfl, rfl, rfl⟩) Scan.plain [] rfl).2 rfl).mpr hresumable

/-- The first call fails at the second original. The next one returns, and the second user
still has none. -/
theorem seeding_cut_not_repaired :
    ∃ site, Reachable (credentialRuns twoRecords) (fun _ _ => True) site ∧
      (ensureCredentialsSeeded twoRecords Scan.plain [] site).1 = .ok () ∧
      ¬Converged twoRecords (ensureCredentialsSeeded twoRecords Scan.plain [] site).2 := by
  have hrun : Reachable (credentialRuns twoRecords) (fun _ _ => True)
      (freshSite.step twoRecords (.seed Scan.plain
        [none, none, none, none, none, none, some [101]])) :=
    .step (.initial ⟨rfl, rfl, rfl⟩) trivial rfl
  refine ⟨_, hrun, rfl, fun h => ?_⟩
  have hmissing := h.originals {credlistPath := [108]} (List.mem_singleton_self _) [98] [50] rfl
  revert hmissing
  decide +kernel

end QuotientScoring.Engine
