import QuotientScoring.Engine.DeadChecks

/-! How a file is judged that was fetched over FTP, and over SMB.

Either kind of check can be given the same file, with a pattern its content is to have or
the hash it is to be of, and no file is to have both. The two tests are written apart:
an FTP check with both is refused and an SMB check is not, and the digits of a hash may be
capital letters for the one and not for the other. Elsewhere they agree: `fetchedAlike_iff`. -/
namespace QuotientScoring.Checks
open DB GoText GoTime Replace Attempts

/-! ### Hashes as they are written -/

/-- The same digits, where the letters may be capital ones. -/
def Spells (hash s : GoString) : Prop :=
  List.Forall₂ (fun c d => d = c ∨ 97 ≤ c ∧ d = c - 32) hash s

theorem hex_digit {bytes : List UInt8} {c : UInt8} (h : c ∈ hex bytes) :
    c ≤ 57 ∨ 97 ≤ c ∧ c ≤ 102 := by
  obtain ⟨byte, -, h⟩ := List.mem_flatMap.mp h
  obtain ⟨digit, hdigit, rfl⟩ := List.mem_map.mp h
  have hlt : digit < 16 := by
    have hbyte := byte.toNat_lt
    rcases List.mem_pair.mp hdigit with rfl | rfl
    · rw [UInt8.lt_iff_toNat_lt, UInt8.toNat_div]
      show byte.toNat / 16 < 16
      omega
    · rw [UInt8.lt_iff_toNat_lt, UInt8.toNat_mod]
      show byte.toNat % 16 < 16
      omega
  split
  · rename_i hten
    left
    grind
  · rename_i hten
    right
    grind

theorem fold_digit {c d : UInt8} (hdigit : c ≤ 57 ∨ 97 ≤ c ∧ c ≤ 102) :
    (c = if 65 ≤ d ∧ d ≤ 90 then d + 32 else d) ↔ d = c ∨ 97 ≤ c ∧ d = c - 32 := by
  split <;> grind

/-- A comparison without regard to case, with digits on the left. -/
theorem equalFold_iff {hash s : GoString} (hdigits : ∀ c ∈ hash, c ≤ 57 ∨ 97 ≤ c ∧ c ≤ 102) :
    equalFold hash s = true ↔ Spells hash s := by
  unfold equalFold Spells
  rw [beq_iff_eq]
  induction hash generalizing s with
  | nil => cases s <;> simp
  | cons c hash ih =>
    cases s with
    | nil => simp
    | cons d s =>
      rw [List.map_cons, List.cons.injEq, fold_digit (hdigits c List.mem_cons_self),
        ih (fun e he => hdigits e (List.mem_cons_of_mem c he)), List.forall₂_cons]

theorem equalFold_stringHash {pkg : Packages} {content s : GoString} :
    equalFold (stringHash pkg content) s = true ↔ Spells (stringHash pkg content) s :=
  equalFold_iff (fun _ => hex_digit)

theorem Spells.refl (hash : GoString) : Spells hash hash :=
  List.forall₂_same.mpr (fun _ _ => .inl rfl)

/-! ### A file of either kind of check -/

/-- A file to fetch, with what its content is to be like. -/
structure FileEntry where
  name : GoString
  hash : GoString
  regex : GoString
deriving DecidableEq

namespace FileEntry

def ftp (entry : FileEntry) : FtpFile := ⟨entry.name, entry.hash, entry.regex⟩

def smb (entry : FileEntry) : SmbFile := ⟨entry.name, entry.hash, entry.regex⟩

/-- `Verify` lets no check with the file through. -/
def BarredFromFtp (entry : FileEntry) : Prop :=
  ∀ (args : VerifyArgs) (c : Ftp), entry.ftp ∈ c.file → (c.verify args).2 ≠ none

def BarredFromSmb (entry : FileEntry) : Prop :=
  ∀ (args : VerifyArgs) (c : Smb), entry.smb ∈ c.file → (c.verify args).2 ≠ none

/-- A content that is as it should be: it has the pattern, or it is of the hash, in capital letters
or not. -/
def Fits (compiles : Compiles) (pkg : Packages) (entry : FileEntry) (content : GoString) : Prop :=
  if entry.regex ≠ [] then compiles entry.regex = true ∧ pkg.isMatch entry.regex content = true
  else if entry.hash ≠ [] then Spells (stringHash pkg content) entry.hash
  else True

theorem barredFromFtp_iff {entry : FileEntry} :
    entry.BarredFromFtp ↔ entry.regex ≠ [] ∧ entry.hash ≠ [] := by
  constructor
  · intro hbarred
    have halone := hbarred ⟨[], [], 0, 0, 0, 0⟩ {file := [entry.ftp]} (List.mem_singleton.mpr rfl)
    by_contra hone
    have hnone : ¬ [entry.ftp].any (fun f => f.regex != [] && f.hash != []) = true := by
      simpa [ftp] using hone
    exact halone (if_neg hnone)
  · intro hboth args c hmem
    have hany : c.file.any (fun f => f.regex != [] && f.hash != []) = true :=
      List.any_eq_true.mpr ⟨entry.ftp, hmem, by simpa [ftp] using hboth⟩
    show (if c.file.any (fun f => f.regex != [] && f.hash != []) then some _ else none) ≠ none
    rw [if_pos hany]
    exact Option.some_ne_none _

theorem not_barredFromSmb (entry : FileEntry) : ¬ entry.BarredFromSmb := by
  intro hbarred
  exact hbarred ⟨[], [], 0, 0, 0, 0⟩ {file := [entry.smb]} (List.mem_singleton.mpr rfl) rfl

end FileEntry

/-! ### Checks that fetch a file -/

def Ftp.atTarget (teamIdentifier : GoString) (c : Ftp) : Ftp :=
  {c with target := replaceAll (str "_") teamIdentifier c.target}

def Smb.atTarget (teamIdentifier : GoString) (c : Smb) : Smb :=
  {c with target := replaceAll (str "_") teamIdentifier c.target}

variable (compiles : Compiles) (pkg : Packages) (teamID roundID : Nat) (teamIdentifier : GoString)

/-- The check logs in and reads the file, and there is time left. -/
structure Ftp.Fetches (c : Ftp) (b : Behaviour) (entry : FileEntry) (content : GoString) : Prop where
  drawn : pick c.file b.draw = some entry.ftp
  dialled : pkg.call (.dial false c.address (seconds c.timeout)) b.dial = .ok ()
  supplied : Passes (c.credsOr ⟨str "anonymous", str "anonymous"⟩ b.credsDraw)
  loggedIn : b.login = .ok ()
  opened : b.openFile = .ok ()
  read : b.readAll = .ok content
  inTime : b.took < seconds c.timeout

structure Smb.Fetches (c : Smb) (b : Behaviour) (entry : FileEntry) (content : GoString) : Prop where
  drawn : pick c.file b.draw = some entry.smb
  dialled : pkg.call (.dial false c.address 0) b.dial = .ok ()
  loggedIn : ∃ cred, c.credsOr ⟨str "guest", []⟩ b.credsDraw = .ok cred ∧
    pkg.call (.smbDial cred.username cred.password) b.login = .ok ()
  mounted : pkg.call (.mount c.address c.share) b.mount = .ok ()
  opened : pkg.call (.openFile entry.name) b.openFile = .ok ()
  read : b.readAll = .ok content
  inTime : b.took < seconds c.timeout

/-- A file with a pattern and a hash is refused for either kind of check, and one that is refused
for neither makes either check pass exactly if its content is as it should be. -/
def FetchedAlike (entry : FileEntry) (content : GoString) (c : Ftp) (b : Behaviour) (s : Smb)
    (seen : Behaviour) : Prop :=
  (entry.regex ≠ [] → entry.hash ≠ [] → entry.BarredFromFtp ∧ entry.BarredFromSmb) ∧
  (¬ entry.BarredFromFtp → ¬ entry.BarredFromSmb →
    ((Runner.ftp c).ReportsPass compiles pkg teamID roundID teamIdentifier b ↔
      entry.Fits compiles pkg content) ∧
    ((Runner.smb s).ReportsPass compiles pkg teamID roundID teamIdentifier seen ↔
      entry.Fits compiles pkg content))

variable {compiles pkg teamID roundID teamIdentifier} {entry : FileEntry} {content : GoString}

/-- A regular expression goes before a hash. -/
theorem testContent_eq_ok_iff {compileError name regex hash hashDebug : GoString} {sameHash : Prop}
    [Decidable sameHash] :
    testContent compiles pkg compileError name regex hash content sameHash hashDebug = .ok () ↔
      if regex ≠ [] then compiles regex = true ∧ pkg.isMatch regex content = true
      else if hash ≠ [] then sameHash
      else True := by
  unfold testContent
  split
  · exact findRegex_eq_ok
  · split
    · exact require_eq_ok
    · simp

/-- An FTP check accepts what it should. -/
theorem ftp_reportsPass_iff {c : Ftp} {b : Behaviour}
    (h : (c.atTarget teamIdentifier).Fetches pkg b entry content) :
    (Runner.ftp c).ReportsPass compiles pkg teamID roundID teamIdentifier b ↔
      entry.Fits compiles pkg content := by
  obtain ⟨cred, hcred⟩ := h.supplied
  have hpasses : Passes ((c.atTarget teamIdentifier).definition compiles pkg b) ↔
      entry.ftp.test compiles pkg content = .ok () := by
    rw [Ftp.definition, hcred, h.drawn]
    simp only [passes_bind, exists_unit, Except.ok.injEq, exists_eq_left', orFail_eq_ok, h.dialled,
      h.loggedIn, h.opened, h.read, true_and, passes_ok, and_true]
  rw [Runner.reportsPass_iff_passes (r := .ftp c) rfl h.inTime]
  refine hpasses.trans (testContent_eq_ok_iff.trans ?_)
  rw [equalFold_stringHash]
  rfl

/-- An SMB check does so but for the spelling of a hash. -/
theorem smb_reportsPass_iff {c : Smb} {b : Behaviour}
    (h : (c.atTarget teamIdentifier).Fetches pkg b entry content) :
    (Runner.smb c).ReportsPass compiles pkg teamID roundID teamIdentifier b ↔
      if entry.regex ≠ [] then compiles entry.regex = true ∧ pkg.isMatch entry.regex content = true
      else if entry.hash ≠ [] then stringHash pkg content = entry.hash
      else True := by
  obtain ⟨cred, hcred, hlogin⟩ := h.loggedIn
  have hopened : pkg.call (.openFile entry.smb.name) b.openFile = .ok () := h.opened
  have hpasses : Passes ((c.atTarget teamIdentifier).definition compiles pkg b) ↔
      entry.smb.test compiles pkg content = .ok () := by
    rw [Smb.definition, hcred, h.drawn]
    simp only [passes_bind, exists_unit, Except.ok.injEq, exists_eq_left', orFail_eq_ok, h.dialled,
      hlogin, h.mounted, hopened, h.read, true_and, passes_ok, and_true]
  rw [Runner.reportsPass_iff_passes (r := .smb c) rfl h.inTime]
  exact hpasses.trans testContent_eq_ok_iff

/-- The two kinds of check judge a file alike exactly if it does not have both a pattern and a hash,
and a hash that is the right one has no capital letters. -/
theorem fetchedAlike_iff {c : Ftp} {b : Behaviour} {s : Smb} {seen : Behaviour}
    (hftp : (c.atTarget teamIdentifier).Fetches pkg b entry content)
    (hsmb : (s.atTarget teamIdentifier).Fetches pkg seen entry content) :
    FetchedAlike compiles pkg teamID roundID teamIdentifier entry content c b s seen ↔
      (entry.regex = [] ∨ entry.hash = []) ∧
        (entry.regex = [] → Spells (stringHash pkg content) entry.hash →
          entry.hash = stringHash pkg content) := by
  have hnever := entry.not_barredFromSmb
  rw [FetchedAlike, ftp_reportsPass_iff hftp, smb_reportsPass_iff hsmb,
    FileEntry.barredFromFtp_iff, FileEntry.Fits]
  by_cases hregex : entry.regex = []
  · by_cases hhash : entry.hash = []
    · have hnil : Spells (stringHash pkg content) [] → stringHash pkg content = [] :=
        List.forall₂_nil_right_iff.mp
      simpa [hregex, hhash] using hnil
    · have hsame :
          stringHash pkg content = entry.hash → Spells (stringHash pkg content) entry.hash := by
        intro heq
        rw [heq]
        exact Spells.refl _
      simp only [hregex, hhash, hnever, ne_eq, not_true_eq_false, not_false_eq_true, if_false, if_true,
        false_and, false_imp_iff, true_imp_iff, true_and, true_or]
      constructor
      · intro halike hspells
        exact (halike.mpr hspells).symm
      · intro hcase
        exact ⟨hsame, fun hspells => (hcase hspells).symm⟩
  · by_cases hhash : entry.hash = []
    · simp [hregex, hhash]
    · simp [hregex, hhash, hnever]

/-! ### An empty file -/

/-- The packages, with the hash of an empty file. -/
def emptyFilePackages : Packages :=
  { Engine.plainPackages with
    sha256 := fun _ =>
      [0xE3, 0xB0, 0xC4, 0x42, 0x98, 0xFC, 0x1C, 0x14, 0x9A, 0xFB, 0xF4, 0xC8, 0x99, 0x6F, 0xB9,
        0x24, 0x27, 0xAE, 0x41, 0xE4, 0x64, 0x9B, 0x93, 0x4C, 0xA4, 0x95, 0x99, 0x1B, 0x78, 0x52,
        0xB8, 0x55] }

def emptyFile : FileEntry :=
  { name := str "note.txt"
    hash := str "e3b0c44298fc1c149afbf4c8996fb92427ae41e4649b934ca495991b7852b855"
    regex := [] }

/-- The hash in capital letters, as PowerShell prints it. -/
def capitalFile : FileEntry :=
  { emptyFile with
    hash := str "E3B0C44298FC1C149AFBF4C8996FB92427AE41E4649B934CA495991B7852B855" }

def entryFtp (entry : FileEntry) : Ftp :=
  { name := str "box-ftp", display := str "ftp", port := 21, points := 1, timeout := 30
    slaPenalty := 5, slaThreshold := 5, target := str "10.100.1_.2", serviceType := str "Ftp"
    attempts := 1, file := [entry.ftp] }

def entrySmb (entry : FileEntry) : Smb :=
  { name := str "box-smb", display := str "smb", port := 445, points := 1, timeout := 30
    slaPenalty := 5, slaThreshold := 5, target := str "10.100.1_.2", serviceType := str "Smb"
    attempts := 1, share := str "notes", file := [entry.smb] }

theorem entryFtp_fetches (entry : FileEntry) :
    ((entryFtp entry).atTarget (str "01")).Fetches emptyFilePackages {} entry [] where
  drawn := rfl
  dialled := rfl
  supplied := ⟨_, rfl⟩
  loggedIn := rfl
  opened := rfl
  read := rfl
  inTime := by
    show ((0 : Nat) : Int) < seconds 30
    decide

theorem entrySmb_fetches (entry : FileEntry) :
    ((entrySmb entry).atTarget (str "01")).Fetches emptyFilePackages {} entry [] where
  drawn := rfl
  dialled := rfl
  loggedIn := ⟨_, rfl, rfl⟩
  mounted := rfl
  opened := rfl
  read := rfl
  inTime := by
    show ((0 : Nat) : Int) < seconds 30
    decide

theorem fetched_empty :
    FetchedAlike (fun _ => true) emptyFilePackages 1 7 (str "01") emptyFile [] (entryFtp emptyFile) {}
      (entrySmb emptyFile) {} :=
  (fetchedAlike_iff (entryFtp_fetches _) (entrySmb_fetches _)).mpr
    ⟨.inl rfl, fun _ _ => by decide +kernel⟩

/-- The hash is the right one, and the SMB check fails. -/
theorem capital_hash_failed :
    ¬ FetchedAlike (fun _ => true) emptyFilePackages 1 7 (str "01") capitalFile []
      (entryFtp capitalFile) {} (entrySmb capitalFile) {} := by
  intro halike
  have hfits : capitalFile.Fits (fun _ => true) emptyFilePackages [] := by
    have hspells : Spells (stringHash emptyFilePackages []) capitalFile.hash :=
      equalFold_stringHash.mp (by decide +kernel)
    exact hspells
  have hallowed : ¬ capitalFile.BarredFromFtp := by
    rw [FileEntry.barredFromFtp_iff]
    exact fun hboth => hboth.1 rfl
  obtain ⟨-, hsmb⟩ := halike.2 hallowed capitalFile.not_barredFromSmb
  have hsame : stringHash emptyFilePackages [] = capitalFile.hash :=
    (smb_reportsPass_iff (entrySmb_fetches capitalFile)).mp (hsmb.mpr hfits)
  exact absurd hsame (by decide +kernel)

end QuotientScoring.Checks
