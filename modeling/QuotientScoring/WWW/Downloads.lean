import QuotientScoring.DB.Injects
import QuotientScoring.Lib.Decimal
import QuotientScoring.Lib.GoPath
import QuotientScoring.WWW.Api

/-! What the two download handlers hand out.

Announcements and injects keep their files in a directory named by their id, and
are not to be seen before they open. Both handlers look for the record whose id
prints as the id of the request, and open the file under the directory the request
names. A request that names no inject is refused; one that names no announcement is
treated like an announcement that has always been open, and its directory is
whatever the path of the request cleans to. `downloads_released_iff` says for which
ids that still hands out nothing but released files: `downloads_inject` is the
half that always holds. -/
namespace QuotientScoring.WWW
open DB GoText GoTime GoPath Decimal Config

/-- An opened file: where it lies, and what it holds. -/
structure File where
  location : List Elem
  contents : List UInt8
deriving DecidableEq

/-- The file system under `os.Root`: what is opened is a file below the directory. -/
structure Disk where
  openIn : List Elem → GoString → Option File
  confined : ∀ {dir : List Elem} {name : GoString} {file : File},
    openIn dir name = some file → Below dir file.location

/-- An answer with the contents of a file. -/
structure Download where
  disposition : GoString
  file : File
deriving DecidableEq

/-- What the handlers find: the working directory, the clock and the tables. -/
structure Site where
  cwd : List Elem
  now : Int
  announcements : Except DbError (List AnnouncementSchema)
  injects : Except DbError (List InjectSchema)

variable (conf : ConfigSettings) (site : Site) (disk : Disk) (session : Session)

def safeOpen (baseDir : Path) (name : GoString) : Option File :=
  disk.openIn (locate site.cwd baseDir) name

/-- The end of both handlers. -/
def sendFile (baseDir : Path) (name : GoString) : Except HttpError Download :=
  match safeOpen site disk baseDir name with
  | none => .error ⟨404, str "File not found"⟩
  | some file => .ok ⟨str "attachment; filename=" ++ name, file⟩

/-- The zero announcement stands for one that is not found. -/
def downloadAnnouncementFile (announcementID fileName : GoString) : Except HttpError Download :=
  if announcementID = [] then .error ⟨400, str "Missing announcement ID"⟩
  else if fileName = [] then .error ⟨400, str "Missing file name"⟩
  else
    match site.announcements with
    | .error .recordNotFound => .error ⟨404, str "Announcement not found"⟩
    | .error (.other err) => .error ⟨500, err⟩
    | .ok announcements =>
      let announcement :=
        (announcements.find? (fun a => decimal a.id = announcementID)).getD ⟨0, zeroTime⟩
      if .admin ∉ session.roles ∧ .red ∈ session.roles ∧
          conf.uiSettings.showAnnouncementsForRedTeam = false then .error ⟨403, str "Forbidden"⟩
      else if .admin ∉ session.roles ∧ site.now < announcement.openTime then
        .error ⟨404, str "Announcement not found"⟩
      else sendFile site disk (join (str "submissions/announcements") announcementID) fileName

def downloadInjectFile (injectID fileName : GoString) : Except HttpError Download :=
  if injectID = [] then .error ⟨400, str "Missing inject ID"⟩
  else if fileName = [] then .error ⟨400, str "Missing file name"⟩
  else
    match site.injects with
    | .error .recordNotFound => .error ⟨500, str "record not found"⟩
    | .error (.other err) => .error ⟨500, err⟩
    | .ok injects =>
      let inject := (injects.find? (fun i => decimal i.id = injectID)).getD ⟨0, zeroTime, zeroTime⟩
      if inject.id = 0 then .error ⟨404, str "Inject not found"⟩
      else if .admin ∉ session.roles ∧ site.now < inject.openTime then
        .error ⟨404, str "Inject not found"⟩
      else sendFile site disk (join (str "config/injects") injectID) fileName

/-! ### Released files -/

/-- `submissions/announcements/<id>`. -/
def announcementDir (id : Nat) : List Elem :=
  site.cwd ++ [str "submissions", str "announcements", decimal id]

/-- `config/injects/<id>`. -/
def injectDir (id : Nat) : List Elem := site.cwd ++ [str "config", str "injects", decimal id]

/-- The file is one of an announcement that has opened. -/
def OfReleasedAnnouncement (file : File) : Prop :=
  ∃ announcements, site.announcements = .ok announcements ∧
    ∃ a ∈ announcements, a.openTime ≤ site.now ∧ Below (announcementDir site a.id) file.location

/-- The file is one of an inject that has opened. -/
def OfReleasedInject (file : File) : Prop :=
  ∃ injects, site.injects = .ok injects ∧
    ∃ i ∈ injects, i.openTime ≤ site.now ∧ Below (injectDir site i.id) file.location

/-- The directory of a printed id. -/
theorem locate_announcement (id : Nat) :
    locate site.cwd (join (str "submissions/announcements") (decimal id)) =
      announcementDir site id := by
  have hsplit : (str "submissions/announcements").splitOn slash =
      [str "submissions", str "announcements"] := by decide +kernel
  rw [locate_join (by decide +kernel) (by decide +kernel) (by rw [hsplit]; decide +kernel)
    (ordinary_decimal id), hsplit, announcementDir, List.append_assoc]
  rfl

theorem locate_inject (id : Nat) :
    locate site.cwd (join (str "config/injects") (decimal id)) = injectDir site id := by
  have hsplit : (str "config/injects").splitOn slash = [str "config", str "injects"] := by
    decide +kernel
  rw [locate_join (by decide +kernel) (by decide +kernel) (by rw [hsplit]; decide +kernel)
    (ordinary_decimal id), hsplit, injectDir, List.append_assoc]
  rfl

variable {conf site disk session}

theorem sendFile_eq_ok {baseDir : Path} {name : GoString} {download : Download}
    (h : sendFile site disk baseDir name = .ok download) :
    Below (locate site.cwd baseDir) download.file.location := by
  unfold sendFile at h
  split at h
  · cases h
  · rename_i file hfile
    obtain rfl := Except.ok.inj h
    exact disk.confined hfile

/-- What it takes for the announcement handler to send a file. -/
theorem downloadAnnouncementFile_eq_ok {id name : GoString} {download : Download}
    (h : downloadAnnouncementFile conf site disk session id name = .ok download) :
    ∃ announcements, site.announcements = .ok announcements ∧
      ¬(.admin ∉ session.roles ∧ .red ∈ session.roles ∧
        conf.uiSettings.showAnnouncementsForRedTeam = false) ∧
      ¬(.admin ∉ session.roles ∧ site.now <
        ((announcements.find? (fun a => decimal a.id = id)).getD ⟨0, zeroTime⟩).openTime) ∧
      Below (locate site.cwd (join (str "submissions/announcements") id))
        download.file.location := by
  unfold downloadAnnouncementFile at h
  split at h
  · cases h
  · split at h
    · cases h
    · split at h
      · cases h
      · cases h
      · rename_i announcements hann
        dsimp only at h
        split at h
        · cases h
        · rename_i hshown
          split at h
          · cases h
          · rename_i hopen
            exact ⟨announcements, hann, hshown, hopen, sendFile_eq_ok h⟩

/-- An inject's file is sent to a session without the admin role only once it is open. -/
theorem downloads_inject (hadmin : .admin ∉ session.roles) {id name : GoString}
    {download : Download} (h : downloadInjectFile site disk session id name = .ok download) :
    OfReleasedInject site download.file := by
  unfold downloadInjectFile at h
  split at h
  · cases h
  · split at h
    · cases h
    · split at h
      · cases h
      · cases h
      · rename_i injects hinj
        dsimp only at h
        cases hfind : injects.find? (fun i => decimal i.id = id) with
        | none =>
          rw [hfind, Option.getD_none, if_pos rfl] at h
          cases h
        | some inject =>
          rw [hfind, Option.getD_some] at h
          split at h
          · cases h
          · split at h
            · cases h
            · rename_i hopen
              have hid : decimal inject.id = id := by simpa using List.find?_some hfind
              have hbelow := sendFile_eq_ok h
              rw [← hid, locate_inject] at hbelow
              exact ⟨injects, hinj, inject, List.mem_of_find?_eq_some hfind,
                Int.not_lt.mp (fun hlt => hopen ⟨hadmin, hlt⟩), hbelow⟩

/-! ### The ids that are safe -/

variable (conf site session)

/-- The request is refused, or its directory is a released announcement's, or below one: the
red team is not shown announcements, the clock is before the zero time, the id is that
of an announcement, or the joined path leads there by itself. -/
def SafeID (id : GoString) : Prop :=
  ∀ announcements, site.announcements = .ok announcements →
    (.red ∈ session.roles ∧ conf.uiSettings.showAnnouncementsForRedTeam = false) ∨
    site.now < zeroTime ∨
    (∃ a ∈ announcements, decimal a.id = id) ∨
    ∃ a ∈ announcements, a.openTime ≤ site.now ∧ announcementDir site a.id <+:
      locate site.cwd (join (str "submissions/announcements") id)

variable {conf site session}

theorem downloads_announcement (hadmin : .admin ∉ session.roles) {id : GoString}
    (hsafe : SafeID conf site session id) {name : GoString} {download : Download}
    (h : downloadAnnouncementFile conf site disk session id name = .ok download) :
    OfReleasedAnnouncement site download.file := by
  obtain ⟨announcements, hann, hshown, hopen, hbelow⟩ := downloadAnnouncementFile_eq_ok h
  have hopen := fun hlt => hopen ⟨hadmin, hlt⟩
  refine ⟨announcements, hann, ?_⟩
  cases hfind : announcements.find? (fun a => decimal a.id = id) with
  | some a =>
    -- the announcement the request names
    rw [hfind, Option.getD_some] at hopen
    have hid : decimal a.id = id := by simpa using List.find?_some hfind
    rw [← hid, locate_announcement] at hbelow
    exact ⟨a, List.mem_of_find?_eq_some hfind, Int.not_lt.mp hopen, hbelow⟩
  | none =>
    rw [hfind, Option.getD_none] at hopen
    obtain hhidden | hearly | ⟨a, ha, hid⟩ | ⟨a, ha, hreleased, rest, hdir⟩ := hsafe announcements hann
    · exact absurd ⟨hadmin, hhidden.1, hhidden.2⟩ hshown
    · exact absurd hearly hopen
    · have hnone := List.find?_eq_none.mp hfind a ha
      simp [hid] at hnone
    · obtain ⟨below, hne, hlocation⟩ := hbelow
      refine ⟨a, ha, hreleased, rest ++ below, List.append_ne_nil_of_right_ne_nil _ hne, ?_⟩
      rw [hlocation, ← hdir, List.append_assoc]

/-- A disk with a file in every directory. -/
def fullDisk : Disk where
  openIn dir name := some ⟨dir ++ [name], []⟩
  confined h := by
    obtain rfl := Option.some.inj h
    exact ⟨_, List.cons_ne_nil _ _, rfl⟩

/-- A session without the admin role is handed nothing but released files under an id, on any
disk, exactly if the id is safe. -/
theorem downloads_released_iff (hadmin : .admin ∉ session.roles) {id : GoString} (hid : id ≠ []) :
    (∀ (disk : Disk) (name : GoString) (download : Download),
      (downloadAnnouncementFile conf site disk session id name = .ok download →
        OfReleasedAnnouncement site download.file) ∧
      (downloadInjectFile site disk session id name = .ok download →
        OfReleasedInject site download.file)) ↔
    SafeID conf site session id := by
  constructor
  · intro hall announcements hann
    by_cases hhidden : .red ∈ session.roles ∧ conf.uiSettings.showAnnouncementsForRedTeam = false
    · exact .inl hhidden
    by_cases hearly : site.now < zeroTime
    · exact .inr (.inl hearly)
    by_cases hfound : ∃ a ∈ announcements, decimal a.id = id
    · exact .inr (.inr (.inl hfound))
    -- the zero announcement is open, so the directory is opened as it is
    have hfind : announcements.find? (fun a => decimal a.id = id) = none := by
      refine List.find?_eq_none.mpr fun a ha => ?_
      simpa using fun heq => hfound ⟨a, ha, heq⟩
    have hsent : downloadAnnouncementFile conf site fullDisk session id (str "x") =
        .ok ⟨str "attachment; filename=x",
          locate site.cwd (join (str "submissions/announcements") id) ++ [str "x"], []⟩ := by
      simp only [downloadAnnouncementFile, hid, hann, hfind, hhidden, hearly, if_false,
        Option.getD_none, and_false, str_eq_nil]
      rfl
    obtain ⟨announcements', hann', a, ha, hreleased, rest, hne, hdir⟩ :=
      (hall fullDisk (str "x") _).1 hsent
    obtain rfl : announcements = announcements' := Except.ok.inj (hann.symm.trans hann')
    refine .inr (.inr (.inr ⟨a, ha, hreleased, ?_⟩))
    -- dropping the file name leaves a path below the announcement's directory
    obtain ⟨rest, last, rfl⟩ : ∃ rest' last, rest = rest' ++ [last] :=
      ⟨rest.dropLast, rest.getLast hne, (List.dropLast_append_getLast hne).symm⟩
    rw [← List.append_assoc] at hdir
    exact ⟨rest, (List.append_inj' hdir rfl).1.symm⟩
  · intro hsafe disk name download
    exact ⟨downloads_announcement hadmin hsafe, downloads_inject hadmin⟩

/-- A team at noon: announcement 1 is out, announcement 2 is not. -/
def noon : Site where
  cwd := [str "app"]
  now := 1200
  announcements := .ok [⟨2, 1700⟩, ⟨1, 900⟩]
  injects := .ok []

def teamSession : Session := ⟨str "team01", [.team]⟩

/-- Under the id of an announcement only its own files are to be had, once it is out. -/
theorem downloads_released_by_id :
    SafeID {} noon teamSession (str "2") ∧
    ∀ (disk : Disk) (name : GoString) (download : Download),
      (downloadAnnouncementFile {} noon disk teamSession (str "2") name = .ok download →
        OfReleasedAnnouncement noon download.file) ∧
      (downloadInjectFile noon disk teamSession (str "2") name = .ok download →
        OfReleasedInject noon download.file) := by
  have hsafe : SafeID {} noon teamSession (str "2") := by
    intro announcements hann
    obtain rfl := Except.ok.inj hann
    exact .inr (.inr (.inl ⟨⟨2, 1700⟩, by decide, by decide +kernel⟩))
  exact ⟨hsafe, (downloads_released_iff (by decide) (by simp)).mpr hsafe⟩

/-- The id `./2` names no announcement, and opens the directory of the one that is not out. -/
theorem downloads_unreleased :
    ¬∀ (disk : Disk) (name : GoString) (download : Download),
      (downloadAnnouncementFile {} noon disk teamSession (str "./2") name = .ok download →
        OfReleasedAnnouncement noon download.file) ∧
      (downloadInjectFile noon disk teamSession (str "./2") name = .ok download →
        OfReleasedInject noon download.file) := by
  intro hall
  have hsent : downloadAnnouncementFile {} noon fullDisk teamSession (str "./2") (str "x") =
      .ok ⟨str "attachment; filename=x", announcementDir noon 2 ++ [str "x"], []⟩ := by
    decide +kernel
  obtain ⟨announcements, hann, a, ha, hreleased, rest, hne, hdir⟩ :=
    (hall fullDisk (str "x") _).1 hsent
  obtain rfl := Except.ok.inj hann
  have hfirst : a = ⟨1, 900⟩ := by
    rcases List.mem_cons.mp ha with rfl | ha
    · revert hreleased
      decide
    · exact List.mem_singleton.mp ha
  subst hfirst
  have hsame : announcementDir noon 2 = announcementDir noon 1 :=
    (List.append_inj hdir (by decide +kernel)).1
  revert hsame
  decide +kernel

end QuotientScoring.WWW
