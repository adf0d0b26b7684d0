import QuotientScoring.WWW.AnnouncementFiles

/-! What is sent of an announcement, while others are made and deleted.

`announcement_served`: once the request that made it has been answered with success, and as long as
it is in the table, each of its files is sent as it was uploaded to whoever has found it in the
listing, and under its id nothing else is sent. `announcement_gone`: after a deletion that has been
answered with success nothing is sent under its id, if no announcement is deleted while it is
being made. Without that its files may come after the deletion, and stay: an id that is in no row
counts as one that has always been open (`announcement_stays`). -/
namespace QuotientScoring.WWW
open DB GoText GoPath Decimal Directory Requests Transition

variable {s : AnnouncementStore} {c : Creation} {d : Deletion} {row : AnnouncementRow}

/-- The disk has the directories, each file of theirs under its name, and nothing else in them. -/
structure Stores (disk : Disk) (site : Site) (dirs : Nat → Option UploadDir) : Prop where
  opened : ∀ id dir name contents, dirs id = some dir → dir.lookup name = some contents →
    Creatable name → disk.openIn (announcementDir site id) name =
      some ⟨announcementDir site id ++ [name], contents⟩
  only : ∀ id name file, disk.openIn (announcementDir site id) name = some file →
    ∃ dir held, dirs id = some dir ∧ dir.lookup held = some file.contents

/-- The handler that sends files reads the table. -/
def Reads (site : Site) (table : AnnouncementTable) : Prop :=
  ∃ rows, getAnnouncements none table = .ok rows ∧
    site.announcements = .ok (rows.map AnnouncementRow.toAnnouncementSchema)

variable {conf : Config.ConfigSettings} {site : Site} {disk : Disk} {session : Session}

theorem find_announcement {rows : List AnnouncementRow}
    (hnd : (rows.map (fun row => row.id)).Nodup) (hmem : row ∈ rows) :
    (rows.map AnnouncementRow.toAnnouncementSchema).find? (fun a => decimal a.id = decimal row.id) =
      some row.toAnnouncementSchema := by
  have hsame : (fun a : AnnouncementRow => decide (decimal a.id = decimal row.id)) =
      fun a => decide (a.id = row.id) := by
    funext a
    exact decide_eq_decide.mpr decimal_inj
  have hfirst : rows.find? (fun a => a.id = row.id) = some row := Keyed.first_key hnd hmem
  rw [List.find?_map]
  show Option.map _ (rows.find? (fun a => decide (decimal a.id = decimal row.id))) = _
  rw [hsame, hfirst, Option.map_some]

/-- Who finds an announcement in the listing may have its files from then on. -/
theorem admitted_of_listed {table : AnnouncementTable} {t now : Int} {listed : List AnnouncementRow}
    (hlist : listAnnouncements conf session t none table = .ok listed) (hmem : row ∈ listed)
    (ht : t ≤ now) :
    ¬(.admin ∉ session.roles ∧ .red ∈ session.roles ∧
      conf.uiSettings.showAnnouncementsForRedTeam = false) ∧
    ¬(.admin ∉ session.roles ∧ now < row.openTime) := by
  unfold listAnnouncements at hlist
  split at hlist
  · cases hlist
  · split at hlist
    · rename_i hadmin
      exact ⟨fun h => h.1 hadmin, fun h => h.1 hadmin⟩
    · split at hlist
      · cases hlist
      · rename_i hhidden
        obtain rfl := Except.ok.inj hlist
        have hopen : row.openTime < t := of_decide_eq_true (List.mem_filter.mp hmem).2
        exact ⟨fun h => hhidden h.2, fun h => by omega⟩

theorem download_announcement {table : AnnouncementTable} (hnumbered : table.Numbered)
    (hreads : Reads site table) (hmem : row ∈ table.rows)
    (hshown : ¬(.admin ∉ session.roles ∧ .red ∈ session.roles ∧
      conf.uiSettings.showAnnouncementsForRedTeam = false))
    (hopen : ¬(.admin ∉ session.roles ∧ site.now < row.openTime)) {name : GoString}
    (hname : name ≠ []) :
    downloadAnnouncementFile conf site disk session (decimal row.id) name =
      sendFile site disk (join (str "submissions/announcements") (decimal row.id)) name := by
  obtain ⟨rows, hrows, hann⟩ := hreads
  have hperm : rows.Perm table.rows := by
    obtain rfl := Except.ok.inj hrows
    exact List.perm_insertionSort _ _
  have hfind := find_announcement ((hperm.map _).nodup_iff.mpr hnumbered.nodup)
    (hperm.mem_iff.mpr hmem)
  rw [downloadAnnouncementFile, if_neg (decimal_ne_nil _), if_neg hname, hann]
  dsimp only
  rw [hfind, Option.getD_some, if_neg hshown, if_neg hopen]

/-- Whatever is sent under a printed id is in the directory of that id. -/
theorem sent_from {dirs : Nat → Option UploadDir} (hdisk : Stores disk site dirs) {id : Nat}
    {name : GoString} {download : Download}
    (h : downloadAnnouncementFile conf site disk session (decimal id) name = .ok download) :
    ∃ dir held, dirs id = some dir ∧ dir.lookup held = some download.file.contents := by
  have hsent : sendFile site disk (join (str "submissions/announcements") (decimal id)) name =
      .ok download := by
    unfold downloadAnnouncementFile at h
    split at h
    · cases h
    · split at h
      · cases h
      · split at h
        · cases h
        · cases h
        · dsimp only at h
          split at h
          · cases h
          · split at h
            · cases h
            · exact h
  unfold sendFile safeOpen at hsent
  rw [locate_announcement] at hsent
  split at hsent
  · cases hsent
  · rename_i file hfile
    obtain rfl := Except.ok.inj hsent
    exact hdisk.only id name file hfile

variable {w : World AnnouncementStore AnnouncementRequest}

/-- An announcement that was made with success, and is there: whoever has found it in the listing
is sent each of its files as it was uploaded, if no later one took its name, and whatever is sent
under an id that was ever given is a beginning of a file that came with it. -/
theorem announcement_served (h : Reachable announcements (fun _ _ => True) w)
    (hmade : .create c ∈ w.requests) (hanswered : c.stage = .answered (.ok ()))
    (hrow : c.row = some row) (hthere : row ∈ w.shared.table.rows)
    (hreads : Reads site w.shared.table) (hdisk : Stores disk site w.shared.dirs)
    {table : AnnouncementTable} {t : Int} {listed : List AnnouncementRow}
    (hlist : listAnnouncements conf session t none table = .ok listed) (hlisted : row ∈ listed)
    (ht : t ≤ site.now) :
    row.announcementFileNames = c.files.map Prod.fst ∧
    (∀ before name contents after, c.files = before ++ (name, contents) :: after →
      name ∉ after.map Prod.fst →
        downloadAnnouncementFile conf site disk session (decimal row.id) name =
          .ok ⟨str "attachment; filename=" ++ name,
            ⟨announcementDir site row.id ++ [name], contents⟩⟩) ∧
    ∀ made ∈ w.shared.made, ∀ name download,
      downloadAnnouncementFile conf site disk session (decimal made.1.id) name = .ok download →
        ∃ file ∈ made.2, download.file.contents <+: file.2 := by
  have hsound := sound_of_any h
  have hkept : Traceable w.shared := hsound.inv
  obtain ⟨hmine, hprogress⟩ := hsound.own _ hmade row hrow
  obtain ⟨hcreatable, hdir⟩ : (∀ file ∈ c.files, Creatable file.1) ∧
      w.shared.dirs row.id = some (writeAll ∅ c.files) := by
    have hall := hprogress hthere
    rwa [hanswered] at hall
  obtain ⟨hshown, hopen⟩ := admitted_of_listed hlist hlisted ht
  refine ⟨hkept.names _ hmine, fun before name contents after hfiles hafter => ?_, ?_⟩
  · have hname : Creatable name := hcreatable (name, contents) (by rw [hfiles]; simp)
    rw [download_announcement hkept.numbered hreads hthere hshown hopen hname.1.ne_nil, sendFile,
      safeOpen, locate_announcement, hdisk.opened row.id _ name contents hdir ?_ hname]
    rw [hfiles]
    exact lookup_writeAll hafter
  · intro made hmem name download hsent
    obtain ⟨dir, held, hdir, hheld⟩ := sent_from hdisk hsent
    have hmem' : (made.1, made.2) ∈ w.shared.made := hmem
    obtain ⟨file, hfile, -, hpre⟩ := hkept.fromUploads hmem' hdir held _ hheld
    exact ⟨file, hfile, hpre⟩

/-- A disk with the directories of a store. -/
def diskOf (site : Site) (s : AnnouncementStore) : Disk where
  openIn base name :=
    ((List.range s.table.nextID).find? (fun id => announcementDir site id = base)).bind (fun id =>
      (s.dirs id).bind (fun dir =>
        (dir.lookup name).map (fun contents => ⟨base ++ [name], contents⟩)))
  confined h := by
    obtain ⟨id, -, h⟩ := Option.bind_eq_some_iff.mp h
    obtain ⟨dir, -, h⟩ := Option.bind_eq_some_iff.mp h
    obtain ⟨contents, -, rfl⟩ := Option.map_eq_some_iff.mp h
    exact ⟨_, List.cons_ne_nil _ _, rfl⟩

theorem announcementDir_inj {a b : Nat} (h : announcementDir site a = announcementDir site b) :
    a = b := by
  have hlast := List.append_cancel_left h
  exact decimal_inj.mp (List.cons.inj (List.cons.inj (List.cons.inj hlast).2).2).1

theorem Traceable.stores (h : Traceable s) : Stores (diskOf site s) site s.dirs where
  opened id dir name contents hdir hheld _ := by
    have hlt : id < s.table.nextID := by
      by_contra hle
      rw [h.unused id (Nat.le_of_not_lt hle)] at hdir
      cases hdir
    have hfind : (List.range s.table.nextID).find?
        (fun other => announcementDir site other = announcementDir site id) = some id := by
      cases hfind : (List.range s.table.nextID).find?
          (fun other => announcementDir site other = announcementDir site id) with
      | none =>
        exact absurd (decide_eq_true rfl) (List.find?_eq_none.mp hfind id (List.mem_range.mpr hlt))
      | some other =>
        have heq : announcementDir site other = announcementDir site id := by
          simpa using List.find?_some hfind
        rw [announcementDir_inj heq]
    show Option.bind _ _ = _
    rw [hfind, Option.bind_some, hdir, Option.bind_some, hheld, Option.map_some]
  only id name file hfile := by
    obtain ⟨other, hother, hfile⟩ := Option.bind_eq_some_iff.mp hfile
    obtain ⟨dir, hdir, hfile⟩ := Option.bind_eq_some_iff.mp hfile
    obtain ⟨contents, hheld, rfl⟩ := Option.map_eq_some_iff.mp hfile
    have heq : announcementDir site other = announcementDir site id := by
      simpa using List.find?_some hother
    rw [announcementDir_inj heq] at hdir
    exact ⟨dir, name, hdir, hheld⟩

/-- One file, and open at noon. -/
def oneFile : AnnouncementForm := ⟨str "rules", str "read them", .at 1200, [(str "a", [120])]⟩

def oneRow : AnnouncementRow := ⟨⟨1, 1200⟩, str "rules", str "read them", [str "a"]⟩

/-- The table of it, after noon. -/
def afternoon : Site where
  cwd := [str "app"]
  now := 1300
  announcements := .ok [⟨1, 1200⟩]
  injects := .ok []

/-- It is made while another with its title is refused. -/
theorem announcement_served_one :
    ∃ w, Reachable announcements (fun _ _ => True) w ∧
      downloadAnnouncementFile {} afternoon (diskOf afternoon w.shared) teamSession (decimal 1)
        (str "a") = .ok ⟨str "attachment; filename=" ++ str "a",
          ⟨announcementDir afternoon 1 ++ [str "a"], [120]⟩⟩ := by
  let w₀ : World AnnouncementStore AnnouncementRequest := ⟨{}, []⟩
  let run : List (Requests.Action AnnouncementCall Mishap) :=
    [ .arrive (.create (some oneFile)), .arrive (.create (some oneFile)),
      .step 0 {}, .step 0 {}, .step 1 {}, .step 0 {}, .step 0 {copied := some 0}, .step 0 {},
      .step 0 {} ]
  obtain ⟨w, hreach, hmade, hthere⟩ :=
    Reachable.exists_of_replay (S := announcements) (G := fun _ _ => True)
      (fun w => .create ⟨some oneFile, some oneRow, .answered (.ok ())⟩ ∈ w.requests ∧
        w.shared.table.rows = [oneRow]) w₀ run ⟨⟨rfl, rfl, fun _ => rfl⟩, rfl⟩ (by decide +kernel)
  have hkept : Traceable w.shared := (sound_of_any hreach).inv
  have hmem : oneRow ∈ w.shared.table.rows := by
    rw [hthere]
    exact List.mem_singleton_self _
  have hreads : Reads afternoon w.shared.table :=
    ⟨[oneRow], by rw [getAnnouncements, hthere]; rfl, rfl⟩
  have hlist : listAnnouncements {} teamSession 1300 none w.shared.table = .ok [oneRow] := by
    rw [listAnnouncements, getAnnouncements, hthere]
    decide +kernel
  obtain ⟨-, hsent, -⟩ := announcement_served hreach hmade rfl rfl hmem hreads
    (hkept.stores : Stores (diskOf afternoon w.shared) afternoon w.shared.dirs) hlist
    (List.mem_singleton_self _) le_rfl
  exact ⟨w, hreach, hsent [] (str "a") [120] [] rfl List.not_mem_nil⟩

/-- Once a deletion has succeeded nothing is sent under the id any more, if no announcement is
deleted while it is being made. -/
theorem announcement_gone (h : Reachable announcements (Beside (Suits True)) w)
    (hdeleted : .delete d ∈ w.requests) (hanswered : d.stage = .answered (.ok ()))
    (hrow : d.row = some row) (hdisk : Stores disk site w.shared.dirs) (name : GoString) :
    ∃ err, downloadAnnouncementFile conf site disk session (decimal row.id) name = .error err := by
  obtain ⟨-, -, hcleared⟩ := (sound_announcements h).own _ hdeleted row hrow
  cases hsent : downloadAnnouncementFile conf site disk session (decimal row.id) name with
  | error err => exact ⟨err, rfl⟩
  | ok download =>
    obtain ⟨dir, held, hdir, -⟩ := sent_from hdisk hsent
    rw [hcleared trivial hanswered] at hdir
    cases hdir

/-- A deletion after the announcement has been made, and one that finds nothing any more. -/
theorem announcement_gone_one :
    ∃ w, Reachable announcements (Beside (Suits True)) w ∧
      ∃ err, downloadAnnouncementFile {} afternoon (diskOf afternoon w.shared) teamSession
        (decimal 1) (str "a") = .error err := by
  let w₀ : World AnnouncementStore AnnouncementRequest := ⟨{}, []⟩
  let run : List (Requests.Action AnnouncementCall Mishap) :=
    [ .arrive (.create (some oneFile)), .step 0 {}, .step 0 {}, .step 0 {}, .step 0 {}, .step 0 {},
      .arrive (.delete (str "1")), .step 1 {}, .step 1 {}, .step 1 {},
      .arrive (.delete (str "1")), .step 2 {} ]
  obtain ⟨w, hreach, hdeleted⟩ :=
    Reachable.exists_of_replay (S := announcements) (G := Beside (Suits True))
      (fun w => .delete ⟨str "1", some oneRow, .answered (.ok ())⟩ ∈ w.requests)
      w₀ run ⟨⟨rfl, rfl, fun _ => rfl⟩, rfl⟩ (by decide +kernel)
  have hkept : Traceable w.shared := (sound_announcements hreach).inv
  exact ⟨w, hreach, announcement_gone hreach hdeleted rfl rfl hkept.stores (str "a")⟩

/-- A deletion comes between a row and its directory: the announcement is gone before it has
opened, and its file is there for everyone. -/
theorem announcement_stays :
    ∃ w, Reachable announcements (fun _ _ => True) w ∧ w.shared.table.rows = [] ∧
      .delete ⟨str "1", some oneRow, .answered (.ok ())⟩ ∈ w.requests ∧
      downloadAnnouncementFile {} {afternoon with now := 1100, announcements := .ok []}
        (diskOf afternoon w.shared) teamSession (decimal 1) (str "a") =
          .ok ⟨str "attachment; filename=a", announcementDir afternoon 1 ++ [str "a"], [120]⟩ := by
  let w₀ : World AnnouncementStore AnnouncementRequest := ⟨{}, []⟩
  let run : List (Requests.Action AnnouncementCall Mishap) :=
    [ .arrive (.create (some oneFile)), .step 0 {},
      .arrive (.delete (str "1")), .step 1 {}, .step 1 {}, .step 1 {},
      .step 0 {}, .step 0 {}, .step 0 {}, .step 0 {} ]
  exact Reachable.exists_of_replay (S := announcements) (G := fun _ _ => True) _
    w₀ run ⟨⟨rfl, rfl, fun _ => rfl⟩, rfl⟩ (by decide +kernel)

end QuotientScoring.WWW
