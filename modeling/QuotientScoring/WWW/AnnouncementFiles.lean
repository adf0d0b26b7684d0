import QuotientScoring.WWW.Announcements

/-! What the requests about announcements leave one another, step by step.

A creation writes to the directory of its own row and to no other, and a deletion removes only what
is in no row any more. `sound_announcements`: so in every world that is reached, the directory of an
announcement that is there is as far as its creation is, and whatever is in a directory came with
the announcement of its id. Where no announcement is deleted while it is being made, the
directory of one that has been deleted stays away. -/
namespace QuotientScoring.WWW
open DB GoText GoPath Decimal Directory Requests Transition

/-! ### The files in a directory -/

/-- Each file holds a beginning of what was uploaded under its name. -/
def FromUploads (files : List (GoString × List UInt8)) (dir : UploadDir) : Prop :=
  ∀ name contents, dir.lookup name = some contents →
    ∃ file ∈ files, file.1 = name ∧ contents <+: file.2

variable {files : List (GoString × List UInt8)} {dir dir' : UploadDir}

theorem FromUploads.empty : FromUploads files ∅ := fun _ _ h => nomatch h

theorem FromUploads.insert (h : FromUploads files dir) {name : GoString}
    {contents written : List UInt8} (hfile : (name, contents) ∈ files)
    (hwritten : written <+: contents) : FromUploads files (dir.insert name written) := by
  intro other held hheld
  by_cases hname : other = name
  · subst hname
    rw [AList.lookup_insert] at hheld
    obtain rfl := Option.some.inj hheld
    exact ⟨_, hfile, rfl, hwritten⟩
  · rw [AList.lookup_insert_ne hname] at hheld
    exact h other held hheld

theorem FromUploads.within (h : FromUploads files dir) (hwithin : Within dir' dir) :
    FromUploads files dir' :=
  fun name contents hheld => h name contents (hwithin name contents hheld)

/-! ### What a step does -/

def CreateStage.Over : CreateStage → Prop
  | .answered _ | .stopped => True
  | _ => False

instance : (stage : CreateStage) → Decidable stage.Over
  | .answered _ | .stopped => .isTrue trivial
  | .arrived | .stored | .uploading _ | .copying _ => .isFalse id

/-- How far the directory is, as long as the announcement is there. -/
def SoFar (files : List (GoString × List UInt8)) (dir : Option UploadDir) : CreateStage → Prop
  | .stored => dir = none
  | .uploading i =>
    (∀ file ∈ files.take i, Creatable file.1) ∧ dir = some (writeAll ∅ (files.take i))
  | .copying i =>
    (∀ file ∈ files.take (i + 1), Creatable file.1) ∧
      ∃ file written, files[i]? = some file ∧
        dir = some ((writeAll ∅ (files.take i)).insert file.1 written)
  | .answered (.ok ()) => (∀ file ∈ files, Creatable file.1) ∧ dir = some (writeAll ∅ files)
  | _ => True

/-- A step of a creation: it is refused, or stores its row, or writes to its directory. -/
inductive CreationStep (s : AnnouncementStore) (c : Creation) : AnnouncementStore → Creation → Prop
  | refused {table : AnnouncementTable} {err : HttpError} :
      (table = s.table ∨ table = {s.table with nextID := s.table.nextID + 1}) →
      CreationStep s c {s with table := table} {c with stage := .answered (.error err)}
  | stored {row : AnnouncementRow} : row.id = s.table.nextID →
      row.announcementFileNames = c.files.map Prod.fst →
      CreationStep s c
        {s with
          table := ⟨s.table.rows ++ [row], s.table.nextID + 1⟩
          made := s.made ++ [(row, c.files)]}
        {c with row := some row, stage := .stored}
  | wrote {row : AnnouncementRow} {dir : Option UploadDir} {stage : CreateStage} :
      c.row = some row →
      (∀ d, dir = some d → (∀ d, s.dirs row.id = some d → FromUploads c.files d) →
        FromUploads c.files d) →
      (SoFar c.files (s.dirs row.id) c.stage → SoFar c.files dir stage) →
      CreationStep s c (s.setDir row.id dir) {c with stage := stage}

variable {s s' : AnnouncementStore} {c c' : Creation} {row : AnnouncementRow} {mishap : Mishap}

theorem setDir_dirs (s : AnnouncementStore) (id : Nat) : s.setDir id (s.dirs id) = s := by
  rw [AnnouncementStore.setDir, Function.update_eq_self]

@[simp] theorem dirs_setDir_self (s : AnnouncementStore) (id : Nat) (dir : Option UploadDir) :
    (s.setDir id dir).dirs id = dir := Function.update_self ..

theorem dirs_setDir_of_ne {id other : Nat} (h : other ≠ id) (dir : Option UploadDir) :
    (s.setDir id dir).dirs other = s.dirs other := Function.update_of_ne h ..

/-- A creation that writes nothing in this step. -/
theorem CreationStep.still (hrow : c.row = some row) {stage : CreateStage}
    (h : SoFar c.files (s.dirs row.id) c.stage → SoFar c.files (s.dirs row.id) stage) :
    CreationStep s c s {c with stage := stage} := by
  have hstep : CreationStep s c (s.setDir row.id (s.dirs row.id)) {c with stage := stage} :=
    .wrote hrow (fun d hd hfrom => hfrom d hd) h
  rwa [setDir_dirs] at hstep

theorem newAnnouncement_ok {form : Option AnnouncementForm} {announcement : AnnouncementRow}
    (h : newAnnouncement form = .ok announcement) :
    announcement.announcementFileNames = (form.elim [] AnnouncementForm.files).map Prod.fst := by
  unfold newAnnouncement at h
  split at h
  · cases h
  · split at h
    · cases h
    · split at h
      · cases h
      · cases h
      · obtain rfl := Except.ok.inj h
        rfl

theorem store_cases (s : AnnouncementStore) (c : Creation) (mishap : Mishap) :
    CreationStep s c (c.store s mishap).1 (c.store s mishap).2 := by
  unfold Creation.store
  split
  · exact .refused (.inl rfl)
  · rename_i announcement hnew
    have hnames := newAnnouncement_ok hnew
    unfold DB.createAnnouncement
    cases mishap.db with
    | some err => exact .refused (.inl rfl)
    | none =>
      dsimp only
      split_ifs with htaken
      · exact .refused (.inr rfl)
      · exact .stored rfl hnames

theorem mkdir_cases (hrow : c.row = some row) (hstage : c.stage = .stored) :
    CreationStep s c (c.mkdir s row mishap).1 (c.mkdir s row mishap).2 := by
  unfold Creation.mkdir
  split_ifs
  · exact .still hrow (fun _ => trivial)
  · refine .wrote hrow (fun d hd hfrom => ?_) (fun hprogress => ?_)
    · obtain rfl := Option.some.inj hd
      cases hdir : s.dirs row.id with
      | none => exact FromUploads.empty
      | some d => exact hfrom d hdir
    · rw [hstage] at hprogress
      have hnone : s.dirs row.id = none := hprogress
      rw [hnone]
      exact ⟨fun file hfile => absurd hfile List.not_mem_nil, rfl⟩

theorem create_cases (hrow : c.row = some row) {i : Nat} (hstage : c.stage = .uploading i) :
    CreationStep s c (c.create s row i mishap).1 (c.create s row i mishap).2 := by
  unfold Creation.create
  split
  · rename_i hnone
    refine .still hrow (fun hprogress => ?_)
    rw [hstage] at hprogress
    have hall : c.files.take i = c.files :=
      List.take_of_length_le (List.getElem?_eq_none_iff.mp hnone)
    rw [← hall]
    exact hprogress
  · rename_i name contents hfile
    split
    · exact .still hrow (fun _ => trivial)
    · split
      · rename_i dir hdir
        split_ifs with hcreate
        · refine .wrote hrow (fun d hd hfrom => ?_) (fun hprogress => ?_)
          · obtain rfl := Option.some.inj hd
            exact (hfrom dir hdir).insert (List.mem_of_getElem? hfile) List.nil_prefix
          · rw [hstage] at hprogress
            obtain ⟨hcreatable, hwritten⟩ := hprogress
            obtain rfl := Option.some.inj (hdir.symm.trans hwritten)
            refine ⟨?_, _, [], hfile, rfl⟩
            rw [List.take_add_one, hfile]
            exact List.forall_mem_append.mpr
              ⟨hcreatable, List.forall_mem_singleton.mpr hcreate.2⟩
        · exact .still hrow (fun _ => trivial)
      · exact .still hrow (fun _ => trivial)

theorem copy_cases (hrow : c.row = some row) {i : Nat} (hstage : c.stage = .copying i) :
    CreationStep s c (c.copy s row i mishap).1 (c.copy s row i mishap).2 := by
  unfold Creation.copy
  split
  · rename_i hnone
    refine .still hrow (fun hprogress => ?_)
    rw [hstage] at hprogress
    obtain ⟨-, file, written, hfile, -⟩ := hprogress
    rw [hnone] at hfile
    cases hfile
  · rename_i name contents hfile
    have hprefix : mishap.copied.elim contents contents.take <+: contents := by
      cases mishap.copied with
      | none => exact List.prefix_refl contents
      | some n => exact List.take_prefix n contents
    -- whatever is written is a beginning of the upload
    have hfrom : ∀ d, (s.dirs row.id).map (fun dir =>
        if name ∈ dir then dir.insert name (mishap.copied.elim contents contents.take) else dir) =
          some d → (∀ d, s.dirs row.id = some d → FromUploads c.files d) →
        FromUploads c.files d := by
      intro d hd hold
      obtain ⟨dir, hdir, rfl⟩ := Option.map_eq_some_iff.mp hd
      split_ifs
      · exact (hold dir hdir).insert (List.mem_of_getElem? hfile) hprefix
      · exact hold dir hdir
    have hwrite : SoFar c.files (s.dirs row.id) c.stage →
        (∀ file ∈ c.files.take (i + 1), Creatable file.1) ∧
          (s.dirs row.id).map (fun dir =>
            if name ∈ dir then dir.insert name (mishap.copied.elim contents contents.take)
            else dir) = some ((writeAll ∅ (c.files.take i)).insert name
              (mishap.copied.elim contents contents.take)) := by
      intro hprogress
      rw [hstage] at hprogress
      obtain ⟨hcreatable, file, written, hfile', hdir⟩ := hprogress
      obtain rfl := Option.some.inj (hfile.symm.trans hfile')
      refine ⟨hcreatable, ?_⟩
      rw [hdir, Option.map_some, if_pos ((AList.mem_insert _).mpr (.inl rfl)), AList.insert_insert]
    dsimp only
    split_ifs with hfails hmore
    · exact .wrote hrow hfrom (fun _ => trivial)
    · have hsame : c = {c with stage := .copying i} := by rw [← hstage]
      conv => rhs; rw [hsame]
      refine .wrote hrow hfrom (fun hprogress => ?_)
      obtain ⟨hcreatable, hdir⟩ := hwrite hprogress
      exact ⟨hcreatable, _, _, hfile, hdir⟩
    · refine .wrote hrow hfrom (fun hprogress => ?_)
      obtain ⟨hcreatable, hdir⟩ := hwrite hprogress
      rw [Option.not_isSome_iff_eq_none] at hmore
      rw [hmore] at hdir
      refine ⟨hcreatable, ?_⟩
      rw [hmore, hdir, writeAll_take hfile]
      rfl

theorem creation_cases (h : c.step s mishap = some (s', c')) :
    ¬c.stage.Over ∧ CreationStep s c s' c' := by
  unfold Creation.step at h
  split at h
  · rename_i hstage
    have hcases := store_cases s c mishap
    rw [Option.some.inj h] at hcases
    exact ⟨by rw [hstage]; exact id, hcases⟩
  · rename_i row hstage hrow
    have hcases : CreationStep s c (c.mkdir s row mishap).1 (c.mkdir s row mishap).2 :=
      mkdir_cases hrow hstage
    rw [Option.some.inj h] at hcases
    exact ⟨by rw [hstage]; exact id, hcases⟩
  · rename_i i row hstage hrow
    have hcases : CreationStep s c (c.create s row i mishap).1 (c.create s row i mishap).2 :=
      create_cases hrow hstage
    rw [Option.some.inj h] at hcases
    exact ⟨by rw [hstage]; exact id, hcases⟩
  · rename_i i row hstage hrow
    have hcases : CreationStep s c (c.copy s row i mishap).1 (c.copy s row i mishap).2 :=
      copy_cases hrow hstage
    rw [Option.some.inj h] at hcases
    exact ⟨by rw [hstage]; exact id, hcases⟩
  · cases h

/-- A step of a deletion: it is answered without more, or finds its row, or deletes it, or removes
the directory. -/
inductive DeletionStep (s : AnnouncementStore) (d : Deletion) (mishap : Mishap) :
    AnnouncementStore → Deletion → Prop
  | refused {err : HttpError} : DeletionStep s d mishap s {d with stage := .answered (.error err)}
  | found {row : AnnouncementRow} : row ∈ s.table.rows →
      DeletionStep s d mishap s {d with row := some row, stage := .found}
  | deleted {row : AnnouncementRow} : d.row = some row → d.stage = .found → mishap.db = none →
      DeletionStep s d mishap
        {s with table.rows := s.table.rows.filter (fun other => other.id ≠ row.id)}
        {d with stage := .deleted}
  | removed {row : AnnouncementRow} {dir : Option UploadDir} {answer : Except HttpError Unit} :
      d.row = some row → d.stage = .deleted →
      (∀ kept, dir = some kept → ∃ old, s.dirs row.id = some old ∧ Within kept old) →
      (answer = .ok () → dir = none) →
      DeletionStep s d mishap (s.setDir row.id dir) {d with stage := .answered answer}

variable {d d' : Deletion}

theorem find_cases (s : AnnouncementStore) (d : Deletion) (mishap : Mishap) :
    DeletionStep s d mishap s (d.find s mishap) := by
  unfold Deletion.find
  split
  · exact .refused
  · split
    · exact .refused
    · rename_i rows hrows
      dsimp only
      split
      · exact .refused
      · rename_i hid
        cases hfind : rows.find? (fun a => decimal a.id = d.id) with
        | none =>
          rw [hfind] at hid
          exact absurd rfl hid
        | some row =>
          exact .found ((mem_getAnnouncements hrows).mp (List.mem_of_find?_eq_some hfind))

theorem deletion_cases (h : d.step s mishap = some (s', d')) : DeletionStep s d mishap s' d' := by
  unfold Deletion.step at h
  split at h
  · obtain ⟨rfl, rfl⟩ := Prod.mk.inj (Option.some.inj h)
    exact find_cases s d mishap
  · rename_i row hstage hrow
    have hcases : DeletionStep s d mishap (d.delete s row mishap).1 (d.delete s row mishap).2 := by
      unfold Deletion.delete DB.deleteAnnouncement
      cases hdb : mishap.db with
      | some err => exact .refused
      | none => exact .deleted hrow hstage hdb
    rwa [Option.some.inj h] at hcases
  · rename_i row hstage hrow
    have hcases : DeletionStep s d mishap (d.remove s row mishap).1 (d.remove s row mishap).2 := by
      unfold Deletion.remove
      split
      · refine .removed hrow hstage (fun kept hkept => ?_) (fun hok => nomatch hok)
        obtain ⟨old, hold, rfl⟩ := Option.map_eq_some_iff.mp hkept
        exact ⟨old, hold, within_kept _ (fun name contents hheld => nomatch hheld)⟩
      · exact .removed hrow hstage (fun kept hkept => nomatch hkept) (fun _ => rfl)
    rwa [Option.some.inj h] at hcases
  · cases h

/-! ### What they rely on -/

/-- Every row is one that was made, and every directory holds what came with one that was made,
each under an id of its own. -/
structure Traceable (s : AnnouncementStore) : Prop where
  numbered : s.table.Numbered
  known : ∀ row ∈ s.table.rows, ∃ files, (row, files) ∈ s.made
  names : ∀ made ∈ s.made, made.1.announcementFileNames = made.2.map Prod.fst
  below : ∀ made ∈ s.made, made.1.id < s.table.nextID
  nodup : (s.made.map (fun made => made.1.id)).Nodup
  unused : ∀ id, s.table.nextID ≤ id → s.dirs id = none
  origin : ∀ id dir, s.dirs id = some dir → ∃ made ∈ s.made, made.1.id = id ∧ FromUploads made.2 dir

/-- The row is not in the table any more, as far as the deletion goes. -/
def Deletion.Past (d : Deletion) : Prop := d.stage = .deleted ∨ d.stage = .answered (.ok ())

/-- What a request assumes of the table and the directories. Where deletions are `tidy`, the
directory of one that has succeeded stays away. -/
def Owns (tidy : Prop) (s : AnnouncementStore) : AnnouncementRequest → Prop
  | .create c => ∀ row, c.row = some row → (row, c.files) ∈ s.made ∧
      (row ∈ s.table.rows → SoFar c.files (s.dirs row.id) c.stage)
  | .delete d => ∀ row, d.row = some row → row.id < s.table.nextID ∧
      (d.Past → ∀ other ∈ s.table.rows, other.id ≠ row.id) ∧
      (tidy → d.stage = .answered (.ok ()) → s.dirs row.id = none)

/-- Two creations have rows of their own, and a tidy deletion is not past an announcement that is
being made. -/
def KeepsApart (tidy : Prop) : AnnouncementRequest → AnnouncementRequest → Prop
  | .create c, .create c' => ∀ row row', c.row = some row → c'.row = some row' → row.id ≠ row'.id
  | .create c, .delete d | .delete d, .create c =>
    tidy → d.Past → ∀ row row', c.row = some row → d.row = some row' → row.id = row'.id →
      c.stage.Over
  | .delete _, .delete _ => True

def reliance (tidy : Prop) : Reliance AnnouncementStore AnnouncementRequest :=
  ⟨Traceable, Owns tidy, KeepsApart tidy⟩

/-- The row of an announcement is not deleted while the announcement is being made. -/
def Suits (tidy : Prop) : AnnouncementRequest → Mishap → AnnouncementRequest → Prop
  | .delete d, mishap, .create c => tidy → d.stage = .found → mishap.db = none →
      d.row.map (fun row => row.id) = c.row.map (fun row => row.id) → c.stage.Over
  | _, _, _ => True

instance (tidy : Prop) [Decidable tidy] : (r : AnnouncementRequest) → (mishap : Mishap) →
    (q : AnnouncementRequest) → Decidable (Suits tidy r mishap q)
  | .delete d, mishap, .create c =>
    inferInstanceAs (Decidable (tidy → d.stage = .found → mishap.db = none →
      d.row.map (fun row => row.id) = c.row.map (fun row => row.id) → c.stage.Over))
  | .create _, _, .create _ | .create _, _, .delete _ | .delete _, _, .delete _ => .isTrue trivial

variable {tidy : Prop}

/-- The files in the directory of a row are those that came with it. -/
theorem Traceable.fromUploads (h : Traceable s) (hmade : (row, files) ∈ s.made)
    (hdir : s.dirs row.id = some dir) : FromUploads files dir := by
  obtain ⟨made, hmem, hid, hfrom⟩ := h.origin row.id dir hdir
  have hsame : made = (row, files) := List.inj_on_of_nodup_map h.nodup hmem hmade hid
  rwa [hsame] at hfrom

theorem Traceable.setDir (h : Traceable s) {id : Nat} (hid : id < s.table.nextID) {new : Option UploadDir}
    (hnew : ∀ dir, new = some dir → ∃ made ∈ s.made, made.1.id = id ∧ FromUploads made.2 dir) :
    Traceable (s.setDir id new) where
  numbered := h.numbered
  known := h.known
  names := h.names
  below := h.below
  nodup := h.nodup
  unused other hother := by
    have hne : other ≠ id := (hid.trans_le hother).ne'
    rw [dirs_setDir_of_ne hne]
    exact h.unused other hother
  origin other dir hdir := by
    by_cases hne : other = id
    · subst hne
      rw [dirs_setDir_self] at hdir
      exact hnew dir hdir
    · rw [dirs_setDir_of_ne hne] at hdir
      exact h.origin other dir hdir

theorem Traceable.skip (h : Traceable s) :
    Traceable {s with table := {s.table with nextID := s.table.nextID + 1}} where
  numbered := h.numbered.skip
  known := h.known
  names := h.names
  below made hmade := Nat.lt_succ_of_lt (h.below made hmade)
  nodup := h.nodup
  unused id hid := h.unused id (Nat.le_of_succ_le hid)
  origin := h.origin

theorem Traceable.append (h : Traceable s) (hid : row.id = s.table.nextID)
    (hnames : row.announcementFileNames = files.map Prod.fst) :
    Traceable {s with
      table := ⟨s.table.rows ++ [row], s.table.nextID + 1⟩
      made := s.made ++ [(row, files)]} where
  numbered := h.numbered.append hid
  known := by
    refine List.forall_mem_append.mpr
      ⟨fun old hold => ?_, List.forall_mem_singleton.mpr ⟨files, by simp⟩⟩
    obtain ⟨others, hothers⟩ := h.known old hold
    exact ⟨others, List.mem_append_left _ hothers⟩
  names := List.forall_mem_append.mpr ⟨h.names, List.forall_mem_singleton.mpr hnames⟩
  below := by
    refine List.forall_mem_append.mpr
      ⟨fun made hmade => Nat.lt_succ_of_lt (h.below made hmade), ?_⟩
    exact List.forall_mem_singleton.mpr (hid ▸ Nat.lt_succ_self _)
  nodup := by
    rw [List.map_append, List.map_singleton, List.nodup_append]
    refine ⟨h.nodup, List.nodup_singleton _, fun a ha b hb hab => ?_⟩
    obtain ⟨made, hmade, rfl⟩ := List.mem_map.mp ha
    have hnext : made.1.id = s.table.nextID := (hab.trans (List.mem_singleton.mp hb)).trans hid
    exact (h.below made hmade).ne hnext
  unused id hle := h.unused id (Nat.le_of_succ_le hle)
  origin id dir hdir := by
    obtain ⟨made, hmade, hmine⟩ := h.origin id dir hdir
    exact ⟨made, List.mem_append_left _ hmade, hmine⟩

theorem Traceable.filter (h : Traceable s) (p : AnnouncementRow → Bool) :
    Traceable {s with table.rows := s.table.rows.filter p} where
  numbered := h.numbered.filter p
  known row hrow := h.known row (List.mem_filter.mp hrow).1
  names := h.names
  below := h.below
  nodup := h.nodup
  unused := h.unused
  origin := h.origin

/-! ### What a creation guarantees -/

theorem CreationStep.keeps (h : CreationStep s c s' c') (hs : Traceable s)
    (hown : Owns tidy s (.create c)) : Traceable s' ∧ Owns tidy s' (.create c') := by
  cases h with
  | refused htable =>
    rcases htable with rfl | rfl
    · exact ⟨hs, fun row hrow => ⟨(hown row hrow).1, fun _ => trivial⟩⟩
    · exact ⟨hs.skip, fun row hrow => ⟨(hown row hrow).1, fun _ => trivial⟩⟩
  | @stored row hid hnames =>
    refine ⟨hs.append hid hnames, fun made hmade => ?_⟩
    obtain rfl := Option.some.inj hmade
    exact ⟨List.mem_append_right _ (List.mem_singleton_self _), fun _ => hs.unused _ hid.ge⟩
  | @wrote row dir stage hrow hfrom hprogress =>
    obtain ⟨hmade, hmine⟩ := hown row hrow
    refine ⟨hs.setDir (hs.below _ hmade) (fun d hd => ?_), fun made hmade' => ?_⟩
    · exact ⟨_, hmade, rfl, hfrom d hd (fun old hold => hs.fromUploads hmade hold)⟩
    · obtain rfl := Option.some.inj (hrow.symm.trans hmade')
      refine ⟨hmade, fun hmem => ?_⟩
      rw [dirs_setDir_self]
      exact hprogress (hmine hmem)

/-- What a creation does leaves other requests what they rely on. -/
theorem CreationStep.frame (h : CreationStep s c s' c') (hs : Traceable s) (hover : ¬c.stage.Over)
    {q : AnnouncementRequest} (hq : Owns tidy s q)
    (hapart : KeepsApart tidy (.create c) q) : Owns tidy s' q ∧ KeepsApart tidy (.create c') q := by
  cases h with
  | @refused table err htable =>
    have hrows : table.rows = s.table.rows := by
      rcases htable with rfl | rfl <;> rfl
    have hnext : s.table.nextID ≤ table.nextID := by
      rcases htable with rfl | rfl
      · exact le_rfl
      · exact Nat.le_succ _
    cases q with
    | create q =>
      refine ⟨fun row hrow => ⟨(hq row hrow).1, fun hmem => ?_⟩, hapart⟩
      rw [hrows] at hmem
      exact (hq row hrow).2 hmem
    | delete d =>
      refine ⟨fun row hrow => ?_, fun _ _ _ _ _ _ _ => trivial⟩
      obtain ⟨hlt, hgone, hcleared⟩ := hq row hrow
      refine ⟨hlt.trans_le hnext, fun hpast => ?_, hcleared⟩
      rw [hrows]
      exact hgone hpast
  | @stored row hid _ =>
    cases q with
    | create q =>
      refine ⟨fun other hother => ?_, fun made other hmade hother heq => ?_⟩
      · obtain ⟨hmade, hmine⟩ := hq other hother
        refine ⟨List.mem_append_left _ hmade, fun hmem => hmine ?_⟩
        refine (List.mem_append.mp hmem).resolve_right (fun hlast => ?_)
        have hlt := hs.below _ hmade
        rw [List.mem_singleton.mp hlast, hid] at hlt
        exact Nat.lt_irrefl _ hlt
      · obtain rfl := Option.some.inj hmade
        have hlt := hs.below _ (hq other hother).1
        exact hlt.ne (heq.symm.trans hid)
    | delete d =>
      refine ⟨fun other hother => ?_, fun _ _ made other hmade hother heq => ?_⟩
      · obtain ⟨hlt, hgone, hcleared⟩ := hq other hother
        refine ⟨Nat.lt_succ_of_lt hlt, fun hpast => ?_, hcleared⟩
        exact List.forall_mem_append.mpr
          ⟨hgone hpast, List.forall_mem_singleton.mpr (hid ▸ hlt.ne')⟩
      · obtain rfl := Option.some.inj hmade
        exact absurd (heq.symm.trans hid) (hq other hother).1.ne
  | @wrote row dir stage hrow _ _ =>
    cases q with
    | create q =>
      refine ⟨fun other hother => ?_, hapart⟩
      obtain ⟨hmade, hmine⟩ := hq other hother
      refine ⟨hmade, fun hmem => ?_⟩
      rw [dirs_setDir_of_ne (hapart row other hrow hother).symm]
      exact hmine hmem
    | delete d =>
      refine ⟨fun other hother => ?_, fun htidy hpast made other hmade hother heq => ?_⟩
      · obtain ⟨hlt, hgone, hcleared⟩ := hq other hother
        refine ⟨hlt, hgone, fun htidy hok => ?_⟩
        have hne : other.id ≠ row.id := fun heq =>
          hover (hapart htidy (.inr hok) row other hrow hother heq.symm)
        rw [dirs_setDir_of_ne hne]
        exact hcleared htidy hok
      · exact absurd (hapart htidy hpast made other hmade hother heq) hover

/-! ### What a deletion guarantees -/

theorem DeletionStep.keeps (h : DeletionStep s d mishap s' d') (hs : Traceable s)
    (hown : Owns tidy s (.delete d)) : Traceable s' ∧ Owns tidy s' (.delete d') := by
  cases h with
  | refused =>
    refine ⟨hs, fun row hrow => ⟨(hown row hrow).1, fun hpast => ?_, fun _ hok => nomatch hok⟩⟩
    rcases hpast with hpast | hpast <;> cases hpast
  | @found row hmem =>
    refine ⟨hs, fun other hother => ?_⟩
    obtain rfl := Option.some.inj hother
    refine ⟨hs.numbered.below _ hmem, fun hpast => ?_, fun _ hok => nomatch hok⟩
    rcases hpast with hpast | hpast <;> cases hpast
  | @deleted row hrow _ _ =>
    refine ⟨hs.filter _, fun other hother => ?_⟩
    obtain rfl := Option.some.inj (hrow.symm.trans hother)
    refine ⟨(hown row hrow).1, fun _ kept hkept => ?_, fun _ hok => nomatch hok⟩
    exact of_decide_eq_true (List.mem_filter.mp hkept).2
  | @removed row dir answer hrow hstage hwithin hanswer =>
    obtain ⟨hlt, hgone, -⟩ := hown row hrow
    refine ⟨hs.setDir hlt (fun kept hkept => ?_), fun other hother => ?_⟩
    · obtain ⟨old, hold, hsub⟩ := hwithin kept hkept
      obtain ⟨made, hmade, hid, hfrom⟩ := hs.origin row.id old hold
      exact ⟨made, hmade, hid, hfrom.within hsub⟩
    · obtain rfl := Option.some.inj (hrow.symm.trans hother)
      refine ⟨hlt, fun _ => hgone (.inl hstage), fun _ hok => ?_⟩
      rw [dirs_setDir_self]
      exact hanswer (DeleteStage.answered.inj hok)

theorem DeletionStep.frame (h : DeletionStep s d mishap s' d') (hown : Owns tidy s (.delete d))
    {q : AnnouncementRequest} (hsuits : Suits tidy (.delete d) mishap q) (hq : Owns tidy s q)
    (hapart : KeepsApart tidy (.delete d) q) : Owns tidy s' q ∧ KeepsApart tidy (.delete d') q := by
  have hnot : ∀ (stage : DeleteStage), stage ≠ .deleted → stage ≠ .answered (.ok ()) →
      ∀ row, KeepsApart tidy (.delete {id := d.id, row := row, stage := stage}) q := by
    intro stage hdeleted hok row
    cases q with
    | create q => exact fun _ hpast => absurd hpast (not_or.mpr ⟨hdeleted, hok⟩)
    | delete q => trivial
  cases h with
  | refused => exact ⟨hq, hnot _ (by simp) (by simp) _⟩
  | found => exact ⟨hq, hnot _ (by simp) (by simp) _⟩
  | @deleted row hrow hstage hdb =>
    cases q with
    | create q =>
      refine ⟨fun other hother => ?_, fun htidy _ made other hmade hother heq => ?_⟩
      · obtain ⟨hmade, hmine⟩ := hq other hother
        exact ⟨hmade, fun hmem => hmine (List.mem_filter.mp hmem).1⟩
      · obtain rfl := Option.some.inj (hrow.symm.trans hother)
        exact hsuits htidy hstage hdb
          (by rw [hrow, hmade, Option.map_some, Option.map_some, heq])
    | delete q =>
      refine ⟨fun other hother => ?_, trivial⟩
      obtain ⟨hlt, hgone, hcleared⟩ := hq other hother
      exact ⟨hlt, fun hpast kept hkept => hgone hpast kept (List.mem_filter.mp hkept).1, hcleared⟩
  | @removed row dir answer hrow hstage hwithin _ =>
    obtain ⟨-, hgone, -⟩ := hown row hrow
    cases q with
    | create q =>
      refine ⟨fun other hother => ?_, fun htidy _ => hapart htidy (.inl hstage)⟩
      obtain ⟨hmade, hmine⟩ := hq other hother
      refine ⟨hmade, fun hmem => ?_⟩
      rw [dirs_setDir_of_ne (hgone (.inl hstage) other hmem)]
      exact hmine hmem
    | delete q =>
      refine ⟨fun other hother => ?_, trivial⟩
      obtain ⟨hlt, hgone', hcleared⟩ := hq other hother
      refine ⟨hlt, hgone', fun htidy hok => ?_⟩
      have hnone := hcleared htidy hok
      by_cases hid : other.id = row.id
      · -- what is not there cannot be left
        rw [hid] at hnone ⊢
        rw [dirs_setDir_self, Option.eq_none_iff_forall_ne_some]
        intro kept hkept
        obtain ⟨old, hold, -⟩ := hwithin kept hkept
        rw [hnone] at hold
        cases hold
      · rw [dirs_setDir_of_ne hid]
        exact hnone

/-! ### All of them -/

theorem over_stop (stage : CreateStage) : stage.stop.Over := by cases stage <;> trivial

theorem ok_of_stop {stage : DeleteStage} (h : stage.stop = .answered (.ok ())) :
    stage = .answered (.ok ()) := by
  cases stage with
  | answered answer => exact h
  | _ => cases h

theorem past_of_stop {d : Deletion} (h : Deletion.Past {d with stage := d.stage.stop}) :
    d.Past := by
  rcases h with h | h
  · exfalso
    revert h
    cases d.stage <;> exact fun h => nomatch h
  · exact .inr (ok_of_stop h)

theorem creation_of_step {r : AnnouncementRequest}
    (h : announcementHandler.step s (.create c) mishap = some (s', r)) :
    ∃ c', r = .create c' ∧ ¬c.stage.Over ∧ CreationStep s c s' c' := by
  obtain ⟨⟨after, c'⟩, hafter, heq⟩ := Option.map_eq_some_iff.mp h
  obtain ⟨rfl, rfl⟩ := Prod.mk.inj heq
  exact ⟨c', rfl, creation_cases hafter⟩

theorem deletion_of_step {r : AnnouncementRequest}
    (h : announcementHandler.step s (.delete d) mishap = some (s', r)) :
    ∃ d', r = .delete d' ∧ DeletionStep s d mishap s' d' := by
  obtain ⟨⟨after, d'⟩, hafter, heq⟩ := Option.map_eq_some_iff.mp h
  obtain ⟨rfl, rfl⟩ := Prod.mk.inj heq
  exact ⟨d', rfl, deletion_cases hafter⟩

theorem guarantee (tidy : Prop) :
    Guarantee announcementHandler (Suits tidy) (reliance tidy) where
  symm {r q} h := by
    cases r with
    | create c =>
      cases q with
      | create q => exact fun row row' hrow hrow' => (h row' row hrow' hrow).symm
      | delete d => exact h
    | delete d =>
      cases q with
      | create q => exact h
      | delete q => trivial
  arrive call _ := by
    cases call with
    | create form => exact fun row hrow => nomatch hrow
    | delete id => exact fun row hrow => nomatch hrow
  arrive_apart call q := by
    cases call with
    | create form =>
      cases q with
      | create q => exact fun row row' hrow => nomatch hrow
      | delete d => exact fun _ _ row row' hrow => nomatch hrow
    | delete id =>
      cases q with
      | create q => exact fun _ _ row row' _ hrow => nomatch hrow
      | delete q => trivial
  step {s r mishap s' r'} hs hown hstep := by
    cases r with
    | create c =>
      have hown : Owns tidy s (.create c) := hown
      obtain ⟨c', rfl, -, hcases⟩ := creation_of_step hstep
      exact hcases.keeps hs hown
    | delete d =>
      obtain ⟨d', rfl, hcases⟩ := deletion_of_step hstep
      exact hcases.keeps hs hown
  frame {s r mishap s' r' q} hs hown hstep hsuits hq hapart := by
    cases r with
    | create c =>
      obtain ⟨c', rfl, hover, hcases⟩ := creation_of_step hstep
      exact hcases.frame hs hover hq hapart
    | delete d =>
      obtain ⟨d', rfl, hcases⟩ := deletion_of_step hstep
      exact hcases.frame hown hsuits hq hapart
  stop {s r} hown := by
    cases r with
    | create c =>
      intro row hrow
      obtain ⟨hmade, hmine⟩ := hown row hrow
      refine ⟨hmade, fun hmem => ?_⟩
      have hprogress := hmine hmem
      show SoFar c.files (s.dirs row.id) c.stage.stop
      cases hstage : c.stage with
      | answered answer => rwa [hstage] at hprogress
      | _ => trivial
    | delete d =>
      intro row hrow
      obtain ⟨hlt, hgone, hcleared⟩ := hown row hrow
      refine ⟨hlt, fun hpast => hgone (past_of_stop hpast), fun htidy hok => ?_⟩
      exact hcleared htidy (ok_of_stop hok)
  stop_apart {r q} h := by
    cases r with
    | create c =>
      cases q with
      | create q => exact h
      | delete d => exact fun _ _ _ _ _ _ _ => over_stop c.stage
    | delete d =>
      cases q with
      | create c => exact fun _ _ _ _ _ _ _ => over_stop c.stage
      | delete q => trivial

/-- What is relied on in a world that is reached, by tidy deletions or by any. -/
theorem sound_announcements {w : World AnnouncementStore AnnouncementRequest}
    (h : Reachable announcements (Beside (Suits tidy)) w) : Sound (reliance tidy) w := by
  apply sound_of_reachable (guarantee tidy) ?_ h
  intro s ⟨htable, hmade, hdirs⟩
  refine ⟨?_, ?_, ?_, ?_, ?_, fun id _ => hdirs id, fun id dir hdir => ?_⟩
  · rw [htable]
    exact ⟨List.nodup_nil, (fun _ h => nomatch h), (fun _ h => nomatch h), Nat.one_pos⟩
  · rw [htable]
    exact fun _ h => nomatch h
  · rw [hmade]
    exact fun _ h => nomatch h
  · rw [hmade]
    exact fun _ h => nomatch h
  · rw [hmade]
    exact List.nodup_nil
  · rw [hdirs] at hdir
    cases hdir

theorem sound_of_any {w : World AnnouncementStore AnnouncementRequest}
    (h : Reachable announcements (fun _ _ => True) w) : Sound (reliance False) w := by
  refine sound_announcements (h.mono (fun w a _ => ?_))
  cases a with
  | step i mishap =>
    intro r _ q _
    cases r with
    | create c => trivial
    | delete d =>
      cases q with
      | create c => exact fun hfalse => hfalse.elim
      | delete d => trivial
  | _ => trivial

end QuotientScoring.WWW
