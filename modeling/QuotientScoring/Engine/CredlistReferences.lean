import QuotientScoring.Engine.Acceptance

/-! The credlists that checks refer to.

A check names its credlists as the file does, by the name of an entry or by the name of its
file, and `checkConfig` puts the file's name in the place of either. The map it looks
them up in is filled entry by entry, so that it answers with the last entry that has the
name: `lookup_credMap`. Where only one has it there is no question which file is meant:
`references_resolved`. -/
namespace QuotientScoring.Config
open DB GoText Checks

/-! ### Entries -/

namespace Credlist

/-- The name of an entry, which is the path if it has none. -/
def defaultedName (credlist : Credlist) : GoString :=
  if credlist.credlistName = [] then credlist.credlistPath else credlist.credlistName

/-- The name of the file, without its directory. -/
def fileName (credlist : Credlist) : GoString := GoPath.base credlist.credlistPath

/-- The entry is what the reference is to. -/
def Referred (ref : GoString) (credlist : Credlist) : Prop :=
  ref = credlist.defaultedName ∨ ref = credlist.fileName

instance (ref : GoString) (credlist : Credlist) : Decidable (credlist.Referred ref) :=
  inferInstanceAs (Decidable (_ ∨ _))

end Credlist

/-- The map that the references of a file are looked up in. -/
def fileCreds (raw : ConfigSettings) : GoMap GoString GoString :=
  credMap ((checkCredlists raw.credlistSettings).map Prod.fst)

theorem credMap_concat (credlists : List Credlist) (cl : Credlist) : credMap (credlists ++ [cl]) =
    ((credMap credlists).insert cl.credlistName cl.credlistPath).insert cl.credlistPath
      cl.credlistPath := by
  rw [credMap, List.foldl_append]
  rfl

/-- The last entry of a name is the one that counts. -/
theorem lookup_fileCreds (raw : ConfigSettings) (ref : GoString) : (fileCreds raw).lookup ref =
    (raw.credlistSettings.reverse.find? (fun cl => cl.Referred ref)).map Credlist.fileName := by
  rw [fileCreds]
  induction raw.credlistSettings using List.reverseRecOn with
  | nil => rfl
  | append_singleton credlists cl ih =>
    rw [checkCredlists, List.mapIdx_concat, List.map_append, List.map_singleton, credMap_concat,
      List.reverse_append, List.reverse_singleton, List.singleton_append, List.find?_cons]
    show (((credMap ((checkCredlists credlists).map Prod.fst)).insert cl.defaultedName
      cl.fileName).insert cl.fileName cl.fileName).lookup ref = _
    by_cases hfile : ref = cl.fileName
    · have hreferred : cl.Referred ref := .inr hfile
      rw [decide_eq_true hreferred, hfile, AList.lookup_insert]
      rfl
    · rw [AList.lookup_insert_ne hfile]
      by_cases hname : ref = cl.defaultedName
      · have hreferred : cl.Referred ref := .inl hname
        rw [decide_eq_true hreferred, hname, AList.lookup_insert]
        rfl
      · have hother : ¬ cl.Referred ref := fun h => h.elim hname hfile
        rw [AList.lookup_insert_ne hname, ih, decide_eq_false hother]

/-- A reference to one entry only is to its file. -/
theorem lookup_of_filter {raw : ConfigSettings} {ref : GoString} {entry : Credlist}
    (h : raw.credlistSettings.filter (fun cl => cl.Referred ref) = [entry]) :
    (fileCreds raw).lookup ref = some entry.fileName := by
  rw [lookup_fileCreds, ← List.head?_filter, List.filter_reverse, h]
  rfl

/-- A reference to no entry is not found. -/
theorem lookup_of_none {raw : ConfigSettings} {ref : GoString}
    (h : ∀ cl ∈ raw.credlistSettings, ¬ cl.Referred ref) : (fileCreds raw).lookup ref = none := by
  have hnone : raw.credlistSettings.reverse.find? (fun cl => cl.Referred ref) = none := by
    rw [List.find?_eq_none]
    intro cl hcl
    simpa using h cl (List.mem_reverse.mp hcl)
  rw [lookup_fileCreds, hnone]
  rfl

/-! ### Checks -/

/-- Every reference of the check in the file was found, and what was found is in its place. -/
def Resolved (creds : GoMap GoString GoString) (r check : Runner) : Prop :=
  List.Forall₂ (fun ref path => creds.lookup ref = some path) r.service.credLists
    check.service.credLists

/-- What is found of a list, where all of it is. -/
theorem forall₂_filterMap {α β : Type} {f : α → Option β} {xs : List α}
    (h : ∀ x ∈ xs, f x ≠ none) : List.Forall₂ (fun x y => f x = some y) xs (xs.filterMap f) := by
  induction xs with
  | nil => exact .nil
  | cons x rest ih =>
    obtain ⟨hx, hrest⟩ := List.forall_mem_cons.mp h
    obtain ⟨y, hy⟩ := Option.ne_none_iff_exists'.mp hx
    rw [List.filterMap_cons_some hy]
    exact .cons hy (ih hrest)

section
variable {env : Environment} {creds : GoMap GoString GoString}

/-- One check, if it leaves no error. -/
theorem checkRunner_resolved {args : VerifyArgs} {pass pass' : Pass} {r check : Runner}
    (h : checkRunner env creds args pass r = some (check, pass')) (herr : pass'.errors = []) :
    pass.errors = [] ∧ Resolved creds r check := by
  obtain ⟨⟨made, err⟩, hverify, heq⟩ := Option.map_eq_some_iff.mp h
  obtain ⟨hcheck, hpass⟩ := Prod.mk.inj heq
  have hlists := credLists_verified hverify
  rw [← hpass] at herr
  simp only [List.append_eq_nil_iff, List.map_eq_nil_iff, List.filter_eq_nil_iff] at herr
  obtain ⟨⟨⟨hbefore, -⟩, -⟩, hmissing⟩ := herr
  have hfound : List.Forall₂ (fun ref path => creds.lookup ref = some path) r.service.credLists
      (made.service.credLists.filterMap creds.lookup) := by
    rw [hlists]
    refine forall₂_filterMap fun ref href => ?_
    simpa using hmissing ref (hlists ▸ href)
  refine ⟨hbefore, ?_⟩
  unfold Resolved
  split at hcheck
  · rename_i hnone
    -- nothing was written, so nothing is put in its place
    rw [hnone] at hfound
    obtain rfl := hcheck
    rw [hlists, List.forall₂_nil_right_iff.mp hfound]
    exact .nil
  · obtain rfl := hcheck
    rw [Runner.setCredlists, Runner.service_withService]
    exact hfound

theorem checkBox_resolved {misc : MiscConfig} {i : Nat} {pass pass' : Pass} {raw box : Box}
    (h : checkBox env creds misc i pass raw = .ok (box, pass')) (herr : pass'.errors = []) :
    pass.errors = [] ∧ List.Forall₂ (Resolved creds) raw.checks box.runners := by
  unfold checkBox at h
  split at h
  · cases h
  · split at h
    · cases h
    · dsimp only at h
      split at h
      · cases h
      · rename_i runners mid hrunners
        obtain ⟨rfl, rfl⟩ := Prod.mk.inj (Except.ok.inj h)
        exact checkRunners_related env creds (fun _ _ _ _ => checkRunner_resolved) hrunners herr

end

/-- The checks of an accepted file, each beside the one it was made from. -/
theorem Accepts.resolved {env : Environment} {raw conf : ConfigSettings}
    (h : Accepts env raw conf) : List.Forall₂ (Resolved (fileCreds raw))
      ((sortBoxes raw.box).flatMap Box.checks) conf.allChecks := by
  unfold Accepts checkConfig at h
  dsimp only at h
  split at h
  · cases h
  · rename_i boxes pass hboxes
    obtain ⟨rfl, herr⟩ := Prod.mk.inj (Except.ok.inj h)
    obtain ⟨-, hrelated⟩ :=
      checkBoxes_related env _ (fun _ _ _ _ _ => checkBox_resolved) hboxes herr
    exact List.rel_flatMap hrelated (fun _ _ hbox => hbox)

/-! ### The file -/

/-- As many credlists as there are references, and a reference to one entry only has become the
name of its file. -/
def ResolvedTo (credlists : List Credlist) (written resolved : List GoString) : Prop :=
  resolved.length = written.length ∧
    ∀ (i : Nat) (ref : GoString), written[i]? = some ref → ∀ entry : Credlist,
      credlists.filter (fun cl => cl.Referred ref) = [entry] → resolved[i]? = some entry.fileName

theorem Resolved.to {raw : ConfigSettings} {r check : Runner}
    (h : Resolved (fileCreds raw) r check) :
    ResolvedTo raw.credlistSettings r.service.credLists check.service.credLists := by
  refine ⟨h.length_eq.symm, ?_⟩
  intro i ref href entry hentry
  obtain ⟨hi, rfl⟩ := List.getElem?_eq_some_iff.mp href
  have hi' : i < check.service.credLists.length := h.length_eq ▸ hi
  have hlookup := h.get hi hi'
  rw [List.get_eq_getElem, lookup_of_filter hentry] at hlookup
  rw [List.getElem?_eq_getElem hi']
  exact hlookup.symm

/-- The references of every check of an accepted file are resolved, and a file with a reference to
no entry is not accepted. -/
theorem references_resolved (env : Environment) (raw : ConfigSettings) :
    (∀ conf, Accepts env raw conf → List.Forall₂
      (fun r check =>
        ResolvedTo raw.credlistSettings r.service.credLists check.service.credLists)
      ((sortBoxes raw.box).flatMap Box.checks) conf.allChecks) ∧
    ((∃ r ∈ raw.written, ∃ ref ∈ r.service.credLists,
      ∀ cl ∈ raw.credlistSettings, ¬ cl.Referred ref) → ¬ ∃ conf, Accepts env raw conf) := by
  constructor
  · intro conf h
    exact h.resolved.imp (fun _ _ => Resolved.to)
  · rintro ⟨r, hr, ref, href, hnone⟩ haccepted
    obtain ⟨box, hbox, hrbox⟩ := List.mem_flatMap.mp hr
    exact (((accepts_iff.mp haccepted).boxes box hbox).checks r hrbox).credlists ref href
      (lookup_of_none hnone)

/-! ### Two credlists -/

/-- A check that refers to one credlist by its name, and to the other by its file. -/
def usersFile : ConfigSettings :=
  { smallFile {} {ssh := [{credLists := [str "admins", str "users.credlist"]}]} with
    credlistSettings :=
      [ {credlistName := str "admins", credlistPath := str "lists/linux.credlist"},
        {credlistPath := str "lists/users.credlist"} ] }

theorem users_resolved :
    List.Forall₂
      (fun r check =>
        ResolvedTo usersFile.credlistSettings r.service.credLists check.service.credLists)
      ((sortBoxes usersFile.box).flatMap Box.checks) (setConfig .plain {} usersFile).allChecks ∧
    ¬ ∃ conf, Accepts .plain {usersFile with credlistSettings := []} conf :=
  ⟨(references_resolved .plain usersFile).1 _ (by decide +kernel),
    (references_resolved .plain {usersFile with credlistSettings := []}).2
      ⟨.ssh {credLists := [str "admins", str "users.credlist"]}, by decide +kernel, str "admins",
        List.mem_cons_self, fun _ hcl => absurd hcl List.not_mem_nil⟩⟩

end QuotientScoring.Config
