import QuotientScoring.Engine.Config

/-! Exactly which files `checkConfig` accepts.

A file is accepted when it is `InOrder`: nothing is wrong with its settings, every
box has a name and an address, nothing is wrong with any check, and no two checks
have one name. The loops over boxes and checks carry the names of the checks seen
so far; that those are distinct is the invariant, and a repeated one is the error.

The names of the boxes are another matter. They are looked up in a map that
nothing is ever put in, so `box_names_distinct_iff`: two boxes of one name are
refused only along with something else. -/
namespace QuotientScoring.Config
open DB GoText Checks

variable (env : Environment)

/-! ### One check -/

/-- What `Verify` leaves of a check. -/
def verified (args : VerifyArgs) (r : Runner) : Runner :=
  ((r.verify env.compiles args).map Prod.fst).getD r

def checkName (args : VerifyArgs) (r : Runner) : GoString := (verified env args r).service.name

/-- Nothing is wrong with a check by itself. -/
structure Faultless (creds : GoMap GoString GoString) (args : VerifyArgs) (r : Runner) : Prop where
  verify : r.verify env.compiles args = some (verified env args r, none)
  credlists : ∀ list ∈ r.service.credLists, creds.lookup list ≠ none

variable {env} {creds : GoMap GoString GoString} {args : VerifyArgs}

theorem verified_of_verify {r check : Runner} {err : Option GoString}
    (h : r.verify env.compiles args = some (check, err)) : verified env args r = check := by
  rw [verified, h]
  rfl

theorem credLists_verified {r check : Runner} {err : Option GoString}
    (h : r.verify env.compiles args = some (check, err)) :
    check.service.credLists = r.service.credLists := by
  obtain ⟨-, _, _, _, hservice⟩ := Runner.verify_service h
  rw [hservice]
  rfl

/-- A check leaves no error exactly if there was none before it, nothing is wrong with it and
its name is new. -/
theorem checkRunner_iff {pass : Pass} {names : List GoString} (hnd : pass.runnerNames.Nodup)
    (r : Runner) :
    (∃ check, checkRunner env creds args pass r = some (check, ⟨[], names⟩)) ↔
      pass.errors = [] ∧ Faultless env creds args r ∧
        names = checkName env args r :: pass.runnerNames ∧ names.Nodup := by
  cases hverify : r.verify env.compiles args with
  | none =>
    refine iff_of_false (fun ⟨check, hcheck⟩ => ?_) (fun ⟨_, hfault, _⟩ => ?_)
    · simp [checkRunner, hverify] at hcheck
    · have hsome := hfault.verify
      rw [hverify] at hsome
      cases hsome
  | some v =>
    obtain ⟨check, err⟩ := v
    have hverified := verified_of_verify hverify
    have hlists := credLists_verified hverify
    have hname : checkName env args r = check.service.name := by rw [checkName, hverified]
    have hfault : Faultless env creds args r ↔
        err = none ∧ ∀ list ∈ check.service.credLists, creds.lookup list ≠ none := by
      constructor
      · intro h
        have hsame := h.verify
        rw [hverify, hverified] at hsame
        exact ⟨congrArg Prod.snd (Option.some.inj hsame), hlists ▸ h.credlists⟩
      · rintro ⟨rfl, hknown⟩
        exact ⟨by rw [hverify, hverified], hlists ▸ hknown⟩
    rw [hfault, hname]
    simp only [checkRunner, hverify, Option.map_some, Option.some.injEq, Prod.mk.injEq,
      Pass.mk.injEq, exists_and_right, exists_eq', true_and, List.append_eq_nil_iff, failIf_eq_nil,
      List.map_eq_nil_iff, List.filter_eq_nil_iff, Option.toList_eq_nil_iff]
    constructor
    · rintro ⟨⟨⟨⟨hbefore, hnone⟩, hnew⟩, hmissing⟩, rfl⟩
      refine ⟨hbefore, ⟨hnone, fun list hlist => ?_⟩, rfl, List.nodup_cons.mpr ⟨hnew, hnd⟩⟩
      simpa using hmissing list hlist
    · rintro ⟨hbefore, ⟨hnone, hknown⟩, rfl, hnames⟩
      refine ⟨⟨⟨⟨hbefore, hnone⟩, (List.nodup_cons.mp hnames).1⟩, fun list hlist => ?_⟩, rfl⟩
      simpa using hknown list hlist

/-! ### The loops -/

theorem checkRunners_iff {pass : Pass} {names : List GoString} (hnd : pass.runnerNames.Nodup)
    (raws : List Runner) :
    (∃ checks, checkRunners env creds args pass raws = some (checks, ⟨[], names⟩)) ↔
      pass.errors = [] ∧ (∀ r ∈ raws, Faultless env creds args r) ∧
        names = (raws.map (checkName env args)).reverse ++ pass.runnerNames ∧ names.Nodup := by
  induction raws generalizing pass with
  | nil =>
    constructor
    · intro ⟨_, h⟩
      obtain ⟨rfl, rfl⟩ := Prod.mk.inj (Option.some.inj h)
      exact ⟨rfl, by simp, rfl, hnd⟩
    · rintro ⟨herrors, -, rfl, -⟩
      exact ⟨[], by rw [checkRunners, ← herrors]; rfl⟩
  | cons r rest ih =>
    have hnames : ((r :: rest).map (checkName env args)).reverse ++ pass.runnerNames =
        (rest.map (checkName env args)).reverse ++ checkName env args r :: pass.runnerNames := by
      simp
    constructor
    · intro ⟨checks, h⟩
      obtain ⟨⟨check, mid⟩, hcheck, hrest⟩ := Option.bind_eq_some_iff.mp h
      obtain ⟨⟨tail, last⟩, htail, heq⟩ := Option.map_eq_some_iff.mp hrest
      obtain ⟨-, rfl⟩ := Prod.mk.inj heq
      have hmid := (checkRunners_checked env creds htail rfl).1
      obtain ⟨herrors, hfault, hfirst, hfresh⟩ := (checkRunner_iff hnd r).mp
        ⟨check, by rw [hcheck, ← hmid]⟩
      obtain ⟨-, hfaults, hall, hdistinct⟩ := (ih hfresh).mp ⟨tail, htail⟩
      refine ⟨herrors, List.forall_mem_cons.mpr ⟨hfault, hfaults⟩, ?_, hdistinct⟩
      rw [hnames, hall, hfirst]
    · intro ⟨herrors, hfaults, hall, hdistinct⟩
      obtain ⟨hfault, hrest⟩ := List.forall_mem_cons.mp hfaults
      rw [hnames] at hall
      have hfresh : (checkName env args r :: pass.runnerNames).Nodup :=
        (hall ▸ hdistinct).of_append_right
      obtain ⟨check, hcheck⟩ := (checkRunner_iff hnd r).mpr ⟨herrors, hfault, rfl, hfresh⟩
      obtain ⟨tail, htail⟩ := (@ih ⟨[], _⟩ hfresh).mpr ⟨rfl, hrest, hall, hdistinct⟩
      exact ⟨check :: tail, by simp only [checkRunners, hcheck, Option.bind_some, htail, Option.map_some]⟩

/-- What `Verify` is told about a box: its address is in lower case by then. -/
def boxArgs (misc : MiscConfig) (env : Environment) (box : Box) : VerifyArgs :=
  verifyArgs misc {box with ip := env.toLower box.ip}

/-- Nothing is wrong with a box but its name may be another's. -/
structure BoxInOrder (env : Environment) (creds : GoMap GoString GoString) (misc : MiscConfig)
    (box : Box) : Prop where
  name : box.name ≠ []
  ip : box.ip ≠ []
  checks : ∀ r ∈ box.checks, Faultless env creds (boxArgs misc env box) r

/-- The names of a box's checks. -/
def checkNames (env : Environment) (misc : MiscConfig) (box : Box) : List GoString :=
  box.checks.map (checkName env (boxArgs misc env box))

/-- The checks of a box that has a name and an address. -/
theorem checkBox_eq {misc : MiscConfig} {i : Nat} {pass : Pass} {raw : Box} (hname : raw.name ≠ [])
    (hip : raw.ip ≠ []) : checkBox env creds misc i pass raw =
      match checkRunners env creds (boxArgs misc env raw) pass raw.checks with
      | none => Except.error Stopped.panic
      | some made => Except.ok ({raw with ip := env.toLower raw.ip, runners := made.1}, made.2) := by
  rw [checkBox, if_neg hname, if_neg hip]
  dsimp only
  rw [show checkRunners env creds (verifyArgs misc {raw with ip := env.toLower raw.ip}) pass
    (Box.checks {raw with ip := env.toLower raw.ip}) =
      checkRunners env creds (boxArgs misc env raw) pass raw.checks from rfl]
  cases checkRunners env creds (boxArgs misc env raw) pass raw.checks <;> rfl

theorem checkBox_iff {misc : MiscConfig} {i : Nat} {pass : Pass} {names : List GoString}
    (hnd : pass.runnerNames.Nodup) (raw : Box) :
    (∃ box, checkBox env creds misc i pass raw = .ok (box, ⟨[], names⟩)) ↔
      pass.errors = [] ∧ BoxInOrder env creds misc raw ∧
        names = (checkNames env misc raw).reverse ++ pass.runnerNames ∧ names.Nodup := by
  have hrunners := @checkRunners_iff env creds (boxArgs misc env raw) pass names hnd raw.checks
  by_cases hnamed : raw.name ≠ [] ∧ raw.ip ≠ []
  · obtain ⟨hname, hip⟩ := hnamed
    have horder : BoxInOrder env creds misc raw ↔
        ∀ r ∈ raw.checks, Faultless env creds (boxArgs misc env raw) r :=
      ⟨fun h => h.checks, fun h => ⟨hname, hip, h⟩⟩
    rw [horder, checkNames, ← hrunners, checkBox_eq hname hip]
    cases checkRunners env creds (boxArgs misc env raw) pass raw.checks with
    | none => simp
    | some made => simp [Prod.ext_iff]
  · refine iff_of_false (fun ⟨box, hbox⟩ => hnamed ?_) (fun h => hnamed ⟨h.2.1.name, h.2.1.ip⟩)
    unfold checkBox at hbox
    split at hbox
    · cases hbox
    · split at hbox
      · cases hbox
      · exact ⟨‹_›, ‹_›⟩

theorem checkBoxes_iff {misc : MiscConfig} {i : Nat} {pass : Pass} {names : List GoString}
    (hnd : pass.runnerNames.Nodup) (raws : List Box) :
    (∃ boxes, checkBoxes env creds misc i pass raws = .ok (boxes, ⟨[], names⟩)) ↔
      pass.errors = [] ∧ (∀ raw ∈ raws, BoxInOrder env creds misc raw) ∧
        names = (raws.flatMap (checkNames env misc)).reverse ++ pass.runnerNames ∧
          names.Nodup := by
  induction raws generalizing i pass with
  | nil =>
    constructor
    · intro hchecked
      obtain ⟨_, h⟩ := hchecked
      obtain ⟨rfl, rfl⟩ := Prod.mk.inj (Except.ok.inj h)
      exact ⟨rfl, by simp, rfl, hnd⟩
    · rintro ⟨herrors, -, rfl, -⟩
      exact ⟨[], by rw [checkBoxes, ← herrors]; rfl⟩
  | cons raw rest ih =>
    have hnames : ((raw :: rest).flatMap (checkNames env misc)).reverse ++ pass.runnerNames =
        (rest.flatMap (checkNames env misc)).reverse ++
          ((checkNames env misc raw).reverse ++ pass.runnerNames) := by
      simp
    constructor
    · intro hchecked
      obtain ⟨boxes, h⟩ := hchecked
      rw [checkBoxes] at h
      split at h
      · cases h
      · rename_i box mid hbox
        split at h
        · cases h
        · rename_i tail last htail
          obtain ⟨-, rfl⟩ := Prod.mk.inj (Except.ok.inj h)
          have hmid := (checkBoxes_checked env creds htail rfl).1
          obtain ⟨herrors, hone, hfirst, hfresh⟩ := (checkBox_iff hnd raw).mp
            ⟨box, by rw [hbox, ← hmid]⟩
          obtain ⟨-, hrest, hall, hdistinct⟩ := (ih hfresh).mp ⟨tail, htail⟩
          refine ⟨herrors, List.forall_mem_cons.mpr ⟨hone, hrest⟩, ?_, hdistinct⟩
          rw [hnames, hall, hfirst]
    · intro h
      obtain ⟨herrors, hall, heq, hdistinct⟩ := h
      obtain ⟨hone, hrest⟩ := List.forall_mem_cons.mp hall
      rw [hnames] at heq
      have hfresh : ((checkNames env misc raw).reverse ++ pass.runnerNames).Nodup :=
        (heq ▸ hdistinct).of_append_right
      obtain ⟨box, hbox⟩ := (checkBox_iff (i := i) hnd raw).mpr ⟨herrors, hone, rfl, hfresh⟩
      obtain ⟨tail, htail⟩ := (@ih (i + 1) ⟨[], _⟩ hfresh).mpr
        ⟨rfl, hrest, heq, hdistinct⟩
      exact ⟨box :: tail, by simp only [checkBoxes, hbox, htail]⟩

/-! ### The file -/

/-- What is wrong with the settings of a file. -/
def settingsErrors (env : Environment) (raw : ConfigSettings) : Errors :=
  (checkRequired env raw.requiredSettings).2 ++ (checkLdap env raw.ldapSettings).2 ++
  (checkUsers "admin" raw.admin ++ checkUsers "red" raw.red ++ checkUsers "team" raw.team ++
    checkUsers "inject" raw.inject) ++
  (checkCredlists raw.credlistSettings).flatMap Prod.snd ++ checkSsl raw.sslSettings ++
  checkTimes (raw.miscSettings.withDefaults raw.sslSettings) ++ (checkOIDC raw.oidcSettings).2

/-- Nothing is wrong with a file but the names of its boxes. -/
structure InOrder (env : Environment) (raw : ConfigSettings) : Prop where
  settings : settingsErrors env raw = []
  boxes : ∀ box ∈ raw.box,
    BoxInOrder env (credMap ((checkCredlists raw.credlistSettings).map Prod.fst))
      (raw.miscSettings.withDefaults raw.sslSettings) box
  names : (raw.box.flatMap
    (checkNames env (raw.miscSettings.withDefaults raw.sslSettings))).Nodup

variable {raw conf : ConfigSettings}

theorem perm_sortBoxes (boxes : List Box) : (sortBoxes boxes).Perm boxes :=
  List.perm_insertionSort _ _

theorem accepts_iff_checkBoxes : (∃ conf, Accepts env raw conf) ↔ ∃ names boxes,
    checkBoxes env (credMap ((checkCredlists raw.credlistSettings).map Prod.fst))
      (raw.miscSettings.withDefaults raw.sslSettings) 0 ⟨settingsErrors env raw, []⟩
      (sortBoxes raw.box) = .ok (boxes, ⟨[], names⟩) := by
  unfold Accepts checkConfig
  constructor
  · intro ⟨conf, h⟩
    dsimp only at h
    split at h
    · cases h
    · rename_i boxes pass hboxes
      obtain ⟨-, herrors⟩ := Prod.mk.inj (Except.ok.inj h)
      exact ⟨pass.runnerNames, boxes, herrors ▸ hboxes⟩
  · intro ⟨names, boxes, hboxes⟩
    unfold settingsErrors at hboxes
    dsimp only
    rw [hboxes]
    exact ⟨_, rfl⟩

/-- A file is accepted exactly if it is in order. -/
theorem accepts_iff : (∃ conf, Accepts env raw conf) ↔ InOrder env raw := by
  rw [accepts_iff_checkBoxes]
  have hperm := perm_sortBoxes raw.box
  have hnames := hperm.flatMap_right
    (checkNames env (raw.miscSettings.withDefaults raw.sslSettings))
  constructor
  · intro ⟨names, hboxes⟩
    obtain ⟨hsettings, hall, rfl, hdistinct⟩ := (checkBoxes_iff List.nodup_nil _).mp hboxes
    rw [List.append_nil, List.nodup_reverse] at hdistinct
    exact
      { settings := hsettings
        boxes := fun box hbox => hall box (hperm.mem_iff.mpr hbox)
        names := hnames.nodup_iff.mp hdistinct }
  · intro h
    refine ⟨_, (checkBoxes_iff List.nodup_nil _).mpr ⟨h.settings, ?_, rfl, ?_⟩⟩
    · exact fun box hbox => h.boxes box (hperm.mem_iff.mp hbox)
    · rw [List.append_nil, List.nodup_reverse]
      exact hnames.nodup_iff.mpr h.names

/-! ### Names -/

/-- The name of a check is the one `Verify` gave it. -/
theorem Checked.name {r check : Runner} (h : Checked env args r check) :
    check.service.name = checkName env args r := by
  obtain ⟨made, hverify, lists, rfl⟩ := h
  rw [checkName, verified_of_verify hverify, Runner.setCredlists, Runner.service_withService]

theorem BoxChecked.names {misc : MiscConfig} {rawBox box : Box}
    (h : BoxChecked env misc rawBox box) :
    box.runners.map (fun check => check.service.name) = checkNames env misc rawBox := by
  have hargs : verifyArgs misc box = boxArgs misc env rawBox := by
    simp [verifyArgs, boxArgs, h.name, h.ip]
  have hrunners := h.runners
  rw [hargs] at hrunners
  exact (Related.map_eq hrunners (fun _ _ hchecked => hchecked.name.symm)).symm

/-- The checks of an accepted configuration have distinct names. -/
theorem Accepts.names_nodup (h : Accepts env raw conf) :
    (conf.allChecks.map (fun check => check.service.name)).Nodup := by
  have hnames : conf.allChecks.map (fun check => check.service.name) =
      (sortBoxes raw.box).flatMap (checkNames env conf.miscSettings) := by
    rw [ConfigSettings.allChecks, List.map_flatMap]
    exact (Related.flatMap_eq h.accepted.boxes (fun _ _ hbox => hbox.names.symm)).symm
  rw [hnames, h.accepted.misc]
  exact ((perm_sortBoxes raw.box).flatMap_right _).nodup_iff.mpr (accepts_iff.mp ⟨conf, h⟩).names

theorem Accepts.boxNames (h : Accepts env raw conf) :
    (conf.box.map Box.name).Perm (raw.box.map Box.name) := by
  rw [← Related.map_eq h.accepted.boxes (fun _ _ hbox => hbox.name.symm)]
  exact (perm_sortBoxes raw.box).map Box.name

/-- Two boxes of one name get through exactly if nothing else is wrong with the file. -/
theorem box_names_distinct_iff (env : Environment) (raw : ConfigSettings) :
    (∀ conf, Accepts env raw conf → (conf.box.map Box.name).Nodup) ↔
      (raw.box.map Box.name).Nodup ∨ ¬InOrder env raw := by
  constructor
  · intro hall
    by_cases horder : InOrder env raw
    · obtain ⟨conf, hconf⟩ := accepts_iff.mpr horder
      exact .inl (hconf.boxNames.nodup_iff.mp (hall conf hconf))
    · exact .inr horder
  · intro h conf hconf
    rcases h with hdistinct | hwrong
    · exact hconf.boxNames.nodup_iff.mpr hdistinct
    · exact absurd (accepts_iff.mp ⟨conf, hconf⟩) hwrong

/-- Two boxes named `web01`, with a check each. -/
def twinBoxes : ConfigSettings :=
  { smallFile {} {} with
    box :=
      [ {name := str "web01", ip := str "10.0.0.1", ping := [{}]},
        {name := str "web01", ip := str "10.0.0.2", rdp := [{}]} ] }

/-- The checks of two boxes of one name, of different kinds, have different names: the file is
accepted. -/
theorem box_names_not_distinct :
    ¬∀ conf, Accepts .plain twinBoxes conf → (conf.box.map Box.name).Nodup := by
  intro hall
  have hnodup := hall (setConfig .plain {} twinBoxes) (by decide +kernel)
  revert hnodup
  decide +kernel

end QuotientScoring.Config
