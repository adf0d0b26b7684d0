import QuotientScoring.Engine.Acceptance

/-! Loading a configuration, and loading another while the event runs.

`SetConfig` works on a configuration of its own and puts it in place of the live one
only at the end, so whatever it refuses leaves the live one alone. What nothing guards
against is a panic: `Verify` compiles the regular expressions of Sql, Ssh and WinRM
checks with `MustCompile`, and the watcher calls `SetConfig` from a timer's goroutine,
where a panic ends the process. `loads_safely_iff`: a file is loaded or refused
exactly if those expressions compile, in the boxes that are looked at. -/
namespace QuotientScoring.Config
open DB GoText Checks

/-- The expressions `Verify` compiles do compile. -/
def PatternsCompile (compiles : Compiles) : Runner → Prop
  | .sql c => ∀ q ∈ c.query, q.useRegex = true → compiles q.output = true
  | .ssh c => (c.privKey ≠ [] ∧ c.badAttempts ≠ 0) ∨
      ∀ r ∈ c.command, r.useRegex = true → compiles r.output = true
  | .winRM c => ∀ r ∈ c.command, r.useRegex = true → compiles r.output = true
  | _ => True

/-- The boxes `checkConfig` looks at: in the order of their addresses, up to one that lacks a
name or an address. -/
def lookedAt (raw : ConfigSettings) : List Box :=
  (sortBoxes raw.box).takeWhile (fun box => box.name ≠ [] && box.ip ≠ [])

/-- Why a file is refused. -/
inductive Refusal where
  | notFound (err : GoString)
  | undecoded (err : GoString)
  | invalid (errors : Errors)
deriving DecidableEq

variable (env : Environment)

/-- `SetConfig`, from what reading the file gave; `toml` decodes it. The result comes with the
live configuration it leaves, and `none` is a panic. -/
def setConfigFrom (toml : GoString → Except GoString ConfigSettings)
    (file : Except GoString GoString) (conf : ConfigSettings) :
    Option (Except Refusal Unit × ConfigSettings) :=
  match file with
  | .error err => some (.error (.notFound err), conf)
  | .ok fileContent =>
    match toml fileContent with
    | .error err => some (.error (.undecoded err), conf)
    | .ok tempConf =>
      match checkConfig env tempConf with
      | .error .panic => none
      | .error (.returned err) => some (.error (.invalid [err]), conf)
      | .ok (checked, []) => some (.ok (), checked)
      | .ok (_, errors) => some (.error (.invalid errors), conf)

/-- The watcher's reloads, one for each time the file was written; a refusal is logged. -/
def reloads (toml : GoString → Except GoString ConfigSettings) (conf : ConfigSettings)
    (files : List (Except GoString GoString)) : Option ConfigSettings :=
  files.foldlM (fun conf file => (setConfigFrom env toml file conf).map Prod.snd) conf

/-! ### Panics -/

theorem verify_eq_none_iff {compiles : Compiles} {args : VerifyArgs} {r : Runner} :
    r.verify compiles args = none ↔ ¬PatternsCompile compiles r := by
  cases r with
  | sql c => simp [Runner.verify, Sql.verify, PatternsCompile]
  | ssh c =>
    simp only [Runner.verify, Option.map_eq_none_iff, Ssh.verify, PatternsCompile]
    split
    · rename_i hboth
      simp [hboth]
    · rename_i hboth
      simp [hboth]
  | winRM c => simp [Runner.verify, WinRM.verify, PatternsCompile]
  | _ => simp [Runner.verify, PatternsCompile]

variable {env} {creds : GoMap GoString GoString} {args : VerifyArgs}

theorem checkRunner_eq_none_iff {pass : Pass} {r : Runner} :
    checkRunner env creds args pass r = none ↔ ¬PatternsCompile env.compiles r := by
  rw [checkRunner, Option.map_eq_none_iff, verify_eq_none_iff]

theorem checkRunners_eq_none_iff {pass : Pass} {raws : List Runner} :
    checkRunners env creds args pass raws = none ↔
      ∃ r ∈ raws, ¬PatternsCompile env.compiles r := by
  induction raws generalizing pass with
  | nil => simp [checkRunners]
  | cons r rest ih =>
    rw [checkRunners, List.exists_mem_cons_iff, ← @checkRunner_eq_none_iff env creds args pass]
    cases checkRunner env creds args pass r with
    | none => simp
    | some made => simp [ih]

theorem checkBoxes_panic_iff {misc : MiscConfig} {i : Nat} {pass : Pass} {boxes : List Box} :
    checkBoxes env creds misc i pass boxes = .error .panic ↔
      ∃ box ∈ boxes.takeWhile (fun box => box.name ≠ [] && box.ip ≠ []),
        ∃ r ∈ box.checks, ¬PatternsCompile env.compiles r := by
  induction boxes generalizing i pass with
  | nil => simp [checkBoxes]
  | cons box rest ih =>
    rw [checkBoxes]
    by_cases hname : box.name = []
    · simp [checkBox, hname]
    by_cases hip : box.ip = []
    · simp [checkBox, hname, hip]
    have hchecks := @checkRunners_eq_none_iff env creds (boxArgs misc env box) pass box.checks
    rw [List.takeWhile_cons_of_pos (by simp [hname, hip]), List.exists_mem_cons_iff, ← hchecks,
      checkBox_eq hname hip]
    cases checkRunners env creds (boxArgs misc env box) pass box.checks with
    | none => simp
    | some made =>
      have hrest := @ih (i + 1) made.2
      dsimp only
      cases hboxes : checkBoxes env creds misc (i + 1) made.2 rest with
      | error stopped => simpa [hboxes] using hrest
      | ok made' => simpa [hboxes] using hrest

variable {raw : ConfigSettings}

/-- `checkConfig` panics exactly at an expression it compiles in a box it looks at. -/
theorem checkConfig_panic_iff : checkConfig env raw = .error .panic ↔
    ∃ box ∈ lookedAt raw, ∃ r ∈ box.checks, ¬PatternsCompile env.compiles r := by
  have hboxes := @checkBoxes_panic_iff env
    (credMap ((checkCredlists raw.credlistSettings).map Prod.fst))
    (raw.miscSettings.withDefaults raw.sslSettings) 0 ⟨settingsErrors env raw, []⟩
    (sortBoxes raw.box)
  rw [lookedAt, ← hboxes]
  unfold settingsErrors checkConfig
  dsimp only
  split
  · rename_i stopped hstopped
    rw [hstopped]
    simp
  · rename_i boxes pass hchecked
    rw [hchecked]
    simp

/-! ### Loads -/

variable {toml : GoString → Except GoString ConfigSettings} {file : Except GoString GoString}
  {conf live : ConfigSettings} {result : Except Refusal Unit}

/-- What is refused leaves the live configuration alone, and what is loaded was accepted. -/
theorem setConfigFrom_spec (h : setConfigFrom env toml file conf = some (result, live)) :
    (∃ refusal, result = .error refusal ∧ live = conf) ∨
    (result = .ok () ∧ ∃ fileContent raw, file = .ok fileContent ∧ toml fileContent = .ok raw ∧
      Accepts env raw live) := by
  unfold setConfigFrom at h
  split at h
  · obtain ⟨rfl, rfl⟩ := Prod.mk.inj (Option.some.inj h)
    exact .inl ⟨_, rfl, rfl⟩
  · rename_i fileContent
    split at h
    · obtain ⟨rfl, rfl⟩ := Prod.mk.inj (Option.some.inj h)
      exact .inl ⟨_, rfl, rfl⟩
    · rename_i raw hraw
      split at h
      · cases h
      · obtain ⟨rfl, rfl⟩ := Prod.mk.inj (Option.some.inj h)
        exact .inl ⟨_, rfl, rfl⟩
      · rename_i checked hchecked
        obtain ⟨rfl, rfl⟩ := Prod.mk.inj (Option.some.inj h)
        exact .inr ⟨rfl, fileContent, raw, rfl, hraw, hchecked⟩
      · obtain ⟨rfl, rfl⟩ := Prod.mk.inj (Option.some.inj h)
        exact .inl ⟨_, rfl, rfl⟩

theorem setConfigFrom_eq_none_iff : setConfigFrom env toml file conf = none ↔
    ∃ fileContent raw, file = .ok fileContent ∧ toml fileContent = .ok raw ∧
      checkConfig env raw = .error .panic := by
  unfold setConfigFrom
  constructor
  · intro h
    split at h
    · cases h
    · rename_i fileContent
      split at h
      · cases h
      · rename_i raw hraw
        split at h
        · rename_i hpanic
          exact ⟨fileContent, raw, rfl, hraw, hpanic⟩
        · cases h
        · cases h
        · cases h
  · rintro ⟨fileContent, raw, rfl, hraw, hpanic⟩
    simp only [hraw, hpanic]

/-- The expressions `checkConfig` compiles in what was read. -/
def Compilable (env : Environment) (raw : ConfigSettings) : Prop :=
  ∀ box ∈ lookedAt raw, ∀ r ∈ box.checks, PatternsCompile env.compiles r

/-- What was read is loaded or refused, and nothing is left of a refusal. -/
def LoadsSafely (env : Environment) (raw : ConfigSettings) : Prop :=
  checkConfig env raw ≠ .error .panic ∧
  ∀ toml fileContent conf, toml fileContent = .ok raw →
    ∃ result live, setConfigFrom env toml (.ok fileContent) conf = some (result, live) ∧
      ((∃ refusal, result = .error refusal) → live = conf)

theorem not_panic_iff : checkConfig env raw ≠ .error .panic ↔ Compilable env raw := by
  rw [ne_eq, checkConfig_panic_iff]
  simp [Compilable]

/-- A configuration is loaded or refused, without a panic and without a trace of a refusal,
exactly if the expressions that are compiled in it do compile. -/
theorem loads_safely_iff (env : Environment) (raw : ConfigSettings) :
    LoadsSafely env raw ↔ Compilable env raw := by
  rw [← not_panic_iff]
  constructor
  · exact fun h => h.1
  · intro hpanic
    refine ⟨hpanic, fun toml fileContent conf hraw => ?_⟩
    cases hset : setConfigFrom env toml (.ok fileContent) conf with
    | none =>
      obtain ⟨fileContent', raw', hfile, hraw', hpanic'⟩ := setConfigFrom_eq_none_iff.mp hset
      obtain rfl := Except.ok.inj hfile
      obtain rfl := Except.ok.inj (hraw.symm.trans hraw')
      exact absurd hpanic' hpanic
    | some made =>
      obtain ⟨result, live⟩ := made
      refine ⟨result, live, rfl, fun ⟨refusal, hrefused⟩ => ?_⟩
      rcases setConfigFrom_spec hset with ⟨_, -, hlive⟩ | ⟨hok, -⟩
      · exact hlive
      · rw [hok] at hrefused
        cases hrefused

/-! ### Reloads -/

/-- While every file that is read compiles, the event runs on: the live configuration is the one
it began with, or the one of an accepted file. -/
theorem reloads_run (files : List (Except GoString GoString))
    (hfiles : ∀ fileContent raw, .ok fileContent ∈ files → toml fileContent = .ok raw →
      Compilable env raw) :
    ∃ live, reloads env toml conf files = some live ∧ (live = conf ∨
      ∃ fileContent raw, .ok fileContent ∈ files ∧ toml fileContent = .ok raw ∧
        Accepts env raw live) := by
  induction files generalizing conf with
  | nil => exact ⟨conf, rfl, .inl rfl⟩
  | cons file rest ih =>
    have hrest := fun fileContent raw hmem =>
      hfiles fileContent raw (List.mem_cons_of_mem file hmem)
    cases hset : setConfigFrom env toml file conf with
    | none =>
      obtain ⟨fileContent, raw, rfl, hraw, hpanic⟩ := setConfigFrom_eq_none_iff.mp hset
      exact absurd hpanic (not_panic_iff.mpr (hfiles fileContent raw (List.mem_cons_self ..) hraw))
    | some made =>
      obtain ⟨result, mid⟩ := made
      obtain ⟨live, hlive, hfrom⟩ := @ih mid hrest
      refine ⟨live, ?_, ?_⟩
      · rw [reloads, List.foldlM_cons, hset]
        exact hlive
      · rcases hfrom with rfl | ⟨fileContent, raw, hmem, hraw, haccepts⟩
        · rcases setConfigFrom_spec hset with
            ⟨_, -, rfl⟩ | ⟨-, fileContent, raw, rfl, hraw, hchecked⟩
          · exact .inl rfl
          · exact .inr ⟨fileContent, raw, List.mem_cons_self .., hraw, hchecked⟩
        · exact .inr ⟨fileContent, raw, List.mem_cons_of_mem _ hmem, hraw, haccepts⟩

/-- An Sql check whose expression is an open parenthesis. -/
def openParenthesis : ConfigSettings :=
  smallFile {} {sql := [{query := [⟨true, str "SELECT 1", str "db", str "("⟩]}]}

/-- A parenthesis that is not closed does not compile. -/
theorem open_parenthesis_panics :
    ¬LoadsSafely {Environment.plain with compiles := fun regex => regex != str "("}
      openParenthesis := by
  intro h
  exact h.1 (by decide +kernel)

end QuotientScoring.Config
