import Mathlib.Logic.Relation
import QuotientScoring.DB.InjectTable
import QuotientScoring.Engine.Config
import QuotientScoring.Engine.Sanitize
import QuotientScoring.Lib.Program

/-! The teams a start enters.

`AddTeams` goes through the names of the configuration, and through those a directory
has, and creates a team for each name without a row. It runs over whatever earlier
starts left, and may stop at any of its calls. `Grows` is all it makes of the table,
whole or cut: numbers are drawn, and rows added, each under the number drawn for it and
under a name that was asked for and had no row. `addTeams_spec` and `addTeams_succeeds`
say what has been entered when it returns, and when it does. -/
namespace QuotientScoring.DB
open GoText Config Engine Program Relation

/-- `team_schemas` among the tables, and the last number its sequence has given. -/
structure TeamRows where
  db : Database := {}
  sequence : Nat := 0

/-- How far an insertion that fails has come. -/
inductive Insertion where
  | refused
  | numbered
  | stored

structure TeamFault where
  err : GoString
  insertion : Insertion := .refused

/-- A number that no row gets. -/
def TeamRows.draw (t : TeamRows) : TeamRows :=
  if t.sequence + 1 < 2 ^ 63 then {t with sequence := t.sequence + 1} else t

def TeamRows.store (name : GoString) (t : TeamRows) : TeamRows :=
  ⟨{t.db with teams := t.db.teams ++ [⟨t.sequence + 1, name, [], false⟩]}, t.sequence + 1⟩

/-- A row goes in under the next number, as long as there is one. -/
def TeamRows.insert (name : GoString) (t : TeamRows) : Except GoString Unit × TeamRows :=
  if t.sequence + 1 < 2 ^ 63 then
    if ∃ team ∈ t.db.teams, team.name = name then (.error SaveError.duplicatedKey.error, t.draw)
    else (.ok (), t.store name)
  else (.error (str "nextval: reached maximum value of sequence"), t)

def createTeam (name : GoString) : Program (Faulty TeamRows TeamFault) GoString Unit :=
  statement (TeamRows.insert name) (fun fault t => (fault.err,
    match fault.insertion with
    | .refused => t
    | .numbered => t.draw
    | .stored => (t.insert name).2))

instance : DecidablePred StorableText := fun s =>
  decidable_of_iff _ (sanitizeDBString_eq_self_iff s)

/-- The first row that has the fields of a team. An empty name is no condition. -/
def TeamRows.firstLike (t : TeamRows) (name : GoString) : Option TeamSchema :=
  (getTeams t.db).find? (fun team => name = [] ∨ team.name = name)

/-- `db.Where(&t).First(&t)`. -/
def findTeam (name : GoString) :
    Program (Faulty TeamRows TeamFault) GoString (Option TeamSchema) :=
  statement
    (fun t => (if StorableText name then .ok (t.firstLike name)
      else .error (str "invalid byte sequence for encoding \"UTF8\""), t))
    (fun fault t => (fault.err, t))

/-- The body of both loops. -/
def enterTeam (name : GoString) : Program (Faulty TeamRows TeamFault) GoString Unit := do
  match ← findTeam name with
  | some _ => pure ()
  | none => createTeam name

/-- A call of something else than the tables, which answers `answer`. -/
def callOut {ε α : Type} (raise : GoString → ε) (answer : α) :
    Program (Faulty TeamRows TeamFault) ε α :=
  statement (fun t => (.ok answer, t)) (fun fault t => (raise fault.err, t))

/-- Dials the directory, binds, and goes through the entries that the search finds. -/
def addDirectoryTeams (entries : List GoString) :
    Program (Faulty TeamRows TeamFault) GoString Unit := do
  callOut id ()
  callOut id ()
  let found ← callOut id entries
  found.forM enterTeam

/-- The configuration is shared with the watcher: `conf` is what it is when the first loop begins,
`later` what it is after that, or `none` if the process has ended in a panic of the watcher.
`entries` are the `sAMAccountName`s of the group in the directory. -/
def addTeams (conf : ConfigSettings) (later : Option ConfigSettings) (entries : List GoString) :
    Program (Faulty TeamRows TeamFault) GoString Unit := do
  (conf.team.map User.name).forM enterTeam
  match later with
  | none => throw (str "panic")
  | some conf => if conf.ldapSettings ≠ {} then addDirectoryTeams entries else pure ()

/-- The names a start asks for. -/
def askedFor (conf : ConfigSettings) (later : Option ConfigSettings) (entries : List GoString) :
    List GoString :=
  conf.team.map User.name ++
    match later with
    | none => []
    | some conf => if conf.ldapSettings ≠ {} then entries else []

/-! ### How the table grows -/

/-- A number is drawn, for a new row or for none. -/
inductive Grow (names : List GoString) : TeamRows → TeamRows → Prop where
  | draw {t : TeamRows} : t.sequence + 1 < 2 ^ 63 →
      Grow names t {t with sequence := t.sequence + 1}
  | store {t : TeamRows} {name : GoString} : t.sequence + 1 < 2 ^ 63 → name ∈ names →
      (∀ team ∈ t.db.teams, team.name ≠ name) → Grow names t (t.store name)

abbrev Grows (names : List GoString) : TeamRows → TeamRows → Prop := ReflTransGen (Grow names)

/-- Every row has a number that the sequence has given, and a name of its own. -/
structure TeamRows.Sound (t : TeamRows) : Prop where
  pos : ∀ team ∈ t.db.teams, 0 < team.id
  given : ∀ team ∈ t.db.teams, team.id ≤ t.sequence
  bigint : t.sequence < 2 ^ 63
  ids : ∀ a ∈ t.db.teams, ∀ b ∈ t.db.teams, a.id = b.id → a = b
  names : ∀ a ∈ t.db.teams, ∀ b ∈ t.db.teams, a.name = b.name → a = b

variable {names : List GoString} {name : GoString} {t t' : TeamRows}

theorem TeamRows.Sound.keyed (h : t.Sound) : KeyedTeams t.db where
  pos := h.pos
  bigint := fun team hteam => (h.given team hteam).trans_lt h.bigint
  ids := h.ids
  names := h.names

theorem TeamRows.sound_empty : TeamRows.Sound {} where
  pos := fun _ h => nomatch h
  given := fun _ h => nomatch h
  bigint := by decide
  ids := fun _ h => nomatch h
  names := fun _ h => nomatch h

/-- Rows that change in neither their id nor their name. -/
theorem TeamRows.Sound.map (h : t.Sound) {f : TeamSchema → TeamSchema}
    (hid : ∀ team, (f team).id = team.id) (hname : ∀ team, (f team).name = team.name)
    (hrows : t'.db.teams = t.db.teams.map f) (hsequence : t'.sequence = t.sequence) :
    t'.Sound := by
  have hmem : ∀ {team}, team ∈ t'.db.teams ↔ ∃ old ∈ t.db.teams, f old = team := by
    intro team
    rw [hrows, List.mem_map]
  constructor
  · intro team hteam
    obtain ⟨old, hold, rfl⟩ := hmem.mp hteam
    rw [hid]
    exact h.pos old hold
  · intro team hteam
    obtain ⟨old, hold, rfl⟩ := hmem.mp hteam
    rw [hid, hsequence]
    exact h.given old hold
  · rw [hsequence]
    exact h.bigint
  · intro a ha b hb heq
    obtain ⟨old, hold, rfl⟩ := hmem.mp ha
    obtain ⟨old', hold', rfl⟩ := hmem.mp hb
    rw [hid, hid] at heq
    rw [h.ids old hold old' hold' heq]
  · intro a ha b hb heq
    obtain ⟨old, hold, rfl⟩ := hmem.mp ha
    obtain ⟨old', hold', rfl⟩ := hmem.mp hb
    rw [hname, hname] at heq
    rw [h.names old hold old' hold' heq]

theorem Grow.sound (h : Grow names t t') (ht : t.Sound) : t'.Sound := by
  cases h with
  | draw hroom =>
    constructor
    · exact ht.pos
    · exact fun team hteam => Nat.le_succ_of_le (ht.given team hteam)
    · exact hroom
    · exact ht.ids
    · exact ht.names
  | store hroom _ hnew =>
    constructor
    · show ∀ team ∈ t.db.teams ++ [_], _
      rw [List.forall_mem_append, List.forall_mem_singleton]
      exact ⟨ht.pos, Nat.succ_pos _⟩
    · show ∀ team ∈ t.db.teams ++ [_], team.id ≤ t.sequence + 1
      rw [List.forall_mem_append, List.forall_mem_singleton]
      exact ⟨fun team hteam => Nat.le_succ_of_le (ht.given team hteam), le_rfl⟩
    · exact hroom
    · intro a ha b hb hid
      rcases List.mem_append.mp ha with ha | ha <;> rcases List.mem_append.mp hb with hb | hb
      · exact ht.ids a ha b hb hid
      · obtain rfl := List.mem_singleton.mp hb
        have hle := ht.given a ha
        rw [hid] at hle
        exact absurd hle (Nat.not_succ_le_self _)
      · obtain rfl := List.mem_singleton.mp ha
        have hle := ht.given b hb
        rw [← hid] at hle
        exact absurd hle (Nat.not_succ_le_self _)
      · rw [List.mem_singleton.mp ha, List.mem_singleton.mp hb]
    · intro a ha b hb hname
      rcases List.mem_append.mp ha with ha | ha <;> rcases List.mem_append.mp hb with hb | hb
      · exact ht.names a ha b hb hname
      · obtain rfl := List.mem_singleton.mp hb
        exact absurd hname (hnew a ha)
      · obtain rfl := List.mem_singleton.mp ha
        exact absurd hname.symm (hnew b hb)
      · rw [List.mem_singleton.mp ha, List.mem_singleton.mp hb]

/-- A row that is there stays as it is, and a new one has a name that was asked for. -/
theorem Grow.rows (h : Grow names t t') : t.db.teams ⊆ t'.db.teams ∧
    ∀ team ∈ t'.db.teams, team ∈ t.db.teams ∨ team.name ∈ names := by
  cases h with
  | draw _ => exact ⟨fun _ h => h, fun _ h => .inl h⟩
  | store _ hname _ =>
    refine ⟨List.subset_append_left _ _, fun team hteam => ?_⟩
    rcases List.mem_append.mp hteam with hold | hnew
    · exact .inl hold
    · obtain rfl := List.mem_singleton.mp hnew
      exact .inr hname

theorem Grows.sound (h : Grows names t t') (ht : t.Sound) : t'.Sound := by
  induction h with
  | refl => exact ht
  | tail _ hgrow ih => exact hgrow.sound ih

theorem Grows.subset (h : Grows names t t') : t.db.teams ⊆ t'.db.teams := by
  induction h with
  | refl => exact fun _ h => h
  | tail _ hgrow ih => exact List.Subset.trans ih hgrow.rows.1

theorem Grows.asked (h : Grows names t t') :
    ∀ team ∈ t'.db.teams, team ∈ t.db.teams ∨ team.name ∈ names := by
  induction h with
  | refl => exact fun _ h => .inl h
  | tail _ hgrow ih =>
    intro team hteam
    rcases hgrow.rows.2 team hteam with hbefore | hname
    · exact ih team hbefore
    · exact .inr hname

/-! ### One team -/

/-- The name has a row. -/
def TeamRows.Has (t : TeamRows) (name : GoString) : Prop := ∃ team ∈ t.db.teams, team.name = name

theorem Grows.has (h : Grows names t t') (hname : t.Has name) : t'.Has name := by
  obtain ⟨team, hteam, heq⟩ := hname
  exact ⟨team, h.subset hteam, heq⟩

theorem grows_draw (t : TeamRows) : Grows names t t.draw := by
  unfold TeamRows.draw
  split
  · rename_i hroom
    exact .single (.draw hroom)
  · exact .refl

theorem grows_insert (hname : name ∈ names) (t : TeamRows) : Grows names t (t.insert name).2 := by
  unfold TeamRows.insert
  split
  · rename_i hroom
    split
    · exact grows_draw t
    · rename_i hnew
      exact .single (.store hroom hname (fun team hteam heq => hnew ⟨team, hteam, heq⟩))
  · exact .refl

theorem has_of_insert (h : t.insert name = (.ok (), t')) : t'.Has name := by
  unfold TeamRows.insert at h
  split at h
  · split at h
    · cases h
    · obtain rfl := (Prod.mk.inj h).2
      exact ⟨_, List.mem_append_right _ (List.mem_singleton_self _), rfl⟩
  · cases h

theorem createTeam_spec (hname : name ∈ names) (t : TeamRows) :
    Triple (fun s => s.state = t) (createTeam name)
      (fun _ s => Grows names t s.state ∧ s.state.Has name) (fun s => Grows names t s.state) := by
  refine Triple.statement ?_ ?_ ?_
  · rintro s a t' rfl hrun
    have hgrows := grows_insert hname s.state
    rw [hrun] at hgrows
    exact ⟨hgrows, has_of_insert hrun⟩
  · rintro s err t' rfl hrun
    have hgrows := grows_insert hname s.state
    rw [hrun] at hgrows
    exact hgrows
  · rintro s fault rest rfl -
    dsimp only
    split
    · exact .refl
    · exact grows_draw _
    · exact grows_insert hname _

/-- What is found is a row of the name, if there is a name. -/
theorem has_of_firstLike {team : TeamSchema} (h : t.firstLike name = some team) (hne : name ≠ []) :
    t.Has name := by
  refine ⟨team, mem_getTeams.mp (List.mem_of_find?_eq_some h), ?_⟩
  simpa [hne] using List.find?_some h

theorem findTeam_spec (name : GoString) (t : TeamRows) :
    Triple (fun s => s.state = t) (findTeam name)
      (fun found s => s.state = t ∧ found = t.firstLike name) (fun s => s.state = t) := by
  refine Triple.statement ?_ ?_ ?_
  · rintro s found t' rfl hrun
    obtain ⟨hfound, rfl⟩ := Prod.mk.inj hrun
    split at hfound
    · exact ⟨rfl, (Except.ok.inj hfound).symm⟩
    · cases hfound
  · rintro s err t' rfl hrun
    exact (Prod.mk.inj hrun).2.symm
  · rintro s fault rest rfl -
    rfl

theorem enterTeam_spec (hname : name ∈ names) (t : TeamRows) :
    Triple (fun s => s.state = t) (enterTeam name)
      (fun _ s => Grows names t s.state ∧ (name ≠ [] → s.state.Has name))
      (fun s => Grows names t s.state) := by
  refine Triple.bind ((findTeam_spec name t).imp (fun _ h => h) (fun _ _ h => h) ?_) ?_
  · rintro s rfl
    exact .refl
  · intro found
    cases found with
    | some team =>
      refine Triple.pure ?_
      rintro s ⟨rfl, hfound⟩
      exact ⟨.refl, has_of_firstLike hfound.symm⟩
    | none =>
      refine (createTeam_spec hname t).imp (fun s hs => hs.1) (fun _ s hs => ?_) (fun _ hs => hs)
      exact ⟨hs.1, fun _ => hs.2⟩

/-! ### All teams -/

/-- Every name has a row, the empty one apart. -/
def TeamRows.HasAll (t : TeamRows) (todo : List GoString) : Prop :=
  ∀ name ∈ todo, name ≠ [] → t.Has name

theorem enterTeams_spec {todo : List GoString} (hsub : todo ⊆ names) (t : TeamRows) :
    Triple (fun s => s.state = t) (todo.forM enterTeam)
      (fun _ s => Grows names t s.state ∧ s.state.HasAll todo)
      (fun s => Grows names t s.state) := by
  -- of the names that are left nothing is known
  have hloop := Triple.forM (g := enterTeam) (E := fun s => Grows names t s.state)
    (I := fun rest s => Grows names t s.state ∧ rest ⊆ names ∧
      ∀ name ∈ todo, name ≠ [] → name ∈ rest ∨ s.state.Has name) ?_ todo
  · refine hloop.imp ?_ ?_ (fun _ h => h)
    · rintro s rfl
      exact ⟨.refl, hsub, fun name hname _ => .inl hname⟩
    · rintro _ s ⟨hgrows, -, hdone⟩
      refine ⟨hgrows, fun name hname hne => ?_⟩
      exact (hdone name hname hne).resolve_left (List.not_mem_nil)
  · intro name rest
    refine Triple.of_forall ?_
    rintro s ⟨hgrows, hrest, hdone⟩
    obtain ⟨hname, hrest⟩ := List.cons_subset.mp hrest
    refine (enterTeam_spec hname s.state).imp (fun s' hs' => congrArg Faulty.state hs') ?_ ?_
    · rintro _ s' ⟨hgrows', hhas⟩
      refine ⟨hgrows.trans hgrows', hrest, fun other hother hne => ?_⟩
      rcases hdone other hother hne with hmem | hbefore
      · rcases List.mem_cons.mp hmem with rfl | hmem
        · exact .inr (hhas hne)
        · exact .inl hmem
      · exact .inr (hgrows'.has hbefore)
    · intro s' hgrows'
      exact hgrows.trans hgrows'

theorem callOut_spec {ε α : Type} (raise : GoString → ε) (answer : α) (t : TeamRows) :
    Triple (fun s => s.state = t) (callOut raise answer)
      (fun found s => found = answer ∧ s.state = t) (fun s => s.state = t) := by
  refine Triple.statement ?_ ?_ ?_
  · rintro s found t' rfl hrun
    obtain ⟨hfound, rfl⟩ := Prod.mk.inj hrun
    exact ⟨(Except.ok.inj hfound).symm, rfl⟩
  · rintro s err t' rfl hrun
    cases (Prod.mk.inj hrun).1
  · rintro s fault rest rfl -
    rfl

theorem addDirectoryTeams_spec {entries : List GoString} (hsub : entries ⊆ names) (t : TeamRows) :
    Triple (fun s => s.state = t) (addDirectoryTeams entries)
      (fun _ s => Grows names t s.state ∧ s.state.HasAll entries)
      (fun s => Grows names t s.state) := by
  have hask : ∀ {α : Type} (answer : α), Triple (fun s => s.state = t) (callOut id answer)
      (fun found s => found = answer ∧ s.state = t) (fun s => Grows names t s.state) := by
    intro α answer
    refine (callOut_spec id answer t).imp (fun _ h => h) (fun _ _ h => h) ?_
    rintro s rfl
    exact .refl
  exact (hask ()).bind_value <| (hask ()).bind_value <| (hask entries).bind_value <|
    enterTeams_spec hsub t

/-- Where `AddTeams` returns every name has its row, and wherever it stops the table has only
grown by rows for them. -/
theorem addTeams_spec (conf : ConfigSettings) (later : Option ConfigSettings)
    (entries : List GoString) (t : TeamRows) :
    Triple (fun s => s.state = t) (addTeams conf later entries)
      (fun _ s => Grows (askedFor conf later entries) t s.state ∧
        s.state.HasAll (askedFor conf later entries))
      (fun s => Grows (askedFor conf later entries) t s.state) := by
  refine (enterTeams_spec (List.subset_append_left _ _) t).bind fun _ => ?_
  refine Triple.of_forall ?_
  rintro s ⟨hgrows, hhas⟩
  -- the configuration may be another one by now
  cases later with
  | none =>
    refine Triple.throw ?_
    rintro s' rfl
    exact hgrows
  | some later =>
    dsimp only
    by_cases hldap : later.ldapSettings = {}
    · have hasked : askedFor conf (some later) entries = conf.team.map User.name := by
        rw [askedFor, if_neg (not_not.mpr hldap), List.append_nil]
      rw [if_neg (not_not.mpr hldap)]
      refine Triple.pure ?_
      rintro s' rfl
      refine ⟨hgrows, ?_⟩
      rw [hasked]
      exact hhas
    · have hasked : askedFor conf (some later) entries = conf.team.map User.name ++ entries := by
        rw [askedFor, if_pos hldap]
      have hsub : entries ⊆ askedFor conf (some later) entries := by
        rw [hasked]
        exact List.subset_append_right _ _
      rw [if_pos hldap]
      refine (addDirectoryTeams_spec hsub s.state).imp (fun s' hs' => congrArg Faulty.state hs')
        ?_ ?_
      · rintro _ s' ⟨hgrows', hhas'⟩
        refine ⟨hgrows.trans hgrows', fun name hname hne => ?_⟩
        rw [hasked] at hname
        rcases List.mem_append.mp hname with hteam | hentry
        · exact hgrows'.has (hhas name hteam hne)
        · exact hhas' name hentry hne
      · intro s' hgrows'
        exact hgrows.trans hgrows'

/-! ### Starts that succeed -/

/-- No call fails, and the sequence has this many numbers left. -/
def Clear (n : Nat) (s : Faulty TeamRows TeamFault) : Prop :=
  s.faults = [] ∧ s.state.sequence + n < 2 ^ 63

theorem createTeam_succeeds (name : GoString) (n : Nat) :
    Triple (fun s => Clear (n + 1) s ∧ ¬s.state.Has name) (createTeam name)
      (fun _ s => Clear n s) (fun _ => False) := by
  refine Triple.statement_clear (fun s hs => hs.1.1) ?_
  rintro s ⟨⟨-, hroom⟩, hnew⟩
  refine ⟨(), s.state.store name, ?_, rfl, ?_⟩
  · rw [TeamRows.insert, if_pos (by omega)]
    exact if_neg hnew
  · show s.state.sequence + 1 + n < 2 ^ 63
    omega

theorem findTeam_succeeds (hname : StorableText name) (n : Nat) :
    Triple (Clear n) (findTeam name)
      (fun found s => Clear n s ∧ (found = none → ¬s.state.Has name)) (fun _ => False) := by
  refine Triple.statement_clear (fun s hs => hs.1) ?_
  rintro s ⟨-, hroom⟩
  refine ⟨s.state.firstLike name, s.state, by rw [if_pos hname], ⟨rfl, hroom⟩, ?_⟩
  rintro hnone ⟨team, hteam, rfl⟩
  simpa using List.find?_eq_none.mp hnone team (mem_getTeams.mpr hteam)

theorem enterTeam_succeeds (hname : StorableText name) (n : Nat) :
    Triple (Clear (n + 1)) (enterTeam name) (fun _ s => Clear n s) (fun _ => False) := by
  refine (findTeam_succeeds hname (n + 1)).bind fun found => ?_
  cases found with
  | some team =>
    refine Triple.pure ?_
    rintro s ⟨⟨hfaults, hroom⟩, -⟩
    exact ⟨hfaults, by omega⟩
  | none =>
    refine (createTeam_succeeds name n).imp ?_ (fun _ _ h => h) (fun _ h => h)
    rintro s ⟨hclear, hnew⟩
    exact ⟨hclear, hnew rfl⟩

theorem enterTeams_succeed {todo : List GoString} (htodo : ∀ name ∈ todo, StorableText name)
    (n : Nat) :
    Triple (Clear (todo.length + n)) (todo.forM enterTeam) (fun _ s => Clear n s)
      (fun _ => False) := by
  have hloop := Triple.forM (g := enterTeam) (E := fun _ => False)
    (I := fun rest s => (∀ name ∈ rest, StorableText name) ∧ Clear (rest.length + n) s) ?_ todo
  · refine hloop.imp (fun s hs => ⟨htodo, hs⟩) ?_ (fun _ h => h)
    rintro _ s ⟨-, hclear⟩
    rwa [List.length_nil, Nat.zero_add] at hclear
  · intro name rest
    refine Triple.of_forall ?_
    rintro s ⟨hnames, hclear⟩
    obtain ⟨hname, hrest⟩ := List.forall_mem_cons.mp hnames
    rw [List.length_cons, Nat.add_right_comm] at hclear
    refine (enterTeam_succeeds hname (rest.length + n)).imp ?_ ?_ (fun _ h => h)
    · rintro s' rfl
      exact hclear
    · exact fun _ s' hs' => ⟨hrest, hs'⟩

theorem callOut_succeeds {ε α : Type} (raise : GoString → ε) (answer : α) (n : Nat) :
    Triple (Clear n) (callOut raise answer) (fun found s => found = answer ∧ Clear n s)
      (fun _ => False) :=
  Triple.statement_clear (fun _ hs => hs.1) (fun s hs => ⟨answer, s.state, rfl, rfl, rfl, hs.2⟩)

/-- `AddTeams` returns if no call fails, every name can be stored, and the sequence lasts. -/
theorem addTeams_succeeds {conf later : ConfigSettings} {entries : List GoString}
    (hnames : ∀ name ∈ askedFor conf (some later) entries, StorableText name) :
    Triple (Clear (askedFor conf (some later) entries).length) (addTeams conf (some later) entries)
      (fun _ _ => True) (fun _ => False) := by
  rw [askedFor, List.length_append]
  rw [askedFor, List.forall_mem_append] at hnames
  refine (enterTeams_succeed hnames.1 _).bind fun _ => ?_
  dsimp only
  split
  · rename_i hldap
    have hentries := hnames.2
    rw [if_pos hldap] at hentries
    have hask : ∀ {α : Type} (answer : α), Triple (Clear (entries.length + 0)) (callOut id answer)
        (fun found s => found = answer ∧ Clear (entries.length + 0) s) (fun _ => False) :=
      fun answer => callOut_succeeds id answer _
    refine (hask ()).bind_value <| (hask ()).bind_value <| (hask entries).bind_value ?_
    exact (enterTeams_succeed hentries 0).imp (fun _ h => h) (fun _ _ _ => trivial) (fun _ h => h)
  · exact Triple.pure (fun _ _ => trivial)

end QuotientScoring.DB
