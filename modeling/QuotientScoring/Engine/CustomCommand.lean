import QuotientScoring.DB.Schema
import QuotientScoring.Lib.Decimal
import QuotientScoring.Lib.GoText
import QuotientScoring.Lib.Shell

/-! The command line of a custom check.

A template names five values, and each name is replaced wherever it stands, one name after
the other: the later replacements also see the values the earlier ones have put in.
`command_literal_iff`: the shell reads every word as the template has it, with its values
and whatever the password is, exactly if no name of a placeholder comes about in a value
or at its edges. -/
namespace QuotientScoring.Engine
open DB GoText Decimal Replace Shell

def roundWord : GoString := str "ROUND"

def targetWord : GoString := str "TARGET"

def identifierWord : GoString := str "TEAMIDENTIFIER"

def usernameWord : GoString := str "USERNAME"

def passwordWord : GoString := str "PASSWORD"

/-- `shellescape.Quote`. The shell reads what it returns as the string, and letters are returned
as they are. -/
structure Quoting where
  quote : GoString → GoString
  reads : ∀ s mode, mode = .blank ∨ mode = .plain → run mode (quote s) = some (.plain, s)
  letters : ∀ s, s ≠ [] → (∀ c ∈ s, isLetter c = true) → quote s = s

variable (q : Quoting) (roundID : Nat) (target teamIdentifier username password : GoString)

/-- The values that are put in as they are. -/
def replaceInput (command : GoString) : GoString :=
  let formedCommand := command
  let formedCommand := replaceAll roundWord (decimal roundID) formedCommand
  let formedCommand := replaceAll targetWord target formedCommand
  replaceAll identifierWord teamIdentifier formedCommand

def formedCommand (command : GoString) : GoString :=
  let formedCommand := replaceInput roundID target teamIdentifier command
  -- We shell escape username and password, who knows what format they are
  let formedCommand := replaceAll usernameWord (q.quote username) formedCommand
  replaceAll passwordWord (q.quote password) formedCommand

/-! ### What a template says -/

/-- A word with its values: the names are found in the order of the table before any value is
put in. -/
def expand (word : GoString) : GoString :=
  (decimal roundID).intercalate ((split roundWord word).map (fun part =>
    target.intercalate ((split targetWord part).map (replaceAll identifierWord teamIdentifier))))

/-- What a word of the template stands for. -/
def wordValue (word : GoString) : GoString :=
  if word = usernameWord then username
  else if word = passwordWord then password
  else expand roundID target teamIdentifier word

/-- Words of bytes that mean nothing to a shell, with blanks between them, in which the names of
the credentials are words of their own. -/
structure Template (command : GoString) : Prop where
  bytes : ∀ c ∈ command, isBlank c = true ∨ isPlain c = true
  username : ∀ word ∈ fields command, usernameWord <:+: word → word = usernameWord
  password : ∀ word ∈ fields command, passwordWord <:+: word → word = passwordWord

/-- Letters, digits, dots, hyphens and colons. -/
def isTargetByte (c : UInt8) : Bool := isLetter c || (48 ≤ c && c ≤ 57) || [46, 45, 58].contains c

/-- The values of a check: the target is an address or a name, the identifier digits. -/
structure CommandValues (target teamIdentifier : GoString) : Prop where
  target : ∀ c ∈ target, isTargetByte c = true
  identifier : teamIdentifier ≠ []
  digits : ∀ c ∈ teamIdentifier, IsDigit c

/-- No name of a placeholder is in what the word becomes before the last replacement is made. -/
def NothingCaptured (word : GoString) : Prop :=
  if word = usernameWord then ¬passwordWord <:+: q.quote username
  else if word = passwordWord then True
  else expand roundID target teamIdentifier word ≠ [] ∧
    ¬identifierWord <:+: expand roundID target teamIdentifier word ∧
    ¬passwordWord <:+: expand roundID target teamIdentifier word ∧
    (usernameWord <:+: expand roundID target teamIdentifier word → username = usernameWord)

instance (word : GoString) :
    Decidable (NothingCaptured q roundID target teamIdentifier username word) :=
  inferInstanceAs (Decidable (ite _ (¬_) (ite _ True _)))

/-! ### The names -/

theorem not_isLetter_digit {c : UInt8} (h : IsDigit c) : isLetter c = false := by
  obtain ⟨hge, hle⟩ := h
  have h1 : ¬65 ≤ c := by
    rw [UInt8.le_iff_toNat_le]
    simp
    omega
  have h2 : ¬97 ≤ c := by
    rw [UInt8.le_iff_toNat_le]
    simp
    omega
  simp [isLetter, h1, h2]

/-- A byte that is no letter is in no name. -/
theorem not_mem_name {name : GoString} (hname : name.all isLetter = true) {c : UInt8}
    (hc : isLetter c = false) : c ∉ name := by
  intro hmem
  have hletter := List.all_eq_true.mp hname c hmem
  rw [hc] at hletter
  cases hletter

theorem all_isLetter_names : roundWord.all isLetter = true ∧ targetWord.all isLetter = true ∧
    identifierWord.all isLetter = true ∧ usernameWord.all isLetter = true ∧
    passwordWord.all isLetter = true := by
  decide +kernel

theorem names_ne_nil : roundWord ≠ [] ∧ targetWord ≠ [] ∧ identifierWord ≠ [] ∧
    usernameWord ≠ [] ∧ passwordWord ≠ [] := by
  decide +kernel

theorem borderFree_identifierWord : BorderFree identifierWord := by
  decide +kernel

variable {q roundID target teamIdentifier username password}

/-- The values are put in one after the other, and an identifier may land in a target. -/
theorem replaceInput_eq (hvalues : CommandValues target teamIdentifier) (word : GoString) :
    replaceInput roundID target teamIdentifier word =
      replaceAll identifierWord teamIdentifier (expand roundID target teamIdentifier word) := by
  obtain ⟨-, htargetWord, hidWord, -, -⟩ := names_ne_nil
  obtain ⟨-, htargetLetters, hidLetters, -, -⟩ := all_isLetter_names
  have hround : ∀ {name : GoString}, name.all isLetter = true → ∀ c ∈ decimal roundID, c ∉ name :=
    fun hname c hc => not_mem_name hname (not_isLetter_digit (isDigit_of_mem_decimal hc))
  have hid : ∀ c ∈ teamIdentifier, c ∉ identifierWord :=
    fun c hc => not_mem_name hidLetters (not_isLetter_digit (hvalues.digits c hc))
  have hpart : ∀ part, replaceAll identifierWord teamIdentifier (replaceAll targetWord target part) =
      replaceAll identifierWord teamIdentifier (target.intercalate
        ((split targetWord part).map (replaceAll identifierWord teamIdentifier))) := by
    intro part
    have hparts := replaceAll_intercalate_parts hidWord borderFree_identifierWord hvalues.identifier
      hid target [] (split targetWord part)
    rw [List.nil_append, List.nil_append, intercalate_split] at hparts
    exact hparts.symm
  unfold replaceInput expand
  dsimp only
  rw [← intercalate_split roundWord (decimal roundID) word,
    replaceAll_intercalate htargetWord (decimal_ne_nil roundID) (hround htargetLetters),
    replaceAll_intercalate hidWord (decimal_ne_nil roundID) (hround hidLetters),
    replaceAll_intercalate hidWord (decimal_ne_nil roundID) (hround hidLetters),
    List.map_map, List.map_map]
  congr 1
  refine List.map_congr_left fun part _ => ?_
  exact hpart part

theorem formedCommand_append {b : UInt8} (hb : isBlank b = true) (field rest : GoString) :
    formedCommand q roundID target teamIdentifier username password (field ++ b :: rest) =
      formedCommand q roundID target teamIdentifier username password field ++
        b :: formedCommand q roundID target teamIdentifier username password rest := by
  obtain ⟨hround, htarget, hid, husername, hpassword⟩ := names_ne_nil
  obtain ⟨lround, ltarget, lid, lusername, lpassword⟩ := all_isLetter_names
  have hletter : isLetter b = false := by
    have h : b = 32 ∨ b = 9 := by simpa [isBlank] using hb
    rcases h with rfl | rfl <;> rfl
  have hname : ∀ {name : GoString}, name ≠ [] → name.all isLetter = true →
      ∀ new a rest : GoString, replaceAll name new (a ++ b :: rest) =
        replaceAll name new a ++ b :: replaceAll name new rest := by
    intro name hne hletters new a rest
    apply replaceAll_around hne (List.cons_ne_nil b [])
    intro c hc
    rw [List.mem_singleton.mp hc]
    exact not_mem_name hletters hletter
  simp only [formedCommand, replaceInput, hname hround lround, hname htarget ltarget, hname hid lid,
    hname husername lusername, hname hpassword lpassword]

/-- Every field gives one word or none. -/
theorem words_formedCommand (command : GoString)
    (h : ∀ word ∈ fields command,
      formedCommand q roundID target teamIdentifier username password word = [] ∨ ∃ y,
        run .blank (formedCommand q roundID target teamIdentifier username password word) =
          some (.plain, y)) :
    words (formedCommand q roundID target teamIdentifier username password command) =
      some ((fields command).flatMap (fun word =>
        match run .blank (formedCommand q roundID target teamIdentifier username password word) with
        | some (.plain, y) => [y]
        | _ => [])) := by
  induction command using line_induction with
  | last field hfield =>
    rw [fields_last hfield] at h ⊢
    by_cases hnil : field = []
    · subst hnil
      rfl
    · rw [if_neg hnil] at h ⊢
      rcases h field (List.mem_singleton.mpr rfl) with hform | ⟨y, hy⟩
      · simp [hform]
      · simp [words_last hy, hy]
  | more field b rest hfield hb ih =>
    rw [fields_append hfield hb] at h ⊢
    have hrest := ih (fun word hword => h word (List.mem_append_right _ hword))
    rw [formedCommand_append hb, List.flatMap_append]
    rw [fields_last hfield] at h ⊢
    by_cases hnil : field = []
    · subst hnil
      exact (words_blank hb _).trans hrest
    · rw [if_neg hnil] at h ⊢
      rcases h field (List.mem_append_left _ (List.mem_singleton.mpr rfl)) with hform | ⟨y, hy⟩
      · simp [hform, words_blank hb, hrest]
      · simp [words_cons hy hb, hrest, hy]

/-! ### One word -/

theorem isPlain_of_isTargetByte {c : UInt8} (hc : isTargetByte c = true) : isPlain c = true :=
  isPlain_of_kind (by decide) hc

theorem isTargetByte_digit {c : UInt8} (h : IsDigit c) : isTargetByte c = true := by
  obtain ⟨hge, hle⟩ := h
  have h1 : 48 ≤ c := by
    rw [UInt8.le_iff_toNat_le]
    simpa using hge
  have h2 : c ≤ 57 := by
    rw [UInt8.le_iff_toNat_le]
    simpa using hle
  simp [isTargetByte, h1, h2]

/-- The values mean nothing to a shell. -/
theorem replaceInput_plain (hvalues : CommandValues target teamIdentifier) {word : GoString}
    (hword : ∀ c ∈ word, isPlain c = true) :
    ∀ c ∈ replaceInput roundID target teamIdentifier word, isPlain c = true := by
  obtain ⟨hround, htarget, hid, -, -⟩ := names_ne_nil
  intro c hc
  rcases mem_replaceAll hid hc with hc | hc
  · rcases mem_replaceAll htarget hc with hc | hc
    · rcases mem_replaceAll hround hc with hc | hc
      · exact hword c hc
      · exact isPlain_of_isTargetByte (isTargetByte_digit (isDigit_of_mem_decimal hc))
    · exact isPlain_of_isTargetByte (hvalues.target c hc)
  · exact isPlain_of_isTargetByte (isTargetByte_digit (hvalues.digits c hc))

/-- What a word is before the password is put in. -/
def beforePassword (q : Quoting) (roundID : Nat) (target teamIdentifier username : GoString)
    (word : GoString) : GoString :=
  replaceAll usernameWord (q.quote username) (replaceInput roundID target teamIdentifier word)

theorem formedCommand_eq (word : GoString) :
    formedCommand q roundID target teamIdentifier username password word =
      replaceAll passwordWord (q.quote password)
        (beforePassword q roundID target teamIdentifier username word) := rfl

/-- The shell reads user names as they are. -/
theorem run_beforePassword (hvalues : CommandValues target teamIdentifier) {word : GoString}
    (hword : ∀ c ∈ word, isPlain c = true) :
    run .blank (beforePassword q roundID target teamIdentifier username word) =
      some (if replaceInput roundID target teamIdentifier word = [] then .blank else .plain,
        replaceAll usernameWord username (replaceInput roundID target teamIdentifier word)) := by
  obtain ⟨-, -, -, husername, -⟩ := names_ne_nil
  exact run_replaceAll_quoted husername (q.reads username) (replaceInput_plain hvalues hword) (.inl rfl)

/-- The names of the credentials have no other names in them. -/
theorem replaceInput_credentials :
    replaceInput roundID target teamIdentifier usernameWord = usernameWord ∧
      replaceInput roundID target teamIdentifier passwordWord = passwordWord := by
  obtain ⟨hround, htarget, hid, -, -⟩ := names_ne_nil
  have habsent : ∀ name ∈ [usernameWord, passwordWord], ¬roundWord <:+: name ∧
      ¬targetWord <:+: name ∧ ¬identifierWord <:+: name := by
    decide +kernel
  have hname : ∀ name ∈ [usernameWord, passwordWord],
      replaceInput roundID target teamIdentifier name = name := by
    intro name hname
    obtain ⟨h1, h2, h3⟩ := habsent name hname
    unfold replaceInput
    dsimp only
    rw [replaceAll_absent hround h1, replaceAll_absent htarget h2, replaceAll_absent hid h3]
  exact ⟨hname _ (by simp), hname _ (by simp)⟩

theorem beforePassword_username :
    beforePassword q roundID target teamIdentifier username usernameWord = q.quote username := by
  obtain ⟨-, -, -, husername, -⟩ := names_ne_nil
  rw [beforePassword, replaceInput_credentials.1, replaceAll_old husername]

theorem beforePassword_password :
    beforePassword q roundID target teamIdentifier username passwordWord = passwordWord := by
  obtain ⟨-, -, -, husername, -⟩ := names_ne_nil
  have habsent : ¬usernameWord <:+: passwordWord := by decide +kernel
  rw [beforePassword, replaceInput_credentials.2, replaceAll_absent husername habsent]

/-- A user name that is the name of its placeholder is replaced by itself. -/
theorem quote_usernameWord : q.quote usernameWord = usernameWord :=
  q.letters usernameWord names_ne_nil.2.2.2.1 (List.all_eq_true.mp all_isLetter_names.2.2.2.1)

/-! ### Where nothing is captured -/

/-- A word whose value has no other name in it than the user's own. -/
theorem beforePassword_eq (hvalues : CommandValues target teamIdentifier) {word : GoString}
    (hnoID : ¬identifierWord <:+: expand roundID target teamIdentifier word)
    (hown : usernameWord <:+: expand roundID target teamIdentifier word → username = usernameWord) :
    beforePassword q roundID target teamIdentifier username word =
      expand roundID target teamIdentifier word := by
  obtain ⟨-, -, hid, husername, -⟩ := names_ne_nil
  rw [beforePassword, replaceInput_eq hvalues, replaceAll_absent hid hnoID]
  by_cases hocc : usernameWord <:+: expand roundID target teamIdentifier word
  · rw [hown hocc, quote_usernameWord, replaceAll_self husername]
  · rw [replaceAll_absent husername hocc]

/-- A word in which nothing is captured is read as what it stands for. -/
theorem run_formedCommand (hvalues : CommandValues target teamIdentifier) {word : GoString}
    (hword : ∀ c ∈ word, isPlain c = true)
    (hsafe : NothingCaptured q roundID target teamIdentifier username word) :
    run .blank (formedCommand q roundID target teamIdentifier username password word) =
      some (.plain, wordValue roundID target teamIdentifier username password word) := by
  obtain ⟨-, -, hid, husername, hpassword⟩ := names_ne_nil
  unfold NothingCaptured at hsafe
  rw [formedCommand_eq, wordValue]
  split at hsafe
  · rename_i heq
    subst heq
    rw [if_pos rfl, beforePassword_username, replaceAll_absent hpassword hsafe]
    exact q.reads username .blank (.inl rfl)
  · rename_i hne
    rw [if_neg hne]
    split at hsafe
    · rename_i heq
      subst heq
      rw [if_pos rfl, beforePassword_password, replaceAll_old hpassword]
      exact q.reads password .blank (.inl rfl)
    · rename_i hne'
      obtain ⟨hnil, hnoID, hnoPassword, hown⟩ := hsafe
      have hplain := @replaceInput_plain roundID target teamIdentifier hvalues word hword
      rw [replaceInput_eq hvalues, replaceAll_absent hid hnoID] at hplain
      rw [if_neg hne', beforePassword_eq hvalues hnoID hown, replaceAll_absent hpassword hnoPassword,
        run_plain hplain (.inl rfl), if_neg hnil]

/-! ### Where something is -/

/-- A password of letters is put in as it is, and leaves every word a word. -/
theorem run_formedCommand_letters (hvalues : CommandValues target teamIdentifier) {word : GoString}
    (hword : ∀ c ∈ word, isPlain c = true) :
    ∃ k, (passwordWord <:+: beforePassword q roundID target teamIdentifier username word → 0 < k) ∧
      ∀ password : GoString, password ≠ [] → (∀ c ∈ password, isLetter c = true) → ∃ y,
        run .blank (formedCommand q roundID target teamIdentifier username password word) =
          some (if replaceInput roundID target teamIdentifier word = [] then .blank else .plain, y) ∧
        y.length + k * passwordWord.length =
          (replaceAll usernameWord username
            (replaceInput roundID target teamIdentifier word)).length + k * password.length := by
  obtain ⟨-, -, -, -, hpassword⟩ := names_ne_nil
  have hletters := List.all_eq_true.mp all_isLetter_names.2.2.2.2
  obtain ⟨k, hpos, hall⟩ := run_replaceAll_letters hpassword hletters
    (@run_beforePassword q roundID target teamIdentifier username hvalues word hword)
  refine ⟨k, hpos, fun password hne hpasswordLetters => ?_⟩
  rw [formedCommand_eq, q.letters password hne hpasswordLetters]
  exact hall password hne hpasswordLetters

theorem length_flatMap_le {α β : Type} {f : α → List β} {xs : List α}
    (hf : ∀ x ∈ xs, (f x).length ≤ 1) : (xs.flatMap f).length ≤ xs.length := by
  induction xs with
  | nil => exact Nat.le_refl 0
  | cons x rest ih =>
    have hx := hf x List.mem_cons_self
    have hrest := ih (fun y hy => hf y (List.mem_cons_of_mem x hy))
    rw [List.flatMap_cons, List.length_append, List.length_cons]
    omega

/-- The words that the fields give are as many as the fields only if each gives one. -/
theorem flatMap_eq_map {α β : Type} {f : α → List β} {g : α → β} {xs : List α}
    (hf : ∀ x ∈ xs, (f x).length ≤ 1) (h : xs.flatMap f = xs.map g) : ∀ x ∈ xs, f x = [g x] := by
  induction xs with
  | nil => exact fun x hx => absurd hx List.not_mem_nil
  | cons x rest ih =>
    have hrest := length_flatMap_le (fun y hy => hf y (List.mem_cons_of_mem x hy))
    rw [List.flatMap_cons, List.map_cons] at h
    cases hx : f x with
    | nil =>
      rw [hx, List.nil_append] at h
      rw [h, List.length_cons, List.length_map] at hrest
      omega
    | cons y ys =>
      have hle := hf x List.mem_cons_self
      rw [hx] at h hle
      obtain rfl : ys = [] := by
        simp only [List.length_cons] at hle
        exact List.length_eq_zero_iff.mp (by omega)
      obtain ⟨rfl, htail⟩ := List.cons.inj h
      intro z hz
      rcases List.mem_cons.mp hz with rfl | hz
      · exact hx
      · exact ih (fun w hw => hf w (List.mem_cons_of_mem x hw)) htail z hz

theorem Template.plain {command : GoString} (htemplate : Template command) {word : GoString}
    (hmem : word ∈ fields command) : ∀ c ∈ word, isPlain c = true := by
  intro c hc
  obtain ⟨hcommand, hblank⟩ := (mem_fields hmem).2 c hc
  rcases htemplate.bytes c hcommand with h | h
  · rw [hblank] at h
    cases h
  · exact h

/-- Where the command is read as the template says, so is each word of it. -/
theorem word_of_words (hvalues : CommandValues target teamIdentifier) {command : GoString}
    (htemplate : Template command) (hne : password ≠ [])
    (hletters : ∀ c ∈ password, isLetter c = true)
    (h : words (formedCommand q roundID target teamIdentifier username password command) =
      some ((fields command).map (wordValue roundID target teamIdentifier username password)))
    {word : GoString} (hmem : word ∈ fields command) :
    replaceInput roundID target teamIdentifier word ≠ [] ∧
      run .blank (formedCommand q roundID target teamIdentifier username password word) =
        some (.plain, wordValue roundID target teamIdentifier username password word) := by
  have hrun : ∀ word ∈ fields command, ∃ y,
      run .blank (formedCommand q roundID target teamIdentifier username password word) =
        some (if replaceInput roundID target teamIdentifier word = [] then .blank else .plain, y) := by
    intro word hmem
    obtain ⟨k, -, hall⟩ := @run_formedCommand_letters q roundID target teamIdentifier username
      hvalues word (htemplate.plain hmem)
    obtain ⟨y, hy, -⟩ := hall password hne hletters
    exact ⟨y, hy⟩
  have hone : ∀ word ∈ fields command,
      formedCommand q roundID target teamIdentifier username password word = [] ∨ ∃ y,
        run .blank (formedCommand q roundID target teamIdentifier username password word) =
          some (.plain, y) := by
    intro word hmem
    by_cases hnil : replaceInput roundID target teamIdentifier word = []
    · left
      rw [formedCommand_eq, beforePassword, hnil]
      rfl
    · obtain ⟨y, hy⟩ := hrun word hmem
      rw [if_neg hnil] at hy
      exact .inr ⟨y, hy⟩
  rw [words_formedCommand command hone] at h
  have hword := flatMap_eq_map (fun word _ => by split <;> simp) (Option.some.inj h) word hmem
  obtain ⟨y, hy⟩ := hrun word hmem
  rw [hy] at hword ⊢
  by_cases hnil : replaceInput roundID target teamIdentifier word = []
  · simp [hnil] at hword
  · rw [if_neg hnil] at hword ⊢
    exact ⟨hnil, by rw [List.singleton_inj.mp hword]⟩

/-- A word that is read as its value for a short and for a longer password has had no password
put in where the template has none. -/
theorem not_captured_password (hvalues : CommandValues target teamIdentifier) {word : GoString}
    (hword : ∀ c ∈ word, isPlain c = true) (hne : word ≠ passwordWord)
    (h : ∀ password ∈ [str "A", str "AA"],
      run .blank (formedCommand q roundID target teamIdentifier username password word) =
        some (.plain, wordValue roundID target teamIdentifier username password word)) :
    ¬passwordWord <:+: beforePassword q roundID target teamIdentifier username word := by
  have hletters : ∀ password ∈ [str "A", str "AA"],
      password ≠ [] ∧ password.all isLetter = true := by
    decide +kernel
  have hsame : wordValue roundID target teamIdentifier username (str "A") word =
      wordValue roundID target teamIdentifier username (str "AA") word := by
    simp only [wordValue, if_neg hne]
  have hlength : (str "A").length = 1 ∧ (str "AA").length = 2 := by decide +kernel
  obtain ⟨k, hpos, hall⟩ := @run_formedCommand_letters q roundID target teamIdentifier username
    hvalues word hword
  have hlen : ∀ password ∈ [str "A", str "AA"],
      (wordValue roundID target teamIdentifier username password word).length +
        k * passwordWord.length =
          (replaceAll usernameWord username
            (replaceInput roundID target teamIdentifier word)).length + k * password.length := by
    intro password hmem
    obtain ⟨hnil, hpassword⟩ := hletters password hmem
    obtain ⟨y, hy, hylen⟩ := hall password hnil (List.all_eq_true.mp hpassword)
    rw [h password hmem] at hy
    obtain ⟨-, rfl⟩ := Prod.mk.inj (Option.some.inj hy)
    exact hylen
  have hshort := hlen (str "A") (by simp)
  have hlong := hlen (str "AA") (by simp)
  rw [hsame, hlength.1] at hshort
  rw [hlength.2] at hlong
  intro hocc
  have := hpos hocc
  omega

/-- Digits that are put in stay, so an identifier that lands in a value changes it for good. -/
theorem not_captured_identifier (hvalues : CommandValues target teamIdentifier) {s : GoString}
    (h : replaceAll usernameWord username (replaceAll identifierWord teamIdentifier s) = s) :
    ¬identifierWord <:+: s := by
  obtain ⟨-, -, hid, husername, -⟩ := names_ne_nil
  obtain ⟨-, -, lid, lusername, -⟩ := all_isLetter_names
  intro hocc
  have hnone : ∀ {name : GoString}, name.all isLetter = true →
      name.countP (fun c => decide (IsDigit c)) = 0 := by
    intro name hname
    rw [List.countP_eq_zero]
    intro c hc hdigit
    have hletter := List.all_eq_true.mp hname c hc
    rw [not_isLetter_digit (of_decide_eq_true hdigit)] at hletter
    cases hletter
  have hall : teamIdentifier.countP (fun c => decide (IsDigit c)) = teamIdentifier.length := by
    rw [List.countP_eq_length]
    exact fun c hc => decide_eq_true (hvalues.digits c hc)
  obtain ⟨k, hpos, hcount⟩ := exists_countP_replaceAll hid s
  obtain ⟨k', -, hcount'⟩ := exists_countP_replaceAll husername
    (replaceAll identifierWord teamIdentifier s)
  have hfirst := hcount teamIdentifier (fun c => decide (IsDigit c))
  have hsecond := hcount' username (fun c => decide (IsDigit c))
  rw [hnone lid, hall] at hfirst
  rw [hnone lusername, h] at hsecond
  have hpositive := Nat.mul_pos (hpos hocc) (List.length_pos_iff.mpr hvalues.identifier)
  omega

/-- A literal word that is read as its value has nothing captured in it. -/
theorem nothingCaptured_literal (hvalues : CommandValues target teamIdentifier) {word : GoString}
    (hword : ∀ c ∈ word, isPlain c = true) (hne : word ≠ usernameWord) (hne' : word ≠ passwordWord)
    (hcaptured : ¬passwordWord <:+: beforePassword q roundID target teamIdentifier username word)
    (hnil : replaceInput roundID target teamIdentifier word ≠ [])
    (hread : run .blank (formedCommand q roundID target teamIdentifier username password word) =
      some (.plain, wordValue roundID target teamIdentifier username password word)) :
    expand roundID target teamIdentifier word ≠ [] ∧
    ¬identifierWord <:+: expand roundID target teamIdentifier word ∧
    ¬passwordWord <:+: expand roundID target teamIdentifier word ∧
    (usernameWord <:+: expand roundID target teamIdentifier word → username = usernameWord) := by
  obtain ⟨-, -, hid, husername, hpassword⟩ := names_ne_nil
  have hfix : replaceAll usernameWord username (replaceAll identifierWord teamIdentifier
      (expand roundID target teamIdentifier word)) = expand roundID target teamIdentifier word := by
    rw [formedCommand_eq, replaceAll_absent hpassword hcaptured, run_beforePassword hvalues hword,
      wordValue, if_neg hne, if_neg hne', replaceInput_eq hvalues] at hread
    exact (Prod.mk.inj (Option.some.inj hread)).2
  have hnoID := not_captured_identifier hvalues hfix
  rw [replaceAll_absent hid hnoID] at hfix
  have hown : usernameWord <:+: expand roundID target teamIdentifier word → username = usernameWord :=
    fun hocc => eq_of_replaceAll_eq husername hocc hfix
  rw [beforePassword_eq hvalues hnoID hown] at hcaptured
  rw [replaceInput_eq hvalues, replaceAll_absent hid hnoID] at hnil
  exact ⟨hnil, hnoID, hcaptured, hown⟩

/-- For every template, every round, every target and identifier and every user name: whatever
the password is, the shell reads the words of the template with their values, exactly if no
name of a placeholder is captured in a word. -/
theorem command_literal_iff (hvalues : CommandValues target teamIdentifier) {command : GoString}
    (htemplate : Template command) :
    (∀ password, words (formedCommand q roundID target teamIdentifier username password command) =
      some ((fields command).map (wordValue roundID target teamIdentifier username password))) ↔
      ∀ word ∈ fields command, NothingCaptured q roundID target teamIdentifier username word := by
  constructor
  · intro hall word hmem
    have hplain := htemplate.plain hmem
    have hread : ∀ password ∈ [str "A", str "AA"],
        replaceInput roundID target teamIdentifier word ≠ [] ∧
        run .blank (formedCommand q roundID target teamIdentifier username password word) =
          some (.plain, wordValue roundID target teamIdentifier username password word) := by
      intro password hpassword
      have hletters : ∀ password ∈ [str "A", str "AA"],
          password ≠ [] ∧ password.all isLetter = true := by
        decide +kernel
      obtain ⟨hnil, hall'⟩ := hletters password hpassword
      exact word_of_words hvalues htemplate hnil (List.all_eq_true.mp hall') (hall password) hmem
    have hcaptured : word ≠ passwordWord →
        ¬passwordWord <:+: beforePassword q roundID target teamIdentifier username word :=
      fun hne => not_captured_password hvalues hplain hne (fun password h => (hread password h).2)
    unfold NothingCaptured
    split
    · rename_i heq
      have hne : word ≠ passwordWord := by
        rw [heq]
        decide +kernel
      have hnot := hcaptured hne
      rw [heq, beforePassword_username] at hnot
      exact hnot
    · rename_i hne
      split
      · trivial
      · rename_i hne'
        exact nothingCaptured_literal hvalues hplain hne hne' (hcaptured hne')
          (hread (str "A") (by simp)).1 (hread (str "A") (by simp)).2
  · intro hsafe password
    have hrun : ∀ word ∈ fields command,
        run .blank (formedCommand q roundID target teamIdentifier username password word) =
          some (.plain, wordValue roundID target teamIdentifier username password word) :=
      fun word hmem => run_formedCommand hvalues (htemplate.plain hmem) (hsafe word hmem)
    rw [words_formedCommand command (fun word hmem => .inr ⟨_, hrun word hmem⟩), List.map_eq_flatMap]
    congr 1
    refine List.flatMap_congr fun word hmem => ?_
    rw [hrun word hmem]

/-! ### A shell's quotes -/

/-- The bytes that are not quoted. -/
def isSafe (c : UInt8) : Bool :=
  isLetter c || (48 ≤ c && c ≤ 57) || [95, 64, 37, 43, 61, 58, 44, 46, 47, 45].contains c

/-- Single quotes around what is not safe; a single quote is put in double ones. -/
def shellQuote (s : GoString) : GoString :=
  if s = [] then [39, 39]
  else if s.all isSafe then s
  else 39 :: (replaceAll [39] [39, 34, 39, 34, 39] s ++ [39])

theorem run_single (s : GoString) :
    run .single (replaceAll [39] [39, 34, 39, 34, 39] s) = some (.single, s) := by
  rw [replaceAll_byte]
  induction s with
  | nil => rfl
  | cons c rest ih =>
    rw [List.flatMap_cons]
    by_cases hc : c = 39
    · subst hc
      have hquote : run .single [39, 34, 39, 34, 39] = some (.single, [39]) := rfl
      rw [if_pos rfl, run_append hquote, ih]
      rfl
    · have hbyte : run .single [c] = some (.single, [c]) := by simp [run, next, hc]
      rw [if_neg hc, run_append hbyte, ih]
      rfl

def shellQuoting : Quoting where
  quote := shellQuote
  reads := by
    intro s mode hmode
    unfold shellQuote
    split
    · rename_i hnil
      subst hnil
      rcases hmode with rfl | rfl <;> rfl
    · rename_i hne
      split
      · rename_i hsafe
        have hplain : ∀ c ∈ s, isPlain c = true := fun c hc =>
          isPlain_of_kind (by decide) (List.all_eq_true.mp hsafe c hc)
        rw [run_plain hplain hmode, if_neg hne]
      · have hopen : next mode 39 = some (.single, .bytes []) := by
          rcases hmode with rfl | rfl <;> rfl
        rw [run_cons hopen, run_append (run_single s)]
        simp [run, next]
  letters := by
    intro s hne hletters
    have hsafe : s.all isSafe = true := by
      rw [List.all_eq_true]
      intro c hc
      simp [isSafe, hletters c hc]
    rw [shellQuote, if_neg hne, if_pos hsafe]

/-- The documented form of a command. -/
def exampleCommand : GoString :=
  str "/app/checks/example.sh ROUND TARGET TEAMIDENTIFIER USERNAME PASSWORD"

theorem template_exampleCommand : Template exampleCommand where
  bytes := by
    have hall : exampleCommand.all (fun c => isBlank c || isPlain c) = true := by decide +kernel
    intro c hc
    exact Bool.or_eq_true_iff.mp (List.all_eq_true.mp hall c hc)
  username := by decide +kernel
  password := by decide +kernel

theorem exampleValues : CommandValues (str "10.100.102.3") (str "02") where
  target := by
    have hall : (str "10.100.102.3").all isTargetByte = true := by decide +kernel
    exact List.all_eq_true.mp hall
  identifier := by decide +kernel
  digits := by
    have hall : (str "02").all (fun c => IsDigit c) = true := by decide +kernel
    exact fun c hc => of_decide_eq_true (List.all_eq_true.mp hall c hc)

/-- A user name with a quote in it, and a password that would be a command. -/
theorem command_literal_quote :
    words (formedCommand shellQuoting 7 (str "10.100.102.3") (str "02") (str "o'brien")
      (str "$(id); echo 'x") exampleCommand) = some ((fields exampleCommand).map
        (wordValue 7 (str "10.100.102.3") (str "02") (str "o'brien") (str "$(id); echo 'x"))) :=
  (command_literal_iff exampleValues template_exampleCommand).mpr (by decide +kernel)
    (str "$(id); echo 'x")

/-- A password lands in the quotes of a user name, and a part of it is not quoted. -/
theorem command_not_literal :
    ¬∀ (q : Quoting) (command : GoString) (roundID : Nat)
      (target teamIdentifier username password : GoString),
      CommandValues target teamIdentifier → Template command →
      words (formedCommand q roundID target teamIdentifier username password command) =
        some ((fields command).map (wordValue roundID target teamIdentifier username password)) := by
  intro hall
  have hread := hall shellQuoting exampleCommand 7 (str "10.100.102.3") (str "02")
    (str "svc PASSWORD") (str "; id") exampleValues template_exampleCommand
  have hnone : words (formedCommand shellQuoting 7 (str "10.100.102.3") (str "02")
      (str "svc PASSWORD") (str "; id") exampleCommand) = none := by
    decide +kernel
  rw [hnone] at hread
  cases hread

end QuotientScoring.Engine
