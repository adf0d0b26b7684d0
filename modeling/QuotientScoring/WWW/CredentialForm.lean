import QuotientScoring.Engine.PasswordResets
import QuotientScoring.Lib.JsText
import QuotientScoring.WWW.PasswordRequests

/-! The form for password changes.

The page takes apart what is typed, line by line: what is before the first comma is a user
name, and what is after it the password. Names and passwords that can be written on a line
are read back, but for a quotation mark by itself and for the two rarer ends of a line:
`read_back_iff`. A line without a password is not left out. It asks for an empty one, and
where there is such a user, the engine sets it: `incomplete_ignored_iff`. -/
namespace QuotientScoring.WWW
open DB Engine GoText Config Program JsText Decimal

/-! ### The page -/

/-- What is on the page when the form is submitted. -/
structure PcrPage where
  credentials : JsString
  stripQuotes : Bool
  team : JsString
  credlist : JsString
deriving DecidableEq

/-- The body of the request. -/
structure PcrBody where
  teamID : JsString
  credlistID : JsString
  usernames : List JsString
  passwords : List JsString
deriving DecidableEq

/-- The body, as it is decoded at the other end. -/
def PcrBody.form (body : PcrBody) : PcrForm where
  teamID := toUtf8 body.teamID
  credlistPath := toUtf8 body.credlistID
  usernames := body.usernames.map toUtf8
  passwords := body.passwords.map toUtf8

def maybeUnquote (stripQuotes : Bool) (s : JsString) : JsString :=
  if !stripQuotes then s
  else if js "\"" <+: s ∧ js "\"" <:+ s ∨ js "'" <+: s ∧ js "'" <:+ s then (s.drop 1).dropLast
  else s

namespace PcrPage
variable (page : PcrPage)

def lines : List JsString :=
  (page.credentials.splitOn newline).filter (fun l => !(trim l).isEmpty)

/-- A user name and a password, of one line. -/
def change (line : JsString) : JsString × JsString :=
  let parts := splitComma line
  (maybeUnquote page.stripQuotes parts.1, maybeUnquote page.stripQuotes (parts.2.getD []))

/-- Without a line, nothing is sent. -/
def handleFormSubmit : Option PcrBody :=
  if page.lines.length = 0 then none
  else
    some { teamID := page.team
           credlistID := page.credlist
           usernames := page.lines.map (fun line => (page.change line).1)
           passwords := page.lines.map (fun line => (page.change line).2) }

/-- The pairs that are sent. -/
def sent : List (JsString × JsString) :=
  match page.handleFormSubmit with
  | none => []
  | some body => body.usernames.zip body.passwords

end PcrPage

/-- The credential tables after the form is submitted, where no query fails. -/
def afterSubmit (conf : ConfigSettings) (teamSite : TeamSite) (session : Session)
    (site : CredentialSite) (page : PcrPage) : CredentialDatabase :=
  match page.handleFormSubmit with
  | none => site.db
  | some body =>
    match createPcr conf {teamSite with db := site.db.toDatabase} session (some body.form) with
    | .error _ => site.db
    | .ok update =>
      (exec (updateCredentials site update.teamID update.credlistPath update.usernames
        update.passwords) ⟨site.db, []⟩).2.state

/-! ### What is typed -/

/-- Something between two quotation marks of one kind. -/
def Quoted (s : JsString) : Prop := ∃ q ∈ js "\"'", ∃ mid, s = q :: mid ++ [q]

/-- A quotation mark by itself. -/
def LoneQuote (s : JsString) : Prop := s = js "\"" ∨ s = js "'"

/-- Without a break of the line. -/
def Unbroken (s : JsString) : Prop := ∀ c ∈ s, c ≠ 10 ∧ c ≠ 13

/-- A user name and a password that can be written on a line. -/
structure Typable (pair : JsString × JsString) : Prop where
  comma : comma ∉ pair.1
  name : Unbroken pair.1
  password : Unbroken pair.2
  ne_nil : pair.2 ≠ []
  name_quoted : ¬ Quoted pair.1
  password_quoted : ¬ Quoted pair.2

def typedLine (pair : JsString × JsString) : JsString := pair.1 ++ comma :: pair.2

/-- Each pair on a line of its own. -/
def typed (pairs : List (JsString × JsString)) : JsString :=
  [newline].intercalate (pairs.map typedLine)

/-- No quotation mark by itself is to be stripped, and the password has neither of the two other
characters that end a line. -/
structure Legible (page : PcrPage) (pair : JsString × JsString) : Prop where
  quotes : page.stripQuotes = true → ¬ LoneQuote pair.1 ∧ ¬ LoneQuote pair.2
  separators : ∀ c ∈ pair.2, c ≠ 0x2028 ∧ c ≠ 0x2029

instance (s : JsString) : Decidable (LoneQuote s) := inferInstanceAs (Decidable (_ ∨ _))

instance (s : JsString) : Decidable (Unbroken s) := List.decidableBAll _ s

variable {page : PcrPage} {pair : JsString × JsString} {pairs : List (JsString × JsString)}

theorem mem_of_maybeUnquote {stripQuotes : Bool} {s : JsString} {c : UInt16}
    (h : c ∈ maybeUnquote stripQuotes s) : c ∈ s := by
  unfold maybeUnquote at h
  split at h
  · exact h
  · split at h
    · exact List.mem_of_mem_drop (List.mem_of_mem_dropLast h)
    · exact h

/-- A text that begins and ends with a mark is the mark, or quoted. -/
theorem lone_or_quoted {q : UInt16} {s : JsString} (hfirst : [q] <+: s) (hlast : [q] <:+ s) :
    s = [q] ∨ ∃ mid, s = q :: mid ++ [q] := by
  obtain ⟨rest, rfl⟩ := hfirst
  rcases List.eq_nil_or_concat rest with rfl | ⟨mid, last, rfl⟩
  · exact .inl rfl
  · obtain ⟨before, hbefore⟩ := hlast
    rw [List.concat_eq_append, ← List.append_assoc] at hbefore ⊢
    obtain ⟨-, hlast⟩ := List.append_inj' hbefore rfl
    exact .inr ⟨mid, by rw [← hlast]; rfl⟩

theorem quoted_iff {s : JsString} :
    Quoted s ↔ ∃ q ∈ js "\"'", [q] <+: s ∧ [q] <:+ s ∧ s ≠ [q] := by
  constructor
  · rintro ⟨q, hq, mid, rfl⟩
    exact ⟨q, hq, List.prefix_append [q] (mid ++ [q]), List.suffix_append (q :: mid) [q], by simp⟩
  · rintro ⟨q, hq, hfirst, hlast, hne⟩
    exact ⟨q, hq, (lone_or_quoted hfirst hlast).resolve_left hne⟩

instance (s : JsString) : Decidable (Quoted s) := decidable_of_iff' _ quoted_iff

instance (pair : JsString × JsString) : Decidable (Typable pair) :=
  decidable_of_iff (comma ∉ pair.1 ∧ Unbroken pair.1 ∧ Unbroken pair.2 ∧ pair.2 ≠ [] ∧
      ¬ Quoted pair.1 ∧ ¬ Quoted pair.2)
    ⟨fun h => ⟨h.1, h.2.1, h.2.2.1, h.2.2.2.1, h.2.2.2.2.1, h.2.2.2.2.2⟩,
      fun h => ⟨h.comma, h.name, h.password, h.ne_nil, h.name_quoted, h.password_quoted⟩⟩

theorem maybeUnquote_eq_self_iff {stripQuotes : Bool} {s : JsString} (h : ¬ Quoted s) :
    maybeUnquote stripQuotes s = s ↔ (stripQuotes = true → ¬ LoneQuote s) := by
  cases stripQuotes with
  | false => simp [maybeUnquote]
  | true =>
    by_cases hlone : LoneQuote s
    · have hempty : maybeUnquote true s ≠ s := by
        rcases hlone with rfl | rfl <;> decide +kernel
      exact iff_of_false hempty (fun hnot => hnot rfl hlone)
    · have hkept : ¬ (js "\"" <+: s ∧ js "\"" <:+ s ∨ js "'" <+: s ∧ js "'" <:+ s) := by
        intro hmarks
        rcases hmarks with ⟨hfirst, hlast⟩ | ⟨hfirst, hlast⟩
        · rcases lone_or_quoted hfirst hlast with hmark | ⟨mid, hmid⟩
          · exact hlone (.inl hmark)
          · exact h ⟨34, by decide +kernel, mid, hmid⟩
        · rcases lone_or_quoted hfirst hlast with hmark | ⟨mid, hmid⟩
          · exact hlone (.inr hmark)
          · exact h ⟨39, by decide +kernel, mid, hmid⟩
      exact iff_of_true (if_neg hkept) (fun _ => hlone)

/-- One line is read back exactly if it is legible. -/
theorem change_typedLine_iff (h : Typable pair) :
    page.change (typedLine pair) = pair ↔ Legible page pair := by
  by_cases hseparators : ∀ c ∈ pair.2, c ≠ 0x2028 ∧ c ≠ 0x2029
  · have hline : ∀ c ∈ pair.2, c ∉ lineTerminators := by
      intro c hc
      have hbreak := h.password c hc
      have hseparator := hseparators c hc
      simp [lineTerminators, hbreak, hseparator]
    have hdots := dots_eq_self hline
    have hsplit : splitComma (typedLine pair) = (pair.1, some pair.2) := by
      rw [typedLine, splitComma_append h.comma (hdots.symm ▸ h.ne_nil), hdots]
    rw [PcrPage.change, hsplit, Prod.ext_iff]
    dsimp only [Option.getD_some]
    rw [maybeUnquote_eq_self_iff h.name_quoted, maybeUnquote_eq_self_iff h.password_quoted]
    constructor
    · intro hquotes
      exact ⟨fun hstrip => ⟨hquotes.1 hstrip, hquotes.2 hstrip⟩, hseparators⟩
    · intro hlegible
      exact ⟨fun hstrip => (hlegible.quotes hstrip).1, fun hstrip => (hlegible.quotes hstrip).2⟩
  · -- a password that is read ends before the character, wherever the line is parted
    refine iff_of_false (fun hread => hseparators fun c hc => ?_) (fun h => hseparators h.separators)
    rw [← hread] at hc
    have hpart := mem_of_maybeUnquote hc
    cases hsplit : (splitComma (typedLine pair)).2 with
    | none =>
      rw [hsplit] at hpart
      cases hpart
    | some rest =>
      rw [hsplit] at hpart
      have hdot := not_terminator_of_split hsplit c hpart
      simp only [lineTerminators, List.mem_cons, not_or] at hdot
      exact ⟨hdot.2.2.1, hdot.2.2.2.1⟩

theorem sent_eq : page.sent = page.lines.map page.change := by
  unfold PcrPage.sent PcrPage.handleFormSubmit
  split
  · rename_i hnone
    split at hnone
    · rename_i hlines
      rw [List.eq_nil_of_length_eq_zero hlines]
      rfl
    · cases hnone
  · rename_i body hbody
    split at hbody
    · cases hbody
    · obtain rfl := Option.some.inj hbody
      exact List.zip_map'

/-- A line with a comma is not blank. -/
theorem not_blank_of_comma {line : JsString} (h : comma ∈ line) : (!(trim line).isEmpty) = true := by
  have hne : trim line ≠ [] := trim_ne_nil h (by decide)
  simpa using hne

theorem lines_typed (h : ∀ pair ∈ pairs, Typable pair)
    (htyped : page.credentials = typed pairs ∨ page.credentials = typed pairs ++ [newline]) :
    page.lines = pairs.map typedLine := by
  have hnewline : ∀ line ∈ pairs.map typedLine, newline ∉ line := by
    intro line hline hmem
    obtain ⟨pair, hpair, rfl⟩ := List.mem_map.mp hline
    rcases List.mem_append.mp hmem with hmem | hmem
    · exact ((h pair hpair).name newline hmem).1 rfl
    · rcases List.mem_cons.mp hmem with hmem | hmem
      · exact absurd hmem (by decide)
      · exact ((h pair hpair).password newline hmem).1 rfl
  have hblank : ∀ line ∈ pairs.map typedLine, (!(trim line).isEmpty) = true := by
    intro line hline
    obtain ⟨pair, -, rfl⟩ := List.mem_map.mp hline
    exact not_blank_of_comma (List.mem_append_right _ List.mem_cons_self)
  have hlines := splitOn_lines hnewline hblank rfl
  unfold PcrPage.lines
  rcases htyped with htyped | htyped
  · rw [htyped]
    exact hlines
  · rw [htyped, List.splitOn_append_cons_self, List.filter_append]
    refine Eq.trans ?_ (List.append_nil _)
    exact congrArg₂ (· ++ ·) hlines rfl

/-- What is typed is read back exactly if it is legible. -/
theorem read_back_iff (h : ∀ pair ∈ pairs, Typable pair)
    (htyped : page.credentials = typed pairs ∨ page.credentials = typed pairs ++ [newline]) :
    page.sent = pairs ↔ ∀ pair ∈ pairs, Legible page pair := by
  rw [sent_eq, lines_typed h htyped, List.map_map]
  conv_lhs => rhs; rw [← List.map_id pairs]
  rw [List.map_inj_left]
  exact forall₂_congr fun pair hpair => change_typedLine_iff (h pair hpair)

/-! ### Lines without a password -/

/-- There is no comma, or nothing after the first. -/
def Incomplete (line : JsString) : Prop :=
  comma ∉ line ∨ ∃ name, comma ∉ name ∧ line = name ++ [comma]

/-- The page without the incomplete lines. -/
def PcrPage.completed (page : PcrPage) : PcrPage :=
  { page with
    credentials := [newline].intercalate
      ((page.credentials.splitOn newline).filter (fun line => line.dropLast.contains comma)) }

/-- The changes as `UpdateCredentials` gets them. -/
def PcrPage.update (page : PcrPage) (line : JsString) : GoString × GoString :=
  (toUtf8 (page.change line).1, toUtf8 (page.change line).2)

/-- The incomplete lines make no difference to the tables. -/
def IncompleteIgnored (conf : ConfigSettings) (teamSite : TeamSite) (session : Session)
    (site : CredentialSite) (page : PcrPage) : Prop :=
  afterSubmit conf teamSite session site page =
    afterSubmit conf teamSite session site page.completed

variable {conf : ConfigSettings} {teamSite : TeamSite} {session : Session} {site : CredentialSite}

theorem incomplete_iff {line : JsString} :
    Incomplete line ↔ line.dropLast.contains comma = false := by
  have hcontains : line.dropLast.contains comma = false ↔ comma ∉ line.dropLast := by simp
  rw [hcontains]
  constructor
  · intro h
    rcases h with hnone | ⟨name, hname, rfl⟩
    · exact fun hmem => hnone (List.mem_of_mem_dropLast hmem)
    · rw [List.dropLast_concat]
      exact hname
  · intro h
    rcases List.eq_nil_or_concat line with rfl | ⟨name, last, rfl⟩
    · exact .inl List.not_mem_nil
    · rw [List.concat_eq_append, List.dropLast_concat] at *
      by_cases hlast : last = comma
      · exact .inr ⟨name, h, by rw [hlast]⟩
      · refine .inl fun hmem => ?_
        rcases List.mem_append.mp hmem with hmem | hmem
        · exact h hmem
        · exact hlast (List.mem_singleton.mp hmem).symm

/-- An incomplete line asks for an empty password. -/
theorem change_of_incomplete {line : JsString} (h : Incomplete line) :
    page.change line = (maybeUnquote page.stripQuotes line, []) := by
  have hlast : comma ∉ line.dropLast := by simpa using incomplete_iff.mp h
  have hempty : ∀ stripQuotes, maybeUnquote stripQuotes [] = [] := by decide +kernel
  rw [PcrPage.change, splitComma_of_last hlast]
  exact congrArg (Prod.mk _) (hempty page.stripQuotes)

theorem lines_completed :
    page.completed.lines = page.lines.filter (fun line => line.dropLast.contains comma) := by
  have hparted : ∀ line ∈ (page.credentials.splitOn newline).filter
      (fun line => line.dropLast.contains comma), (!(trim line).isEmpty) = true := by
    intro line hline
    have hcomma : comma ∈ line.dropLast := by simpa using (List.mem_filter.mp hline).2
    exact not_blank_of_comma (List.mem_of_mem_dropLast hcomma)
  have hlines := splitOn_lines
    (fun line hline => newline_not_mem_of_line (List.mem_filter.mp hline).1) hparted rfl
  refine hlines.trans ?_
  rw [PcrPage.lines, List.filter_filter]
  refine List.filter_congr fun line _ => ?_
  cases hcomma : line.dropLast.contains comma with
  | false => rfl
  | true =>
    have hmem : comma ∈ line.dropLast := by simpa using hcomma
    rw [not_blank_of_comma (List.mem_of_mem_dropLast hmem)]
    rfl

theorem afterSubmit_of_admitted {id : Nat}
    (hteam : Authorised conf teamSite session site.db.toDatabase (toUtf8 page.team) id)
    (h : Admits site id (toUtf8 page.credlist)) :
    afterSubmit conf teamSite session site page =
      changeAll id (toUtf8 page.credlist) (str "team" ++ Decimal.decimal id) site.db
        (page.lines.map page.update) := by
  unfold afterSubmit PcrPage.handleFormSubmit
  by_cases hlines : page.lines.length = 0
  · rw [if_pos hlines, List.eq_nil_of_length_eq_zero hlines]
    rfl
  · rw [if_neg hlines]
    dsimp only [createPcr, PcrBody.form]
    rw [pcrTeam_eq_ok.mpr hteam]
    dsimp only
    rw [exec_updateCredentials h.1 h.2 (by simp), List.map_map, List.map_map, List.zip_map']
    rfl

theorem afterSubmit_of_refused
    (h : ∀ id, Authorised conf teamSite session site.db.toDatabase (toUtf8 page.team) id →
      ¬ Admits site id (toUtf8 page.credlist)) :
    afterSubmit conf teamSite session site page = site.db := by
  unfold afterSubmit PcrPage.handleFormSubmit
  by_cases hlines : page.lines.length = 0
  · rw [if_pos hlines]
  · rw [if_neg hlines]
    dsimp only [createPcr, PcrBody.form]
    cases hteam : pcrTeam conf {teamSite with db := site.db.toDatabase} session
        (str "PCR not allowed") (toUtf8 page.team) with
    | error err => rfl
    | ok id =>
      have hrefused : site.step (fun _ => []) (.update id (toUtf8 page.credlist)
          ((page.lines.map (fun line => (page.change line).1)).map toUtf8)
          ((page.lines.map (fun line => (page.change line).2)).map toUtf8) []) = site :=
        step_update_refused _ _ (h id (pcrTeam_eq_ok.mp hteam))
      exact congrArg CredentialSite.db hrefused

/-- The incomplete lines are ignored exactly if the request is refused, or none of them is the name
of a user that the team has in the credlist. -/
theorem incomplete_ignored_iff : IncompleteIgnored conf teamSite session site page ↔
    ∀ id, Authorised conf teamSite session site.db.toDatabase (toUtf8 page.team) id →
      Admits site id (toUtf8 page.credlist) → ∀ line ∈ page.lines, Incomplete line →
        Known id (toUtf8 page.credlist) site.db
          (toUtf8 (maybeUnquote page.stripQuotes line)) = false := by
  have hname : ∀ line, Incomplete line →
      (page.update line).1 = toUtf8 (maybeUnquote page.stripQuotes line) := by
    intro line hline
    rw [PcrPage.update, change_of_incomplete hline]
  by_cases hadmitted : ∃ id, Authorised conf teamSite session site.db.toDatabase
      (toUtf8 page.team) id ∧ Admits site id (toUtf8 page.credlist)
  · obtain ⟨id, hteam, hadmits⟩ := hadmitted
    have hcompleted : afterSubmit conf teamSite session site page.completed =
        changeAll id (toUtf8 page.credlist) (str "team" ++ Decimal.decimal id) site.db
          (page.completed.lines.map page.update) := afterSubmit_of_admitted hteam hadmits
    rw [IncompleteIgnored, afterSubmit_of_admitted hteam hadmits, hcompleted, lines_completed,
      eq_comm, changeAll_filter_iff]
    constructor
    · intro hunknown id' hteam' _ line hline hincomplete
      obtain rfl : id = id' := Option.some.inj (hteam.1.symm.trans hteam'.1)
      rw [← hname line hincomplete]
      exact hunknown line hline (incomplete_iff.mp hincomplete)
    · intro hunknown line hline hlast
      have hincomplete := incomplete_iff.mpr hlast
      rw [hname line hincomplete]
      exact hunknown id hteam hadmits line hline hincomplete
  · have hrefused : ∀ id, Authorised conf teamSite session site.db.toDatabase (toUtf8 page.team)
        id → ¬ Admits site id (toUtf8 page.credlist) :=
      fun id hteam hadmits => hadmitted ⟨id, hteam, hadmits⟩
    refine iff_of_true ?_ (fun id hteam hadmits => absurd hadmits (hrefused id hteam))
    have hcompleted : afterSubmit conf teamSite session site page.completed = site.db :=
      afterSubmit_of_refused hrefused
    rw [IncompleteIgnored, afterSubmit_of_refused hrefused, hcompleted]

/-- What is typed is read back exactly if it is legible, and lines without a password make no
difference exactly if the request is refused or there is a user for none of them. -/
theorem credential_form_iff (conf : ConfigSettings) (teamSite : TeamSite) (session : Session)
    (site : CredentialSite) (page : PcrPage) :
    (∀ pairs, (∀ pair ∈ pairs, Typable pair) →
      page.credentials = typed pairs ∨ page.credentials = typed pairs ++ [newline] →
      (page.sent = pairs ↔ ∀ pair ∈ pairs, Legible page pair)) ∧
    (IncompleteIgnored conf teamSite session site page ↔
      ∀ id, Authorised conf teamSite session site.db.toDatabase (toUtf8 page.team) id →
        Admits site id (toUtf8 page.credlist) → ∀ line ∈ page.lines, Incomplete line →
          Known id (toUtf8 page.credlist) site.db
            (toUtf8 (maybeUnquote page.stripQuotes line)) = false) :=
  ⟨fun _ => read_back_iff, incomplete_ignored_iff⟩

/-! ### A team with two users -/

def seededSite : CredentialSite := freshSite.step twoRecords (.seed Scan.plain [])

def quietSite : TeamSite := {now := 0, started := true, db := {}}

/-- What an admin types for team 1. -/
def formPage (credentials : String) : PcrPage := ⟨js credentials, true, js "1", js "l"⟩

/-- A password of its own for `a`, and a line with a name there is no user for. -/
theorem credential_form_plain :
    (formPage "zoe\na,new, pass").lines = [js "zoe", js "a,new, pass"] ∧
    (formPage "a,new, pass").sent = [(js "a", js "new, pass")] ∧
    IncompleteIgnored {} quietSite ⟨str "admin", [.admin]⟩ seededSite
      (formPage "zoe\na,new, pass") := by
  have hlines : (formPage "zoe\na,new, pass").lines = [js "zoe", js "a,new, pass"] := by
    decide +kernel
  have hseparators : (js "new, pass").all (fun c => c != 0x2028 && c != 0x2029) = true := by
    decide +kernel
  have hread := (credential_form_iff {} quietSite ⟨str "admin", [.admin]⟩ seededSite
    (formPage "a,new, pass")).1 [(js "a", js "new, pass")]
  have hignored := (credential_form_iff {} quietSite ⟨str "admin", [.admin]⟩ seededSite
    (formPage "zoe\na,new, pass")).2
  refine ⟨hlines, ?_, ?_⟩
  · refine (hread ?_ (.inl (by decide +kernel))).mpr ?_
    · exact List.forall_mem_singleton.mpr (by decide +kernel)
    · exact List.forall_mem_singleton.mpr ⟨fun _ => by decide +kernel, by simpa using hseparators⟩
  · refine hignored.mpr fun id hteam _ line hline hincomplete => ?_
    have hid : parseUint 64 (toUtf8 (js "1")) = some 1 := by decide +kernel
    obtain rfl : 1 = id := Option.some.inj (hid.symm.trans hteam.1)
    rw [hlines] at hline
    rcases List.mem_pair.mp hline with rfl | rfl
    · decide +kernel
    · exact absurd (incomplete_iff.mp hincomplete) (by decide +kernel)

/-- A password of one quotation mark is not read back, and a line with the name of a user only sets
the password of the user to an empty one. -/
theorem credential_form_misread :
    (Typable (js "a", js "\"") ∧ (formPage "a,\"").sent ≠ [(js "a", js "\"")]) ∧
    ¬ IncompleteIgnored {} quietSite ⟨str "admin", [.admin]⟩ seededSite (formPage "a") := by
  refine ⟨⟨by decide +kernel, by decide +kernel⟩, fun hignored => ?_⟩
  have hpassword := congrArg (fun db => (db.credential (1, [108], [97])).map
    CredentialSchema.password) hignored
  revert hpassword
  decide +kernel

end QuotientScoring.WWW
