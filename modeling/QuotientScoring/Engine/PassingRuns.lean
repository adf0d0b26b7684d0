import QuotientScoring.Engine.CheckRuns
import Mathlib.Algebra.Order.Field.Basic
import Mathlib.Algebra.Order.Ring.Rat

/-! What a run needs to pass.

For each kind of check `CanPass` says what its settings and its credentials have to
be for some behaviour of the target to make the run pass. The lemmas go both ways:
a run that passes shows that everything it needs is there, and where it is there
one behaviour is written down that makes the run pass. -/
namespace QuotientScoring.Checks
open DB GoText GoTime Replace Attempts

/-! ### Runs that pass -/

/-- The package does not refuse the call. -/
def Packages.Allows (pkg : Packages) (c : Call) : Prop := pkg.refuses c = none

section
variable {α : Type}

@[simp] theorem orFail_eq_ok {answer : Answer α} {error : GoString} {debug : GoString → GoString}
    {a : α} : orFail answer error debug = .ok a ↔ answer = .ok a := by
  cases answer <;> simp [orFail]

@[simp] theorem require_eq_ok {passed : Prop} [Decidable passed] {error debug : GoString}
    {u : Unit} : require passed error debug = .ok u ↔ passed := by
  unfold require
  split <;> simp [*]

@[simp] theorem call_eq_ok {pkg : Packages} {c : Call} {answer : Answer α} {a : α} :
    pkg.call c answer = .ok a ↔ pkg.Allows c ∧ answer = .ok a := by
  unfold Packages.call Packages.Allows
  split <;> simp [*]

@[simp] theorem mustCompile_eq_ok {compiles : Compiles} {pattern : GoString} {u : Unit} :
    mustCompile compiles pattern = .ok u ↔ compiles pattern = true := by
  unfold mustCompile
  split <;> simp [*]

@[simp] theorem findRegex_eq_ok {compiles : Compiles} {pkg : Packages}
    {pattern text error notFound debug : GoString} {u : Unit} :
    findRegex compiles pkg pattern text error notFound debug = .ok u ↔
      compiles pattern = true ∧ pkg.isMatch pattern text = true := by
  unfold findRegex
  split <;> simp [*]

end

/-- What comes of a definition: it passes only if `needs` holds, and then there is a behaviour it
passes with at once. -/
structure PassesWhen (definition : Behaviour → Attempted GoString) (needs : Prop) : Prop where
  needed : ∀ b, Passes (definition b) → needs
  enough : needs → ∃ b : Behaviour, b.took = 0 ∧ Passes (definition b)

/-! ### Credentials -/

namespace Service
variable {service : Service}

/-- The credentials a check is given are those of its credlists, and none are missing. -/
def Supplied (service : Service) : Prop :=
  service.taskCredentials = [] ↔ service.credLists = []

/-- What a check logs in with: one of its credentials or, without credlists, `anonymous`. -/
def LogsInWith (service : Service) (anonymous : TaskCredential) (P : TaskCredential → Prop) : Prop :=
  if service.credLists = [] then P anonymous else ∃ cred ∈ service.taskCredentials, P cred

@[simp] theorem someCreds_eq_ok {draw : Nat} {cred : TaskCredential} :
    service.someCreds draw = .ok cred ↔ pick service.taskCredentials draw = some cred := by
  unfold someCreds getCreds
  split <;> simp [*]

/-- A run that begins with credentials has some. -/
theorem taskCredentials_of_passes {draw : Nat} {α : Type} {next : TaskCredential → Attempted α}
    (h : Passes (service.someCreds draw >>= next)) : service.taskCredentials ≠ [] := by
  obtain ⟨cred, hcred, -⟩ := passes_bind.mp h
  exact List.ne_nil_of_mem (mem_of_pick (someCreds_eq_ok.mp hcred))

theorem Supplied.credLists (h : service.Supplied) {draw : Nat} {cred : TaskCredential}
    (hpick : pick service.taskCredentials draw = some cred) : service.credLists ≠ [] := by
  intro hnone
  rw [h.mpr hnone] at hpick
  cases hpick

theorem Supplied.exists_pick (h : service.Supplied) (hlists : service.credLists ≠ []) :
    ∃ cred, pick service.taskCredentials 0 = some cred := by
  cases hpick : pick service.taskCredentials 0 with
  | none => exact absurd (h.mp (pick_eq_none.mp hpick)) hlists
  | some cred => exact ⟨cred, rfl⟩

theorem LogsInWith.of_credsOr {anonymous : TaskCredential} {P : TaskCredential → Prop} {draw : Nat}
    {cred : TaskCredential} (h : service.credsOr anonymous draw = .ok cred) (hP : P cred) :
    service.LogsInWith anonymous P := by
  unfold credsOr at h
  unfold LogsInWith
  split at h
  · rename_i hnone
    obtain rfl := Except.ok.inj h
    rw [if_pos hnone]
    exact hP
  · rename_i hlists
    rw [if_neg hlists]
    exact ⟨cred, mem_of_pick (someCreds_eq_ok.mp h), hP⟩

theorem LogsInWith.exists_credsOr {anonymous : TaskCredential} {P : TaskCredential → Prop}
    (h : service.LogsInWith anonymous P) :
    ∃ draw cred, service.credsOr anonymous draw = .ok cred ∧ P cred := by
  unfold LogsInWith at h
  unfold credsOr
  split at h
  · rename_i hnone
    exact ⟨0, anonymous, by rw [if_pos hnone], h⟩
  · rename_i hlists
    obtain ⟨cred, hmem, hP⟩ := h
    obtain ⟨draw, hdraw⟩ := Attempts.exists_pick.mpr hmem
    exact ⟨draw, cred, by rw [if_neg hlists, someCreds_eq_ok, hdraw], hP⟩

/-- A check that is supplied has something to log in with. -/
theorem Supplied.exists_credsOr (h : service.Supplied) (anonymous : TaskCredential) :
    ∃ cred, service.credsOr anonymous 0 = .ok cred := by
  unfold credsOr
  split
  · exact ⟨anonymous, rfl⟩
  · rename_i hlists
    obtain ⟨cred, hpick⟩ := h.exists_pick hlists
    exact ⟨cred, someCreds_eq_ok.mpr hpick⟩

end Service

/-! ### What each kind of check needs -/

section
variable (compiles : Compiles) (pkg : Packages) (teamID roundID : Nat) (teamIdentifier : GoString)

/-- A regular expression that compiles and has something to match. -/
def Findable (pattern : GoString) : Prop :=
  compiles pattern = true ∧ ∃ text, pkg.isMatch pattern text = true

def Custom.CanPass (c : Custom) : Prop :=
  c.LogsInWith ⟨[], []⟩ (fun cred => pkg.Allows (.command
    (Engine.formedCommand pkg.quoting roundID c.target teamIdentifier cred.username cred.password
      c.command) (seconds c.timeout))) ∧
  (∃ unixNano, pkg.Allows (.create (tmpfileName teamID roundID c.name unixNano))) ∧
  (c.regex = [] ∨ Findable compiles pkg c.regex)

/-- One of the answers is the text of an address. -/
def DnsRecord.CanPass (record : DnsRecord) : Prop :=
  ∃ ip : IP, ip.string ∈ record.expected teamIdentifier

def Dns.CanPass (c : Dns) : Prop :=
  ∃ record ∈ c.record, record.CanPass teamIdentifier ∧
    pkg.Allows (.exchange (record.question pkg teamIdentifier) c.address (seconds (c.timeout - 1)))

def FtpFile.CanPass (file : FtpFile) : Prop :=
  if file.regex ≠ [] then Findable compiles pkg file.regex
  else file.hash = [] ∨ ∃ content, equalFold (stringHash pkg content) file.hash = true

def Ftp.CanPass (c : Ftp) : Prop :=
  pkg.Allows (.dial false c.address (seconds c.timeout)) ∧
  (c.file = [] ∨ ∃ file ∈ c.file, file.CanPass compiles pkg)

def Imap.CanPass (c : Imap) : Prop := pkg.Allows (.dial c.encrypted c.address (seconds c.timeout))

def Ldap.CanPass (c : Ldap) : Prop :=
  pkg.Allows (.dialURL c.url (seconds c.timeout)) ∧ (split (str ".") c.domain).length = 2 ∧
  ∃ cred ∈ c.taskCredentials, pkg.Allows (.bind (c.authString cred.username) cred.password)

/-- As many packets as there are to be can go out before the time is over. -/
def Ping.FitsIn (c : Ping) : Prop := 0 < c.count ∧ c.count.toInt ≤ pkg.pings

instance (c : Ping) : Decidable (c.FitsIn pkg) := inferInstanceAs (Decidable (_ ∧ _))

/-- The least a ping takes. -/
def Ping.shortest (c : Ping) : Int :=
  if c.FitsIn pkg then min (c.count.toInt - 1) 5 * 1000000000 else 5000000000

def Ping.CanPass (c : Ping) : Prop :=
  pkg.Allows (.newPinger c.target) ∧
  (if c.allowPacketLoss then 0 < c.percent else c.FitsIn pkg) ∧
  c.shortest pkg < seconds c.timeout

def Pop3.CanPass (c : Pop3) : Prop := pkg.Allows (.newConn c.target c.port c.encrypted)

def Rdp.CanPass (c : Rdp) : Prop := pkg.Allows (.dial false c.address (seconds c.timeout))

def SmbFile.CanPass (file : SmbFile) : Prop :=
  pkg.Allows (.openFile file.name) ∧
  (if file.regex ≠ [] then Findable compiles pkg file.regex
  else file.hash = [] ∨ ∃ content, stringHash pkg content = file.hash)

def Smb.CanPass (c : Smb) : Prop :=
  pkg.Allows (.dial false c.address 0) ∧
  c.LogsInWith ⟨str "guest", []⟩ (fun cred => pkg.Allows (.smbDial cred.username cred.password)) ∧
  (c.file = [] ∨
    pkg.Allows (.mount c.address c.share) ∧ ∃ file ∈ c.file, file.CanPass compiles pkg)

/-- No line break. -/
def IsLine (line : GoString) : Prop := ∀ c ∈ line, c ≠ 10 ∧ c ≠ 13

def Smtp.CanPass (c : Smtp) : Prop :=
  pkg.Allows (.dial c.encrypted c.address (seconds c.timeout)) ∧
  ∃ cred ∈ c.taskCredentials, IsLine (cred.username ++ c.domain)

/-- The output of a query is a regular expression, whatever it is used as. -/
def QueryData.CanPass (q : QueryData) : Prop :=
  q.output = [] ∨ compiles q.output = true ∧
    if q.useRegex then ∃ text, pkg.isMatch q.output text = true else trimSpace q.output = q.output

def Sql.CanPass (c : Sql) : Prop :=
  ∃ cred ∈ c.taskCredentials, ∃ q : QueryData,
    (if c.query = [] then q = ⟨false, [], [], []⟩ else q ∈ c.query) ∧
    pkg.Allows (.openDB c.kind (c.dsn cred q)) ∧ pkg.Allows (.pingDB c.kind (c.dsn cred q)) ∧
    (q.command = [] ∨
      pkg.Allows (.queryDB c.kind (c.dsn cred q) q.command) ∧ q.CanPass compiles pkg)

def CommandData.CanPass (r : CommandData) : Prop :=
  r.contains = true ∨ r.useRegex = false ∨ Findable compiles pkg r.output

def Ssh.CanPass (c : Ssh) : Prop :=
  c.credLists ≠ [] ∧ c.signer pkg = .ok () ∧
  pkg.Allows (.dial false c.address (seconds c.timeout)) ∧
  (c.command = [] ∨ ∃ r ∈ c.command, r.CanPass compiles pkg)

def Tcp.CanPass (c : Tcp) : Prop := pkg.Allows (.dial false c.address (seconds c.timeout))

def Vnc.CanPass (c : Vnc) : Prop := c.credLists ≠ [] ∧ pkg.Allows (.dial false c.address 0)

/-- A response can have the status, and a page the regular expression matches. -/
def UrlData.CanPass (u : UrlData) : Prop :=
  0 ≤ u.status ∧ u.status ≤ 999 ∧ (100 ≤ u.status → u.status ≤ 199 → u.status = 101) ∧
  (u.regex = [] ∨
    compiles u.regex = true ∧
    if u.status = 204 ∨ u.status = 304 then pkg.isMatch u.regex [] = true
    else ∃ page, pkg.isMatch u.regex page = true)

def Web.CanPass (c : Web) : Prop :=
  ∃ u ∈ c.url, u.CanPass compiles pkg ∧ ∃ url, c.parsedURL pkg u = .ok url ∧
    pkg.Allows (.newRequest url.text) ∧ pkg.Allows (.doRequest url.text (seconds c.timeout))

def WinCommandData.CanPass (r : WinCommandData) : Prop :=
  r.output = [] ∨
    if r.useRegex then Findable compiles pkg r.output else trimSpace r.output = r.output

def WinRM.CanPass (c : WinRM) : Prop :=
  c.credLists ≠ [] ∧ pkg.Allows (.newClient c.target c.port c.encrypted (seconds c.timeout)) ∧
  if c.command = [] then pkg.Allows (.runShell c.target c.port c.encrypted (str "hostname"))
  else ∃ r ∈ c.command,
    pkg.Allows (.runShell c.target c.port c.encrypted r.command) ∧ r.CanPass compiles pkg

/-! ### The kinds, one by one -/

variable {compiles pkg teamID roundID teamIdentifier}

theorem rdp_passesWhen (c : Rdp) :
    PassesWhen (fun b => c.definition pkg b) (c.CanPass pkg) where
  needed b h := by
    simp only [Rdp.definition, passes_bind, exists_unit, orFail_eq_ok, call_eq_ok] at h
    exact h.1.1
  enough h := ⟨{}, rfl, by simp [Rdp.definition, show pkg.Allows _ from h]⟩

theorem tcp_passesWhen (c : Tcp) :
    PassesWhen (fun b => c.definition pkg b) (c.CanPass pkg) where
  needed b h := by
    simp only [Tcp.definition, passes_bind, exists_unit, orFail_eq_ok, call_eq_ok] at h
    exact h.1.1
  enough h := ⟨{}, rfl, by simp [Tcp.definition, show pkg.Allows _ from h]⟩

theorem vnc_passesWhen {c : Vnc} (hsupplied : c.Supplied) :
    PassesWhen (fun b => c.definition pkg b) (c.CanPass pkg) where
  needed b h := by
    simp only [Vnc.definition, passes_bind, exists_unit, orFail_eq_ok, call_eq_ok,
      Service.someCreds_eq_ok] at h
    obtain ⟨cred, hcred, ⟨hdial, -⟩, -⟩ := h
    exact ⟨hsupplied.credLists hcred, hdial⟩
  enough h := by
    obtain ⟨hlists, hdial⟩ := h
    obtain ⟨cred, hcred⟩ := hsupplied.exists_pick hlists
    exact ⟨{}, rfl, by simp [Vnc.definition, hcred, hdial]⟩

/-- A mail check passes once it is connected: what it needs to log in is there. -/
theorem mail_passesWhen {service : Service} (hsupplied : service.Supplied) (c : Call)
    (domain error : GoString) : PassesWhen (fun b => do
      orFail (pkg.call c b.dial) error id
      if service.credLists = [] then .ok anonymousMail else mailAccount b service domain)
      (pkg.Allows c) where
  needed b h := by
    simp only [passes_bind, exists_unit, orFail_eq_ok, call_eq_ok] at h
    exact h.1.1
  enough h := by
    refine ⟨{}, rfl, ?_⟩
    simp only [passes_bind, exists_unit, orFail_eq_ok, call_eq_ok]
    refine ⟨⟨h, trivial⟩, ?_⟩
    split
    · exact passes_ok _
    · rename_i hlists
      obtain ⟨cred, hcred⟩ := hsupplied.exists_pick hlists
      simp [mailAccount, hcred]

theorem imap_passesWhen {c : Imap} (hsupplied : c.Supplied) :
    PassesWhen (fun b => c.definition pkg b) (c.CanPass pkg) :=
  mail_passesWhen hsupplied _ c.domain _

theorem pop3_passesWhen {c : Pop3} (hsupplied : c.Supplied) :
    PassesWhen (fun b => c.definition pkg b) (c.CanPass pkg) :=
  mail_passesWhen hsupplied _ c.domain _

theorem ldap_passesWhen (c : Ldap) :
    PassesWhen (fun b => c.definition pkg b) (c.CanPass pkg) where
  needed b h := by
    simp only [Ldap.definition, passes_bind, exists_unit, orFail_eq_ok, call_eq_ok,
      require_eq_ok, Service.someCreds_eq_ok] at h
    obtain ⟨cred, hcred, ⟨hdial, -⟩, hdomain, ⟨hbind, -⟩, -⟩ := h
    exact ⟨hdial, hdomain, cred, mem_of_pick hcred, hbind⟩
  enough h := by
    obtain ⟨hdial, hdomain, cred, hmem, hbind⟩ := h
    obtain ⟨draw, hdraw⟩ := exists_pick.mpr hmem
    exact ⟨{credsDraw := draw}, rfl, by simp [Ldap.definition, hdraw, hdial, hdomain, hbind]⟩

/-- A line is what an address may be. -/
theorem validateLine_eq_ok {α : Type} {line : GoString} {answer : Answer α} {a : α} :
    validateLine line answer = .ok a ↔ IsLine line ∧ answer = .ok a := by
  have hline : line.any (fun c => c == 10 || c == 13) = true ↔ ¬IsLine line := by
    simp [IsLine, ← not_or]
  unfold validateLine
  split
  · rename_i hbreak
    simp [hline.mp hbreak]
  · rename_i hbreak
    simp [not_not.mp (mt hline.mpr hbreak)]

theorem smtp_passesWhen (c : Smtp) :
    PassesWhen (fun b => c.definition pkg b) (c.CanPass pkg) where
  needed b h := by
    simp only [Smtp.definition, passes_bind, exists_unit, orFail_eq_ok, call_eq_ok,
      validateLine_eq_ok, Service.someCreds_eq_ok] at h
    obtain ⟨cred, hcred, _, -, ⟨hdial, -⟩, -, -, ⟨hline, -⟩, -⟩ := h
    exact ⟨hdial, cred, mem_of_pick hcred, hline⟩
  enough h := by
    obtain ⟨hdial, cred, hmem, hline⟩ := h
    obtain ⟨draw, hdraw⟩ := exists_pick.mpr hmem
    exact ⟨{credsDraw := draw, toDraw := draw}, rfl, by
      simp [Smtp.definition, Smtp.logIn, validateLine_eq_ok, hdraw, hdial, hline]⟩

theorem exited_eq_ok {exit : Answer Unit} {formedCommand out : GoString} {u : Unit} :
    exited exit formedCommand out = .ok u ↔ exit = .ok () := by
  cases exit <;> simp [exited]

theorem Custom.test_passes {c : Custom} {formedCommand out : GoString} :
    Passes (c.test compiles pkg formedCommand out) ↔
      c.regex = [] ∨ compiles c.regex = true ∧ pkg.isMatch c.regex out = true := by
  unfold Custom.test
  split <;> simp [*]

theorem custom_passesWhen (c : Custom) :
    PassesWhen (fun b => c.definition compiles pkg teamID roundID teamIdentifier b)
      (c.CanPass compiles pkg teamID roundID teamIdentifier) where
  needed b h := by
    simp only [Custom.definition, passes_bind, exists_unit, orFail_eq_ok, call_eq_ok, exited_eq_ok,
      Custom.test_passes] at h
    obtain ⟨cred, hcred, -, ⟨hcreate, -⟩, -, out, -, ⟨hcommand, -⟩, hregex⟩ := h
    exact ⟨.of_credsOr hcred hcommand, ⟨b.unixNano, hcreate⟩,
      hregex.imp_right (fun h => ⟨h.1, out, h.2⟩)⟩
  enough h := by
    obtain ⟨hlogin, ⟨unixNano, hcreate⟩, hregex⟩ := h
    obtain ⟨draw, cred, hcred, hcommand⟩ := hlogin.exists_credsOr
    have hout : ∃ out, c.regex = [] ∨ compiles c.regex = true ∧ pkg.isMatch c.regex out = true := by
      rcases hregex with hnone | ⟨hcompiles, out, hmatch⟩
      · exact ⟨[], .inl hnone⟩
      · exact ⟨out, .inr ⟨hcompiles, hmatch⟩⟩
    obtain ⟨out, hout⟩ := hout
    exact ⟨{credsDraw := draw, unixNano := unixNano, readAll := .ok out}, rfl, by
      simp [Custom.definition, exited_eq_ok, Custom.test_passes, hcred, hcreate, hcommand, hout]⟩

/-- The addresses found are those of A records that are expected. -/
theorem found_eq_some {record : DnsRecord} {answers : List RR} {expected : GoString}
    (h : record.found teamIdentifier answers = some expected) : record.CanPass teamIdentifier := by
  obtain ⟨answer, -, hanswer⟩ := List.exists_of_findSome?_eq_some h
  obtain ⟨ip, -, hip⟩ := Option.bind_eq_some_iff.mp hanswer
  have heq : ip.string = expected := by simpa using List.find?_some hip
  exact ⟨ip, heq ▸ List.mem_of_find?_eq_some hip⟩

/-- One answer with an address that is expected is found. -/
theorem found_single {record : DnsRecord} {ip : IP}
    (h : ip.string ∈ record.expected teamIdentifier) :
    record.found teamIdentifier [⟨[], some ip⟩] = some ip.string := by
  cases hfind : (record.expected teamIdentifier).find? (fun expected => ip.string = expected) with
  | none =>
    have hnone := List.find?_eq_none.mp hfind _ h
    simp at hnone
  | some expected =>
    obtain rfl : ip.string = expected := by simpa using List.find?_some hfind
    simp [DnsRecord.found, hfind]

theorem exchange_eq_ok {b : Behaviour} {question : Option (GoString × DnsType)} {address : GoString}
    {timeout : Int} {answers : List RR} (h : exchange pkg b question address timeout = .ok answers) :
    pkg.Allows (.exchange question address timeout) := by
  unfold exchange at h
  split at h
  · cases h
  · rename_i hallows
    exact hallows

theorem dns_passesWhen (c : Dns) :
    PassesWhen (fun b => c.definition pkg teamIdentifier b) (c.CanPass pkg teamIdentifier) where
  needed b h := by
    simp only [Dns.definition] at h
    split at h
    · exact (not_passes_error _ h).elim
    · rename_i record hrecord
      simp only [passes_bind, exists_unit, orFail_eq_ok, require_eq_ok] at h
      obtain ⟨answers, hanswers, -, h⟩ := h
      split at h
      · rename_i expected hfound
        exact ⟨record, mem_of_pick hrecord, found_eq_some hfound,
          exchange_eq_ok hanswers⟩
      · exact (not_passes_error _ h).elim
  enough h := by
    obtain ⟨record, hmem, ⟨ip, hip⟩, hallows⟩ := h
    obtain ⟨draw, hdraw⟩ := exists_pick.mpr hmem
    exact ⟨{draw := draw, exchange := .ok [⟨[], some ip⟩]}, rfl, by
      simp [Dns.definition, exchange, hdraw, show _ = none from hallows, found_single hip]⟩

/-! ### Files -/

/-- The files some content passes for. -/
theorem exists_content {compileError name regex hash : GoString} {sameHash : GoString → Prop}
    [DecidablePred sameHash] {hashDebug : GoString → GoString} :
    (∃ content, testContent compiles pkg compileError name regex hash content (sameHash content)
      (hashDebug content) = .ok ()) ↔
      if regex ≠ [] then Findable compiles pkg regex
      else hash = [] ∨ ∃ content, sameHash content := by
  unfold testContent Findable
  split
  · simp
  · split
    · rename_i hhash
      simp [hhash]
    · rename_i hhash
      simp [not_not.mp hhash]

theorem FtpFile.canPass_iff {file : FtpFile} : file.CanPass compiles pkg ↔
    ∃ content, file.test compiles pkg content = .ok () :=
  exists_content.symm

theorem SmbFile.canPass_iff {file : SmbFile} : file.CanPass compiles pkg ↔
    pkg.Allows (.openFile file.name) ∧ ∃ content, file.test compiles pkg content = .ok () :=
  and_congr_right' exists_content.symm

theorem ftp_passesWhen {c : Ftp} (hsupplied : c.Supplied) :
    PassesWhen (fun b => c.definition compiles pkg b) (c.CanPass compiles pkg) where
  needed b h := by
    simp only [Ftp.definition, passes_bind, exists_unit, orFail_eq_ok, call_eq_ok] at h
    obtain ⟨⟨hdial, -⟩, cred, -, -, h⟩ := h
    refine ⟨hdial, ?_⟩
    split at h
    · rename_i hnone
      exact .inl (pick_eq_none.mp hnone)
    · rename_i file hfile
      simp only [passes_bind, exists_unit, orFail_eq_ok] at h
      obtain ⟨-, content, -, htest, -⟩ := h
      exact .inr ⟨file, mem_of_pick hfile, FtpFile.canPass_iff.mpr ⟨content, htest⟩⟩
  enough h := by
    obtain ⟨hdial, hfile⟩ := h
    obtain ⟨cred, hcred⟩ := hsupplied.exists_credsOr ⟨str "anonymous", str "anonymous"⟩
    rcases hfile with hnone | ⟨file, hmem, hfile⟩
    · exact ⟨{}, rfl, by simp [Ftp.definition, hdial, hcred, pick_eq_none.mpr hnone]⟩
    · obtain ⟨draw, hdraw⟩ := exists_pick.mpr hmem
      obtain ⟨content, htest⟩ := FtpFile.canPass_iff.mp hfile
      exact ⟨{draw := draw, readAll := .ok content}, rfl, by
        simp [Ftp.definition, hdial, hcred, hdraw, htest]⟩

theorem smb_passesWhen (c : Smb) :
    PassesWhen (fun b => c.definition compiles pkg b) (c.CanPass compiles pkg) where
  needed b h := by
    simp only [Smb.definition, passes_bind, exists_unit, orFail_eq_ok, call_eq_ok] at h
    obtain ⟨cred, hcred, ⟨hdial, -⟩, ⟨hlogin, -⟩, h⟩ := h
    refine ⟨hdial, .of_credsOr hcred hlogin, ?_⟩
    split at h
    · rename_i hnone
      exact .inl (pick_eq_none.mp hnone)
    · rename_i file hfile
      simp only [passes_bind, exists_unit, orFail_eq_ok, call_eq_ok] at h
      obtain ⟨⟨hmount, -⟩, ⟨hopen, -⟩, content, -, htest, -⟩ := h
      exact .inr ⟨hmount, file, mem_of_pick hfile,
        SmbFile.canPass_iff.mpr ⟨hopen, content, htest⟩⟩
  enough h := by
    obtain ⟨hdial, hlogin, hfile⟩ := h
    obtain ⟨draw, cred, hcred, hlogin⟩ := hlogin.exists_credsOr
    rcases hfile with hnone | ⟨hmount, file, hmem, hfile⟩
    · exact ⟨{credsDraw := draw}, rfl, by
        simp [Smb.definition, hdial, hcred, hlogin, pick_eq_none.mpr hnone]⟩
    · obtain ⟨draw', hdraw⟩ := exists_pick.mpr hmem
      obtain ⟨hopen, content, htest⟩ := SmbFile.canPass_iff.mp hfile
      exact ⟨{credsDraw := draw, draw := draw', readAll := .ok content}, rfl, by
        simp [Smb.definition, hdial, hcred, hlogin, hmount, hdraw, hopen, htest]⟩

/-! ### Commands and pages -/

theorem CommandData.test_eq_ok {b : Behaviour} {r : CommandData} (h : r.test compiles pkg b = .ok ()) :
    r.CanPass compiles pkg := by
  unfold CommandData.test at h
  split at h
  · rename_i hcontains
    exact .inl hcontains
  · split at h
    · simp only [bind_eq_ok, exists_unit, mustCompile_eq_ok, require_eq_ok] at h
      exact .inr (.inr ⟨h.1, b.stdout, h.2⟩)
    · rename_i hplain
      exact .inr (.inl (Bool.eq_false_of_not_eq_true hplain))

/-- A command that can pass does on some output, without a word on the error stream. -/
theorem CommandData.CanPass.exists_stdout {r : CommandData} (h : r.CanPass compiles pkg) :
    ∃ stdout, ∀ b : Behaviour, b.stdout = stdout → b.stderr = [] →
      r.test compiles pkg b = .ok () := by
  unfold CommandData.test
  cases hcontains : r.contains with
  | true =>
    refine ⟨r.output, fun b hstdout _ => ?_⟩
    rw [if_pos rfl, require_eq_ok, hstdout]
  | false =>
    cases hregex : r.useRegex with
    | true =>
      rcases h with h | h | ⟨hcompiles, text, hmatch⟩
      · exact absurd (h.symm.trans hcontains) (by decide)
      · exact absurd (h.symm.trans hregex) (by decide)
      · refine ⟨text, fun b hstdout _ => ?_⟩
        simp [bind_eq_ok, hcompiles, hstdout, hmatch]
    | false => exact ⟨[], fun b _ hstderr => by simp [hstderr]⟩

theorem ssh_passesWhen {c : Ssh} (hsupplied : c.Supplied) :
    PassesWhen (fun b => c.definition compiles pkg b) (c.CanPass compiles pkg) where
  needed b h := by
    simp only [Ssh.definition, Ssh.connect, passes_bind, bind_eq_ok, exists_unit, orFail_eq_ok,
      call_eq_ok, Service.someCreds_eq_ok] at h
    obtain ⟨cred, ⟨cred', hcred, hsigner, ⟨hdial, -⟩, -⟩, h⟩ := h
    refine ⟨hsupplied.credLists hcred, hsigner, hdial, ?_⟩
    split at h
    · rename_i hnone
      exact .inl (pick_eq_none.mp hnone)
    · rename_i r hr
      simp only [passes_bind, exists_unit] at h
      exact .inr ⟨r, mem_of_pick hr, CommandData.test_eq_ok h.1⟩
  enough h := by
    obtain ⟨hlists, hsigner, hdial, hcommand⟩ := h
    obtain ⟨cred, hcred⟩ := hsupplied.exists_pick hlists
    rcases hcommand with hnone | ⟨r, hmem, hr⟩
    · exact ⟨{}, rfl, by
        simp [Ssh.definition, Ssh.connect, hcred, hsigner, hdial, pick_eq_none.mpr hnone]⟩
    · obtain ⟨draw, hdraw⟩ := exists_pick.mpr hmem
      obtain ⟨stdout, htest⟩ := hr.exists_stdout
      exact ⟨{draw := draw, stdout := stdout}, rfl, by
        simp [Ssh.definition, Ssh.connect, hcred, hsigner, hdial, hdraw, htest]⟩

theorem WinCommandData.test_eq_ok {b : Behaviour} {r : WinCommandData} {u : Unit} :
    r.test compiles pkg b = .ok u ↔ r.output = [] ∨
      if r.useRegex then compiles r.output = true ∧ pkg.isMatch r.output b.stdout = true
      else trimSpace b.stdout = r.output := by
  unfold WinCommandData.test
  split
  · rename_i hnone
    simp [hnone]
  · rename_i houtput
    split <;> simp [bind_eq_ok, houtput]

theorem WinCommandData.canPass_iff {r : WinCommandData} : r.CanPass compiles pkg ↔
    ∃ stdout, r.output = [] ∨
      if r.useRegex then compiles r.output = true ∧ pkg.isMatch r.output stdout = true
      else trimSpace stdout = r.output := by
  unfold WinCommandData.CanPass
  split
  · simp [Findable, exists_or]
  · rw [exists_or, exists_trimSpace_eq, exists_const]

theorem winRM_passesWhen {c : WinRM} (hsupplied : c.Supplied) :
    PassesWhen (fun b => c.definition compiles pkg b) (c.CanPass compiles pkg) where
  needed b h := by
    simp only [WinRM.definition, passes_bind, exists_unit, orFail_eq_ok, call_eq_ok,
      Service.someCreds_eq_ok] at h
    obtain ⟨cred, hcred, ⟨hclient, -⟩, h⟩ := h
    refine ⟨hsupplied.credLists hcred, hclient, ?_⟩
    split at h
    · rename_i hnone
      simp only [passes_bind, exists_unit, orFail_eq_ok, call_eq_ok] at h
      rw [if_pos (pick_eq_none.mp hnone)]
      exact h.1.1
    · rename_i r hr
      have hmem := mem_of_pick hr
      simp only [passes_bind, exists_unit, orFail_eq_ok, call_eq_ok, require_eq_ok,
        WinCommandData.test_eq_ok] at h
      rw [if_neg (List.ne_nil_of_mem hmem)]
      exact ⟨r, hmem, h.1.1, WinCommandData.canPass_iff.mpr ⟨b.stdout, h.2.2.1⟩⟩
  enough h := by
    obtain ⟨hlists, hclient, hcommand⟩ := h
    obtain ⟨cred, hcred⟩ := hsupplied.exists_pick hlists
    split at hcommand
    · rename_i hnone
      exact ⟨{}, rfl, by
        simp [WinRM.definition, hcred, hclient, hcommand, pick_eq_none.mpr hnone]⟩
    · obtain ⟨r, hmem, hrun, hr⟩ := hcommand
      obtain ⟨draw, hdraw⟩ := exists_pick.mpr hmem
      obtain ⟨stdout, hstdout⟩ := WinCommandData.canPass_iff.mp hr
      exact ⟨{draw := draw, stdout := stdout}, rfl, by
        simp [WinRM.definition, WinCommandData.test_eq_ok, hcred, hclient, hdraw, hrun, hstdout]⟩

theorem UrlData.test_passes {u : UrlData} {requestURL page : GoString} :
    Passes (u.test compiles pkg requestURL page) ↔
      u.regex = [] ∨ compiles u.regex = true ∧ pkg.isMatch u.regex page = true := by
  unfold UrlData.test
  split <;> simp [*]

/-- A response with the status, or any if none is asked for, and a page that passes. -/
theorem UrlData.canPass_iff {u : UrlData} : u.CanPass compiles pkg ↔
    ∃ (resp : Response) (page : GoString), (u.status = 0 ∨ resp.statusCode = u.status) ∧
      resp.body = .ok page ∧
      (u.regex = [] ∨ compiles u.regex = true ∧ pkg.isMatch u.regex page = true) := by
  constructor
  · intro ⟨hlo, hhi, hfinal, hregex⟩
    have hpage : ∃ page, (u.status = 204 ∨ u.status = 304 → page = []) ∧
        (u.regex = [] ∨ compiles u.regex = true ∧ pkg.isMatch u.regex page = true) := by
      rcases hregex with hnone | ⟨hcompiles, hmatch⟩
      · exact ⟨[], fun _ => rfl, .inl hnone⟩
      · split at hmatch
        · exact ⟨[], fun _ => rfl, .inr ⟨hcompiles, hmatch⟩⟩
        · rename_i hbody
          obtain ⟨page, hmatch⟩ := hmatch
          exact ⟨page, fun h => absurd h hbody, .inr ⟨hcompiles, hmatch⟩⟩
    obtain ⟨page, hbody, hpage⟩ := hpage
    exact ⟨⟨u.status, .ok page, ⟨hlo, hhi⟩, hfinal, fun h => congrArg _ (hbody h)⟩, page, .inr rfl, rfl,
      hpage⟩
  · intro ⟨resp, page, hstatus, hbody, hpage⟩
    have hregex : u.regex = [] ∨ compiles u.regex = true ∧
        if u.status = 204 ∨ u.status = 304 then pkg.isMatch u.regex [] = true
        else ∃ page, pkg.isMatch u.regex page = true := by
      refine hpage.imp_right (fun ⟨hcompiles, hmatch⟩ => ⟨hcompiles, ?_⟩)
      split
      · rename_i hempty
        -- A status that comes without a body is not the zero one, so it is the response's.
        have heq : resp.statusCode = u.status := by
          rcases hstatus with hzero | heq
          · rw [hzero] at hempty
            exact absurd hempty (by decide)
          · exact heq
        rw [← heq] at hempty
        obtain rfl := Except.ok.inj (hbody.symm.trans (resp.noBody hempty))
        exact hmatch
      · exact ⟨page, hmatch⟩
    rcases hstatus with hzero | heq
    · refine ⟨?_, ?_, ?_, hregex⟩ <;> rw [hzero] <;> decide
    · exact ⟨heq ▸ resp.digits.1, heq ▸ resp.digits.2, heq ▸ resp.final, hregex⟩

theorem web_passesWhen (c : Web) :
    PassesWhen (fun b => c.definition compiles pkg b) (c.CanPass compiles pkg) where
  needed b h := by
    simp only [Web.definition] at h
    split at h
    · exact (not_passes_error _ h).elim
    · rename_i u hu
      simp only [passes_bind, exists_unit, orFail_eq_ok, call_eq_ok, require_eq_ok,
        UrlData.test_passes] at h
      obtain ⟨url, hurl, ⟨hnew, -⟩, resp, ⟨hdo, -⟩, hstatus, page, hbody, hpage⟩ := h
      exact ⟨u, mem_of_pick hu,
        UrlData.canPass_iff.mpr ⟨resp, page, hstatus, hbody, hpage⟩, url, hurl, hnew, hdo⟩
  enough h := by
    obtain ⟨u, hmem, hu, url, hurl, hnew, hdo⟩ := h
    obtain ⟨draw, hdraw⟩ := exists_pick.mpr hmem
    obtain ⟨resp, page, hstatus, hbody, hpage⟩ := UrlData.canPass_iff.mp hu
    exact ⟨{draw := draw, response := .ok resp}, rfl, by
      simp [Web.definition, UrlData.test_passes, hdraw, hurl, hnew, hdo, hstatus, hbody, hpage]⟩

/-! ### Queries -/

/-- The row that makes the rows pass. -/
theorem scanRows_passes {q : QueryData} {b : Behaviour} {creds : GoString}
    {rows : List (Answer (List GoString))} (h : Passes (q.scanRows pkg b creds rows)) :
    ∃ first, if q.useRegex then pkg.isMatch q.output first = true else trimSpace first = q.output := by
  induction rows with
  | nil => simp [QueryData.scanRows] at h
  | cons row rest ih =>
    simp only [QueryData.scanRows, passes_bind] at h
    obtain ⟨values, -, h⟩ := h
    split at h
    · exact (not_passes_error _ h).elim
    · rename_i first others
      split at h
      · rename_i hregex
        split at h
        · rename_i hmatch
          exact ⟨first, by rw [if_pos hregex]; exact hmatch⟩
        · exact ih h
      · rename_i hplain
        split at h
        · rename_i htrim
          exact ⟨first, by rw [if_neg hplain]; exact htrim⟩
        · exact ih h

/-- One row is enough. -/
theorem scanRows_single {q : QueryData} {b : Behaviour} {creds first : GoString}
    (h : if q.useRegex then pkg.isMatch q.output first = true else trimSpace first = q.output) :
    Passes (q.scanRows pkg b creds [.ok [first]]) := by
  simp only [QueryData.scanRows, passes_bind, orFail_eq_ok]
  refine ⟨[first], rfl, ?_⟩
  split at h
  · rename_i hregex
    simp [hregex, h]
  · rename_i hplain
    simp [hplain, h]

/-- A row with what a query that can pass looks for. -/
theorem QueryData.exists_first {q : QueryData} :
    (∃ first, if q.useRegex then pkg.isMatch q.output first = true else trimSpace first = q.output) ↔
      if q.useRegex then ∃ text, pkg.isMatch q.output text = true
      else trimSpace q.output = q.output := by
  split
  · rfl
  · exact exists_trimSpace_eq

/-- What a draw of queries comes to, the query of none included. -/
theorem exists_query {queries : List QueryData} {q : QueryData} :
    (∃ draw, (pick queries draw).getD ⟨false, [], [], []⟩ = q) ↔
      if queries = [] then q = ⟨false, [], [], []⟩ else q ∈ queries := by
  constructor
  · rintro ⟨draw, rfl⟩
    cases hpick : pick queries draw with
    | none =>
      rw [if_pos (pick_eq_none.mp hpick)]
      rfl
    | some q =>
      have hmem := mem_of_pick hpick
      rw [if_neg (List.ne_nil_of_mem hmem)]
      exact hmem
  · intro h
    split at h
    · rename_i hnone
      exact ⟨0, by rw [pick_eq_none.mpr hnone, h]; rfl⟩
    · obtain ⟨draw, hdraw⟩ := exists_pick.mpr h
      exact ⟨draw, by rw [hdraw]; rfl⟩

theorem sql_passesWhen (c : Sql) :
    PassesWhen (fun b => c.definition compiles pkg b) (c.CanPass compiles pkg) where
  needed b h := by
    simp only [Sql.definition, passes_bind, exists_unit, orFail_eq_ok, call_eq_ok,
      Service.someCreds_eq_ok] at h
    obtain ⟨cred, hcred, ⟨hopen, -⟩, ⟨hping, -⟩, h⟩ := h
    refine ⟨cred, mem_of_pick hcred, _, exists_query.mp ⟨b.draw, rfl⟩, hopen, hping, ?_⟩
    split at h
    · rename_i hnone
      exact .inl hnone
    · simp only [passes_bind, exists_unit, orFail_eq_ok, call_eq_ok] at h
      refine .inr ⟨h.1.1, ?_⟩
      replace h := h.2
      split at h
      · rename_i hnone
        exact .inl hnone
      · simp only [passes_bind, exists_unit, orFail_eq_ok, mustCompile_eq_ok] at h
        exact .inr ⟨h.1, QueryData.exists_first.mp (scanRows_passes h.2.2)⟩
  enough h := by
    obtain ⟨cred, hmem, q, hq, hopen, hping, hcommand⟩ := h
    obtain ⟨draw, hdraw⟩ := exists_pick.mpr hmem
    obtain ⟨draw', hq⟩ := exists_query.mpr hq
    by_cases hnone : q.command = []
    · exact ⟨{credsDraw := draw, draw := draw'}, rfl, by
        simp [Sql.definition, hdraw, hq, hopen, hping, hnone]⟩
    · obtain ⟨hquery, houtput⟩ := hcommand.resolve_left hnone
      by_cases hempty : q.output = []
      · exact ⟨{credsDraw := draw, draw := draw'}, rfl, by
          simp [Sql.definition, hdraw, hq, hopen, hping, hnone, hquery, hempty]⟩
      · obtain ⟨hcompiles, hfirst⟩ := houtput.resolve_left hempty
        obtain ⟨first, hfirst⟩ := QueryData.exists_first.mpr hfirst
        exact ⟨{credsDraw := draw, draw := draw', rows := [.ok [first]]}, rfl, by
          simp [Sql.definition, hdraw, hq, hopen, hping, hnone, hquery, hempty, hcompiles,
            scanRows_single hfirst]⟩

/-! ### Pings -/

theorem packetsSent_le (c : Ping) : c.packetsSent pkg ≤ pkg.pings := by
  unfold Ping.packetsSent
  split
  · exact Nat.min_le_right _ _
  · exact Nat.le_refl _

theorem packetsSent_of_fitsIn {c : Ping} (h : c.FitsIn pkg) : (c.packetsSent pkg : Int) = c.count.toInt := by
  obtain ⟨hpos, hle⟩ := h
  have hpos' : 0 < c.count.toInt := by simpa using Int64.lt_iff_toInt_lt.mp hpos
  rw [Ping.packetsSent, if_pos hpos]
  omega

/-- Only packets that go out come back. -/
theorem fitsIn_of_packetsRecv {c : Ping} {b : Behaviour} (hpos : 0 < c.count)
    (h : (c.packetsRecv pkg b : Int) = c.count.toInt) : c.FitsIn pkg := by
  have hsent : c.packetsSent pkg ≤ pkg.pings := packetsSent_le c
  unfold Ping.packetsRecv at h
  exact ⟨hpos, by omega⟩

theorem shortest_le_waits (c : Ping) (b : Behaviour) : c.shortest pkg ≤ c.waits pkg b := by
  unfold Ping.shortest Ping.waits
  by_cases hall : 0 < c.count ∧ (c.packetsRecv pkg b : Int) = c.count.toInt
  · rw [if_pos hall, if_pos (fitsIn_of_packetsRecv hall.1 hall.2)]
  · rw [if_neg hall]
    split <;> omega

/-- Every packet comes back. -/
theorem waits_of_all {c : Ping} {b : Behaviour} (hreplies : b.replies = pkg.pings) :
    c.packetsRecv pkg b = c.packetsSent pkg ∧ c.waits pkg b = c.shortest pkg := by
  have hrecv : c.packetsRecv pkg b = c.packetsSent pkg := by
    rw [Ping.packetsRecv, hreplies]
    exact Nat.min_eq_right (packetsSent_le c)
  refine ⟨hrecv, ?_⟩
  unfold Ping.waits Ping.shortest
  by_cases hfits : c.FitsIn pkg
  · rw [if_pos hfits, if_pos ⟨hfits.1, by rw [hrecv, packetsSent_of_fitsIn hfits]⟩]
  · rw [if_neg hfits, if_neg (fun hall => hfits (fitsIn_of_packetsRecv hall.1 hall.2))]

theorem packetLoss_nonneg (c : Ping) (b : Behaviour) : 0 ≤ c.packetLoss pkg b := by
  have hle : (c.packetsRecv pkg b : ℚ) ≤ c.packetsSent pkg :=
    Nat.cast_le.mpr (Nat.min_le_right _ _)
  exact mul_nonneg (div_nonneg (sub_nonneg.mpr hle) (Nat.cast_nonneg _)) (Nat.ofNat_nonneg 100)

theorem shortest_nonneg (c : Ping) : 0 ≤ c.shortest pkg := by
  unfold Ping.shortest
  split
  · rename_i hfits
    have hpos : 0 < c.count.toInt := by simpa using Int64.lt_iff_toInt_lt.mp hfits.1
    omega
  · decide

/-- A count of none is one `Verify` has filled in. -/
theorem ping_in_time {c : Ping} (hcount : c.count ≠ 0) :
    (∃ b : Behaviour, c.waits pkg b + b.took < seconds c.timeout ∧ Passes (c.definition pkg b)) ↔
      0 < seconds c.timeout ∧ c.CanPass pkg := by
  constructor
  · rintro ⟨b, hintime, hpasses⟩
    have hshort : c.shortest pkg ≤ c.waits pkg b := shortest_le_waits c b
    have hnonneg : 0 ≤ c.shortest pkg := shortest_nonneg c
    simp only [Ping.definition, passes_bind, exists_unit, orFail_eq_ok, call_eq_ok] at hpasses
    obtain ⟨⟨hnew, -⟩, -, htest, -⟩ := hpasses
    refine ⟨by omega, hnew, ?_, by omega⟩
    unfold Ping.test at htest
    split at htest
    · rename_i hallow
      rw [if_pos hallow]
      have hloss := require_eq_ok.mp htest
      have hpercent := (packetLoss_nonneg c b).trans_lt (lt_of_not_ge hloss)
      simpa [Int64.lt_iff_toInt_lt] using hpercent
    · rename_i hall
      rw [if_neg hall]
      have hrecv := require_eq_ok.mp htest
      have hpos : 0 < c.count := by
        have hne : c.count.toInt ≠ 0 := fun h => hcount (Int64.toInt_inj.mp h)
        rw [Int64.lt_iff_toInt_lt]
        simp only [Int64.toInt_zero]
        omega
      exact fitsIn_of_packetsRecv hpos hrecv
  · rintro ⟨hpos, hnew, hneeds, hintime⟩
    let all : Behaviour := {replies := pkg.pings}
    obtain ⟨hrecv, hwaits⟩ : c.packetsRecv pkg all = c.packetsSent pkg ∧
        c.waits pkg all = c.shortest pkg := waits_of_all rfl
    refine ⟨all, by rw [hwaits]; simpa [all] using hintime, ?_⟩
    have htest : c.test pkg all = .ok () := by
      unfold Ping.test
      split
      · rename_i hallow
        rw [if_pos hallow] at hneeds
        have hpercent : (0 : ℚ) < c.percent.toInt := by simpa [Int64.lt_iff_toInt_lt] using hneeds
        rw [require_eq_ok, Ping.packetLoss, hrecv, sub_self, zero_div, zero_mul]
        exact not_le.mpr hpercent
      · rename_i hall
        rw [if_neg hall] at hneeds
        rw [require_eq_ok, hrecv, packetsSent_of_fitsIn hneeds]
    simp [Ping.definition, hnew, htest, all]

end

end QuotientScoring.Checks
