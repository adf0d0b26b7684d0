import QuotientScoring.Engine.Checks
import QuotientScoring.Lib.GoMap
import QuotientScoring.Lib.GoPath
import QuotientScoring.Lib.Related

/-! What `checkConfig` accepts, and what it makes of it.

The settings are read from a file, defaults are filled in where a field is at
zero, and everything found wrong is collected; a box without a name or address
ends the check at once, and a check whose regular expression does not compile
ends the program. A configuration is accepted when nothing was found wrong.

`accepted_misc` and `accepted_boxes` invert acceptance: what the settings for all
checks are, and what each check is, in terms of what was written in the file. -/
namespace QuotientScoring.Config
open DB GoText GoTime Checks

structure RequiredConfig where
  eventName : GoString := []
  eventType : GoString := []
  dbConnectURL : GoString := []
  bindAddress : GoString := []
deriving DecidableEq

structure Credlist where
  credlistName : GoString := []
  credlistPath : GoString := []
  credlistExplainText : GoString := []
deriving DecidableEq

structure LdapAuthConfig where
  ldapConnectUrl : GoString := []
  ldapBindDn : GoString := []
  ldapBindPassword : GoString := []
  ldapSearchBaseDn : GoString := []
  ldapAdminGroupDn : GoString := []
  ldapRedGroupDn : GoString := []
  ldapTeamGroupDn : GoString := []
  ldapInjectGroupDn : GoString := []
deriving DecidableEq

structure OIDCAuthConfig where
  oidcEnabled : Bool := false
  oidcIssuerURL : GoString := []
  oidcClientID : GoString := []
  oidcClientSecret : GoString := []
  oidcRedirectURL : GoString := []
  oidcScopes : List GoString := []
  oidcGroupClaim : GoString := []
  oidcAdminGroups : List GoString := []
  oidcRedGroups : List GoString := []
  oidcTeamGroups : List GoString := []
  oidcInjectGroups : List GoString := []
  oidcRefreshTokenExpiryTeam : Int64 := 0
  oidcRefreshTokenExpiryAdmin : Int64 := 0
  oidcRefreshTokenExpiryRed : Int64 := 0
  oidcRefreshTokenExpiryInject : Int64 := 0
  oidcDisableLocalLogin : Bool := false
deriving DecidableEq

structure SslConfig where
  httpsCert : GoString := []
  httpsKey : GoString := []
deriving DecidableEq

structure MiscConfig where
  easyPCR : Bool := false
  showDebugToBlueTeam : Bool := false
  port : Int64 := 0
  logoImage : GoString := []
  logFile : GoString := []
  startPaused : Bool := false
  delay : Int64 := 0
  jitter : Int64 := 0
  points : Int64 := 0
  timeout : Int64 := 0
  slaThreshold : Int64 := 0
  slaPenalty : Int64 := 0
deriving DecidableEq

structure UIConfig where
  enablePublicGraphs : Bool := false
  disableGraphsForBlueTeam : Bool := false
  allowNonAnonymizedGraphsForBlueTeam : Bool := false
  showAnnouncementsForRedTeam : Bool := false
deriving DecidableEq

/-- An `Admin`, `Red`, `Team` or `Inject` of the file. -/
structure User where
  name : GoString
  pw : GoString
deriving DecidableEq

structure Box where
  name : GoString := []
  ip : GoString := []
  runners : List Runner := []
  custom : List Custom := []
  dns : List Dns := []
  ftp : List Ftp := []
  imap : List Imap := []
  ldap : List Ldap := []
  ping : List Ping := []
  pop3 : List Pop3 := []
  rdp : List Rdp := []
  smb : List Smb := []
  smtp : List Smtp := []
  sql : List Sql := []
  ssh : List Ssh := []
  tcp : List Tcp := []
  vnc : List Vnc := []
  web : List Web := []
  winRM : List WinRM := []
deriving DecidableEq

structure ConfigSettings where
  requiredSettings : RequiredConfig := {}
  credlistSettings : List Credlist := []
  ldapSettings : LdapAuthConfig := {}
  oidcSettings : OIDCAuthConfig := {}
  sslSettings : SslConfig := {}
  miscSettings : MiscConfig := {}
  uiSettings : UIConfig := {}
  admin : List User := []
  red : List User := []
  team : List User := []
  inject : List User := []
  box : List Box := []
deriving DecidableEq

/-- What the program around it answers: environment variables, Unicode lower
case, and which regular expressions compile. -/
structure Environment where
  getenv : String → GoString
  toLower : GoString → GoString
  compiles : Compiles

/-- The errors joined so far. -/
abbrev Errors := List GoString

/-- One error if something is wrong. -/
def failIf (wrong : Prop) [Decidable wrong] (text : GoString) : Errors := if wrong then [text] else []

@[simp] theorem failIf_eq_nil {wrong : Prop} [Decidable wrong] {text : GoString} :
    failIf wrong text = [] ↔ ¬wrong := by
  unfold failIf
  split <;> simp_all

variable (env : Environment)

/-! ### The settings -/

def supportedEvents : List GoString := [str "rvb", str "koth"]

/-- `postgres://%s:%s@%s:5432/%s`, from the environment, if all four are set. -/
def envConnectURL : GoString :=
  let dbUser := env.getenv "POSTGRES_USER"
  let dbPassword := env.getenv "POSTGRES_PASSWORD"
  let dbHost := env.getenv "POSTGRES_HOST"
  let dbDatabase := env.getenv "POSTGRES_DB"
  if dbUser ≠ [] ∧ dbPassword ≠ [] ∧ dbHost ≠ [] ∧ dbDatabase ≠ [] then
    str "postgres://" ++ dbUser ++ str ":" ++ dbPassword ++ str "@" ++ dbHost ++ str ":5432/" ++
      dbDatabase
  else []

def checkRequired (required : RequiredConfig) : RequiredConfig × Errors :=
  let url := if required.dbConnectURL = [] then envConnectURL env else required.dbConnectURL
  ({required with dbConnectURL := url},
    failIf (required.eventName = []) (str "event title blank or not specified") ++
    failIf (required.eventType ∉ supportedEvents) (str "not a valid event type") ++
    failIf (url = []) (str "no db connect url specified") ++
    failIf (required.bindAddress = []) (str "no bind address specified"))

/-- LDAP counts as configured when any of its fields is set. -/
def checkLdap (ldap : LdapAuthConfig) : LdapAuthConfig × Errors :=
  if ldap ≠ {} ∧ ldap.ldapBindPassword = [] then
    let password := env.getenv "LDAP_BIND_PASSWORD"
    ({ldap with ldapBindPassword := password},
      failIf (password = []) (str "no LDAP bind password specified"))
  else (ldap, [])

def checkUsers (kind : String) (users : List User) : Errors :=
  users.flatMap (fun user => failIf (user.name = [] ∨ user.pw = [])
    (str kind ++ str " " ++ user.name ++ str " missing required property"))

def checkCredlist (i : Nat) (credlist : Credlist) : Credlist × Errors :=
  ({ credlistName :=
      if credlist.credlistName = [] then credlist.credlistPath else credlist.credlistName
     credlistPath := GoPath.base credlist.credlistPath
     credlistExplainText := if credlist.credlistExplainText = [] then str "username,password"
      else credlist.credlistExplainText },
    failIf (credlist.credlistPath = [])
      (str "credlist " ++ str (toString i) ++ str " missing path"))

def checkCredlists (credlists : List Credlist) : List (Credlist × Errors) :=
  credlists.mapIdx checkCredlist

def checkSsl (ssl : SslConfig) : Errors :=
  failIf (ssl ≠ {} ∧ (ssl.httpsCert = [] ∨ ssl.httpsKey = []))
    (str "https requires a cert and key pair")

/-- The defaults, each for a field at zero, in the order of the source: later ones
read earlier ones. -/
def MiscConfig.withDefaults (ssl : SslConfig) (misc : MiscConfig) : MiscConfig :=
  let misc := {misc with delay := if misc.delay = 0 then 60 else misc.delay}
  let misc := {misc with jitter := if misc.jitter = 0 then 5 else misc.jitter}
  let misc := {misc with
    logoImage := if misc.logoImage = [] then str "/static/assets/quotient.svg" else misc.logoImage}
  let misc := {misc with
    port := if misc.port = 0 then if ssl ≠ ({} : SslConfig) then 443 else 80 else misc.port}
  let misc := {misc with timeout := if misc.timeout = 0 then misc.delay / 2 else misc.timeout}
  let misc := {misc with points := if misc.points = 0 then 1 else misc.points}
  let misc := {misc with slaThreshold := if misc.slaThreshold = 0 then 5 else misc.slaThreshold}
  {misc with slaPenalty :=
    if misc.slaPenalty = 0 then misc.slaThreshold * misc.points else misc.slaPenalty}

section Defaults
variable (ssl : SslConfig) (misc : MiscConfig)

theorem delay_withDefaults :
    (misc.withDefaults ssl).delay = if misc.delay = 0 then 60 else misc.delay := rfl

theorem jitter_withDefaults :
    (misc.withDefaults ssl).jitter = if misc.jitter = 0 then 5 else misc.jitter := rfl

theorem timeout_withDefaults : (misc.withDefaults ssl).timeout =
    if misc.timeout = 0 then (misc.withDefaults ssl).delay / 2 else misc.timeout := rfl

theorem points_withDefaults :
    (misc.withDefaults ssl).points = if misc.points = 0 then 1 else misc.points := rfl

theorem slaThreshold_withDefaults : (misc.withDefaults ssl).slaThreshold =
    if misc.slaThreshold = 0 then 5 else misc.slaThreshold := rfl

end Defaults

/-- The two checks of the times, on the settings with their defaults. -/
def checkTimes (misc : MiscConfig) : Errors :=
  failIf (misc.jitter ≥ misc.delay) (str "jitter must be smaller than delay") ++
  failIf (misc.timeout ≥ misc.delay - misc.jitter)
    (str "timeout must be smaller than delay minus jitter")

def OIDCAuthConfig.withDefaults (oidc : OIDCAuthConfig) : OIDCAuthConfig :=
  { oidc with
    oidcScopes := if oidc.oidcScopes = [] then
      [str "openid", str "profile", str "email", str "groups", str "offline_access"]
      else oidc.oidcScopes
    oidcGroupClaim := if oidc.oidcGroupClaim = [] then str "groups" else oidc.oidcGroupClaim
    oidcRefreshTokenExpiryTeam :=
      if oidc.oidcRefreshTokenExpiryTeam = 0 then 86400 else oidc.oidcRefreshTokenExpiryTeam
    oidcRefreshTokenExpiryAdmin :=
      if oidc.oidcRefreshTokenExpiryAdmin = 0 then 2592000 else oidc.oidcRefreshTokenExpiryAdmin
    oidcRefreshTokenExpiryRed :=
      if oidc.oidcRefreshTokenExpiryRed = 0 then 172800 else oidc.oidcRefreshTokenExpiryRed
    oidcRefreshTokenExpiryInject :=
      if oidc.oidcRefreshTokenExpiryInject = 0 then 86400 else oidc.oidcRefreshTokenExpiryInject }

def checkOIDC (oidc : OIDCAuthConfig) : OIDCAuthConfig × Errors :=
  if oidc.oidcEnabled then
    (oidc.withDefaults,
      failIf (oidc.oidcIssuerURL = []) (str "OIDC enabled but no issuer URL specified") ++
      failIf (oidc.oidcClientID = []) (str "OIDC enabled but no client ID specified") ++
      failIf (oidc.oidcClientSecret = []) (str "OIDC enabled but no client secret specified") ++
      failIf (oidc.oidcRedirectURL = []) (str "OIDC enabled but no redirect URL specified"))
  else (oidc, [])

/-! ### The boxes -/

/-- The checks of a box, kind by kind. -/
def Box.checks (box : Box) : List Runner :=
  [ box.custom.map .custom, box.dns.map .dns, box.ftp.map .ftp, box.imap.map .imap,
    box.ldap.map .ldap, box.ping.map .ping, box.pop3.map .pop3, box.rdp.map .rdp,
    box.smb.map .smb, box.smtp.map .smtp, box.sql.map .sql, box.ssh.map .ssh,
    box.tcp.map .tcp, box.vnc.map .vnc, box.web.map .web, box.winRM.map .winRM ].flatten

/-- The arguments `checkConfig` gives to `Verify`. -/
def verifyArgs (misc : MiscConfig) (box : Box) : VerifyArgs :=
  { box := box.name
    ip := box.ip
    points := misc.points
    timeout := misc.timeout
    slaPenalty := misc.slaPenalty
    slaThreshold := misc.slaThreshold }

/-- What the loops over boxes and checks carry: the errors, and the names seen. -/
structure Pass where
  errors : Errors
  runnerNames : List GoString

/-- The check does not come back with a configuration. -/
inductive Stopped where
  | panic
  | returned (err : GoString)
deriving DecidableEq

/-- Credlist names and paths, to paths. -/
def credMap (credlists : List Credlist) : GoMap GoString GoString :=
  credlists.foldl (fun m cl =>
    (m.insert cl.credlistName cl.credlistPath).insert cl.credlistPath cl.credlistPath) ∅

variable (creds : GoMap GoString GoString)

/-- One check, `none` for a panic. -/
def checkRunner (args : VerifyArgs) (pass : Pass) (check : Runner) : Option (Runner × Pass) :=
  (check.verify env.compiles args).map fun (check, err) =>
    let name := check.service.name
    let credPaths := check.service.credLists.filterMap creds.lookup
    let missing := check.service.credLists.filter (fun list => (creds.lookup list).isNone)
    (if credPaths = [] then check else check.setCredlists credPaths,
      { errors := pass.errors ++ err.toList ++
          failIf (name ∈ pass.runnerNames) (str "duplicate check name found: " ++ name) ++
          missing.map (fun _ => str "credlist not found for " ++ name)
        runnerNames := name :: pass.runnerNames })

def checkRunners (args : VerifyArgs) : Pass → List Runner → Option (List Runner × Pass)
  | pass, [] => some ([], pass)
  | pass, check :: rest =>
    (checkRunner env creds args pass check).bind fun (check, pass) =>
      (checkRunners args pass rest).map fun (rest, pass) => (check :: rest, pass)

/-- One box. The map of box names is never written, so a repeated name passes. -/
def checkBox (misc : MiscConfig) (i : Nat) (pass : Pass) (box : Box) :
    Except Stopped (Box × Pass) :=
  if box.name = [] then .error (.returned (str "no name found for box " ++ str (toString i)))
  else if box.ip = [] then .error (.returned (str "no IP found for box " ++ box.name))
  else
    let box := {box with ip := env.toLower box.ip}
    match checkRunners env creds (verifyArgs misc box) pass box.checks with
    | none => .error .panic
    | some (runners, pass) => .ok ({box with runners := runners}, pass)

def checkBoxes (misc : MiscConfig) : Nat → Pass → List Box → Except Stopped (List Box × Pass)
  | _, pass, [] => .ok ([], pass)
  | i, pass, box :: rest =>
    match checkBox env creds misc i pass box with
    | .error stopped => .error stopped
    | .ok (box, pass) =>
      match checkBoxes misc (i + 1) pass rest with
      | .error stopped => .error stopped
      | .ok (rest, pass) => .ok (box :: rest, pass)

/-- `sort.SliceStable` by address. -/
def sortBoxes (boxes : List Box) : List Box :=
  boxes.insertionSort (fun a b => a.ip ≤ b.ip)

/-- The configuration with its defaults, and the errors joined; or nothing, after an
early return or a panic. -/
def checkConfig (conf : ConfigSettings) : Except Stopped (ConfigSettings × Errors) :=
  let required := checkRequired env conf.requiredSettings
  let ldap := checkLdap env conf.ldapSettings
  let users := checkUsers "admin" conf.admin ++ checkUsers "red" conf.red ++
    checkUsers "team" conf.team ++ checkUsers "inject" conf.inject
  let credlists := checkCredlists conf.credlistSettings
  let misc := conf.miscSettings.withDefaults conf.sslSettings
  let oidc := checkOIDC conf.oidcSettings
  let errors := required.2 ++ ldap.2 ++ users ++ credlists.flatMap Prod.snd ++
    checkSsl conf.sslSettings ++ checkTimes misc ++ oidc.2
  let conf := {conf with
    requiredSettings := required.1
    ldapSettings := ldap.1
    credlistSettings := credlists.map Prod.fst
    miscSettings := misc
    oidcSettings := oidc.1 }
  match checkBoxes env (credMap conf.credlistSettings) misc 0 ⟨errors, []⟩ (sortBoxes conf.box) with
  | .error stopped => .error stopped
  | .ok (box, pass) => .ok ({conf with box := box}, pass.errors)

def ConfigSettings.allChecks (conf : ConfigSettings) : List Runner :=
  conf.box.flatMap Box.runners

/-- `checkConfig` returns nil for what was read, and leaves `conf`. -/
def Accepts (raw conf : ConfigSettings) : Prop := checkConfig env raw = .ok (conf, [])

instance (raw conf : ConfigSettings) : Decidable (Accepts env raw conf) :=
  inferInstanceAs (Decidable (_ = _))

/-- `SetConfig`, once the file is decoded: a configuration that is not accepted leaves
the old one in place. -/
def setConfig (conf raw : ConfigSettings) : ConfigSettings :=
  match checkConfig env raw with
  | .ok (checked, []) => checked
  | _ => conf

/-! ### What acceptance means -/

/-- A check of the configuration, from the one in the file: `Verify` accepted it, and
its credlists were then translated. -/
def Checked (args : VerifyArgs) (raw check : Runner) : Prop :=
  ∃ verified : Runner, raw.verify env.compiles args = some (verified, none) ∧
    ∃ lists : List GoString, check = verified.setCredlists lists

/-- A box of the configuration, from the one in the file. -/
structure BoxChecked (misc : MiscConfig) (raw box : Box) : Prop where
  name : box.name = raw.name
  ip : box.ip = env.toLower raw.ip
  runners : List.Forall₂ (Checked env (verifyArgs misc box)) raw.checks box.runners

theorem Checked.typeName {args : VerifyArgs} {raw check : Runner}
    (h : Checked env args raw check) : check.typeName = raw.typeName := by
  obtain ⟨verified, hverify, lists, rfl⟩ := h
  simpa [Runner.setCredlists] using (Runner.verify_service hverify).1

/-- Everything but the name, the display name, the port and the credlists is as
`Configure` leaves it. -/
theorem Checked.service {args : VerifyArgs} {raw check : Runner}
    (h : Checked env args raw check) :
    ∃ (name display : GoString) (port : Int64) (lists : List GoString),
      check.service = {(raw.service.typed raw.typeName).configure args with
        name := name, display := display, port := port, credLists := lists} := by
  obtain ⟨verified, hverify, lists, rfl⟩ := h
  obtain ⟨-, name, display, port, hservice⟩ := Runner.verify_service hverify
  exact ⟨name, display, port, lists, by simp [Runner.setCredlists, hservice]⟩

section
variable {env} {args : VerifyArgs} {raw check : Runner}

theorem Checked.attempts (h : Checked env args raw check) : check.service.attempts =
    if raw.service.attempts = 0 then 1 else raw.service.attempts := by
  obtain ⟨_, _, _, _, hservice⟩ := h.service
  rw [hservice]
  rfl

theorem Checked.slaThreshold (h : Checked env args raw check) : check.service.slaThreshold =
    if raw.service.slaThreshold = 0 then args.slaThreshold else raw.service.slaThreshold := by
  obtain ⟨_, _, _, _, hservice⟩ := h.service
  rw [hservice]
  rfl

theorem Checked.slaPenalty (h : Checked env args raw check) : check.service.slaPenalty =
    if raw.service.slaPenalty = 0 then args.slaPenalty else raw.service.slaPenalty := by
  obtain ⟨_, _, _, _, hservice⟩ := h.service
  rw [hservice]
  rfl

theorem Checked.serviceType (h : Checked env args raw check) : check.service.serviceType =
    if raw.service.serviceType = [] then str raw.typeName else raw.service.serviceType := by
  obtain ⟨_, _, _, _, hservice⟩ := h.service
  rw [hservice]
  rfl

end

theorem checkRunner_checked {args : VerifyArgs} {pass pass' : Pass} {raw check : Runner}
    (h : checkRunner env creds args pass raw = some (check, pass')) (herr : pass'.errors = []) :
    pass.errors = [] ∧ Checked env args raw check := by
  obtain ⟨⟨verified, err⟩, hverify, heq⟩ := Option.map_eq_some_iff.mp h
  obtain ⟨hcheck, hpass⟩ := Prod.mk.inj heq
  rw [← hpass] at herr
  simp only [List.append_eq_nil_iff] at herr
  obtain ⟨⟨⟨hbefore, hnone⟩, -⟩, -⟩ := herr
  have hnone : err = none := by simpa using hnone
  subst hnone
  refine ⟨hbefore, verified, hverify, ?_⟩
  split at hcheck
  · exact ⟨verified.service.credLists, hcheck.symm.trans verified.setCredlists_self.symm⟩
  · exact ⟨_, hcheck.symm⟩

/-- What the loop over checks keeps: what each check has in common with the one in the file. -/
theorem checkRunners_related {args : VerifyArgs} {R : Runner → Runner → Prop}
    (hone : ∀ (pass pass' : Pass) (raw check : Runner),
      checkRunner env creds args pass raw = some (check, pass') → pass'.errors = [] →
      pass.errors = [] ∧ R raw check)
    {pass pass' : Pass} {raws checks : List Runner}
    (h : checkRunners env creds args pass raws = some (checks, pass')) (herr : pass'.errors = []) :
    pass.errors = [] ∧ List.Forall₂ R raws checks := by
  induction raws generalizing pass checks with
  | nil =>
    obtain ⟨rfl, rfl⟩ := Prod.mk.inj (Option.some.inj h)
    exact ⟨herr, .nil⟩
  | cons raw raws ih =>
    obtain ⟨⟨check, mid⟩, hcheck, hrest⟩ := Option.bind_eq_some_iff.mp h
    obtain ⟨⟨rest, last⟩, htail, heq⟩ := Option.map_eq_some_iff.mp hrest
    obtain ⟨rfl, rfl⟩ := Prod.mk.inj heq
    obtain ⟨hmid, hrelated⟩ := ih htail
    obtain ⟨hbefore, hR⟩ := hone _ _ _ _ hcheck hmid
    exact ⟨hbefore, .cons hR hrelated⟩

theorem checkRunners_checked {args : VerifyArgs} {pass pass' : Pass} {raws checks : List Runner}
    (h : checkRunners env creds args pass raws = some (checks, pass')) (herr : pass'.errors = []) :
    pass.errors = [] ∧ List.Forall₂ (Checked env args) raws checks :=
  checkRunners_related env creds (fun _ _ _ _ => checkRunner_checked env creds) h herr

theorem checkBox_checked {misc : MiscConfig} {i : Nat} {pass pass' : Pass} {raw box : Box}
    (h : checkBox env creds misc i pass raw = .ok (box, pass')) (herr : pass'.errors = []) :
    pass.errors = [] ∧ BoxChecked env misc raw box := by
  unfold checkBox at h
  split at h
  · cases h
  · split at h
    · cases h
    · dsimp only at h
      split at h
      · cases h
      · rename_i runners mid hrunners
        obtain ⟨rfl, rfl⟩ := Prod.mk.inj (Except.ok.inj h)
        obtain ⟨hbefore, hchecked⟩ := checkRunners_checked env creds hrunners herr
        exact ⟨hbefore, rfl, rfl, hchecked⟩

theorem checkBoxes_related {misc : MiscConfig} {R : Box → Box → Prop}
    (hone : ∀ (i : Nat) (pass pass' : Pass) (raw box : Box),
      checkBox env creds misc i pass raw = .ok (box, pass') → pass'.errors = [] →
      pass.errors = [] ∧ R raw box)
    {i : Nat} {pass pass' : Pass} {raws boxes : List Box}
    (h : checkBoxes env creds misc i pass raws = .ok (boxes, pass')) (herr : pass'.errors = []) :
    pass.errors = [] ∧ List.Forall₂ R raws boxes := by
  induction raws generalizing i pass boxes with
  | nil =>
    obtain ⟨rfl, rfl⟩ := Prod.mk.inj (Except.ok.inj h)
    exact ⟨herr, .nil⟩
  | cons raw raws ih =>
    simp only [checkBoxes] at h
    split at h
    · cases h
    · rename_i box mid hbox
      split at h
      · cases h
      · rename_i rest last hrest
        obtain ⟨rfl, rfl⟩ := Prod.mk.inj (Except.ok.inj h)
        obtain ⟨hmid, hrelated⟩ := ih hrest
        obtain ⟨hbefore, hR⟩ := hone _ _ _ _ _ hbox hmid
        exact ⟨hbefore, .cons hR hrelated⟩

theorem checkBoxes_checked {misc : MiscConfig} {i : Nat} {pass pass' : Pass} {raws boxes : List Box}
    (h : checkBoxes env creds misc i pass raws = .ok (boxes, pass')) (herr : pass'.errors = []) :
    pass.errors = [] ∧ List.Forall₂ (BoxChecked env misc) raws boxes :=
  checkBoxes_related env creds (fun _ _ _ _ _ => checkBox_checked env creds) h herr

/-- A user entry of an accepted configuration. -/
def User.Complete (user : User) : Prop := user.name ≠ [] ∧ user.pw ≠ []

theorem checkUsers_eq_nil {kind : String} {users : List User} :
    checkUsers kind users = [] ↔ ∀ user ∈ users, user.Complete := by
  simp [checkUsers, List.flatMap_eq_nil_iff, User.Complete]

variable {env}

/-- What an accepted configuration is, in terms of what was read. -/
structure Accepted (env : Environment) (raw conf : ConfigSettings) : Prop where
  misc : conf.miscSettings = raw.miscSettings.withDefaults raw.sslSettings
  jitter_lt : conf.miscSettings.jitter < conf.miscSettings.delay
  timeout_lt : conf.miscSettings.timeout < conf.miscSettings.delay - conf.miscSettings.jitter
  oidc : conf.oidcSettings = (checkOIDC raw.oidcSettings).1
  ui : conf.uiSettings = raw.uiSettings
  admin : conf.admin = raw.admin
  red : conf.red = raw.red
  team : conf.team = raw.team
  inject : conf.inject = raw.inject
  complete : ∀ user ∈ conf.admin ++ conf.red ++ conf.team ++ conf.inject, user.Complete
  boxes : List.Forall₂ (BoxChecked env conf.miscSettings) (sortBoxes raw.box) conf.box

theorem Accepts.accepted {raw conf : ConfigSettings} (h : Accepts env raw conf) :
    Accepted env raw conf := by
  unfold Accepts checkConfig at h
  dsimp only at h
  split at h
  · cases h
  · rename_i boxes pass hboxes
    obtain ⟨rfl, herr⟩ := Prod.mk.inj (Except.ok.inj h)
    obtain ⟨hbefore, hchecked⟩ := checkBoxes_checked env _ hboxes herr
    simp only [List.append_eq_nil_iff, checkTimes, failIf_eq_nil, checkUsers_eq_nil] at hbefore
    obtain ⟨⟨⟨⟨⟨-, ⟨⟨hadmin, hred⟩, hteam⟩, hinject⟩, -⟩, -⟩, hjitter, htimeout⟩, -⟩ := hbefore
    exact
      { misc := rfl
        jitter_lt := Int64.not_le.mp hjitter
        timeout_lt := Int64.not_le.mp htimeout
        oidc := rfl
        ui := rfl
        admin := rfl
        red := rfl
        team := rfl
        inject := rfl
        complete := by
          intro user huser
          simp only [List.mem_append] at huser
          rcases huser with ((huser | huser) | huser) | huser
          · exact hadmin user huser
          · exact hred user huser
          · exact hteam user huser
          · exact hinject user huser
        boxes := hchecked }

/-! ### The checks of an accepted configuration -/

/-- The checks in the file. -/
def ConfigSettings.written (raw : ConfigSettings) : List Runner := raw.box.flatMap Box.checks

variable {raw conf : ConfigSettings}

/-- Check by check, what `AllChecks` returns comes from what was written. -/
theorem Accepted.allChecks (h : Accepted env raw conf) :
    List.Forall₂ (fun r check => ∃ box : Box, Checked env (verifyArgs conf.miscSettings box) r check)
      ((sortBoxes raw.box).flatMap Box.checks) conf.allChecks := by
  apply List.rel_flatMap h.boxes
  intro rawBox box hbox
  exact hbox.runners.imp (fun _ _ hchecked => ⟨box, hchecked⟩)

theorem mem_written {r : Runner} :
    r ∈ (sortBoxes raw.box).flatMap Box.checks ↔ r ∈ raw.written := by
  simp only [ConfigSettings.written, List.mem_flatMap, sortBoxes, List.mem_insertionSort]

theorem Accepted.exists_written (h : Accepted env raw conf) {check : Runner}
    (hcheck : check ∈ conf.allChecks) :
    ∃ r ∈ raw.written, ∃ box : Box, Checked env (verifyArgs conf.miscSettings box) r check := by
  obtain ⟨r, hr, hchecked⟩ := Related.exists_left h.allChecks hcheck
  exact ⟨r, mem_written.mp hr, hchecked⟩

theorem Accepted.exists_check (h : Accepted env raw conf) {r : Runner} (hr : r ∈ raw.written) :
    ∃ check ∈ conf.allChecks, ∃ box : Box,
      Checked env (verifyArgs conf.miscSettings box) r check :=
  Related.exists_right h.allChecks (mem_written.mpr hr)

/-! ### A small file -/

/-- No environment variables, addresses in lower case already, and every regular
expression compiles. -/
def Environment.plain : Environment := ⟨fun _ => [], id, fun _ => true⟩

/-- One box with the given checks. -/
def smallFile (misc : MiscConfig) (box : Box) : ConfigSettings :=
  { requiredSettings := ⟨str "event", str "rvb", str "postgres://db", str "0.0.0.0"⟩
    miscSettings := misc
    box := [{box with name := str "box", ip := str "10.0.0.1"}] }

example : Accepts .plain (smallFile {} {ping := [{}]})
    (setConfig .plain {} (smallFile {} {ping := [{}]})) := by decide +kernel

end QuotientScoring.Config
