import QuotientScoring.DB.Schema
import QuotientScoring.Lib.GoText
import QuotientScoring.Lib.GoTime

/-! The sixteen kinds of check, and what `Verify` makes of one read from the
configuration file.

A check has a `Service` in it and some fields of its own. `Verify` fills in the
fields left at zero, from the box and from the settings for all checks, and may
refuse the check; a regular expression that does not compile is a panic.
`verify_service` says once what every kind does with its service: the type is
the kind's own name unless one was written, `Configure` fills in the rest, and
the port, the display name and the name are the kind's affair. -/
namespace QuotientScoring.Checks
open DB GoText GoTime

structure TaskCredential where
  username : GoString
  password : GoString
deriving DecidableEq

structure Service where
  name : GoString := []
  display : GoString := []
  credLists : List GoString := []
  port : Int64 := 0
  points : Int64 := 0
  timeout : Int64 := 0
  slaPenalty : Int64 := 0
  slaThreshold : Int64 := 0
  launchTime : Int := zeroTime
  stopTime : Int := zeroTime
  disabled : Bool := false
  target : GoString := []
  serviceType : GoString := []
  attempts : Int64 := 0
  taskCredentials : List TaskCredential := []
deriving DecidableEq

structure Custom extends Service where
  command : GoString := []
  regex : GoString := []
deriving DecidableEq

structure DnsRecord where
  kind : GoString
  domain : GoString
  answer : List GoString
deriving DecidableEq

structure Dns extends Service where
  record : List DnsRecord := []
deriving DecidableEq

structure FtpFile where
  name : GoString
  hash : GoString
  regex : GoString
deriving DecidableEq

structure Ftp extends Service where
  file : List FtpFile := []
deriving DecidableEq

structure Imap extends Service where
  domain : GoString := []
  encrypted : Bool := false
deriving DecidableEq

structure Ldap extends Service where
  domain : GoString := []
  encrypted : Bool := false
deriving DecidableEq

structure Ping extends Service where
  count : Int64 := 0
  allowPacketLoss : Bool := false
  percent : Int64 := 0
deriving DecidableEq

structure Pop3 extends Service where
  domain : GoString := []
  encrypted : Bool := false
deriving DecidableEq

structure Rdp extends Service
deriving DecidableEq

structure SmbFile where
  name : GoString
  hash : GoString
  regex : GoString
deriving DecidableEq

structure Smb extends Service where
  domain : GoString := []
  share : GoString := []
  file : List SmbFile := []
deriving DecidableEq

structure Smtp extends Service where
  encrypted : Bool := false
  domain : GoString := []
  requireAuth : Bool := false
deriving DecidableEq

structure QueryData where
  useRegex : Bool
  command : GoString
  database : GoString
  output : GoString
deriving DecidableEq

structure Sql extends Service where
  kind : GoString := []
  query : List QueryData := []
deriving DecidableEq

structure CommandData where
  useRegex : Bool
  contains : Bool
  command : GoString
  output : GoString
deriving DecidableEq

structure Ssh extends Service where
  privKey : GoString := []
  badAttempts : Int64 := 0
  command : List CommandData := []
deriving DecidableEq

structure Tcp extends Service
deriving DecidableEq

structure Vnc extends Service
deriving DecidableEq

structure UrlData where
  path : GoString
  status : Int64
  diff : Int64
  regex : GoString
  compareFile : GoString
deriving DecidableEq

structure Web extends Service where
  url : List UrlData := []
  scheme : GoString := []
deriving DecidableEq

structure WinCommandData where
  useRegex : Bool
  command : GoString
  output : GoString
deriving DecidableEq

structure WinRM extends Service where
  encrypted : Bool := false
  badAttempts : Int64 := 0
  command : List WinCommandData := []
deriving DecidableEq

/-- The arguments of `Verify`: the box, and the settings for all checks. -/
structure VerifyArgs where
  box : GoString
  ip : GoString
  points : Int64
  timeout : Int64
  slaPenalty : Int64
  slaThreshold : Int64
deriving DecidableEq

namespace Service
variable (service : Service)

def configure (args : VerifyArgs) : Service :=
  { service with
    target := if service.target = [] then args.ip else service.target
    points := if service.points = 0 then args.points else service.points
    timeout := if service.timeout = 0 then args.timeout else service.timeout
    slaPenalty := if service.slaPenalty = 0 then args.slaPenalty else service.slaPenalty
    slaThreshold := if service.slaThreshold = 0 then args.slaThreshold else service.slaThreshold
    attempts := if service.attempts = 0 then 1 else service.attempts }

/-- `if c.ServiceType == "" { c.ServiceType = .. }`. -/
def typed (type : String) : Service :=
  {service with serviceType := if service.serviceType = [] then str type else service.serviceType}

/-- `if c.Display == "" { c.Display = .. }`. -/
def displayed (display : String) : Service :=
  {service with display := if service.display = [] then str display else service.display}

/-- `if c.Name == "" { c.Name = box + "-" + c.Display }`. -/
def named (box : GoString) : Service :=
  {service with name := if service.name = [] then box ++ str "-" ++ service.display else service.name}

/-- `if c.Port == 0 { c.Port = .. }`. -/
def onPort (port : Int64) : Service :=
  {service with port := if service.port = 0 then port else service.port}

/-- `Runnable`, at the moment `now`. -/
def runnable (now : Int) : Bool :=
  !service.disabled && !decide (now < service.launchTime) &&
    (decide (service.stopTime = zeroTime) || !decide (service.stopTime < now))

end Service

/-! ### Verify -/

/-- What `Verify` leaves of the check, and the error it returns. -/
abbrev Verified (α : Type) := α × Option GoString

/-- Which regular expressions compile. -/
abbrev Compiles := GoString → Bool

def Custom.verify (args : VerifyArgs) (c : Custom) : Verified Custom :=
  let c := {c with toService :=
    (((c.typed "Custom").configure args).displayed "custom").named args.box}
  (c, if c.command = [] then some (str "no command found for custom check " ++ c.name) else none)

/-- A check without records is refused before it has a name. -/
def Dns.verify (args : VerifyArgs) (c : Dns) : Verified Dns :=
  let c := {c with toService := ((c.typed "Dns").configure args).onPort 53}
  if c.record = [] then (c, some (str "dns check " ++ c.name ++ str " has no records"))
  else ({c with toService := (c.displayed "dns").named args.box}, none)

def Ftp.verify (args : VerifyArgs) (c : Ftp) : Verified Ftp :=
  let c := {c with toService :=
    ((((c.typed "Ftp").configure args).onPort 21).displayed "ftp").named args.box}
  (c, if c.file.any (fun f => f.regex != [] && f.hash != []) then
    some (str "can't have both regex and hash for ftp file check") else none)

def Imap.verify (args : VerifyArgs) (c : Imap) : Verified Imap :=
  ({c with toService :=
    ((((c.typed "Imap").configure args).onPort 143).displayed "imap").named args.box}, none)

def Ldap.verify (args : VerifyArgs) (c : Ldap) : Verified Ldap :=
  ({c with toService :=
    ((((c.typed "Ldap").configure args).onPort 636).displayed "ldap").named args.box}, none)

def Ping.verify (args : VerifyArgs) (c : Ping) : Verified Ping :=
  ({c with
    toService := (((c.typed "Ping").configure args).displayed "ping").named args.box
    count := if c.count = 0 then 1 else c.count}, none)

def Pop3.verify (args : VerifyArgs) (c : Pop3) : Verified Pop3 :=
  ({c with toService :=
    ((((c.typed "Pop3").configure args).displayed "pop3").named args.box).onPort 110}, none)

def Rdp.verify (args : VerifyArgs) (c : Rdp) : Verified Rdp :=
  ({c with toService :=
    ((((c.typed "Rdp").configure args).displayed "rdp").named args.box).onPort 3389}, none)

def Smb.verify (args : VerifyArgs) (c : Smb) : Verified Smb :=
  ({c with toService :=
    ((((c.typed "Smb").configure args).displayed "smb").named args.box).onPort 445}, none)

def Smtp.verify (args : VerifyArgs) (c : Smtp) : Verified Smtp :=
  ({c with toService :=
    ((((c.typed "Smtp").configure args).displayed "smtp").named args.box).onPort 25}, none)

/-- `regexp.MustCompile` panics on an expression that does not compile. -/
def Sql.verify (compiles : Compiles) (args : VerifyArgs) (c : Sql) : Option (Verified Sql) :=
  let c := {c with
    toService := ((((c.typed "Sql").configure args).displayed "sql").named args.box).onPort 3306
    kind := if c.kind = [] then str "mysql" else c.kind}
  if c.query.all (fun q => !q.useRegex || compiles q.output) then some (c, none) else none

def Ssh.verify (compiles : Compiles) (args : VerifyArgs) (c : Ssh) : Option (Verified Ssh) :=
  let c := {c with toService :=
    ((((c.typed "Ssh").configure args).displayed "ssh").named args.box).onPort 22}
  if c.privKey ≠ [] ∧ c.badAttempts ≠ 0 then
    some (c, some (str "cannot use both private key and bad attempts"))
  else if c.command.all (fun r => !r.useRegex || compiles r.output) then some (c, none) else none

def Tcp.verify (args : VerifyArgs) (c : Tcp) : Verified Tcp :=
  let c := {c with toService := (((c.typed "Tcp").configure args).displayed "tcp").named args.box}
  (c, if c.port = 0 then some (str "port is required") else none)

def Vnc.verify (args : VerifyArgs) (c : Vnc) : Verified Vnc :=
  ({c with toService :=
    ((((c.typed "Vnc").configure args).displayed "vnc").named args.box).onPort 5900}, none)

/-- The empty path of a URL is replaced in a copy only, so the check keeps it. -/
def Web.verify (args : VerifyArgs) (c : Web) : Verified Web :=
  let scheme := if c.scheme = [] then str "http" else c.scheme
  let port := if scheme = str "https" then 443 else 80
  let c := {c with
    toService := ((((c.typed "Web").configure args).displayed "web").named args.box).onPort port
    scheme := scheme}
  (c,
    if c.url = [] then some (str "no urls defined")
    else if c.url.any (fun u => u.diff != 0 && u.compareFile == []) then
      some (str "need compare file for diff in web")
    else none)

def WinRM.verify (compiles : Compiles) (args : VerifyArgs) (c : WinRM) :
    Option (Verified WinRM) :=
  let port := if c.encrypted then 443 else 80
  let c := {c with toService :=
    ((((c.typed "WinRM").configure args).displayed "winrm").named args.box).onPort port}
  if c.command.all (fun r => !r.useRegex || compiles r.output) then some (c, none) else none

/-! ### Any check -/

/-- A value of the interface `checks.Runner`. -/
inductive Runner where
  | custom (c : Custom)
  | dns (c : Dns)
  | ftp (c : Ftp)
  | imap (c : Imap)
  | ldap (c : Ldap)
  | ping (c : Ping)
  | pop3 (c : Pop3)
  | rdp (c : Rdp)
  | smb (c : Smb)
  | smtp (c : Smtp)
  | sql (c : Sql)
  | ssh (c : Ssh)
  | tcp (c : Tcp)
  | vnc (c : Vnc)
  | web (c : Web)
  | winRM (c : WinRM)
deriving DecidableEq

namespace Runner

def service : Runner → Service
  | custom c => c.toService
  | dns c => c.toService
  | ftp c => c.toService
  | imap c => c.toService
  | ldap c => c.toService
  | ping c => c.toService
  | pop3 c => c.toService
  | rdp c => c.toService
  | smb c => c.toService
  | smtp c => c.toService
  | sql c => c.toService
  | ssh c => c.toService
  | tcp c => c.toService
  | vnc c => c.toService
  | web c => c.toService
  | winRM c => c.toService

/-- The name of the concrete type. -/
def typeName : Runner → String
  | custom _ => "Custom"
  | dns _ => "Dns"
  | ftp _ => "Ftp"
  | imap _ => "Imap"
  | ldap _ => "Ldap"
  | ping _ => "Ping"
  | pop3 _ => "Pop3"
  | rdp _ => "Rdp"
  | smb _ => "Smb"
  | smtp _ => "Smtp"
  | sql _ => "Sql"
  | ssh _ => "Ssh"
  | tcp _ => "Tcp"
  | vnc _ => "Vnc"
  | web _ => "Web"
  | winRM _ => "WinRM"

/-- `Verify`, or a panic. -/
def verify (compiles : Compiles) (args : VerifyArgs) : Runner → Option (Verified Runner)
  | custom c => some ((c.verify args).map custom id)
  | dns c => some ((c.verify args).map dns id)
  | ftp c => some ((c.verify args).map ftp id)
  | imap c => some ((c.verify args).map imap id)
  | ldap c => some ((c.verify args).map ldap id)
  | ping c => some ((c.verify args).map ping id)
  | pop3 c => some ((c.verify args).map pop3 id)
  | rdp c => some ((c.verify args).map rdp id)
  | smb c => some ((c.verify args).map smb id)
  | smtp c => some ((c.verify args).map smtp id)
  | sql c => (c.verify compiles args).map (Prod.map sql id)
  | ssh c => (c.verify compiles args).map (Prod.map ssh id)
  | tcp c => some ((c.verify args).map tcp id)
  | vnc c => some ((c.verify args).map vnc id)
  | web c => some ((c.verify args).map web id)
  | winRM c => (c.verify compiles args).map (Prod.map winRM id)

/-- The same check with another service in it. -/
def withService (service : Service) : Runner → Runner
  | custom c => custom {c with toService := service}
  | dns c => dns {c with toService := service}
  | ftp c => ftp {c with toService := service}
  | imap c => imap {c with toService := service}
  | ldap c => ldap {c with toService := service}
  | ping c => ping {c with toService := service}
  | pop3 c => pop3 {c with toService := service}
  | rdp _ => rdp {toService := service}
  | smb c => smb {c with toService := service}
  | smtp c => smtp {c with toService := service}
  | sql c => sql {c with toService := service}
  | ssh c => ssh {c with toService := service}
  | tcp _ => tcp {toService := service}
  | vnc _ => vnc {toService := service}
  | web c => web {c with toService := service}
  | winRM c => winRM {c with toService := service}

def setCredlists (lists : List GoString) (r : Runner) : Runner :=
  r.withService {r.service with credLists := lists}

@[simp] theorem service_withService (service : Service) (r : Runner) :
    (r.withService service).service = service := by
  cases r <;> rfl

@[simp] theorem withService_service (r : Runner) : r.withService r.service = r := by
  cases r <;> rfl

theorem setCredlists_self (r : Runner) : r.setCredlists r.service.credLists = r :=
  r.withService_service

@[simp] theorem typeName_withService (service : Service) (r : Runner) :
    (r.withService service).typeName = r.typeName := by
  cases r <;> rfl

/-- What every kind of check does with its service: the type and the settings
are filled in, and the rest is as written but for the name, the display name and
the port. -/
theorem verify_service {compiles : Compiles} {args : VerifyArgs} {r r' : Runner}
    {err : Option GoString} (h : r.verify compiles args = some (r', err)) :
    r'.typeName = r.typeName ∧ ∃ (name display : GoString) (port : Int64),
      r'.service = {(r.service.typed r.typeName).configure args with
        name := name, display := display, port := port} := by
  cases r with
  | custom c | ftp c | imap c | ldap c | ping c | pop3 c | rdp c | smb c | smtp c | tcp c | vnc c
  | web c =>
    obtain ⟨rfl, -⟩ := Prod.mk.inj (Option.some.inj h)
    exact ⟨rfl, _, _, _, rfl⟩
  | dns c =>
    have hr : dns (c.verify args).1 = r' := congrArg Prod.fst (Option.some.inj h)
    rw [← hr]
    unfold Dns.verify
    dsimp only
    split
    · exact ⟨rfl, _, _, _, rfl⟩
    · exact ⟨rfl, _, _, _, rfl⟩
  | sql c =>
    obtain ⟨v, hv, heq⟩ := Option.map_eq_some_iff.mp h
    obtain ⟨rfl, -⟩ := Prod.mk.inj heq
    simp only [Sql.verify, Option.ite_none_right_eq_some, Option.some.injEq] at hv
    obtain ⟨-, rfl⟩ := hv
    exact ⟨rfl, _, _, _, rfl⟩
  | ssh c =>
    obtain ⟨v, hv, heq⟩ := Option.map_eq_some_iff.mp h
    obtain ⟨rfl, -⟩ := Prod.mk.inj heq
    simp only [Ssh.verify] at hv
    split at hv
    · obtain rfl := Option.some.inj hv
      exact ⟨rfl, _, _, _, rfl⟩
    · simp only [Option.ite_none_right_eq_some, Option.some.injEq] at hv
      obtain ⟨-, rfl⟩ := hv
      exact ⟨rfl, _, _, _, rfl⟩
  | winRM c =>
    obtain ⟨v, hv, heq⟩ := Option.map_eq_some_iff.mp h
    obtain ⟨rfl, -⟩ := Prod.mk.inj heq
    simp only [WinRM.verify, Option.ite_none_right_eq_some, Option.some.injEq] at hv
    obtain ⟨-, rfl⟩ := hv
    exact ⟨rfl, _, _, _, rfl⟩

end Runner

end QuotientScoring.Checks
