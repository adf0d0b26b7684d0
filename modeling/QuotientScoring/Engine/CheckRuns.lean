import QuotientScoring.Engine.Checks
import QuotientScoring.Engine.CustomCommand
import QuotientScoring.Engine.Task
import QuotientScoring.Lib.Attempts
import QuotientScoring.Lib.TrimSpace
import Mathlib.Data.Rat.Defs

/-! What `Run` does, for each of the sixteen kinds of check.

A run is a row of calls into packages, each of which may end it with an error and
a text for the teams to read. What a package makes of its arguments alone is
`Packages.refuses`: an address nobody can dial, a driver nobody registered. A call
it does not refuse comes back with what the target, the draws and the clock have
to say, and that is a `Behaviour`. -/
namespace QuotientScoring.Checks
open DB GoText GoTime Decimal Replace Attempts

/-! ### Calls and answers -/

/-- What a call returns: a value, or the text of an error. -/
abbrev Answer (α : Type) := Except GoString α

/-- The kinds of DNS record the program asks for. -/
inductive DnsType where
  | a
  | mx
deriving DecidableEq

/-- A call into a package, with what it is given. Durations are in nanoseconds, and 0 is no
timeout. -/
inductive Call where
  /-- A file made in `/tmp`. -/
  | create (name : GoString)
  /-- `/bin/sh -c`, started in a context with a timeout. -/
  | command (line : GoString) (timeout : Int)
  /-- A TCP connection, with TLS over it or not. -/
  | dial (tls : Bool) (address : GoString) (timeout : Int)
  | exchange (question : Option (GoString × DnsType)) (address : GoString) (timeout : Int)
  | dialURL (url : GoString) (timeout : Int)
  | bind (username password : GoString)
  | newPinger (addr : GoString)
  | newConn (host : GoString) (port : Int64) (tls : Bool)
  | smbDial (user password : GoString)
  | mount (address share : GoString)
  | openFile (name : GoString)
  | openDB (kind dsn : GoString)
  | pingDB (kind dsn : GoString)
  | queryDB (kind dsn command : GoString)
  | newRequest (url : GoString)
  | doRequest (url : GoString) (timeout : Int)
  | newClient (host : GoString) (port : Int64) (https : Bool) (timeout : Int)
  | runShell (host : GoString) (port : Int64) (https : Bool) (command : GoString)
deriving DecidableEq

/-- A URL as `url.Parse` has it: its scheme, and the text it is written back as. -/
structure URL where
  scheme : GoString
  text : GoString
deriving DecidableEq

/-- The packages a runner is built with, and the disk it runs on. -/
structure Packages where
  /-- The error a call ends with whatever there is at the other end. -/
  refuses : Call → Option GoString
  /-- The error of a regular expression that does not compile. -/
  regexpError : GoString → GoString
  /-- Whether a regular expression matches somewhere in a text. -/
  isMatch : GoString → GoString → Bool
  sha256 : List UInt8 → List UInt8
  fqdn : GoString → GoString
  parseURL : GoString → Option URL
  readFile : GoString → Answer (List UInt8)
  parsePrivateKey : List UInt8 → Answer Unit
  quoting : Engine.Quoting
  /-- `fmt.Sprintf` of a number with a fraction, and the text of a duration. -/
  sprintf : String → ℚ → GoString
  duration : Int → GoString
  /-- How many packets a pinger gets out in five seconds, the first at once and the others a
  second apart. -/
  pings : Nat

/-- The address of an A record; one that comes without data has none. -/
inductive IP where
  | none
  | v4 (a b c d : UInt8)
deriving DecidableEq

/-- An answer in a DNS message: the text it prints as and, if it is an A record, the address. -/
structure RR where
  text : GoString
  a : Option IP

/-- An HTTP response that is not an intermediate one: `net/http` reads three digits, and no body
after some of them. -/
structure Response where
  statusCode : Int64
  body : Answer GoString
  digits : 0 ≤ statusCode ∧ statusCode ≤ 999
  final : 100 ≤ statusCode → statusCode ≤ 199 → statusCode = 101
  noBody : statusCode = 204 ∨ statusCode = 304 → body = .ok []

/-- What a run gets to see that its check does not decide: what the target answers to each
call, what is drawn, and how long the answers take. Unless something is said of it, it goes
well. -/
structure Behaviour where
  /-- In nanoseconds, all the answers together. -/
  took : Nat := 0
  /-- The draws of credentials, in a receiver's place as well. -/
  credsDraw : Nat := 0
  toDraw : Nat := 0
  /-- The draw of a record, file, query, command or URL. -/
  draw : Nat := 0
  unixNano : Nat := 0
  subject : GoString := []
  body : GoString := []
  /-- The temporary file: its directory, itself, and itself once more. -/
  openRoot : Answer Unit := .ok ()
  create : Answer Unit := .ok ()
  openTmp : Answer Unit := .ok ()
  /-- How the command of a custom check ends. -/
  exit : Answer Unit := .ok ()
  dial : Answer Unit := .ok ()
  /-- What a client says once it has a connection. -/
  client : Answer Unit := .ok ()
  login : Answer Unit := .ok ()
  /-- A list of mailboxes, or their number. -/
  mailboxes : Answer Unit := .ok ()
  mount : Answer Unit := .ok ()
  openFile : Answer Unit := .ok ()
  /-- What `io.ReadAll` reads, of a file or of a command's output. -/
  readAll : Answer GoString := .ok []
  /-- The two tries of a DNS exchange. An error of the first may be that of a deadline. -/
  rtt : GoString := []
  exchange : Except (GoString × Bool) (List RR) := .ok []
  exchangeAgain : Answer (List RR) := .ok []
  ping : Answer Unit := .ok ()
  replies : Nat := 0
  authSupported : Bool := true
  mail : Answer Unit := .ok ()
  rcpt : Answer Unit := .ok ()
  data : Answer Unit := .ok ()
  write : Answer Unit := .ok ()
  query : Answer Unit := .ok ()
  columns : Answer Unit := .ok ()
  /-- The rows, and the error after the last. -/
  rows : List (Answer (List GoString)) := []
  rowsErr : Option GoString := none
  session : Answer Unit := .ok ()
  pty : Answer Unit := .ok ()
  stdinPipe : Answer Unit := .ok ()
  shell : Answer Unit := .ok ()
  stdout : GoString := []
  stderr : GoString := []
  runShell : Answer Unit := .ok ()
  response : Answer Response :=
    .ok ⟨200, .ok [], by decide, by decide, by decide⟩

/-- How a run stops before it passes: with the error and the debug text of its result, or with
a panic, which takes the whole runner down. -/
inductive Stop where
  | failed (error debug : GoString)
  | panicked

/-- A run, or a part of one; of a whole one that passes, the debug text. -/
abbrev Attempted (α : Type) := Except Stop α

def Packages.call {α : Type} (pkg : Packages) (c : Call) (answer : Answer α) : Answer α :=
  match pkg.refuses c with
  | some err => .error err
  | none => answer

/-- `if err != nil`, and the response. -/
def orFail {α : Type} (answer : Answer α) (error : GoString) (debug : GoString → GoString) :
    Attempted α :=
  match answer with
  | .ok a => .ok a
  | .error err => .error (.failed error (debug err))

/-- A test of what came back. -/
def require (passed : Prop) [Decidable passed] (error debug : GoString) : Attempted Unit :=
  if passed then .ok () else .error (.failed error debug)

/-- A list of strings, as `%v` prints it. -/
def sprintList (xs : List GoString) : GoString := str "[" ++ (str " ").intercalate xs ++ str "]"

/-- `hex.EncodeToString`. -/
def hex (bytes : List UInt8) : GoString :=
  bytes.flatMap (fun c => [c / 16, c % 16].map (fun d => if d < 10 then 48 + d else 87 + d))

def stringHash (pkg : Packages) (content : GoString) : GoString := hex (pkg.sha256 content)

/-- `strings.EqualFold` with a hash, whose digits have the two cases of ASCII. -/
def equalFold (hash s : GoString) : Bool :=
  hash == s.map (fun c => if 65 ≤ c ∧ c ≤ 90 then c + 32 else c)

section
variable (compiles : Compiles) (pkg : Packages)

/-- `regexp.MustCompile`. -/
def mustCompile (pattern : GoString) : Attempted Unit :=
  if compiles pattern then .ok () else .error .panicked

/-- `regexp.Compile`, and `Find`. -/
def findRegex (pattern text error notFound notFoundDebug : GoString) : Attempted Unit :=
  if compiles pattern then require (pkg.isMatch pattern text) notFound notFoundDebug
  else .error (.failed error (pkg.regexpError pattern))

end

namespace Service
variable (service : Service)

def getCreds (draw : Nat) : Answer TaskCredential :=
  match pick service.taskCredentials draw with
  | none => .error (str "no credentials available")
  | some cred => .ok cred

/-- `getCreds`, or the error every kind of check makes of it. -/
def someCreds (draw : Nat) : Attempted TaskCredential :=
  orFail (service.getCreds draw) (str "error getting creds") id

/-- Credentials if the check has credlists, else what it does without. -/
def credsOr (anonymous : TaskCredential) (draw : Nat) : Attempted TaskCredential :=
  if service.credLists = [] then .ok anonymous else service.someCreds draw

/-- `c.Target + ":" + strconv.Itoa(c.Port)`. -/
def address : GoString := service.target ++ str ":" ++ itoa service.port.toInt

/-- The run of a check, given its `definition` and the time that takes: the response, if it is
there before the timer. A timer of no time has gone off already. -/
def run (teamID roundID : Nat) (definition : Attempted GoString) (took : Int) :
    Option Engine.Result :=
  let checkResult : Engine.Result :=
    { serviceName := service.name
      teamID := teamID
      status := false
      debug := []
      error := []
      points := service.points.toInt
      serviceType := service.serviceType
      roundID := roundID }
  if took < seconds service.timeout then
    match definition with
    | .ok debug => some {checkResult with status := true, debug := debug}
    | .error (.failed error debug) => some {checkResult with error := error, debug := debug}
    | .error .panicked => none
  else some {checkResult with error := str "check timeout exceeded"}

end Service

/-! ### The kinds of check -/

section
variable (compiles : Compiles) (pkg : Packages) (teamID roundID : Nat) (teamIdentifier : GoString)
variable (b : Behaviour)

/-- The name of the temporary file. -/
def tmpfileName (name : GoString) (unixNano : Nat) : GoString :=
  str "custom-check-" ++ decimal roundID ++ str "-" ++ decimal teamID ++ str "-" ++ name ++
    str "-" ++ decimal unixNano

/-- The end of the command. -/
def exited (exit : Answer Unit) (formedCommand out : GoString) : Attempted Unit :=
  match exit with
  | .ok () => .ok ()
  | .error err => .error (.failed (str "command returned error:\n" ++ err)
      (formedCommand ++ str "\noutput:\n" ++ out))

def Custom.test (c : Custom) (formedCommand out : GoString) : Attempted GoString :=
  if c.regex = [] then .ok (formedCommand ++ str " " ++ out)
  else do
    findRegex compiles pkg c.regex out (str "error compiling regex") (str "output incorrect")
      (formedCommand ++ str " couldn't find regex \"" ++ c.regex ++ str "\" in " ++ out)
    .ok (formedCommand ++ str " found regex \"" ++ c.regex ++ str "\" in " ++ out)

/-- How the command ended is looked at only after its output was read back. -/
def Custom.definition (c : Custom) : Attempted GoString := do
  let cred ← c.credsOr ⟨[], []⟩ b.credsDraw
  let formedCommand :=
    Engine.formedCommand pkg.quoting roundID c.target teamIdentifier cred.username cred.password
      c.command
  orFail b.openRoot (str "error opening tmp directory") id
  orFail (pkg.call (.create (tmpfileName teamID roundID c.name b.unixNano)) b.create)
    (str "error creating tmpfile") id
  orFail b.openTmp [] (fun err =>
    formedCommand ++ str "\nerror opening tmpfile for reading:\n" ++ err)
  let out ← orFail b.readAll [] (fun err =>
    formedCommand ++ str "\nerror reading tmpfile:\n" ++ err)
  exited (pkg.call (.command formedCommand (seconds c.timeout)) b.exit) formedCommand out
  c.test compiles pkg formedCommand out

/-- `net.IP.String`. -/
def IP.string : IP → GoString
  | .none => str "<nil>"
  | .v4 a b c d => (str ".").intercalate ([a, b, c, d].map (fun byte => decimal byte.toNat))

def DnsRecord.expected (record : DnsRecord) : List GoString :=
  record.answer.map (replaceAll (str "_") teamIdentifier)

/-- What is asked for a record: nothing, unless the program knows its kind. -/
def DnsRecord.question (record : DnsRecord) : Option (GoString × DnsType) :=
  let fqdn := pkg.fqdn (replaceAll (str "_") teamIdentifier (pkg.fqdn record.domain))
  if record.kind = str "A" then some (fqdn, .a)
  else if record.kind = str "MX" then some (fqdn, .mx)
  else none

/-- A deadline that is over is given a second try. -/
def exchange (question : Option (GoString × DnsType)) (address : GoString) (timeout : Int) :
    Answer (List RR) :=
  match pkg.refuses (.exchange question address timeout) with
  | some err => .error err
  | none =>
    match b.exchange with
    | .ok rrs => .ok rrs
    | .error (_, true) => b.exchangeAgain
    | .error (err, false) => .error err

/-- The first answer that is an A record with one of the addresses expected. -/
def DnsRecord.found (record : DnsRecord) (answers : List RR) : Option GoString :=
  answers.findSome? (fun answer => answer.a.bind (fun ip =>
    (record.expected teamIdentifier).find? (fun expected => ip.string = expected)))

def Dns.definition (c : Dns) : Attempted GoString :=
  match pick c.record b.draw with
  | none => .error .panicked
  | some record => do
    let answers ← orFail
      (exchange pkg b (record.question pkg teamIdentifier) c.address (seconds (c.timeout - 1)))
      (str "error sending query") (fun err =>
        str "record " ++ record.domain ++ str ":" ++ sprintList record.answer ++ str "(took " ++
          b.rtt ++ str ")" ++ str ": " ++ err)
    require (answers ≠ []) (str "no records received")
      (str "record " ++ record.domain ++ str "-> " ++ sprintList record.answer)
    match record.found teamIdentifier answers with
    | some expected => .ok (str "record " ++ record.domain ++ str " returned " ++ expected ++
        str ". acceptable answers were: " ++ sprintList record.answer)
    | none => .error (.failed (str "incorrect answer(s) received from DNS")
        (str "record " ++ record.domain ++ str "-> acceptable answers were: " ++
          sprintList record.answer ++ str ", received " ++ sprintList (answers.map RR.text)))

/-- The debug text of a pass that only names the credentials. -/
def credsUsed (cred : TaskCredential) : GoString :=
  str "creds used were " ++ cred.username ++ str ":" ++ cred.password

/-- The content of a file: a regular expression goes before a hash. -/
def testContent (compileError name regex hash content : GoString) (sameHash : Prop)
    [Decidable sameHash] (hashDebug : GoString) : Attempted Unit :=
  if regex ≠ [] then
    findRegex compiles pkg regex content compileError (str "couldn't find regex in file")
      (str "couldn't find regex \"" ++ regex ++ str "\" for " ++ name)
  else if hash ≠ [] then require sameHash (str "file hash did not match") hashDebug
  else .ok ()

def FtpFile.test (file : FtpFile) (content : GoString) : Attempted Unit :=
  testContent compiles pkg (str "error compiling regex to match for ftp file") file.name file.regex
    file.hash content (equalFold (stringHash pkg content) file.hash)
    (str "file hash " ++ stringHash pkg content ++ str " did not match specified hash " ++ file.hash)

def Ftp.definition (c : Ftp) : Attempted GoString := do
  orFail (pkg.call (.dial false c.address (seconds c.timeout)) b.dial) (str "ftp connection failed") id
  let cred ← c.credsOr ⟨str "anonymous", str "anonymous"⟩ b.credsDraw
  orFail b.login (str "ftp login failed") (fun err => credsUsed cred ++ str " with error " ++ err)
  match pick c.file b.draw with
  | none => .ok (credsUsed cred)
  | some file => do
    orFail b.openFile (str "failed to retrieve file " ++ file.name) (fun _ => credsUsed cred)
    let content ← orFail b.readAll (str "failed to read ftp file")
      (fun _ => str "tried to read " ++ file.name)
    file.test compiles pkg content
    .ok (credsUsed cred)

/-- The debug text of a mail check without credentials. -/
def anonymousMail : GoString := str "smtp server responded to request (anonymous)"

def mailboxListed (username password : GoString) : GoString :=
  str "mailbox listed successfully with creds " ++ username ++ str ":" ++ password

def loginFailed (username password : GoString) (err : GoString) : GoString :=
  str "creds " ++ username ++ str ":" ++ password ++ str ", error: " ++ err

/-- The mailboxes of the mail account a check has credentials for. -/
def mailAccount (service : Service) (domain : GoString) : Attempted GoString := do
  let cred ← service.someCreds b.credsDraw
  let username := cred.username ++ domain
  orFail b.login (str "login failed") (loginFailed username cred.password)
  orFail b.mailboxes (str "listing mailboxes failed") id
  .ok (mailboxListed username cred.password)

def Imap.definition (c : Imap) : Attempted GoString := do
  orFail (pkg.call (.dial c.encrypted c.address (seconds c.timeout)) b.dial)
    (str "connection to server failed") id
  if c.credLists = [] then .ok anonymousMail else mailAccount b c.toService c.domain

def Ldap.url (c : Ldap) : GoString :=
  (if c.encrypted then str "ldaps" else str "ldap") ++ str "://" ++ c.address

def Ldap.authString (c : Ldap) (username : GoString) : GoString :=
  username ++ str "@" ++ c.domain

def bindFailed (cred : TaskCredential) (err : GoString) : GoString :=
  str "login " ++ cred.username ++ str " password " ++ cred.password ++
    str " failed with error: " ++ err

/-- The domain is one name and one top level only. -/
def Ldap.definition (c : Ldap) : Attempted GoString := do
  let cred ← c.someCreds b.credsDraw
  orFail (pkg.call (.dialURL c.url (seconds c.timeout)) b.dial) (str "failed to connect")
    (bindFailed cred)
  require ((split (str ".") c.domain).length = 2)
    (str "Configured domain is not valid (needs to be domain and tld)") []
  orFail (pkg.call (.bind (c.authString cred.username) cred.password) b.login)
    (str "login failed for " ++ cred.username)
    (fun err => str "auth string " ++ c.authString cred.username ++ str ", " ++ bindFailed cred err)
  .ok (str "login successful for username " ++ cred.username ++ str " password " ++ cred.password)

/-- The packets of a ping: a count of none or less has them sent until the time is over. -/
def Ping.packetsSent (c : Ping) : Nat :=
  if 0 < c.count then min c.count.toInt.toNat pkg.pings else pkg.pings

def Ping.packetsRecv (c : Ping) : Nat := min b.replies (c.packetsSent pkg)

/-- In percent. -/
def Ping.packetLoss (c : Ping) : ℚ :=
  (c.packetsSent pkg - c.packetsRecv pkg b : ℚ) / c.packetsSent pkg * 100

/-- The pinger waits for its last answer, or the whole five seconds. -/
def Ping.waits (c : Ping) : Int :=
  if 0 < c.count ∧ c.packetsRecv pkg b = c.count.toInt then
    min (c.count.toInt - 1) 5 * 1000000000
  else 5000000000

/-- Packet loss is looked at instead of the count where it is allowed. -/
def Ping.test (c : Ping) : Attempted Unit :=
  if c.allowPacketLoss then
    require (¬c.packetLoss pkg b ≥ c.percent.toInt) (str "not enough pings succeeded")
      (str "ping failed: packet loss of " ++ pkg.sprintf "%.0f" (c.packetLoss pkg b) ++
        str "% higher than limit of " ++ itoa c.percent.toInt ++ str "%")
  else
    require (c.packetsRecv pkg b = c.count.toInt) (str "not all pings succeeded")
      (str "packet loss of " ++ pkg.sprintf "%f" (c.packetLoss pkg b))

def Ping.definition (c : Ping) : Attempted GoString := do
  orFail (pkg.call (.newPinger c.target) b.client) (str "ping creation failed") id
  orFail b.ping (str "ping failed") id
  c.test pkg b
  .ok []

def Pop3.definition (c : Pop3) : Attempted GoString := do
  orFail (pkg.call (.newConn c.target c.port c.encrypted) b.dial) (str "connection to server failed") id
  if c.credLists = [] then .ok anonymousMail else mailAccount b c.toService c.domain

def Rdp.definition (c : Rdp) : Attempted GoString := do
  orFail (pkg.call (.dial false c.address (seconds c.timeout)) b.dial) (str "connection error") id
  .ok []

/-- The hash is compared as it is written. -/
def SmbFile.test (file : SmbFile) (content : GoString) : Attempted Unit :=
  testContent compiles pkg (str "error compiling regex to match for smb file") file.name file.regex
    file.hash content (stringHash pkg content = file.hash)
    (str "file " ++ file.name ++ str " hash " ++ stringHash pkg content ++
      str " did not match specified hash " ++ file.hash)

/-- The debug text of a file that passed. -/
def SmbFile.passed (file : SmbFile) (creds : GoString) : GoString :=
  str "smb file " ++ file.name ++
    (if file.regex ≠ [] then str " matched regex" else
      if file.hash ≠ [] then str " matched hash file" else str " retrieval successful") ++
    str ", creds " ++ creds

def Smb.definition (c : Smb) : Attempted GoString := do
  let cred ← c.credsOr ⟨str "guest", []⟩ b.credsDraw
  let creds := cred.username ++ str ":" ++ cred.password
  orFail (pkg.call (.dial false c.address 0) b.dial) (str "smb connection failed") id
  orFail (pkg.call (.smbDial cred.username cred.password) b.login) (str "smb login failed") (fun err =>
    if c.credLists = [] then err else str "error: " ++ err ++ str ", creds " ++ creds)
  match pick c.file b.draw with
  | none => .ok (str "smb login succeeded, creds " ++ creds)
  | some file => do
    orFail (pkg.call (.mount c.address c.share) b.mount) (str "failed to mount share")
      (fun _ => str "share " ++ c.share ++ str ", creds " ++ creds)
    let fileFailed : GoString → GoString := fun err =>
      str "creds " ++ creds ++ str ", file was " ++ file.name ++ str " (" ++ err ++ str ")"
    orFail (pkg.call (.openFile file.name) b.openFile) (str "failed to open file") fileFailed
    let content ← orFail b.readAll (str "failed to read file") fileFailed
    file.test compiles pkg content
    .ok (file.passed creds)

/-- `net/smtp` puts no line break into a command. -/
def validateLine {α : Type} (line : GoString) (answer : Answer α) : Answer α :=
  if line.any (fun c => c == 10 || c == 13) then
    .error (str "smtp: A line must not contain CR or LF")
  else answer

/-- A login, if the check has credlists and the server takes one or has to. -/
def Smtp.logIn (c : Smtp) (username password : GoString) : Attempted Unit :=
  if c.credLists ≠ [] ∧ (c.requireAuth || b.authSupported) then
    orFail b.login (str "login failed for " ++ username ++ str ":" ++ password) id
  else .ok ()

/-- The credentials are fetched first, with or without credlists. -/
def Smtp.definition (c : Smtp) : Attempted GoString := do
  let cred ← c.someCreds b.credsDraw
  let toCred ← c.someCreds b.toDraw
  let username := cred.username ++ c.domain
  let toUser := toCred.username ++ c.domain
  orFail (pkg.call (.dial c.encrypted c.address (seconds c.timeout)) b.dial)
    (str "connection to server failed") id
  orFail b.client (str "smtp client creation failed") id
  c.logIn b username cred.password
  orFail (validateLine username b.mail) (str "setting sender failed") id
  orFail (validateLine toUser b.rcpt) (str "setting receiver failed") id
  orFail b.data (str "creating email writer failed") id
  let message := str "Subject: " ++ b.subject ++ str "\n\n" ++ b.body ++ str "\n\n"
  orFail b.write (str "writing message failed") id
  .ok (str "successfully wrote '" ++ message ++ str "' to " ++ toUser ++ str " from " ++ username)

def Sql.dsn (c : Sql) (cred : TaskCredential) (q : QueryData) : GoString :=
  cred.username ++ str ":" ++ cred.password ++ str "@tcp(" ++ c.address ++ str ")/" ++ q.database

/-- The rows, one by one: a row without columns is indexed all the same. -/
def QueryData.scanRows (q : QueryData) (creds : GoString) : List (Answer (List GoString)) →
    Attempted GoString
  | [] => do
    orFail (match b.rowsErr with | some err => .error err | none => .ok ())
      (str "sql rows experienced an error") id
    .error (.failed [] (str "no matching output found for query. creds used were " ++ creds))
  | row :: rest => do
    let values ← orFail row (str "could not get row values") id
    match values with
    | [] => .error .panicked
    | first :: _ =>
      if q.useRegex then
        if pkg.isMatch q.output first then
          .ok (str "found regex match: " ++ first ++ str ". creds used were " ++ creds)
        else QueryData.scanRows q creds rest
      else
        if trimSpace first = q.output then
          .ok (str "found exact string match: " ++ first ++ str ". creds used were " ++ creds)
        else QueryData.scanRows q creds rest

/-- The output is compiled as a regular expression whether it is used as one or not. -/
def Sql.definition (c : Sql) : Attempted GoString := do
  let cred ← c.someCreds b.credsDraw
  let q := (pick c.query b.draw).getD ⟨false, [], [], []⟩
  let dsn := c.dsn cred q
  let creds := cred.username ++ str ":" ++ cred.password
  orFail (pkg.call (.openDB c.kind dsn) (.ok ())) (str "creating db handle failed")
    (fun err => str "error: " ++ err ++ str ", creds " ++ creds)
  orFail (pkg.call (.pingDB c.kind dsn) b.login) (str "db connection or login failed") id
  if q.command = [] then
    .ok (str "no query command specified, only checking connection. creds used were " ++ creds)
  else do
    orFail (pkg.call (.queryDB c.kind dsn q.command) b.query)
      (str "could not query db with command " ++ q.command) id
    if q.output = [] then
      .ok (str "ran query sucessfully and no output to check against. creds used were " ++ creds)
    else do
      mustCompile compiles q.output
      orFail b.columns (str "could not get sql columns") id
      q.scanRows pkg b creds b.rows

/-- The private key, if the check has one. -/
def Ssh.signer (c : Ssh) : Attempted Unit :=
  if c.privKey = [] then .ok ()
  else do
    let key ← orFail (pkg.readFile (str "./config/scoredfiles/" ++ c.privKey))
      (str "error opening pubkey") id
    orFail (pkg.parsePrivateKey key) (str "error parsing private key") id

/-- Up to the shell. The attempts to log in with a bad password come before the real one, and
nothing is made of how they end. -/
def Ssh.connect (c : Ssh) : Attempted TaskCredential := do
  let cred ← c.someCreds b.credsDraw
  c.signer pkg
  orFail (pkg.call (.dial false c.address (seconds c.timeout)) b.dial)
    (if c.privKey ≠ [] then str "error logging in to ssh server with private key " ++ c.privKey
      else str "error logging in to ssh server for creds " ++ cred.username ++ str ":" ++
        cred.password)
    (fun err => str "error: " ++ err)
  orFail b.session (str "unable to create ssh session") id
  orFail b.pty (str "couldn't allocate pts") id
  orFail b.stdinPipe (str "couldn't get stdin pipe") id
  orFail b.shell (str "failed to start shell") (fun err => str "error: " ++ err)
  .ok cred

/-- Only a command without an output to look for has its error stream looked at. -/
def CommandData.test (r : CommandData) : Attempted Unit :=
  if r.contains then
    require (r.output <:+: b.stdout) (str "command output didn't contain string")
      (str "command output of '" ++ r.command ++ str "' didn't contain string '" ++ r.output ++
        str "': " ++ b.stdout ++ str ",  " ++ b.stderr)
  else if r.useRegex then do
    mustCompile compiles r.output
    require (pkg.isMatch r.output b.stdout) (str "command output didn't match regex")
      (str "command output'" ++ r.command ++ str "' didn't match regex '" ++ r.output)
  else
    require (b.stderr = []) (str "command returned an error")
      (str "command stderr was not empty: " ++ b.stderr)

def Ssh.definition (c : Ssh) : Attempted GoString := do
  let cred ← c.connect pkg b
  match pick c.command b.draw with
  | none => .ok (credsUsed cred)
  | some r => do
    r.test compiles pkg b
    .ok (credsUsed cred)

/-- A command is given an eighth of the timeout to answer. -/
def Ssh.waits (c : Ssh) : Int :=
  match c.connect pkg b with
  | .error _ => 0
  | .ok _ => if c.command = [] then 0 else max (seconds c.timeout) 0 / 8

def Tcp.definition (c : Tcp) : Attempted GoString := do
  orFail (pkg.call (.dial false c.address (seconds c.timeout)) b.dial) (str "connection error") id
  .ok (str "responded to request")

def Vnc.definition (c : Vnc) : Attempted GoString := do
  let cred ← c.someCreds b.credsDraw
  let creds := cred.username ++ str ":" ++ cred.password
  orFail (pkg.call (.dial false c.address 0) b.dial) (str "connection to vnc server failed")
    (fun err => err ++ str " for creds " ++ creds)
  orFail b.client (str "failed to log in to VNC server")
    (fun err => err ++ str " for creds " ++ creds)
  .ok (str "creds " ++ creds)

def Web.requestURL (c : Web) (u : UrlData) : GoString :=
  c.scheme ++ str "://" ++ c.address ++ u.path

/-- Only these two schemes are let through. -/
def Web.parsedURL (c : Web) (u : UrlData) : Answer URL :=
  match pkg.parseURL (c.requestURL u) with
  | none => .error []
  | some url => if url.scheme = str "http" ∨ url.scheme = str "https" then .ok url else .error []

/-- The debug text of a request without a response. -/
def requestFailed (requestURL timeout path err : GoString) : GoString :=
  if str "Client.Timeout exceeded" <:+: err then
    str "HTTP request to " ++ requestURL ++ str " timed out after " ++ timeout ++
      str " (TCP connection may have succeeded but server did not respond)"
  else err ++ str " for url " ++ path

/-- The page, of a response with the right status. -/
def UrlData.test (u : UrlData) (requestURL page : GoString) : Attempted GoString :=
  if u.regex = [] then .ok (str "Attempting GET " ++ requestURL)
  else do
    findRegex compiles pkg u.regex page (str "error compiling regex to match for web page")
      (str "didn't find regex on page")
      (str "couldn't find regex \"" ++ u.regex ++ str "\" for " ++ u.path)
    .ok (str "matched regex \"" ++ u.regex ++ str "\" for " ++ u.path)

def Web.definition (c : Web) : Attempted GoString :=
  match pick c.url b.draw with
  | none => .error .panicked
  | some u => do
    let requestURL := c.requestURL u
    let url ← orFail (c.parsedURL pkg u) (str "invalid request URL")
      (fun _ => str "URL failed validation: " ++ requestURL)
    orFail (pkg.call (.newRequest url.text) (.ok ())) (str "error creating web request") id
    let resp ← orFail (pkg.call (.doRequest url.text (seconds c.timeout)) b.response)
      (str "web request errored out")
      (requestFailed requestURL (pkg.duration (seconds c.timeout)) u.path)
    require (u.status = 0 ∨ resp.statusCode = u.status)
      (str "status returned by webserver was incorrect")
      (str "status was " ++ itoa resp.statusCode.toInt ++ str " wanted " ++ itoa u.status.toInt ++
        str " for url " ++ u.path)
    let page ← orFail resp.body (str "error reading page content")
      (fun err => str "error was '" ++ err ++ str "' for url " ++ u.path)
    u.test compiles pkg requestURL page

/-- An empty output is not looked for. -/
def WinCommandData.test (r : WinCommandData) : Attempted Unit :=
  if r.output = [] then .ok ()
  else if r.useRegex then do
    mustCompile compiles r.output
    require (pkg.isMatch r.output b.stdout) (str "command output didn't match regex")
      (str "command output'" ++ r.command ++ str "' didn't match regex '" ++ r.output)
  else
    require (trimSpace b.stdout = r.output) (str "command output didn't match string")
      (str "command output of '" ++ r.command ++ str "' didn't match string '" ++ r.output)

/-- The bad attempts make clients that connect to nothing. -/
def WinRM.definition (c : WinRM) : Attempted GoString := do
  let cred ← c.someCreds b.credsDraw
  let creds := cred.username ++ str ":" ++ cred.password
  orFail (pkg.call (.newClient c.target c.port c.encrypted (seconds c.timeout)) b.client)
    (str "error creating winrm client") id
  match pick c.command b.draw with
  | none => do
    orFail (pkg.call (.runShell c.target c.port c.encrypted (str "hostname")) b.runShell)
      (str "connection test failed with creds " ++ creds) id
    .ok (credsUsed cred)
  | some r => do
    orFail (pkg.call (.runShell c.target c.port c.encrypted r.command) b.runShell)
      (str "failed with creds " ++ creds) id
    require (b.stderr = []) (str "command produced an error message") (str "error: " ++ b.stderr)
    r.test compiles pkg b
    .ok (credsUsed cred)

/-! ### Any check -/

namespace Runner

def definition : Runner → Attempted GoString
  | custom c => c.definition compiles pkg teamID roundID teamIdentifier b
  | dns c => c.definition pkg teamIdentifier b
  | ftp c => c.definition compiles pkg b
  | imap c => c.definition pkg b
  | ldap c => c.definition pkg b
  | ping c => c.definition pkg b
  | pop3 c => c.definition pkg b
  | rdp c => c.definition pkg b
  | smb c => c.definition compiles pkg b
  | smtp c => c.definition pkg b
  | sql c => c.definition compiles pkg b
  | ssh c => c.definition compiles pkg b
  | tcp c => c.definition pkg b
  | vnc c => c.definition pkg b
  | web c => c.definition compiles pkg b
  | winRM c => c.definition compiles pkg b

/-- What a definition waits of its own accord, in nanoseconds. -/
def waits : Runner → Int
  | ping c => c.waits pkg b
  | ssh c => c.waits pkg b
  | _ => 0

/-- The check with the team's identifier in its target, which `Service.Run` puts there before
the definition is run. -/
def atTarget (r : Runner) : Runner :=
  r.withService
    {r.service with target := replaceAll (str "_") teamIdentifier r.service.target}

/-- `Run`: the result it sends, or none where it panics. -/
def run (r : Runner) : Option Engine.Result :=
  let r := r.atTarget teamIdentifier
  r.service.run teamID roundID (r.definition compiles pkg teamID roundID teamIdentifier b)
    (r.waits pkg b + b.took)

/-- `SetTaskCredentials`, of a task that has credentials. -/
def setTaskCredentials (creds : List TaskCredential) (r : Runner) : Runner :=
  if creds = [] then r else r.withService {r.service with taskCredentials := creds}

end Runner

end

end QuotientScoring.Checks
