import QuotientScoring.Lib.GoMap
import QuotientScoring.Lib.Mux
import QuotientScoring.WWW.Authentication

/-! The routes of the server, and what stands in front of them.

A middleware takes a handler to a handler, and a chain puts each one in front of those
before it, so that the last of a chain is the first to see the request: nobody is logged who
was not let in. The patterns are those of the source. They do not conflict, whatever the
order they are added in (`routes_orderly`); a handler is called only for a session that its
chain admits, and never without one it takes for granted (`access_control`). -/
namespace QuotientScoring.WWW
open DB GoText Config Mux

/-! ### Handlers -/

/-- The handlers of the table. -/
inductive Endpoint where
  | staticAssets
  | login | oidcLoginHandler | oidcCallbackHandler
  | getServiceStatus | getScoreStatus | getUptimeStatus
  | loginPage | homePage | graphPage
  | logout | getAnnouncements | downloadAnnouncementFile | logoutPage | announcementsPage
  | getTeams | getMetadata | getTeamSummary | getServiceAll | getInjects | createSubmission
  | downloadSubmissionFile | downloadInjectFile | servicesPage | resetPcr | getCredlists | createPcr
  | injectsPage | pcrPage
  | getRed | createBox | createVector | createAttack | editBox | editVector | editAttack | redPage
  | createAnnouncement | updateAnnouncement | deleteAnnouncement
  | createInject | updateInject | deleteInject | downloadAllSubmissions
  | pauseEngine | resetScores | getEngine | getActiveTasks | setCompetitionStarted | updateTeams
  | getTeamChecks | updateTeamChecks | exportScores | exportConfig | getPcrs | getPcrHistory
  | adminPage | administrateEnginePage | administrateRunnersPage | administrateTeamsPage
  | administrateAppearancePage
deriving DecidableEq

/-- A request, with the cookie as it is decoded. -/
structure WebRequest where
  method : GoString
  path : GoString
  token : Option Cookie
deriving DecidableEq

/-- What a handler knows of the request. -/
structure Context where
  request : WebRequest
  values : List GoString
  session : Option Session
deriving DecidableEq

/-- A handler that is called, with the session and the path values it finds. -/
structure Call where
  endpoint : Endpoint
  session : Option Session
  values : List GoString
deriving DecidableEq

/-- The cookie is sent again for another day, or taken away. -/
inductive CookieWrite where
  | refresh
  | drop
deriving DecidableEq

/-- What is written so far, and what is logged of the request. -/
structure Reply where
  headers : GoMap GoString GoString := ∅
  cookies : List CookieWrite := []
  status : Option Nat := none
  location : GoString := []
  handled : Option Call := none
  log : List GoString := []

abbrev HandlerFunc := Context → Reply → Reply

abbrev Middleware := HandlerFunc → HandlerFunc

def Endpoint.handler (endpoint : Endpoint) : HandlerFunc := fun ctx reply =>
  {reply with handled := some ⟨endpoint, ctx.session, ctx.values⟩}

def Reply.setHeader (reply : Reply) (key value : String) : Reply :=
  {reply with headers := reply.headers.insert (str key) (str value)}

/-! ### Middlewares -/

/-- The middlewares in their order, each in front of the ones before. -/
def middlewareChain (middlewares : List Middleware) : Middleware := fun handler =>
  middlewares.foldl (fun handler mw => mw handler) handler

/-- The name of the session goes to the log when the request has been handled. -/
def logging : Middleware := fun next ctx reply =>
  let reply := next ctx reply
  let username := match ctx.session with
    | some session => session.username
    | none => str "anonymous"
  {reply with log := reply.log ++ [username]}

def cors : Middleware := fun next ctx reply =>
  let reply := ((reply.setHeader "Access-Control-Allow-Origin" "*").setHeader
    "Access-Control-Allow-Methods" "GET, POST, PUT, DELETE").setHeader
    "Access-Control-Allow-Headers" "Content-Type, Authorization"
  if ctx.request.method = str "OPTIONS" then {reply with status := some 200} else next ctx reply

variable (conf : ConfigSettings) (server : LdapServer)
  (oidcRoles : GoString → Option (List Role))

/-- What `Authenticate` does to the cookie. -/
def cookieWrites (token : Option Cookie) : List CookieWrite :=
  match token with
  | none => []
  | some cookie =>
    match findRolesByUsername conf server oidcRoles cookie.username
        (cookie.authSource.getD (str "local")) with
    | .ok _ => [.refresh]
    | .error _ => [.drop]

def writeJSON (status : Nat) (reply : Reply) : Reply :=
  {reply.setHeader "Content-Type" "application/json" with status := some status}

def redirect (status : Nat) (location : String) (reply : Reply) : Reply :=
  {reply with status := some status, location := str location}

/-- The middleware `Authentication(roles...)`, with the answer to a request it refuses. -/
def authenticationOf (roles : List Role) : Middleware := fun next ctx reply =>
  let reply := {reply with
    cookies := reply.cookies ++ cookieWrites conf server oidcRoles ctx.request.token}
  match authentication roles (authenticate conf server oidcRoles ctx.request.token) with
  | .ok session => next {ctx with session := session} reply
  | .error .unauthorized =>
    if str "/api/" <+: ctx.request.path then writeJSON 401 reply else redirect 307 "/login" reply
  | .error .forbidden => writeJSON 403 reply

def contentSecurityPolicy : String :=
  "default-src 'self'; " ++
  "script-src 'self' 'unsafe-inline' https://code.jquery.com https://cdn.datatables.net https://cdn.jsdelivr.net; " ++
  "style-src 'self' 'unsafe-inline' https://fonts.googleapis.com https://cdn.datatables.net; " ++
  "img-src 'self' data:; " ++ "font-src 'self' https://fonts.gstatic.com; " ++
  "connect-src 'self'; " ++ "frame-ancestors 'none'"

/-- The headers that are set whether the server speaks TLS or not. -/
def securityHeaderList : List (String × String) :=
  [ ("X-Frame-Options", "DENY"), ("X-Content-Type-Options", "nosniff"),
    ("X-XSS-Protection", "1; mode=block"), ("Content-Security-Policy", contentSecurityPolicy),
    ("Referrer-Policy", "strict-origin-when-cross-origin"),
    ("Permissions-Policy", "geolocation=(), microphone=(), camera=()") ]

def Reply.secured (reply : Reply) : Reply :=
  let reply := if conf.sslSettings ≠ {} then
      reply.setHeader "Strict-Transport-Security" "max-age=31536000; includeSubDomains"
    else reply
  securityHeaderList.foldl (fun reply header => reply.setHeader header.1 header.2) reply

def securityHeaders : Middleware := fun next ctx reply => next ctx (reply.secured conf)

/-! ### The table -/

/-- What stands in front of a handler. -/
inductive Guard where
  | unguarded
  | unauth
  | allauth
  | teamauth
  | redauth
  | injectauth
  | adminauth
deriving DecidableEq

/-- The roles that are let through; without a list, nobody is asked. -/
def Guard.roles : Guard → Option (List Role)
  | .unguarded => none
  | .unauth => some [.anonymous, .team, .admin, .red, .inject]
  | .allauth => some [.team, .admin, .red, .inject]
  | .teamauth => some [.team, .admin, .inject]
  | .redauth => some [.red, .admin]
  | .injectauth => some [.admin, .inject]
  | .adminauth => some [.admin]

def Guard.middleware (guard : Guard) : Middleware :=
  let auth := authenticationOf conf server oidcRoles (guard.roles.getD [])
  match guard with
  | .unguarded => middlewareChain []
  | .unauth => middlewareChain [logging, cors, auth]
  | .redauth => middlewareChain [auth]
  | .allauth | .teamauth | .injectauth | .adminauth => middlewareChain [logging, auth]

def routeTable : List (String × Guard × Endpoint) :=
  [ ("/static/assets/", .unguarded, .staticAssets),
    ("POST /api/login", .unguarded, .login),
    ("GET /auth/oidc/login", .unguarded, .oidcLoginHandler),
    ("GET /auth/oidc/callback", .unguarded, .oidcCallbackHandler),
    ("GET /api/graphs/services", .unauth, .getServiceStatus),
    ("GET /api/graphs/scores", .unauth, .getScoreStatus),
    ("GET /api/graphs/uptimes", .unauth, .getUptimeStatus),
    ("GET /login", .unguarded, .loginPage),
    ("GET /\x7b$\x7d", .unguarded, .homePage),
    ("GET /graphs", .unauth, .graphPage),
    ("GET /api/logout", .allauth, .logout),
    ("GET /api/announcements", .allauth, .getAnnouncements),
    ("GET /announcements/{id}/{file}", .allauth, .downloadAnnouncementFile),
    ("GET /logout", .allauth, .logoutPage),
    ("GET /announcements", .allauth, .announcementsPage),
    ("GET /api/teams", .teamauth, .getTeams),
    ("GET /api/metadata", .teamauth, .getMetadata),
    ("GET /api/services/{team_id}", .teamauth, .getTeamSummary),
    ("GET /api/services/{team_id}/{service_name}", .teamauth, .getServiceAll),
    ("GET /api/injects", .teamauth, .getInjects),
    ("POST /api/injects/{id}/submit", .teamauth, .createSubmission),
    ("GET /injects/{id}/submissions/{team}/{version}", .teamauth, .downloadSubmissionFile),
    ("GET /injects/{id}/{file}", .teamauth, .downloadInjectFile),
    ("GET /services", .teamauth, .servicesPage),
    ("POST /api/pcrs/reset", .teamauth, .resetPcr),
    ("GET /api/credlists", .teamauth, .getCredlists),
    ("POST /api/pcrs/submit", .teamauth, .createPcr),
    ("GET /injects", .teamauth, .injectsPage),
    ("GET /pcr", .teamauth, .pcrPage),
    ("GET /api/red", .redauth, .getRed),
    ("POST /api/red/box", .redauth, .createBox),
    ("POST /api/red/vector", .redauth, .createVector),
    ("POST /api/red/attack", .redauth, .createAttack),
    ("POST /api/red/box/{id}", .redauth, .editBox),
    ("POST /api/red/vector/{id}", .redauth, .editVector),
    ("POST /api/red/attack/{id}", .redauth, .editAttack),
    ("GET /red", .redauth, .redPage),
    ("POST /api/announcements/create", .injectauth, .createAnnouncement),
    ("POST /api/announcements/{id}", .injectauth, .updateAnnouncement),
    ("DELETE /api/announcements/{id}", .injectauth, .deleteAnnouncement),
    ("POST /api/injects/create", .injectauth, .createInject),
    ("POST /api/injects/{id}", .injectauth, .updateInject),
    ("DELETE /api/injects/{id}", .injectauth, .deleteInject),
    ("GET /api/injects/{id}/submissions/download", .injectauth, .downloadAllSubmissions),
    ("POST /api/engine/pause", .adminauth, .pauseEngine),
    ("GET /api/engine/reset", .adminauth, .resetScores),
    ("GET /api/engine", .adminauth, .getEngine),
    ("GET /api/engine/tasks", .adminauth, .getActiveTasks),
    ("POST /api/competition/start", .adminauth, .setCompetitionStarted),
    ("POST /api/admin/teams", .adminauth, .updateTeams),
    ("GET /api/admin/teamchecks", .adminauth, .getTeamChecks),
    ("POST /api/admin/teamchecks", .adminauth, .updateTeamChecks),
    ("GET /api/engine/export/scores", .adminauth, .exportScores),
    ("GET /api/engine/export/config", .adminauth, .exportConfig),
    ("GET /api/pcrs", .adminauth, .getPcrs),
    ("GET /api/pcrs/history", .adminauth, .getPcrHistory),
    ("GET /admin", .adminauth, .adminPage),
    ("GET /admin/engine", .adminauth, .administrateEnginePage),
    ("GET /admin/runners", .adminauth, .administrateRunnersPage),
    ("GET /admin/teams", .adminauth, .administrateTeamsPage),
    ("GET /admin/appearance", .adminauth, .administrateAppearancePage) ]

/-- The patterns, as the multiplexer reads them. -/
def routes : List (Pattern × Guard × Endpoint) :=
  routeTable.map (fun route => (parse (str route.1), route.2))

theorem routes_orderly : Orderly routes := by decide +kernel

/-- No pattern is there twice and no two conflict, so that all of them can be registered: their
requests are apart, or those of one are among those of the other. In whatever order they are
registered, a request that matches some of them is dispatched to one whose requests are all among
those of the others. -/
theorem routes_unambiguous :
    (routes.map Prod.fst).Nodup ∧
    (∀ a ∈ routes, ∀ b ∈ routes, (∀ target, a.1.Matches target → ¬ b.1.Matches target) ∨
      (∀ target, a.1.Matches target → b.1.Matches target) ∨
      ∀ target, b.1.Matches target → a.1.Matches target) ∧
    ∀ table, table.Perm routes → ∀ target, dispatch table target = dispatch routes target ∧
      ((∃ route ∈ routes, route.1.Matches target) → ∃ route ∈ routes,
        dispatch routes target = some route ∧ route.1.Matches target ∧
          ∀ other ∈ routes, other.1.Matches target →
            ∀ target', route.1.Matches target' → other.1.Matches target') := by
  refine ⟨routes_orderly.nodup, ?_, ?_⟩
  · intro a ha b hb
    rcases routes_orderly.chain ha hb with hapart | hwithin | hwithin
    · exact .inl hapart
    · exact .inr (.inl fun _ => within_sound hwithin)
    · exact .inr (.inr fun _ => within_sound hwithin)
  · intro table hperm target
    refine ⟨(dispatch_perm routes_orderly hperm.symm).symm, fun hmatched => ?_⟩
    obtain ⟨matched, hmem, hmatches⟩ := hmatched
    obtain ⟨route, hroute⟩ := exists_dispatch routes_orderly (mem_matching.mpr ⟨hmem, hmatches⟩)
    obtain ⟨hmatching, hall⟩ := (dispatch_eq_some_iff routes_orderly).mp hroute
    obtain ⟨hmem, hmatches⟩ := mem_matching.mp hmatching
    refine ⟨route, hmem, hroute, hmatches, fun other hother hmatched => ?_⟩
    exact fun _ => within_sound (hall other (mem_matching.mpr ⟨hother, hmatched⟩))

/-- The handler of a route behind its middlewares, for the path values that are found. -/
def handlerOf (route : Guard × Endpoint) (values : List GoString) : HandlerFunc := fun ctx =>
  route.1.middleware conf server oidcRoles route.2.handler {ctx with values := values}

def serveHTTP : HandlerFunc := fun ctx reply =>
  match findHandler routes ctx.request.method ctx.request.path with
  | .handler route values => handlerOf conf server oidcRoles route values ctx reply
  | .redirect => {reply with status := some 301}
  | .methodNotAllowed => {reply with status := some 405}
  | .notFound => {reply with status := some 404}

/-- The answer of the server to a request. -/
def respond (request : WebRequest) : Reply :=
  securityHeaders conf (serveHTTP conf server oidcRoles) ⟨request, [], none⟩ {}

/-! ### What handlers take for granted -/

/-- The handler reads the name or the roles of its session without asking whether there is one. -/
def Endpoint.needsSession : Endpoint → Bool
  | .getAnnouncements | .downloadAnnouncementFile | .getTeams | .getTeamSummary | .getServiceAll
  | .getInjects | .createSubmission | .downloadSubmissionFile | .downloadInjectFile | .getCredlists
  | .createPcr | .resetPcr | .servicesPage | .injectsPage => true
  | _ => false

/-- How many path values the handler reads. -/
def Endpoint.pathValues : Endpoint → Nat
  | .getTeamSummary | .createSubmission | .deleteAnnouncement | .updateInject | .deleteInject
  | .downloadAllSubmissions => 1
  | .downloadAnnouncementFile | .getServiceAll | .downloadInjectFile => 2
  | .downloadSubmissionFile => 3
  | _ => 0

/-- Who may call a handler that changes tables, files or the engine; the others only read, or
sign somebody in. -/
def Endpoint.changedBy : Endpoint → Option (List Role)
  | .createSubmission | .createPcr | .resetPcr => some [.team, .admin, .inject]
  | .createBox | .createVector | .createAttack | .editBox | .editVector | .editAttack =>
    some [.red, .admin]
  | .createAnnouncement | .updateAnnouncement | .deleteAnnouncement | .createInject | .updateInject
  | .deleteInject => some [.admin, .inject]
  | .pauseEngine | .resetScores | .setCompetitionStarted | .updateTeams | .updateTeamChecks =>
    some [.admin]
  | _ => none

/-- A route grants its handler to those who may call it and to nobody without a session it needs,
and has the wildcards that it reads. -/
def Fitting (route : Pattern × Guard × Endpoint) : Prop :=
  (∀ roles ∈ route.2.2.changedBy, route.2.1.roles = some roles ∧ .anonymous ∉ roles) ∧
  (route.2.2.needsSession = true → ∃ roles ∈ route.2.1.roles, .anonymous ∉ roles) ∧
  route.2.2.pathValues ≤ route.1.segments.count .wild

instance (route : Pattern × Guard × Endpoint) : Decidable (Fitting route) :=
  inferInstanceAs (Decidable (_ ∧ _ ∧ _))

theorem fitting_of_mem {route : Pattern × Guard × Endpoint} (h : route ∈ routes) : Fitting route := by
  have hall : ∀ route ∈ routes, Fitting route := by decide +kernel
  exact hall route h

theorem method_of_unauth {route : Pattern × Guard × Endpoint} (h : route ∈ routes)
    (hguard : route.2.1 = .unauth) : route.1.method = some (str "GET") := by
  have hall : ∀ route ∈ routes, route.2.1 = .unauth → route.1.method = some (str "GET") := by
    decide +kernel
  exact hall route h hguard

/-- What comes to the middleware that answers to `OPTIONS` has another method. -/
theorem method_of_matches {route : Pattern × Guard × Endpoint} (h : route ∈ routes) {target : Target}
    (hmatches : route.1.Matches target) (hguard : route.2.1 = .unauth) :
    target.method ≠ str "OPTIONS" := by
  intro hoptions
  have hget : ¬ matchMethod (some (str "GET")) (str "OPTIONS") = true := by decide +kernel
  unfold Pattern.Matches Pattern.match? at hmatches
  rw [method_of_unauth h hguard, hoptions, if_neg hget] at hmatches
  cases hmatches

variable {conf server oidcRoles}

/-! ### One guard -/

/-- The session a guard passes on, if it does. -/
def Guard.admits (guard : Guard) (user : GoString × List Role) : Except Refused (Option Session) :=
  match guard.roles with
  | none => .ok none
  | some roles => authentication roles user

/-- A guard admits a user who has one of its roles, with the session he has, and where it lists the
anonymous it admits those who are nobody without a session. Without a list it asks nobody. -/
def Guard.Admits (guard : Guard) (user : GoString × List Role) (session : Option Session) : Prop :=
  match guard.roles, session with
  | none, session => session = none
  | some roles, none => user.1 = [] ∧ .anonymous ∈ roles
  | some roles, some session => user.1 ≠ [] ∧ user = (session.username, session.roles) ∧
    ∃ role ∈ session.roles, role ∈ roles

/-- A call a handler can work with: of the route that is found for the request, made for somebody
whom its guard admits and who may make it, with a session where the handler needs one, and with all
the path values that it reads. -/
structure Call.Sound (call : Call) (request : WebRequest) (user : GoString × List Role) : Prop where
  admitted : ∃ guard, findHandler routes request.method request.path =
    .handler (guard, call.endpoint) call.values ∧ guard.Admits user call.session
  changes : ∀ roles, call.endpoint.changedBy = some roles →
    ∃ session, call.session = some session ∧ ∃ role ∈ session.roles, role ∈ roles
  needed : call.endpoint.needsSession = true → call.session ≠ none
  values : call.endpoint.pathValues ≤ call.values.length
  filled : ∀ value ∈ call.values, value ≠ []

/-- In front of what calls the handler, the middleware decides whether it is called. -/
theorem handled_authenticationOf {roles : List Role} {next : HandlerFunc} {endpoint : Endpoint}
    {ctx : Context} {reply : Reply} (hnew : reply.handled = none)
    (hnext : ∀ session reply, (next {ctx with session := session} reply).handled =
      some ⟨endpoint, session, ctx.values⟩) {call : Call} :
    (authenticationOf conf server oidcRoles roles next ctx reply).handled = some call ↔
      ∃ session, authentication roles (authenticate conf server oidcRoles ctx.request.token) =
        .ok session ∧ call = ⟨endpoint, session, ctx.values⟩ := by
  unfold authenticationOf
  dsimp only
  split
  · rename_i session hsession
    rw [hsession, hnext]
    simp [eq_comm]
  · rename_i hrefused
    rw [hrefused]
    split <;> simp [writeJSON, redirect, Reply.setHeader, hnew]
  · rename_i hrefused
    rw [hrefused]
    simp [writeJSON, Reply.setHeader, hnew]

theorem handled_guard {guard : Guard} {endpoint : Endpoint} {ctx : Context} {reply : Reply}
    (hnew : reply.handled = none) (hnone : ctx.session = none)
    (hmethod : guard = .unauth → ctx.request.method ≠ str "OPTIONS") {call : Call} :
    (guard.middleware conf server oidcRoles endpoint.handler ctx reply).handled = some call ↔
      ∃ session, guard.admits (authenticate conf server oidcRoles ctx.request.token) = .ok session ∧
        call = ⟨endpoint, session, ctx.values⟩ := by
  cases guard with
  | unguarded =>
    have hcall : (Guard.unguarded.middleware conf server oidcRoles endpoint.handler ctx reply).handled =
        some ⟨endpoint, none, ctx.values⟩ := by rw [← hnone]; rfl
    rw [hcall]
    simp [Guard.admits, Guard.roles, eq_comm]
  | unauth =>
    refine handled_authenticationOf hnew fun session reply => ?_
    unfold cors
    dsimp only
    rw [if_neg (hmethod rfl)]
    rfl
  | redauth => exact handled_authenticationOf hnew (fun _ _ => rfl)
  | allauth | teamauth | injectauth | adminauth =>
    exact handled_authenticationOf hnew (fun _ _ => rfl)

/-- A handler is called exactly for the route that is found, where its guard admits the user. -/
theorem handled_iff {request : WebRequest} {call : Call} :
    (respond conf server oidcRoles request).handled = some call ↔
      ∃ route values, findHandler routes request.method request.path = .handler route values ∧
        ∃ session, route.1.admits (authenticate conf server oidcRoles request.token) = .ok session ∧
          call = ⟨route.2, session, values⟩ := by
  have hnew : (Reply.secured conf {}).handled = none := by
    unfold Reply.secured
    split <;> rfl
  unfold respond securityHeaders serveHTTP
  dsimp only
  split
  · rename_i route values hfound
    obtain ⟨found, hdispatch, rfl, hvalues⟩ := findHandler_eq_handler hfound
    obtain ⟨hmem, hmatches⟩ := mem_matching.mp ((dispatch_eq_some_iff routes_orderly).mp hdispatch).1
    rw [handlerOf, handled_guard hnew rfl (method_of_matches hmem hmatches)]
    simp [hfound]
  · rename_i hfound
    simp [hfound, hnew]
  · rename_i hfound
    simp [hfound, hnew]
  · rename_i hfound
    simp [hfound, hnew]

/-! ### Every request -/

/-- A session is that of the user, who has one of the roles; nobody has none. -/
theorem authentication_eq_ok {roles : List Role} {user : GoString × List Role}
    {session : Option Session} (h : authentication roles user = .ok session) :
    (session = none ∧ user.1 = [] ∧ .anonymous ∈ roles) ∨
      user.1 ≠ [] ∧ ∃ role ∈ user.2, role ∈ roles ∧ session = some ⟨user.1, user.2⟩ := by
  unfold authentication at h
  split at h
  · rename_i hnobody
    split at h
    · rename_i hanonymous
      exact .inl ⟨(Except.ok.inj h).symm, hnobody, hanonymous⟩
    · cases h
  · rename_i hsomebody
    split at h
    · rename_i hany
      obtain ⟨role, hrole, hmem⟩ := List.any_eq_true.mp hany
      exact .inr ⟨hsomebody, role, hrole, of_decide_eq_true hmem, (Except.ok.inj h).symm⟩
    · cases h

theorem Guard.admits_sound {guard : Guard} {user : GoString × List Role} {session : Option Session}
    (h : guard.admits user = .ok session) : guard.Admits user session := by
  unfold Guard.admits at h
  unfold Guard.Admits
  cases hroles : guard.roles with
  | none =>
    rw [hroles] at h
    exact (Except.ok.inj h).symm
  | some roles =>
    rw [hroles] at h
    rcases authentication_eq_ok h with ⟨rfl, hanonymous⟩ | ⟨hsomebody, role, hrole, hmem, rfl⟩
    · exact hanonymous
    · exact ⟨hsomebody, rfl, role, hrole, hmem⟩

/-- Whom a guard without anonymous users admits has a session, with one of its roles. -/
theorem Guard.Admits.session {guard : Guard} {user : GoString × List Role}
    {session : Option Session} (h : guard.Admits user session) {roles : List Role}
    (hroles : guard.roles = some roles) (hanonymous : .anonymous ∉ roles) :
    ∃ found, session = some found ∧ ∃ role ∈ found.roles, role ∈ roles := by
  unfold Guard.Admits at h
  rw [hroles] at h
  cases session with
  | none => exact absurd h.2 hanonymous
  | some found => exact ⟨found, rfl, h.2.2⟩

/-- Whatever is requested, with whatever cookie, a handler is only called as it can work and by
those who may: the guard of its route admits the user of the cookie, changes are made by somebody
with a role for them, and no session or path value that a handler takes for granted is missing. -/
theorem access_control (conf : ConfigSettings) (server : LdapServer)
    (oidcRoles : GoString → Option (List Role)) (request : WebRequest) (call : Call)
    (h : (respond conf server oidcRoles request).handled = some call) :
    call.Sound request (authenticate conf server oidcRoles request.token) := by
  obtain ⟨route, values, hroute, session, hsession, rfl⟩ := handled_iff.mp h
  obtain ⟨found, hdispatch, rfl, hvalues⟩ := findHandler_eq_handler hroute
  obtain ⟨hmem, -⟩ := mem_matching.mp ((dispatch_eq_some_iff routes_orderly).mp hdispatch).1
  obtain ⟨hchanges, hneeds, hcount⟩ := fitting_of_mem hmem
  have hmatch : matchPath found.1.subtree found.1.segments (segmentsOf request.path) =
      some values := by
    unfold Pattern.match? at hvalues
    split at hvalues
    · exact hvalues
    · cases hvalues
  have hadmits := Guard.admits_sound hsession
  refine ⟨⟨found.2.1, hroute, hadmits⟩, ?_, ?_, ?_, ?_⟩
  · intro roles hroles
    obtain ⟨hguard, hanonymous⟩ := hchanges roles hroles
    exact hadmits.session hguard hanonymous
  · intro hneed hnone
    obtain ⟨roles, hguard, hanonymous⟩ := hneeds hneed
    obtain ⟨found', hsome, -⟩ := hadmits.session hguard hanonymous
    rw [hsome] at hnone
    cases hnone
  · rw [length_values hmatch]
    exact hcount
  · exact fun value hvalue => ne_nil_of_mem_values hmatch hvalue

/-- A staff of one, who is an admin. -/
def adminFile : ConfigSettings := {admin := [⟨str "root", str "secret"⟩]}

def noDirectory : LdapServer := ⟨.error [], fun _ => .error [], fun _ _ => false, fun _ => .error []⟩

def resetRequest : WebRequest where
  method := str "HEAD"
  path := str "/api/engine/reset"
  token := some ⟨str "root", none⟩

/-- A reset by a request for the headers only is one by the admin. -/
theorem access_control_reset :
    (⟨.resetScores, some ⟨str "root", [.admin]⟩, []⟩ : Call).Sound resetRequest
      (authenticate adminFile noDirectory (fun _ => none) resetRequest.token) :=
  access_control adminFile noDirectory (fun _ => none) resetRequest _ (by decide +kernel)

/-! ### What an answer carries -/

/-- The chain of the guard writes the log. -/
def Guard.logs (guard : Guard) : Bool := guard ≠ .unguarded && guard ≠ .redauth

def allowOrigin : String := "Access-Control-Allow-Origin"

def strictTransport : String := "Strict-Transport-Security"

/-- The name that a session is logged under. -/
def sessionName (session : Option Session) : GoString :=
  match session with
  | some session => session.username
  | none => str "anonymous"

/-- The user as the log names him, or the nobody of a request without a valid cookie. -/
def logName (user : GoString × List Role) : GoString :=
  if user.1 = [] then str "anonymous" else user.1

/-- An answer of a handler is in the log once, under the user of the cookie, unless the chain does
not write one, and may be read from elsewhere if it is one of the graphs. -/
def Reply.Answers (reply : Reply) (guard : Guard) (user : GoString × List Role) : Prop :=
  reply.log = (if guard.logs then [logName user] else []) ∧
    ((reply.headers.lookup (str allowOrigin)).isSome ↔ guard = .unauth)

/-- An answer without one is a refusal or a redirect, that nobody logs or shares. -/
def Reply.Refuses (reply : Reply) : Prop :=
  (∃ status ∈ [301, 307, 401, 403, 404, 405], reply.status = some status) ∧ reply.log = [] ∧
    reply.headers.lookup (str allowOrigin) = none

/-- Every answer has the headers against the tricks of browsers, the one about TLS where it is
spoken. -/
structure Reply.Secured (conf : ConfigSettings) (reply : Reply) : Prop where
  always : ∀ header ∈ securityHeaderList, reply.headers.lookup (str header.1) = some (str header.2)
  transport : reply.headers.lookup (str strictTransport) =
    if conf.sslSettings ≠ {} then some (str "max-age=31536000; includeSubDomains") else none

theorem lookup_setHeader_ne {reply : Reply} {key name : String} (value : String) (h : key ≠ name) :
    (reply.setHeader key value).headers.lookup (str name) = reply.headers.lookup (str name) :=
  AList.lookup_insert_ne fun heq => h (str_inj.mp heq).symm

/-- Headers that are set later are not among those. -/
theorem Reply.Secured.setHeader {reply : Reply} (h : reply.Secured conf) {key : String}
    (value : String) (hkey : key ∉ strictTransport :: securityHeaderList.map Prod.fst) :
    (reply.setHeader key value).Secured conf := by
  rw [List.mem_cons, not_or] at hkey
  constructor
  · intro header hmem
    have hne : key ≠ header.1 := by
      intro heq
      rw [heq] at hkey
      exact hkey.2 (List.mem_map_of_mem hmem)
    rw [lookup_setHeader_ne value hne]
    exact h.always header hmem
  · rw [lookup_setHeader_ne value hkey.1]
    exact h.transport

theorem Reply.Secured.of_headers {reply reply' : Reply} (h : reply.Secured conf)
    (heq : reply'.headers = reply.headers) : reply'.Secured conf :=
  ⟨by rw [heq]; exact h.always, by rw [heq]; exact h.transport⟩

/-- Before the multiplexer looks at the request. -/
structure Reply.Fresh (conf : ConfigSettings) (reply : Reply) : Prop where
  secured : reply.Secured conf
  handled : reply.handled = none
  log : reply.log = []
  shared : reply.headers.lookup (str allowOrigin) = none

theorem fresh_secured (conf : ConfigSettings) : (Reply.secured conf {}).Fresh conf := by
  unfold Reply.secured
  by_cases hssl : conf.sslSettings ≠ {}
  · rw [if_pos hssl]
    refine ⟨⟨by decide +kernel, ?_⟩, rfl, rfl, by decide +kernel⟩
    rw [if_pos hssl]
    decide +kernel
  · rw [if_neg hssl]
    refine ⟨⟨by decide +kernel, ?_⟩, rfl, rfl, by decide +kernel⟩
    rw [if_neg hssl]
    decide +kernel

theorem refuses_status {reply : Reply} (h : reply.Fresh conf) {status : Nat}
    (hstatus : status ∈ [301, 307, 401, 403, 404, 405]) :
    {reply with status := some status}.Refuses ∧
      {reply with status := some status}.Secured conf ∧
      {reply with status := some status}.handled = none :=
  ⟨⟨⟨status, hstatus, rfl⟩, h.log, h.shared⟩, h.secured.of_headers rfl, h.handled⟩

/-- A refusal as JSON. -/
theorem refuses_writeJSON {reply : Reply} (h : reply.Fresh conf) {status : Nat}
    (hstatus : status ∈ [301, 307, 401, 403, 404, 405]) :
    (writeJSON status reply).Refuses ∧ (writeJSON status reply).Secured conf ∧
      (writeJSON status reply).handled = none := by
  have hsecured : (reply.setHeader "Content-Type" "application/json").Secured conf :=
    h.secured.setHeader _ (by decide +kernel)
  have hshared : (reply.setHeader "Content-Type" "application/json").headers.lookup
      (str allowOrigin) = none := by
    rw [lookup_setHeader_ne _ (by decide +kernel)]
    exact h.shared
  exact ⟨⟨⟨status, hstatus, rfl⟩, h.log, hshared⟩, hsecured.of_headers rfl, h.handled⟩

/-- What an answer is like, whoever wrote it: the handler of the route that is found, whose guard
admits the user, or what stands in front of it. -/
def Reply.Enveloped (conf : ConfigSettings) (request : WebRequest) (user : GoString × List Role)
    (reply : Reply) : Prop :=
  reply.Secured conf ∧
    match reply.handled with
    | none => reply.Refuses
    | some call => ∃ guard, findHandler routes request.method request.path =
        .handler (guard, call.endpoint) call.values ∧
      guard.Admits user call.session ∧ reply.Answers guard user

theorem enveloped_refusal {request : WebRequest} {user : GoString × List Role} {reply : Reply}
    (h : reply.Refuses ∧ reply.Secured conf ∧ reply.handled = none) :
    reply.Enveloped conf request user := by
  refine ⟨h.2.1, ?_⟩
  rw [h.2.2]
  exact h.1

/-- Behind the check of the roles stands what answers, and in front of it what refuses. -/
theorem enveloped_authenticationOf {roles : List Role} {next : HandlerFunc} {ctx : Context}
    {reply : Reply} (h : reply.Fresh conf)
    (hnext : ∀ session reply, reply.Fresh conf →
      authentication roles (authenticate conf server oidcRoles ctx.request.token) = .ok session →
      (next {ctx with session := session} reply).Enveloped conf ctx.request
        (authenticate conf server oidcRoles ctx.request.token)) :
    (authenticationOf conf server oidcRoles roles next ctx reply).Enveloped conf ctx.request
      (authenticate conf server oidcRoles ctx.request.token) := by
  unfold authenticationOf
  dsimp only
  have hfresh : ∀ cookies, {reply with cookies := cookies}.Fresh conf := fun _ =>
    ⟨h.secured.of_headers rfl, h.handled, h.log, h.shared⟩
  have hmoved : ∀ cookies location,
      {reply with cookies := cookies, location := location}.Fresh conf := fun _ _ =>
    ⟨h.secured.of_headers rfl, h.handled, h.log, h.shared⟩
  split
  · rename_i session hsession
    exact hnext session _ (hfresh _) hsession
  · split
    · exact enveloped_refusal (refuses_writeJSON (hfresh _) (by decide))
    · exact enveloped_refusal (refuses_status (hmoved _ (str "/login")) (by decide))
  · exact enveloped_refusal (refuses_writeJSON (hfresh _) (by decide))

/-- What the middleware that logs makes of the session is the user of the cookie. -/
theorem sessionName_of_admits {guard : Guard} {user : GoString × List Role}
    {session : Option Session} (hlogs : guard.logs = true) (h : guard.Admits user session) :
    sessionName session = logName user := by
  unfold Guard.Admits at h
  cases hroles : guard.roles with
  | none => cases guard <;> simp [Guard.roles, Guard.logs] at hroles hlogs
  | some roles =>
    rw [hroles] at h
    cases session with
    | none => exact (if_pos h.1).symm
    | some session =>
      obtain ⟨hsomebody, rfl, -⟩ := h
      exact (if_neg hsomebody).symm

/-- The handler, logged or not, on a reply that may be read from elsewhere or not. -/
theorem enveloped_handler {guard : Guard} {endpoint : Endpoint} {request : WebRequest}
    {user : GoString × List Role} (ctx : Context) {reply : Reply}
    (hfound : findHandler routes request.method request.path =
      .handler (guard, endpoint) ctx.values)
    (hadmits : guard.Admits user ctx.session) (hsecured : reply.Secured conf) (hlog : reply.log = [])
    (hshared : (reply.headers.lookup (str allowOrigin)).isSome ↔ guard = .unauth) :
    (if guard.logs then logging endpoint.handler ctx reply else endpoint.handler ctx reply).Enveloped
      conf request user := by
  cases hlogs : guard.logs with
  | true =>
    refine ⟨hsecured.of_headers rfl, guard, hfound, hadmits, ?_, hshared⟩
    show reply.log ++ [sessionName ctx.session] = _
    rw [hlog, hlogs, sessionName_of_admits hlogs hadmits]
    rfl
  | false =>
    refine ⟨hsecured.of_headers rfl, guard, hfound, hadmits, ?_, hshared⟩
    show reply.log = _
    rw [hlog, hlogs]
    rfl

theorem enveloped_guard {guard : Guard} {endpoint : Endpoint} {ctx : Context} {reply : Reply}
    (hfound : findHandler routes ctx.request.method ctx.request.path =
      .handler (guard, endpoint) ctx.values)
    (h : reply.Fresh conf) (hnone : ctx.session = none)
    (hmethod : guard = .unauth → ctx.request.method ≠ str "OPTIONS") :
    (guard.middleware conf server oidcRoles endpoint.handler ctx reply).Enveloped conf ctx.request
      (authenticate conf server oidcRoles ctx.request.token) := by
  have hplain : ∀ {reply : Reply}, reply.Fresh conf → guard ≠ .unauth →
      ((reply.headers.lookup (str allowOrigin)).isSome ↔ guard = .unauth) := by
    intro reply hreply hne
    rw [hreply.shared]
    exact iff_of_false (by simp) hne
  have hadmits : ∀ {session : Option Session},
      guard.admits (authenticate conf server oidcRoles ctx.request.token) = .ok session →
      guard.Admits (authenticate conf server oidcRoles ctx.request.token) session :=
    Guard.admits_sound
  cases guard with
  | unguarded =>
    exact enveloped_handler ctx hfound (hadmits (congrArg Except.ok hnone.symm)) h.secured h.log
      (hplain h (by decide))
  | unauth =>
    refine enveloped_authenticationOf h fun session reply hreply hsession => ?_
    unfold cors
    dsimp only
    rw [if_neg (hmethod rfl)]
    have hsecured : (((reply.setHeader "Access-Control-Allow-Origin" "*").setHeader
        "Access-Control-Allow-Methods" "GET, POST, PUT, DELETE").setHeader
        "Access-Control-Allow-Headers" "Content-Type, Authorization").Secured conf :=
      ((hreply.secured.setHeader _ (by decide +kernel)).setHeader _ (by decide +kernel)).setHeader _
        (by decide +kernel)
    refine enveloped_handler {ctx with session := session} hfound (hadmits hsession) hsecured
      hreply.log ?_
    rw [lookup_setHeader_ne _ (by decide +kernel), lookup_setHeader_ne _ (by decide +kernel)]
    refine iff_of_true ?_ rfl
    show ((reply.headers.insert _ _).lookup _).isSome
    rw [allowOrigin, AList.lookup_insert]
    rfl
  | allauth | teamauth | redauth | injectauth | adminauth =>
    exact enveloped_authenticationOf h fun session reply hreply hsession =>
      enveloped_handler {ctx with session := session} hfound (hadmits hsession) hreply.secured
        hreply.log (hplain hreply (by decide))

/-- Every answer carries the headers; one of a handler is logged once for the user of the cookie,
unless its route is unguarded or one of the red team, and only those of the graphs may be read from
elsewhere; all others refuse or redirect, and nobody logs them. -/
theorem respond_enveloped (conf : ConfigSettings) (server : LdapServer)
    (oidcRoles : GoString → Option (List Role)) (request : WebRequest) :
    (respond conf server oidcRoles request).Enveloped conf request
      (authenticate conf server oidcRoles request.token) := by
  have hfresh := fresh_secured conf
  unfold respond securityHeaders serveHTTP
  dsimp only
  split
  · rename_i route values hfound
    obtain ⟨found, hdispatch, rfl, hvalues⟩ := findHandler_eq_handler hfound
    obtain ⟨hmem, hmatches⟩ := mem_matching.mp ((dispatch_eq_some_iff routes_orderly).mp hdispatch).1
    exact @enveloped_guard conf server oidcRoles _ _ ⟨request, values, none⟩ _ hfound hfresh rfl
      (method_of_matches hmem hmatches)
  · exact enveloped_refusal (refuses_status hfresh (by decide))
  · exact enveloped_refusal (refuses_status hfresh (by decide))
  · exact enveloped_refusal (refuses_status hfresh (by decide))

end QuotientScoring.WWW
