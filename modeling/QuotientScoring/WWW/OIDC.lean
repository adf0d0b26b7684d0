import QuotientScoring.Lib.GoMap
import QuotientScoring.Lib.GoTime
import QuotientScoring.WWW.Api

/-! Signing in through the OIDC provider.

A callback takes a user name, groups and roles from the claims of the provider, keeps
them in a store under the user name, and hands out a cookie with that name. Later
the store is asked by the name alone. An entry that has expired is renewed, if the
provider still answers for it, or dropped. `getOIDCUserInfo_of_lookup` and
`lookup_getOIDCUserInfo`: what the store answers for a name depends on the entry
of that name, and asking changes no other entry. -/
namespace QuotientScoring.WWW
open DB GoText GoTime Config

/-- What the program reads of an ID token. -/
structure IDTokenClaims where
  subject : GoString
  email : GoString := []
  preferredUsername : GoString := []
  groups : List GoString := []
  roles : List GoString := []
  realmAccessRoles : List GoString := []
deriving DecidableEq

structure OidcUserInfo where
  username : GoString
  groups : List GoString
  roles : List Role
  expiresAt : Int
  refreshToken : GoString
deriving DecidableEq

/-- An entry of the store, and when the store drops it by itself. -/
structure OidcEntry where
  info : OidcUserInfo
  evictedAt : Option Int
deriving DecidableEq

/-- The keys `oidc:session:<username>`. -/
abbrev OidcStore := GoMap GoString OidcEntry

/-- What the provider answers: claims, and a refresh token or an empty one. -/
structure OidcReply where
  claims : IDTokenClaims
  refreshToken : GoString
deriving DecidableEq

/-- The provider's answers to a refresh token at a time, one after the other; after the last a
refresh fails. -/
abbrev OidcProvider := Int → GoString → List OidcReply

/-- Only a trailing `*` is a wildcard. -/
def matchesGroup (userGroups : List GoString) (configGroup : GoString) : Bool :=
  if str "*" <:+ configGroup then
    userGroups.any (fun userGroup => trimSuffix configGroup (str "*") <+: userGroup)
  else userGroups.contains configGroup

/-- One of the four loops of `mapGroupsToRoles`. -/
def roleOfGroups (groups configGroups : List GoString) (role : Role) : List Role :=
  if configGroups.any (matchesGroup groups) then [role] else []

variable (conf : ConfigSettings)

def mapGroupsToRoles (groups : List GoString) : List Role :=
  roleOfGroups groups conf.oidcSettings.oidcAdminGroups .admin ++
    roleOfGroups groups conf.oidcSettings.oidcInjectGroups .inject ++
    roleOfGroups groups conf.oidcSettings.oidcRedGroups .red ++
    roleOfGroups groups conf.oidcSettings.oidcTeamGroups .team

/-- In seconds; zero stands for a day. -/
def getRefreshTokenExpiry (roles : List Role) : Int64 :=
  let expiry :=
    if .admin ∈ roles then conf.oidcSettings.oidcRefreshTokenExpiryAdmin
    else if .red ∈ roles then conf.oidcSettings.oidcRefreshTokenExpiryRed
    else if .inject ∈ roles then conf.oidcSettings.oidcRefreshTokenExpiryInject
    else conf.oidcSettings.oidcRefreshTokenExpiryTeam
  if expiry = 0 then 86400 else expiry

/-- The first of the three claims that is there. -/
def IDTokenClaims.username (claims : IDTokenClaims) : GoString :=
  if claims.preferredUsername ≠ [] then claims.preferredUsername
  else if claims.email ≠ [] then claims.email
  else claims.subject

def extractUserInfoFromClaims (claims : IDTokenClaims) :
    GoString × List GoString × List Role :=
  let groupClaim := if conf.oidcSettings.oidcGroupClaim = [] then str "groups"
    else conf.oidcSettings.oidcGroupClaim
  let groups :=
    if groupClaim = str "groups" then claims.groups
    else if groupClaim = str "roles" then claims.roles
    else if groupClaim = str "realm_access.roles" ∨ groupClaim = str "resource_access.roles" then
      claims.realmAccessRoles
    else []
  (claims.username, groups, mapGroupsToRoles conf groups)

/-- The entry that is stored: it is dropped when it expires, unless it has expired already. -/
def oidcEntry (now : Int) (username : GoString) (groups : List GoString) (roles : List Role)
    (refreshToken : GoString) : OidcEntry :=
  let expiresAt := now + seconds (getRefreshTokenExpiry conf roles)
  ⟨⟨username, groups, roles, expiresAt, refreshToken⟩,
    if now < expiresAt then some expiresAt else none⟩

/-- The end of `OIDCCallbackHandler`, once the provider's answer has been verified. -/
def oidcCallback (now : Int) (store : OidcStore) (reply : OidcReply) :
    Except HttpError (Cookie × OidcStore) :=
  if !conf.oidcSettings.oidcEnabled then .error ⟨404, str "OIDC authentication is not enabled"⟩
  else
    let (username, groups, roles) := extractUserInfoFromClaims conf reply.claims
    if username = [] then .error ⟨500, str "No username in authentication response"⟩
    else if roles = [] then
      .error ⟨403, str "User is not authorized to access this application"⟩
    else
      .ok (⟨username, some (str "oidc")⟩,
        store.insert username (oidcEntry conf now username groups roles reply.refreshToken))

/-- `tryRefreshOIDCSession`: the entry that takes the place of one that has expired. -/
def tryRefreshOIDCSession (now : Int) (username : GoString) (oldInfo : OidcUserInfo)
    (reply : OidcReply) : Option OidcEntry :=
  let (newUsername, groups, roles) := extractUserInfoFromClaims conf reply.claims
  if newUsername ≠ username then none
  else some (oidcEntry conf now username groups roles
    (if reply.refreshToken = [] then oldInfo.refreshToken else reply.refreshToken))

/-- `GetOIDCUserInfo` on the entry of its name: the answer, and the entry afterwards. -/
def readOIDCEntry (now : Int) (username : GoString) :
    List OidcReply → Option OidcEntry → Option OidcUserInfo × Option OidcEntry
  | _, none => (none, none)
  | replies, some entry =>
    if entry.evictedAt.any (fun evictedAt => evictedAt ≤ now) then (none, none)
    else if now ≤ entry.info.expiresAt then (some entry.info, some entry)
    -- it is deleted, and read again if it can be refreshed
    else if entry.info.refreshToken = [] ∨ conf.oidcSettings.oidcEnabled = false then (none, none)
    else
      match replies with
      | [] => (none, none)
      | reply :: replies =>
        match tryRefreshOIDCSession conf now username entry.info reply with
        | none => (none, none)
        | some entry => readOIDCEntry now username replies (some entry)

/-- The answers that a refresh of the entry would get. -/
def repliesTo (provider : OidcProvider) (now : Int) (entry : Option OidcEntry) : List OidcReply :=
  (entry.map (fun entry => provider now entry.info.refreshToken)).getD []

def getOIDCUserInfo (provider : OidcProvider) (now : Int) (store : OidcStore) (username : GoString) :
    Option OidcUserInfo × OidcStore :=
  let entry := store.lookup username
  let (info, entry) := readOIDCEntry conf now username (repliesTo provider now entry) entry
  (info, match entry with
    | some entry => store.insert username entry
    | none => store.erase username)

variable {conf}

/-! ### One entry -/

/-- The answer depends on the entry of the name. -/
theorem getOIDCUserInfo_of_lookup {provider : OidcProvider} {now : Int} {store store' : OidcStore}
    {username : GoString} (h : store.lookup username = store'.lookup username) :
    (getOIDCUserInfo conf provider now store username).1 =
      (getOIDCUserInfo conf provider now store' username).1 := by
  simp only [getOIDCUserInfo, h]

theorem lookup_getOIDCUserInfo (provider : OidcProvider) (now : Int) (store : OidcStore)
    (username name : GoString) :
    (getOIDCUserInfo conf provider now store username).2.lookup name =
      if name = username then (readOIDCEntry conf now username
        (repliesTo provider now (store.lookup username)) (store.lookup username)).2
      else store.lookup name := by
  simp only [getOIDCUserInfo]
  cases (readOIDCEntry conf now username (repliesTo provider now (store.lookup username))
      (store.lookup username)).2 with
  | none =>
    by_cases h : name = username
    · subst h
      simp
    · simp [h, AList.lookup_erase_ne h]
  | some entry =>
    by_cases h : name = username
    · subst h
      simp
    · simp [h, AList.lookup_insert_ne h]

end QuotientScoring.WWW
