import QuotientScoring.Lib.Rows
import QuotientScoring.WWW.Teams

/-! Sessions of several people.

A cookie holds a user name and where it is from; what the provider said of a user is
kept under the user name alone, and asked for whatever the cookie is from. So a
session is what the last login through the provider under its name has made of it.
`sessions_apart`: as long as nobody else signs in through the provider under the
name of a session, its roles and its team are what they would be without the others,
and, if its owner does not sign in again, what its own login makes them. -/
namespace QuotientScoring.WWW
open DB GoText Config

/-- A login by name and password, or an answer of the provider that has been verified. -/
inductive Login where
  | password (username password : GoString)
  | oidc (now : Int) (reply : OidcReply)
deriving DecidableEq

/-- Whom a login is of: a name in the lists or the directory, or a subject of the provider. -/
inductive Identity where
  | local (username : GoString)
  | subject (subject : GoString)
deriving DecidableEq

def Login.identity : Login → Identity
  | .password username _ => .local username
  | .oidc _ reply => .subject reply.claims.subject

variable (conf : ConfigSettings) (server : LdapServer) (site : TeamSite)

/-- The cookie a login hands out, and the store afterwards. -/
def loginStep (store : OidcStore) : Login → Option Cookie × OidcStore
  | .password username password => ((auth conf server username password).toOption, store)
  | .oidc now reply =>
    match oidcCallback conf now store reply with
    | .ok (cookie, store) => (some cookie, store)
    | .error _ => (none, store)

/-- The store after some logins. -/
def storeAfter (logins : List Login) : OidcStore :=
  logins.foldl (fun store login => (loginStep conf server store login).2) ∅

/-- What a request with a cookie finds, after some logins: what `Authenticate` answers, and then
`getUserTeamID`. -/
def laterRequest (now : Int) (store : OidcStore) (cookie : Cookie) :
    (GoString × List Role) × Except GoString Nat :=
  let user := authenticate conf server (fun username =>
    (getOIDCUserInfo conf site.provider now store username).1.map OidcUserInfo.roles) (some cookie)
  let store := if cookie.authSource = some (str "oidc") then
    (getOIDCUserInfo conf site.provider now store cookie.username).2 else store
  (user, getUserTeamID conf {site with now := now, store := store} cookie.username)

/-- What a login enters into the store. -/
def Login.entered : Login → Option (GoString × OidcEntry)
  | .password _ _ => none
  | .oidc now reply =>
    let (username, groups, roles) := extractUserInfoFromClaims conf reply.claims
    if conf.oidcSettings.oidcEnabled ∧ username ≠ [] ∧ roles ≠ [] then
      some (username, oidcEntry conf now username groups roles reply.refreshToken)
    else none

/-- The login is one through the provider, let in under this name. -/
def Login.signsInAs (username : GoString) (login : Login) : Bool :=
  (login.entered conf).any (fun e => e.1 = username)

/-- What a request with the cookie of a login finds is the same without the logins of others, and,
if its owner does not log in again, with that login alone. -/
structure SessionApart (before : List Login) (login : Login) (after : List Login) (cookie : Cookie)
    (now : Int) : Prop where
  others : laterRequest conf server site now (storeAfter conf server (before ++ login :: after)) cookie =
    laterRequest conf server site now (storeAfter conf server
      ((before ++ login :: after).filter (fun other => other.identity = login.identity))) cookie
  own : (∀ other ∈ after, other.identity ≠ login.identity) →
    laterRequest conf server site now (storeAfter conf server (before ++ login :: after)) cookie =
      laterRequest conf server site now (storeAfter conf server [login]) cookie

variable {conf server site}

theorem loginStep_store (store : OidcStore) (login : Login) :
    (loginStep conf server store login).2 =
      match login.entered conf with
      | some (username, entry) => store.insert username entry
      | none => store := by
  cases login with
  | password username password => rfl
  | oidc now reply =>
    simp only [loginStep, oidcCallback, Login.entered]
    cases conf.oidcSettings.oidcEnabled with
    | false => simp
    | true =>
      by_cases hname : (extractUserInfoFromClaims conf reply.claims).1 = []
      · simp [hname]
      · by_cases hroles : (extractUserInfoFromClaims conf reply.claims).2.2 = []
        · simp [hname, hroles]
        · simp [hname, hroles]

/-! ### One name of the store -/

/-- The entry of a name is that of the last login through the provider under it. -/
theorem lookup_storeAfter (logins : List Login) (username : GoString) :
    (storeAfter conf server logins).lookup username =
      (logins.filter (Login.signsInAs conf username)).foldl
        (fun _ login => (login.entered conf).map Prod.snd) none := by
  refine Rows.foldl_observe (fun store : OidcStore => store.lookup username) _
    (Login.signsInAs conf username) _ (fun store login => ?_) logins ∅
  rw [loginStep_store, Login.signsInAs]
  cases login.entered conf with
  | none => simp
  | some e =>
    by_cases h : e.1 = username
    · subst h
      simp
    · simp [h, AList.lookup_insert_ne (Ne.symm h)]

/-- A request finds what its own name has in the store. -/
theorem laterRequest_of_lookup {now : Int} {store store' : OidcStore} {cookie : Cookie}
    (h : store.lookup cookie.username = store'.lookup cookie.username) :
    laterRequest conf server site now store cookie =
      laterRequest conf server site now store' cookie := by
  have hinfo : (getOIDCUserInfo conf site.provider now store cookie.username).1 =
      (getOIDCUserInfo conf site.provider now store' cookie.username).1 := getOIDCUserInfo_of_lookup h
  have huser : authenticate conf server (fun username =>
      (getOIDCUserInfo conf site.provider now store username).1.map OidcUserInfo.roles) (some cookie) =
      authenticate conf server (fun username =>
        (getOIDCUserInfo conf site.provider now store' username).1.map OidcUserInfo.roles)
        (some cookie) := by
    simp only [authenticate, findRolesByUsername, hinfo]
  have hteam : ∀ {s s' : OidcStore}, s.lookup cookie.username = s'.lookup cookie.username →
      getUserTeamID conf {site with now := now, store := s} cookie.username =
        getUserTeamID conf {site with now := now, store := s'} cookie.username := by
    intro s s' hs
    have hask : oidcUserInfo conf {site with now := now, store := s} cookie.username =
        oidcUserInfo conf {site with now := now, store := s'} cookie.username :=
      getOIDCUserInfo_of_lookup hs
    simp only [getUserTeamID, hask]
  simp only [laterRequest, huser, Prod.mk.injEq, true_and]
  apply hteam
  by_cases hsource : cookie.authSource = some (str "oidc")
  · simp only [hsource, if_true, lookup_getOIDCUserInfo, h]
  · simp only [hsource, if_false, h]

/-! ### Logins apart -/

/-- A cookie is for the name of its login, and a login through the provider enters that name. -/
theorem loginStep_cookie {store : OidcStore} {login : Login} {cookie : Cookie}
    (h : (loginStep conf server store login).1 = some cookie) :
    match login with
    | .password username _ => cookie.username = username
    | .oidc _ _ => ∃ entry, login.entered conf = some (cookie.username, entry) := by
  cases login with
  | password username password =>
    simp only [loginStep] at h
    cases hauth : auth conf server username password with
    | error err =>
      rw [hauth] at h
      cases h
    | ok c =>
      rw [hauth] at h
      obtain rfl := Option.some.inj h
      exact auth_eq_ok hauth
  | oidc now reply =>
    simp only [loginStep, oidcCallback] at h
    split at h
    · rename_i c store' hcallback
      obtain rfl := Option.some.inj h
      split at hcallback
      · cases hcallback
      · rename_i henabled
        split at hcallback
        · cases hcallback
        · rename_i hname
          split at hcallback
          · cases hcallback
          · rename_i hroles
            obtain ⟨rfl, -⟩ := Prod.mk.inj (Except.ok.inj hcallback)
            exact ⟨_, if_pos ⟨by simpa using henabled, hname, hroles⟩⟩
    · cases h

theorem signsInAs_iff {username : GoString} {login : Login} :
    login.signsInAs conf username = true ↔ ∃ entry, login.entered conf = some (username, entry) := by
  unfold Login.signsInAs
  cases login.entered conf with
  | none => simp
  | some e =>
    constructor
    · intro h
      exact ⟨e.2, by simpa [Prod.ext_iff] using h⟩
    · intro ⟨entry, he⟩
      simpa using congrArg Prod.fst (Option.some.inj he)

/-- If nobody else signs in through the provider under the name of a session, what it is
depends on the logins of its owner alone, and if that was the last of them, on its own. -/
theorem sessions_apart {before after : List Login} {login : Login} {cookie : Cookie}
    (hcookie : (loginStep conf server (storeAfter conf server before) login).1 = some cookie)
    (hapart : ∀ other ∈ before ++ login :: after, other.signsInAs conf cookie.username = true →
      other.identity = login.identity) (now : Int) :
    SessionApart conf server site before login after cookie now := by
  have hfilter : (before ++ login :: after).filter (Login.signsInAs conf cookie.username) =
      ((before ++ login :: after).filter (fun other => other.identity = login.identity)).filter
        (Login.signsInAs conf cookie.username) := by
    rw [List.filter_filter]
    refine List.filter_congr fun other hother => ?_
    cases hsigns : other.signsInAs conf cookie.username with
    | false => rfl
    | true => simp [hapart other hother hsigns]
  constructor
  · apply laterRequest_of_lookup
    rw [lookup_storeAfter, lookup_storeAfter, hfilter]
  · intro hlast
    apply laterRequest_of_lookup
    rw [lookup_storeAfter, lookup_storeAfter]
    have hafter : after.filter (Login.signsInAs conf cookie.username) = [] := by
      refine List.filter_eq_nil_iff.mpr fun other hother hsigns => hlast other hother ?_
      exact hapart other (List.mem_append_right _ (List.mem_cons_of_mem _ hother)) hsigns
    have hentered := loginStep_cookie hcookie
    cases login with
    | oidc now reply =>
      -- its own login overwrites what was there
      obtain ⟨entry, hentry⟩ := hentered
      have hsigns : Login.signsInAs conf cookie.username (.oidc now reply) = true :=
        signsInAs_iff.mpr ⟨entry, hentry⟩
      rw [List.filter_append, List.filter_cons_of_pos hsigns, hafter,
        List.filter_cons_of_pos hsigns, List.filter_nil, List.foldl_concat]
      rfl
    | password username password =>
      -- nobody has entered the name
      have hnone : (before ++ Login.password username password :: after).filter
          (Login.signsInAs conf cookie.username) = [] := by
        refine List.filter_eq_nil_iff.mpr fun other hother hsigns => ?_
        have hidentity := hapart other hother hsigns
        cases other with
        | password _ _ => cases hsigns
        | oidc _ _ => cases hidentity
      rw [hnone]
      rfl

/-! ### Two people of one name -/

/-- A file with a group of teams and one of admins. -/
def groupsFile : ConfigSettings :=
  { smallFile {} {} with
    team := [⟨str "team02", str "x"⟩]
    oidcSettings :=
      { oidcEnabled := true
        oidcIssuerURL := str "https://sso"
        oidcClientID := str "quotient"
        oidcClientSecret := str "secret"
        oidcRedirectURL := str "https://quotient/auth/oidc/callback"
        oidcAdminGroups := [str "Staff"]
        oidcTeamGroups := [str "Blue*"] } }

/-- A member of the first team. -/
def blueLogin (username : GoString) : Login :=
  .oidc 0 ⟨{subject := str "7", preferredUsername := username, groups := [str "Blue_Team01"]}, []⟩

/-- A member of the staff, with another subject. -/
def staffLogin (username : GoString) : Login :=
  .oidc 60 ⟨{subject := str "8", preferredUsername := username, groups := [str "Staff"]}, []⟩

def someTeams : TeamSite where
  now := 0
  started := true
  db := {teams := [⟨1, str "team01", str "01", true⟩, ⟨2, str "team02", str "02", true⟩]}

/-- Two people with two names, and a local user. -/
theorem sessions_apart_two_names :
    SessionApart (setConfig .plain {} groupsFile) .none someTeams
      [.password (str "team02") (str "x")] (blueLogin (str "alice")) [staffLogin (str "bob")]
      ⟨str "alice", some (str "oidc")⟩ 120 := by
  apply sessions_apart
  · decide +kernel
  · decide +kernel

/-- Two people with one name: whoever signed in as a team is an admin once the other has. -/
theorem sessions_not_apart :
    let conf := setConfig .plain {} groupsFile
    let login := blueLogin (str "alice")
    Accepts .plain groupsFile conf ∧ (staffLogin (str "alice")).identity ≠ login.identity ∧
      (loginStep conf .none (storeAfter conf .none []) login).1 =
        some ⟨str "alice", some (str "oidc")⟩ ∧
      ¬SessionApart conf .none someTeams [] login [staffLogin (str "alice")]
        ⟨str "alice", some (str "oidc")⟩ 120 := by
  intro conf login
  refine ⟨by decide +kernel, by decide +kernel, by decide +kernel, ?_⟩
  intro hapart
  have hothers := congrArg Prod.fst hapart.others
  revert hothers
  decide +kernel

end QuotientScoring.WWW
