import QuotientScoring.Engine.Config

/-! Logging in, and what a cookie is good for.

A login matches a name and a password against the four lists of the configuration
and stops at the first entry that has both; the cookie keeps the name and the
source, not the list. Later the roles are looked up by name alone, in all four
lists. `local_roles_iff`: the roles are those whose password was presented exactly
if every list that has the name has it with that password. -/
namespace QuotientScoring.WWW
open DB GoText Config

/-- The roles, with the one that routes give to those without a cookie. -/
inductive Role where
  | anonymous
  | admin
  | red
  | team
  | inject
deriving DecidableEq

/-- What the cookie holds. A cookie without a source is from the local lists. -/
structure Cookie where
  username : GoString
  authSource : Option GoString
deriving DecidableEq

/-- The LDAP server: whether it can be reached and the service account binds, the names of
the people with an account name, whether one binds with a password, and the groups of
the people with an account name. -/
structure LdapServer where
  connect : Except GoString Unit
  search : GoString → Except GoString (List GoString)
  bind : GoString → GoString → Bool
  memberOf : GoString → Except GoString (List (List GoString))

variable (conf : ConfigSettings) (server : LdapServer)

/-- The role a group of the directory stands for, in the order they are looked for. -/
def ldapGroups : List (GoString × Role) :=
  [ (conf.ldapSettings.ldapAdminGroupDn, .admin), (conf.ldapSettings.ldapRedGroupDn, .red),
    (conf.ldapSettings.ldapTeamGroupDn, .team), (conf.ldapSettings.ldapInjectGroupDn, .inject) ]

/-- The part of `auth` that asks the directory. -/
def authLdap (username password : GoString) : Except GoString Cookie :=
  match server.connect with
  | .error err => .error err
  | .ok () =>
    match server.search username with
    | .error err => .error err
    | .ok [userDN] =>
      if server.bind userDN password then
        match server.memberOf username with
        | .error err => .error err
        | .ok entries =>
          if entries.flatten.any ((ldapGroups conf).map Prod.fst).contains then
            .ok ⟨username, some (str "ldap")⟩
          else .error (str "LDAP user has no authorized roles")
      else .error (str "invalid credentials")
    | .ok _ => .error (str "user does not exist or too many entries returned")

/-- An entry with this name and password. -/
def hasEntry (users : List User) (username password : GoString) : Bool :=
  users.any (fun user => username = user.name ∧ password = user.pw)

/-- `auth`: the lists in the order admin, team, red, inject, then the directory. -/
def auth (username password : GoString) : Except GoString Cookie :=
  if hasEntry conf.admin username password then .ok ⟨username, some (str "local")⟩
  else if hasEntry conf.team username password then .ok ⟨username, some (str "local")⟩
  else if hasEntry conf.red username password then .ok ⟨username, some (str "local")⟩
  else if hasEntry conf.inject username password then .ok ⟨username, some (str "local")⟩
  else if conf.ldapSettings ≠ {} then authLdap conf server username password
  else .error (str "no auth source matched credentials")

/-- The list of the configuration a role is given in. -/
def usersOf : Role → List User
  | .anonymous => []
  | .admin => conf.admin
  | .red => conf.red
  | .team => conf.team
  | .inject => conf.inject

/-- One role for every entry of the name. -/
def rolesIn (role : Role) (username : GoString) : List Role :=
  ((usersOf conf role).filter (fun user => username = user.name)).map (fun _ => role)

/-- `findRolesByUsername`; `oidcRoles` is what `GetOIDCUserInfo` has for a name. -/
def findRolesByUsername (oidcRoles : GoString → Option (List Role)) (username authSource : GoString) :
    Except GoString (List Role) :=
  if authSource = str "oidc" then
    match oidcRoles username with
    | some roles => .ok roles
    | none => .error (str "OIDC session expired - please login again")
  else if authSource = str "local" then
    let roles := rolesIn conf .admin username ++ rolesIn conf .red username ++
      rolesIn conf .team username ++ rolesIn conf .inject username
    if roles = [] then .error (str "local user has no roles") else .ok roles
  else if authSource = str "ldap" ∧ conf.ldapSettings ≠ {} then
    match server.connect with
    | .error err => .error err
    | .ok () =>
      match server.memberOf username with
      | .error err => .error err
      | .ok entries =>
        let roles := entries.flatten.flatMap (fun group =>
          ((ldapGroups conf).filter (fun g => group = g.1)).map Prod.snd)
        if roles = [] then .error (str "LDAP user has no authorized roles") else .ok roles
  else .error (str "unknown auth source: " ++ authSource)

/-- `Authenticate`: the user name and the roles of a request, none of either without a
good cookie. -/
def authenticate (oidcRoles : GoString → Option (List Role)) (token : Option Cookie) :
    GoString × List Role :=
  match token with
  | none => ([], [])
  | some cookie =>
    let authSource := cookie.authSource.getD (str "local")
    match findRolesByUsername conf server oidcRoles cookie.username authSource with
    | .ok roles => (cookie.username, roles)
    | .error _ => ([], [])

/-- What a handler behind the middleware knows of the request. -/
structure Session where
  username : GoString
  roles : List Role
deriving DecidableEq

inductive Refused where
  | unauthorized
  | forbidden
deriving DecidableEq

/-- The middleware `Authentication(roles...)`: the session passed on, none for an anonymous
request, or the refusal. -/
def authentication (allowed : List Role) (user : GoString × List Role) :
    Except Refused (Option Session) :=
  if user.1 = [] then if .anonymous ∈ allowed then .ok none else .error .unauthorized
  else if user.2.any (fun role => role ∈ allowed) then .ok (some ⟨user.1, user.2⟩)
  else .error .forbidden

/-! ### The roles of a local login -/

theorem hasEntry_iff {users : List User} {username password : GoString} :
    hasEntry users username password = true ↔ ⟨username, password⟩ ∈ users := by
  simp only [hasEntry, List.any_eq_true, decide_eq_true_eq]
  constructor
  · intro ⟨user, hmem, hname, hpw⟩
    rw [hname, hpw]
    exact hmem
  · intro h
    exact ⟨_, h, rfl, rfl⟩

theorem mem_rolesIn {role role' : Role} {username : GoString} :
    role' ∈ rolesIn conf role username ↔
      role' = role ∧ ∃ password, ⟨username, password⟩ ∈ usersOf conf role := by
  simp only [rolesIn, List.mem_map, List.mem_filter, decide_eq_true_eq]
  constructor
  · intro ⟨user, ⟨hmem, hname⟩, hrole⟩
    exact ⟨hrole.symm, user.pw, by rw [hname]; exact hmem⟩
  · intro ⟨hrole, password, hmem⟩
    exact ⟨_, ⟨hmem, rfl⟩, hrole.symm⟩

variable {conf server}

/-- The directory only hands out cookies of its own source. -/
theorem authLdap_eq_ok {username password : GoString} {cookie : Cookie}
    (h : authLdap conf server username password = .ok cookie) :
    cookie = ⟨username, some (str "ldap")⟩ := by
  unfold authLdap at h
  split at h
  · cases h
  · split at h
    · cases h
    · split at h
      · split at h
        · cases h
        · split at h
          · exact (Except.ok.inj h).symm
          · cases h
      · cases h
    · cases h

/-- A login comes from the local lists only with an entry of the name and password. -/
theorem exists_entry_of_auth {username password : GoString}
    (h : auth conf server username password = .ok ⟨username, some (str "local")⟩) :
    ∃ role, ⟨username, password⟩ ∈ usersOf conf role := by
  unfold auth at h
  by_cases hadmin : hasEntry conf.admin username password = true
  · exact ⟨.admin, hasEntry_iff.mp hadmin⟩
  by_cases hteam : hasEntry conf.team username password = true
  · exact ⟨.team, hasEntry_iff.mp hteam⟩
  by_cases hred : hasEntry conf.red username password = true
  · exact ⟨.red, hasEntry_iff.mp hred⟩
  by_cases hinject : hasEntry conf.inject username password = true
  · exact ⟨.inject, hasEntry_iff.mp hinject⟩
  rw [if_neg hadmin, if_neg hteam, if_neg hred, if_neg hinject] at h
  split at h
  · have hsource := congrArg Cookie.authSource (authLdap_eq_ok h)
    simp at hsource
  · cases h

/-- A cookie holds the name that was given. -/
theorem auth_eq_ok {username password : GoString} {cookie : Cookie}
    (h : auth conf server username password = .ok cookie) : cookie.username = username := by
  have hlocal : .ok ⟨username, some (str "local")⟩ = (.ok cookie : Except GoString Cookie) →
      cookie.username = username := by
    intro h
    obtain rfl := Except.ok.inj h
    rfl
  unfold auth at h
  split at h
  · exact hlocal h
  · split at h
    · exact hlocal h
    · split at h
      · exact hlocal h
      · split at h
        · exact hlocal h
        · split at h
          · rw [authLdap_eq_ok h]
          · cases h

/-- The roles found for a local user: those of the lists that have the name. -/
theorem mem_findRolesByUsername {oidcRoles : GoString → Option (List Role)} {username : GoString}
    {roles : List Role}
    (h : findRolesByUsername conf server oidcRoles username (str "local") = .ok roles)
    (role : Role) : role ∈ roles ↔ ∃ password, ⟨username, password⟩ ∈ usersOf conf role := by
  have hoidc : ¬str "local" = str "oidc" := by simp
  simp only [findRolesByUsername, hoidc, if_false, if_true] at h
  split at h
  · cases h
  · obtain rfl := Except.ok.inj h
    simp only [List.mem_append, mem_rolesIn]
    cases role <;> simp [usersOf]

theorem exists_findRolesByUsername {oidcRoles : GoString → Option (List Role)}
    {username password : GoString} {role : Role} (h : ⟨username, password⟩ ∈ usersOf conf role) :
    ∃ roles, findRolesByUsername conf server oidcRoles username (str "local") = .ok roles := by
  have hoidc : ¬str "local" = str "oidc" := by simp
  have hrole : role ∈ rolesIn conf role username := (mem_rolesIn conf).mpr ⟨rfl, password, h⟩
  simp only [findRolesByUsername, hoidc, if_false, if_true]
  split
  · rename_i hnil
    simp only [List.append_eq_nil_iff] at hnil
    obtain ⟨⟨⟨hadmin, hred⟩, hteam⟩, hinject⟩ := hnil
    cases role with
    | anonymous => cases h
    | admin => simp [hadmin] at hrole
    | red => simp [hred] at hrole
    | team => simp [hteam] at hrole
    | inject => simp [hinject] at hrole
  · exact ⟨_, rfl⟩

/-- After a login from the local lists, the roles found for its cookie are those whose
list has the name with the password presented, exactly if every list that has the name
has it with that password. -/
theorem local_roles_iff (oidcRoles : GoString → Option (List Role)) {username password : GoString}
    (h : auth conf server username password = .ok ⟨username, some (str "local")⟩) :
    (∃ roles, findRolesByUsername conf server oidcRoles username (str "local") = .ok roles ∧
      ∀ role, role ∈ roles ↔ ⟨username, password⟩ ∈ usersOf conf role) ↔
    ∀ (role : Role) (other : GoString), ⟨username, other⟩ ∈ usersOf conf role →
      ⟨username, password⟩ ∈ usersOf conf role := by
  obtain ⟨role, hentry⟩ := exists_entry_of_auth h
  obtain ⟨roles, hroles⟩ := @exists_findRolesByUsername conf server oidcRoles _ _ _ hentry
  constructor
  · intro ⟨roles', hroles', hexact⟩ role other hother
    exact (hexact role).mp ((mem_findRolesByUsername hroles' role).mpr ⟨other, hother⟩)
  · intro hall
    refine ⟨roles, hroles, fun role => ?_⟩
    rw [mem_findRolesByUsername hroles role]
    constructor
    · intro ⟨other, hother⟩
      exact hall role other hother
    · intro hmem
      exact ⟨password, hmem⟩

/-! ### Two logins -/

/-- A file with users and nothing else of interest. -/
def userFile (admin team : List User) : ConfigSettings :=
  {smallFile {} {} with admin := admin, team := team}

/-- No directory answers. -/
def LdapServer.none : LdapServer :=
  { connect := .error (str "connection refused")
    search := fun _ => .error (str "connection refused")
    bind := fun _ _ => false
    memberOf := fun _ => .error (str "connection refused") }

/-- The same name in two lists with the same password: both roles were presented. -/
theorem local_roles_same_password :
    let conf := setConfig .plain {}
      (userFile [⟨str "ann", str "x"⟩] [⟨str "bob", str "z"⟩, ⟨str "ann", str "x"⟩])
    ∃ roles, findRolesByUsername conf .none (fun _ => none) (str "ann") (str "local") = .ok roles ∧
      ∀ role, role ∈ roles ↔ ⟨str "ann", str "x"⟩ ∈ usersOf conf role := by
  intro conf
  have hauth : auth conf .none (str "ann") (str "x") = .ok ⟨str "ann", some (str "local")⟩ := by
    decide +kernel
  refine (local_roles_iff (fun _ => none) hauth).mpr ?_
  have hred : usersOf conf .red = [] := by decide +kernel
  have hinject : usersOf conf .inject = [] := by decide +kernel
  intro role other hother
  cases role with
  | anonymous => cases hother
  | admin | team => decide +kernel
  | red =>
    rw [hred] at hother
    cases hother
  | inject =>
    rw [hinject] at hother
    cases hother

/-- The same name in two lists with two passwords: the team's password gives the admin role. -/
theorem team_password_gives_admin :
    let raw := userFile [⟨str "ann", str "x"⟩] [⟨str "ann", str "y"⟩]
    let conf := setConfig .plain {} raw
    Accepts .plain raw conf ∧
    auth conf .none (str "ann") (str "y") = .ok ⟨str "ann", some (str "local")⟩ ∧
    ¬∃ roles,
      findRolesByUsername conf .none (fun _ => none) (str "ann") (str "local") = .ok roles ∧
        ∀ role, role ∈ roles ↔ ⟨str "ann", str "y"⟩ ∈ usersOf conf role := by
  intro raw conf
  refine ⟨by decide +kernel, by decide +kernel, ?_⟩
  intro ⟨roles, hroles, hexact⟩
  have hadmin : .admin ∈ roles := (mem_findRolesByUsername hroles .admin).mpr
    ⟨str "x", by decide +kernel⟩
  have hentry := (hexact .admin).mp hadmin
  revert hentry
  decide +kernel

end QuotientScoring.WWW
