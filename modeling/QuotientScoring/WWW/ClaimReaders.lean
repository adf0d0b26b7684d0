import QuotientScoring.WWW.OIDC

/-! The claims of an ID token, read twice.

A callback and the check of a token each take a user name, groups and roles from the
claims, in functions of their own. The check goes to the full name before the subject
where the other two names are missing, and knows one name less for the claim of the
groups. `readAlike_iff` says for which claims that makes no difference. -/
namespace QuotientScoring.WWW
open DB GoText Config

/-- The claims, with the full name, which only the check of a token reads. -/
structure NamedClaims extends IDTokenClaims where
  name : GoString
deriving DecidableEq

/-- The first of the four claims that is there. -/
def NamedClaims.tokenUsername (claims : NamedClaims) : GoString :=
  if claims.preferredUsername ≠ [] then claims.preferredUsername
  else if claims.email ≠ [] then claims.email
  else if claims.name ≠ [] then claims.name
  else claims.subject

/-- The claim that has the groups. -/
def groupClaim (conf : ConfigSettings) : GoString :=
  if conf.oidcSettings.oidcGroupClaim = [] then str "groups" else conf.oidcSettings.oidcGroupClaim

variable (conf : ConfigSettings) (claims : NamedClaims)

def NamedClaims.tokenGroups : List GoString :=
  if groupClaim conf = str "groups" then claims.groups
  else if groupClaim conf = str "roles" then claims.roles
  else if groupClaim conf = str "realm_access.roles" then claims.realmAccessRoles
  else []

/-- `ValidateOIDCToken`, on the claims of a token that has been verified. -/
def validateOIDCToken : Except GoString (GoString × List GoString × List Role) :=
  let username := claims.tokenUsername
  if username = [] then .error (str "no username found in token")
  else
    let groups := claims.tokenGroups conf
    let roles := mapGroupsToRoles conf groups
    if roles = [] then .error (str "user has no authorized roles")
    else .ok (username, groups, roles)

/-- The callback refuses the claims: they have no user name, or no role comes of them. -/
def RefusedByCallback (claims : IDTokenClaims) : Prop :=
  (extractUserInfoFromClaims conf claims).1 = [] ∨ (extractUserInfoFromClaims conf claims).2.2 = []

/-- What the check of a token reads is what the callback reads, and it fails exactly for claims that
the callback refuses. -/
def ReadAlike : Prop :=
  (∀ info, validateOIDCToken conf claims = .ok info →
    info = extractUserInfoFromClaims conf claims.toIDTokenClaims) ∧
  ((∃ err, validateOIDCToken conf claims = .error err) ↔
    RefusedByCallback conf claims.toIDTokenClaims)

/-- The list of groups under a name; there is one list for two of the names. -/
def IDTokenClaims.listed (claims : IDTokenClaims) (name : GoString) : List GoString :=
  if name = str "groups" then claims.groups
  else if name = str "roles" then claims.roles
  else if name = str "realm_access.roles" ∨ name = str "resource_access.roles" then
    claims.realmAccessRoles
  else []

variable {conf claims}

/-- The callback ends with an error exactly for the claims it refuses. -/
theorem refusedByCallback_iff (henabled : conf.oidcSettings.oidcEnabled = true) {now : Int}
    {store : OidcStore} {reply : OidcReply} :
    (∃ err, oidcCallback conf now store reply = .error err) ↔
      RefusedByCallback conf reply.claims := by
  unfold oidcCallback RefusedByCallback
  simp only [henabled, Bool.not_true, Bool.false_eq_true, if_false]
  split
  · rename_i hname
    simp [hname]
  · rename_i hname
    split
    · rename_i hroles
      simp [hroles]
    · rename_i hroles
      simp [hname, hroles]

theorem extractUserInfoFromClaims_eq (claims : IDTokenClaims) :
    extractUserInfoFromClaims conf claims = (claims.username, claims.listed (groupClaim conf),
      mapGroupsToRoles conf (claims.listed (groupClaim conf))) := rfl

/-! ### The two names -/

theorem username_eq_nil_iff {claims : IDTokenClaims} : claims.username = [] ↔
    claims.preferredUsername = [] ∧ claims.email = [] ∧ claims.subject = [] := by
  unfold IDTokenClaims.username
  split
  · rename_i hpreferred
    simp [hpreferred]
  · split
    · rename_i hemail
      simp [hemail]
    · rename_i hpreferred hemail
      simp [not_not.mp hpreferred, not_not.mp hemail]

/-- The full name makes a difference where it is all there is but another subject. -/
theorem tokenUsername_eq_iff : claims.tokenUsername = claims.username ↔
    claims.preferredUsername ≠ [] ∨ claims.email ≠ [] ∨ claims.name = [] ∨
      claims.name = claims.subject := by
  unfold NamedClaims.tokenUsername IDTokenClaims.username
  split
  · rename_i hpreferred
    simp [hpreferred]
  · rename_i hpreferred
    split
    · rename_i hemail
      simp [hemail]
    · rename_i hemail
      split
      · rename_i hname
        simp [hpreferred, hemail, hname]
      · rename_i hname
        simp [not_not.mp hname]

/-- Claims without a name for the check of a token have none for the callback. -/
theorem username_of_tokenUsername (h : claims.tokenUsername = []) : claims.username = [] := by
  unfold NamedClaims.tokenUsername at h
  unfold IDTokenClaims.username
  grind

/-! ### The two lists of groups -/

theorem mapGroupsToRoles_nil : mapGroupsToRoles conf [] = [] := by
  have hnone : ∀ configGroups role, roleOfGroups [] configGroups role = [] := by
    intro configGroups role
    have hmatches : ∀ configGroup, matchesGroup [] configGroup = false := by
      intro configGroup
      unfold matchesGroup
      split <;> rfl
    simp [roleOfGroups, hmatches]
  simp [mapGroupsToRoles, hnone]

theorem tokenGroups_of_resource (h : groupClaim conf = str "resource_access.roles") :
    claims.tokenGroups conf = [] := by
  unfold NamedClaims.tokenGroups
  rw [h, if_neg (by decide +kernel), if_neg (by decide +kernel), if_neg (by decide +kernel)]

theorem tokenGroups_of_ne (h : groupClaim conf ≠ str "resource_access.roles") :
    claims.tokenGroups conf = claims.listed (groupClaim conf) := by
  simp only [NamedClaims.tokenGroups, IDTokenClaims.listed, h, or_false]

/-! ### The two readers -/

/-- Where no role comes of the groups it reads, the check of a token fails. -/
theorem validateOIDCToken_fails (h : mapGroupsToRoles conf (claims.tokenGroups conf) = []) :
    ∃ err, validateOIDCToken conf claims = .error err := by
  unfold validateOIDCToken
  dsimp only
  rw [if_pos h]
  split <;> exact ⟨_, rfl⟩

/-- The two readers agree exactly if no role comes of the groups, or the claims have no name for the
callback where the groups are those of a resource, or elsewhere the full name does not count. -/
theorem readAlike_iff : ReadAlike conf claims ↔
    mapGroupsToRoles conf (claims.listed (groupClaim conf)) = [] ∨
      if groupClaim conf = str "resource_access.roles" then
        claims.preferredUsername = [] ∧ claims.email = [] ∧ claims.subject = []
      else
        claims.preferredUsername ≠ [] ∨ claims.email ≠ [] ∨ claims.name = [] ∨
          claims.name = claims.subject := by
  rw [← username_eq_nil_iff, ← tokenUsername_eq_iff, ReadAlike, RefusedByCallback,
    extractUserInfoFromClaims_eq]
  split
  · rename_i hresource
    obtain ⟨err, hfails⟩ : ∃ err, validateOIDCToken conf claims = .error err :=
      validateOIDCToken_fails (by rw [tokenGroups_of_resource hresource, mapGroupsToRoles_nil])
    simp [hfails, or_comm]
  · rename_i hother
    have hgroups : claims.tokenGroups conf = claims.listed (groupClaim conf) :=
      tokenGroups_of_ne hother
    by_cases hroles : mapGroupsToRoles conf (claims.listed (groupClaim conf)) = []
    · obtain ⟨err, hfails⟩ : ∃ err, validateOIDCToken conf claims = .error err :=
        validateOIDCToken_fails (by rw [hgroups, hroles])
      simp [hfails, hroles]
    · by_cases hname : claims.tokenUsername = []
      · have hfails : validateOIDCToken conf claims = .error (str "no username found in token") :=
          if_pos hname
        simp [hfails, hname, username_of_tokenUsername hname]
      · have hread : validateOIDCToken conf claims = .ok (claims.tokenUsername,
            claims.listed (groupClaim conf),
            mapGroupsToRoles conf (claims.listed (groupClaim conf))) := by
          unfold validateOIDCToken
          dsimp only
          rw [if_neg hname, hgroups, if_neg hroles]
        have hsome : claims.tokenUsername = claims.username → claims.username ≠ [] :=
          fun hsame => hsame ▸ hname
        simpa [hread, hroles] using hsome

/-! ### A person with a full name -/

/-- Alice, whose provider hands out her full name and a number, and no other name. -/
def fullNameClaims : NamedClaims where
  subject := str "f3a1"
  groups := [str "Blue_Team01"]
  name := str "Alice Doe"

def groupConf : ConfigSettings :=
  {oidcSettings := {oidcEnabled := true, oidcTeamGroups := [str "Blue_Team*"]}}

/-- The check of her token calls her by her full name, and the callback by the number. -/
theorem full_name_differs : ¬ ReadAlike groupConf fullNameClaims := by
  intro halike
  have hsame := halike.1 (str "Alice Doe", [str "Blue_Team01"], [.team]) (by decide +kernel)
  exact absurd hsame (by decide +kernel)

end QuotientScoring.WWW
