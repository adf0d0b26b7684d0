import QuotientScoring.Lib.Base64
import QuotientScoring.WWW.SignIn

/-! What a login draws, and what its callback answers with.

A login draws a state, a nonce and a code verifier, and sends the browser to the provider with the
first two and a hash of the third, the challenge. The provider gives a token only to who shows it
the verifier of the challenge.

`challenge_answered`: in every run whose logins never draw one state twice, a callback shows the
verifier of the one login whose state it carries, and the nonce it accepts is that of the same
login. `drawnStep_refines`: such a run is one of `signIns`, with the text of a draw in place of its
bytes. -/
namespace QuotientScoring.WWW
open DB GoText Config Transition Base64

/-- Thirty-two bytes. -/
abbrev Drawn := {bytes : GoString // bytes.length = 32}

/-- What a login draws, if it can. -/
structure Draws where
  state : Option Drawn
  nonce : Option Drawn
  codeVerifier : Option Drawn
deriving DecidableEq

/-- The parameters a login sends the browser to the provider with. -/
structure AuthURL where
  state : GoString
  nonce : GoString
  codeChallenge : GoString
  codeChallengeMethod : GoString
deriving DecidableEq

/-- What a login puts in the table, where it sends the browser, and the cookie it sets there. -/
structure LoginReply where
  session : OidcSession
  redirect : AuthURL
  stateCookie : GoString
deriving DecidableEq

section Login
variable (conf : ConfigSettings) (sha256 : GoString → GoString)

def generateRandomString (drawn : Option Drawn) : Option GoString :=
  drawn.map (fun bytes => encode url false bytes.val)

def generateCodeVerifier (drawn : Option Drawn) : Option GoString :=
  drawn.map (fun bytes => encode url false bytes.val)

def generateCodeChallenge (verifier : GoString) : GoString := encode url false (sha256 verifier)

def oidcLogin (now : Int) (draws : Draws) : Except HttpError LoginReply :=
  if !conf.oidcSettings.oidcEnabled then .error ⟨404, str "OIDC authentication is not enabled"⟩
  else
    match generateRandomString draws.state with
    | none => .error ⟨500, str "Failed to initiate authentication"⟩
    | some state =>
      match generateRandomString draws.nonce with
      | none => .error ⟨500, str "Failed to initiate authentication"⟩
      | some nonce =>
        match generateCodeVerifier draws.codeVerifier with
        | none => .error ⟨500, str "Failed to initiate authentication"⟩
        | some codeVerifier =>
          .ok
            { session := ⟨state, nonce, codeVerifier, now⟩
              redirect := ⟨state, nonce, generateCodeChallenge sha256 codeVerifier, str "S256"⟩
              stateCookie := state }

/-- The logins through the provider, the replies to them, and the states they have drawn. -/
structure Logins where
  signIns : SignIns := {}
  replies : List LoginReply := []
  drawn : List Drawn := []

inductive LoginAction where
  | login (draws : Draws)
  | other (action : SignInAction)
deriving DecidableEq

def drawnStep (s : Logins) : LoginAction → Option Logins
  | .login draws =>
    match oidcLogin conf sha256 s.signIns.now draws with
    | .error _ => some s
    | .ok reply =>
      some
        { signIns :=
            { s.signIns with
              oidcSessions := s.signIns.oidcSessions.insert reply.session.state reply.session
              issued := s.signIns.issued ++ [reply.session] }
          replies := s.replies ++ [reply]
          drawn := s.drawn ++ draws.state.toList }
  -- a login draws its state
  | .other (.login _ _ _) => none
  | .other action =>
    (signInStep conf s.signIns action).map (fun signIns => {s with signIns := signIns})

def logins : System Logins LoginAction where
  initial s := (signIns conf).initial s.signIns ∧ s.replies = [] ∧ s.drawn = []
  step := drawnStep conf sha256

end Login

/-- No state is drawn twice. -/
def FreshDraw (s : Logins) : LoginAction → Prop
  | .login draws => ∀ bytes ∈ draws.state, bytes ∉ s.drawn
  | .other _ => True

instance (s : Logins) : (a : LoginAction) → Decidable (FreshDraw s a)
  | .login draws => inferInstanceAs (Decidable (∀ bytes ∈ draws.state, bytes ∉ s.drawn))
  | .other _ => .isTrue trivial

variable {conf : ConfigSettings} {sha256 : GoString → GoString}

/-! ### What is drawn -/

/-- What a verifier has to be: of 43 characters, each a letter, a digit, a hyphen or an
underscore. -/
def WellFormed (verifier : GoString) : Prop :=
  verifier.length = 43 ∧ ∀ c ∈ verifier, c ∈ url.chars

theorem wellFormed_encode (bytes : Drawn) : WellFormed (encode url false bytes.val) := by
  refine ⟨?_, fun c hc => mem_encode_false hc⟩
  rw [length_encode, bytes.property]

/-- Texts of different bytes are different. -/
theorem text_inj {a b : Drawn} (h : encode url false a.val = encode url false b.val) : a = b :=
  Subtype.ext (encode_inj h)

/-- The reply to a login that can draw: all of it is of its three draws. -/
theorem oidcLogin_ok {now : Int} {draws : Draws} {reply : LoginReply}
    (h : oidcLogin conf sha256 now draws = .ok reply) :
    conf.oidcSettings.oidcEnabled = true ∧
      ∃ state nonce codeVerifier : Drawn, draws.state = some state ∧
        reply.session = ⟨encode url false state.val, encode url false nonce.val,
          encode url false codeVerifier.val, now⟩ ∧
        reply.redirect = ⟨reply.session.state, reply.session.nonce,
          generateCodeChallenge sha256 reply.session.codeVerifier, str "S256"⟩ ∧
        reply.stateCookie = reply.session.state := by
  unfold oidcLogin at h
  split at h
  · cases h
  · rename_i henabled
    split at h
    · cases h
    · rename_i state hstate
      split at h
      · cases h
      · rename_i nonce hnonce
        split at h
        · cases h
        · rename_i codeVerifier hverifier
          obtain rfl := Except.ok.inj h
          obtain ⟨stateBytes, hbytes, rfl⟩ := Option.map_eq_some_iff.mp hstate
          obtain ⟨nonceBytes, -, rfl⟩ := Option.map_eq_some_iff.mp hnonce
          obtain ⟨verifierBytes, -, rfl⟩ := Option.map_eq_some_iff.mp hverifier
          exact ⟨by simpa using henabled, stateBytes, nonceBytes, verifierBytes, hbytes, rfl, rfl,
            rfl⟩

/-! ### Runs -/

/-- Only a login issues anything. -/
theorem issued_of_other {s s' : SignIns} {action : SignInAction}
    (hlogin : ∀ state nonce codeVerifier, action ≠ .login state nonce codeVerifier)
    (h : signInStep conf s action = some s') : s'.issued = s.issued := by
  cases action with
  | login state nonce codeVerifier => exact absurd rfl (hlogin state nonce codeVerifier)
  | arrive request =>
    cases h
    rfl
  | claim i =>
    simp only [signInStep] at h
    split at h
    · split at h
      · cases h
      · cases h
        rfl
    · cases h
  | exchange i answer =>
    simp only [signInStep] at h
    split at h
    · split at h
      · cases h
        rfl
      · cases h
    · cases h
  | finish i encoded =>
    simp only [signInStep] at h
    split at h
    · split at h
      · cases h
        rfl
      · cases h
    · cases h
  | cleanup =>
    cases h
    rfl
  | wait now =>
    cases h
    rfl

theorem drawnStep_other {s s' : Logins} {action : SignInAction}
    (h : drawnStep conf sha256 s (.other action) = some s') :
    (∀ state nonce codeVerifier, action ≠ .login state nonce codeVerifier) ∧
      ∃ signIns, signInStep conf s.signIns action = some signIns ∧
        s' = {s with signIns := signIns} := by
  cases action with
  | login state nonce codeVerifier => cases h
  | _ =>
    simp only [drawnStep] at h
    obtain ⟨signIns, hsignIns, hs'⟩ := Option.map_eq_some_iff.mp h
    exact ⟨(fun _ _ _ hlogin => nomatch hlogin), signIns, hsignIns, hs'.symm⟩

theorem freshLogin_of_other {s : SignIns} {action : SignInAction}
    (h : ∀ state nonce codeVerifier, action ≠ .login state nonce codeVerifier) :
    FreshLogin s action := by
  cases action with
  | login state nonce codeVerifier => exact absurd rfl (h state nonce codeVerifier)
  | _ => trivial

/-- Everything that was issued was sent along with a login of its own. -/
structure Linked (conf : ConfigSettings) (sha256 : GoString → GoString) (s : Logins) : Prop where
  reach : Reachable (signIns conf) FreshLogin s.signIns
  issued : s.signIns.issued = s.replies.map LoginReply.session
  drawn : s.signIns.issued.map OidcSession.state =
    s.drawn.map (fun bytes => encode url false bytes.val)
  nodup : s.drawn.Nodup
  redirect : ∀ reply ∈ s.replies, reply.redirect = ⟨reply.session.state, reply.session.nonce,
    generateCodeChallenge sha256 reply.session.codeVerifier, str "S256"⟩
  cookie : ∀ reply ∈ s.replies, reply.stateCookie = reply.session.state
  verifier : ∀ reply ∈ s.replies, WellFormed reply.session.codeVerifier

variable {s s' : Logins}

/-- A state that was not drawn before is not one that was issued. -/
theorem Linked.fresh (h : Linked conf sha256 s) {bytes : Drawn} (hfresh : bytes ∉ s.drawn)
    (session : OidcSession) (hmem : session ∈ s.signIns.issued) :
    session.state ≠ encode url false bytes.val := by
  intro heq
  have hstate : session.state ∈ s.drawn.map (fun bytes => encode url false bytes.val) := by
    rw [← h.drawn]
    exact List.mem_map_of_mem hmem
  obtain ⟨drawn, hdrawn, htext⟩ := List.mem_map.mp hstate
  obtain rfl := text_inj (htext.trans heq)
  exact hfresh hdrawn

/-- A step is one of the logins and callbacks, or leaves them as they are. -/
theorem drawnStep_refines (h : Linked conf sha256 s) {action : LoginAction}
    (hfresh : FreshDraw s action) (hstep : drawnStep conf sha256 s action = some s') :
    s'.signIns = s.signIns ∨
      ∃ a, FreshLogin s.signIns a ∧ signInStep conf s.signIns a = some s'.signIns := by
  cases action with
  | login draws =>
    simp only [drawnStep] at hstep
    split at hstep
    · obtain rfl := Option.some.inj hstep
      exact .inl rfl
    · rename_i reply hreply
      obtain rfl := Option.some.inj hstep
      obtain ⟨henabled, state, nonce, codeVerifier, hdraw, hsession, -, -⟩ := oidcLogin_ok hreply
      have hnew := h.fresh (hfresh state (by rw [hdraw]; rfl))
      refine .inr ⟨.login (encode url false state.val) (encode url false nonce.val)
        (encode url false codeVerifier.val), hnew, ?_⟩
      rw [hsession, signInStep, henabled]
      rfl
  | other action =>
    obtain ⟨hother, signIns, hsignIns, rfl⟩ := drawnStep_other hstep
    exact .inr ⟨action, freshLogin_of_other hother, hsignIns⟩

theorem Linked.login (h : Linked conf sha256 s) {draws : Draws}
    (hfresh : FreshDraw s (.login draws)) (hstep : drawnStep conf sha256 s (.login draws) = some s')
    (hreach : Reachable (signIns conf) FreshLogin s'.signIns) : Linked conf sha256 s' := by
  simp only [drawnStep] at hstep
  split at hstep
  · obtain rfl := Option.some.inj hstep
    exact h
  · rename_i reply hreply
    obtain rfl := Option.some.inj hstep
    obtain ⟨-, state, nonce, codeVerifier, hdraw, hsession, hredirect, hcookie⟩ :=
      oidcLogin_ok hreply
    refine ⟨hreach, ?_, ?_, ?_, ?_, ?_, ?_⟩
    · rw [List.map_append, ← h.issued]
      rfl
    · rw [List.map_append, List.map_append, h.drawn, hdraw, hsession]
      rfl
    · rw [hdraw, Option.toList_some, List.nodup_append]
      refine ⟨h.nodup, List.nodup_singleton _, fun a ha b hb hab => ?_⟩
      rw [hab, List.mem_singleton.mp hb] at ha
      exact hfresh state (by rw [hdraw]; rfl) ha
    · exact List.forall_mem_append.mpr ⟨h.redirect, List.forall_mem_singleton.mpr hredirect⟩
    · exact List.forall_mem_append.mpr ⟨h.cookie, List.forall_mem_singleton.mpr hcookie⟩
    · refine List.forall_mem_append.mpr ⟨h.verifier, List.forall_mem_singleton.mpr ?_⟩
      rw [hsession]
      exact wellFormed_encode codeVerifier

theorem Linked.step (h : Linked conf sha256 s) {action : LoginAction} (hfresh : FreshDraw s action)
    (hstep : drawnStep conf sha256 s action = some s') : Linked conf sha256 s' := by
  have hreach : Reachable (signIns conf) FreshLogin s'.signIns := by
    rcases drawnStep_refines h hfresh hstep with hsame | ⟨a, ha, hnext⟩
    · rw [hsame]
      exact h.reach
    · exact h.reach.step ha hnext
  cases action with
  | login draws => exact h.login hfresh hstep hreach
  | other action =>
    obtain ⟨hother, signIns, hsignIns, rfl⟩ := drawnStep_other hstep
    have hissued := issued_of_other hother hsignIns
    exact ⟨hreach, hissued.trans h.issued, by rw [hissued]; exact h.drawn, h.nodup, h.redirect,
      h.cookie, h.verifier⟩

theorem linked_of_reachable (h : Reachable (logins conf sha256) FreshDraw s) :
    Linked conf sha256 s := by
  apply Reachable.invariant ?_ (fun _ _ _ hs hfresh hstep => Linked.step hs hfresh hstep) h
  intro s ⟨hsignIns, hreplies, hdrawn⟩
  have hissued : s.signIns.issued = [] := hsignIns.2.2
  refine ⟨.initial hsignIns, ?_, ?_, ?_, ?_, ?_, ?_⟩
  · rw [hissued, hreplies]
    rfl
  · rw [hissued, hdrawn]
    rfl
  · rw [hdrawn]
    exact List.nodup_nil
  all_goals
    rw [hreplies]
    exact fun _ hmem => nomatch hmem

/-- If no two logins draw one state, the sessions are those of a run whose logins use texts of their
own; no two logins send one state along, and every callback that has shown the provider a verifier
carries the state of a login, in the query and in the cookie that was set then: the verifier is well
formed and that of the challenge sent along then, and the nonce of a token that is accepted is the
one sent along then. -/
theorem challenge_answered (h : Reachable (logins conf sha256) FreshDraw s) :
    Reachable (signIns conf) FreshLogin s.signIns ∧
    (s.replies.map (fun reply => reply.redirect.state)).Nodup ∧
    ∀ c ∈ s.signIns.callbacks, ∀ exchange, c.exchange = some exchange →
      ∃ reply ∈ s.replies, reply.redirect.state = c.request.state ∧
        c.request.cookie = some reply.stateCookie ∧
        reply.redirect.codeChallengeMethod = str "S256" ∧
        generateCodeChallenge sha256 exchange.codeVerifier = reply.redirect.codeChallenge ∧
        WellFormed exchange.codeVerifier ∧
        ∀ claims cookie, c.stage = .signedIn claims cookie →
          claims.nonce = reply.redirect.nonce := by
  have hlinked := linked_of_reachable h
  refine ⟨hlinked.reach, ?_, fun c hc exchange hexchange => ?_⟩
  · have hstates : s.replies.map (fun reply => reply.redirect.state) =
        s.drawn.map (fun bytes => encode url false bytes.val) := by
      rw [← hlinked.drawn, hlinked.issued, List.map_map]
      refine List.map_congr_left (fun reply hreply => ?_)
      rw [hlinked.redirect reply hreply]
      rfl
    rw [hstates]
    exact hlinked.nodup.map (fun a b => text_inj)
  · have hsound := (singleUse_of_reachable hlinked.reach).sound c hc
    obtain ⟨session, hsession, rfl⟩ := hsound.exchange exchange hexchange
    obtain ⟨hissued, hstate, hcookie⟩ := hsound.session session hsession
    rw [hlinked.issued] at hissued
    obtain ⟨reply, hreply, rfl⟩ := List.mem_map.mp hissued
    have hredirect := hlinked.redirect reply hreply
    refine ⟨reply, hreply, ?_, ?_, ?_, ?_, hlinked.verifier reply hreply, ?_⟩
    · rw [hredirect]
      exact hstate.symm
    · rw [hlinked.cookie reply hreply]
      exact hcookie
    · rw [hredirect]
    · rw [hredirect]
    · intro claims cookie hstage
      obtain ⟨-, session, hsession', hnonce, -⟩ := hsound.signedIn claims cookie hstage
      obtain rfl := Option.some.inj (hsession.symm.trans hsession')
      rw [hredirect]
      exact hnonce

def drawnOf (c : UInt8) : Drawn := ⟨List.replicate 32 c, List.length_replicate⟩

/-- The parameters that the first login sends along. -/
def firstState : GoString := encode url false (drawnOf 1).val

def firstNonce : GoString := encode url false (drawnOf 2).val

/-- A login that cannot draw its nonce, one that can, and its callback. -/
def drawnLogin : List LoginAction :=
  [ .login ⟨some (drawnOf 4), none, none⟩,
    .login ⟨some (drawnOf 1), some (drawnOf 2), some (drawnOf 3)⟩,
    .other (.arrive {state := firstState, cookie := some firstState, code := [99]}),
    .other (.claim 0),
    .other (.exchange 0 (some {idToken := .claims {teamClaims with nonce := firstNonce}})),
    .other (.finish 0 true) ]

theorem challenge_answered_drawn :
    ∃ s, Reachable (logins teamProvider id) FreshDraw s ∧
      ∃ c ∈ s.signIns.callbacks, ∃ reply ∈ s.replies, reply.redirect.state = c.request.state ∧
        ∃ exchange, c.exchange = some exchange ∧ WellFormed exchange.codeVerifier ∧
          generateCodeChallenge id exchange.codeVerifier = reply.redirect.codeChallenge := by
  obtain ⟨s, hreach, c, hc, hsome⟩ :=
    Reachable.exists_of_replay (S := logins teamProvider id) (G := FreshDraw)
      (fun s => ∃ c ∈ s.signIns.callbacks, c.exchange.isSome) {} drawnLogin
      ⟨⟨rfl, rfl, rfl⟩, rfl, rfl⟩ (by decide +kernel)
  obtain ⟨exchange, hexchange⟩ := Option.isSome_iff_exists.mp hsome
  obtain ⟨reply, hreply, hstate, -, -, hchallenge, hverifier, -⟩ :=
    (challenge_answered hreach).2.2 c hc exchange hexchange
  exact ⟨s, hreach, c, hc, reply, hreply, hstate, exchange, hexchange, hverifier, hchallenge⟩

end QuotientScoring.WWW
