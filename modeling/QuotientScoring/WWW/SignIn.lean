import QuotientScoring.Lib.Transition
import QuotientScoring.WWW.OIDC

/-! Logins through the provider, interleaved.

A login puts a fresh state in a table, with a nonce and a code verifier. A callback
checks the state against its cookie, takes the entry out of the table, exchanges its
code and verifies the token it gets; between these steps anything else may happen.
Requests and the provider's answers are arbitrary.

`sign_in_single_use`: of the callbacks with one state at most one gets to the
exchange, and one that sets the session cookie did everything with what was generated
together with that state. The table entry is taken before anything can fail, so a
callback that fails has used its state up. -/
namespace QuotientScoring.WWW
open DB GoText Config Transition

structure OidcSession where
  state : GoString
  nonce : GoString
  codeVerifier : GoString
  createdAt : Int
deriving DecidableEq

/-- What a callback request carries; a query parameter that is missing is empty. -/
structure CallbackRequest where
  state : GoString
  cookie : Option GoString
  error : GoString := []
  code : GoString := []
deriving DecidableEq

/-- The claims of an ID token, with its nonce. -/
structure NonceClaims extends IDTokenClaims where
  nonce : GoString
deriving DecidableEq

/-- The ID token of an answer of the provider: none at all, one that does not verify, one
whose claims cannot be read, or its claims. -/
inductive IDToken where
  | missing
  | unverified
  | unreadable
  | claims (claims : NonceClaims)
deriving DecidableEq

structure OAuth2Token where
  idToken : IDToken
  refreshToken : GoString := []
deriving DecidableEq

/-- What is sent to the provider in exchange for a token. -/
structure Exchange where
  code : GoString
  codeVerifier : GoString
deriving DecidableEq

inductive CallbackStage where
  | arrived
  /-- The table entry has been taken. -/
  | claimed
  | exchanged (token : OAuth2Token)
  | refused (err : HttpError)
  /-- The session cookie has been set. -/
  | signedIn (claims : NonceClaims) (cookie : Cookie)
deriving DecidableEq

/-- A callback: its request, the entry it took, and what it sent to the provider. -/
structure Callback where
  request : CallbackRequest
  stage : CallbackStage := .arrived
  session : Option OidcSession := none
  exchange : Option Exchange := none
deriving DecidableEq

/-- The table `oidcSessions`, the store of identities, the callbacks, and everything that
has ever been put in the table. -/
structure SignIns where
  now : Int := 0
  oidcSessions : GoMap GoString OidcSession := ∅
  store : OidcStore := ∅
  callbacks : List Callback := []
  issued : List OidcSession := []

variable (conf : ConfigSettings)

/-! ### The steps of a callback -/

/-- Up to the table: the entry of the state, and the table without it. -/
def claimSession (oidcSessions : GoMap GoString OidcSession) (request : CallbackRequest) :
    Except HttpError (OidcSession × GoMap GoString OidcSession) :=
  if !conf.oidcSettings.oidcEnabled then .error ⟨404, str "OIDC authentication is not enabled"⟩
  else if request.state = [] then .error ⟨400, str "Invalid authentication response"⟩
  else if request.cookie ≠ some request.state then
    .error ⟨400, str "Invalid authentication state"⟩
  else match oidcSessions.lookup request.state with
    | none => .error ⟨400, str "Invalid authentication session"⟩
    | some session => .ok (session, oidcSessions.erase request.state)

/-- What is sent to the provider. -/
def codeExchange (request : CallbackRequest) (session : OidcSession) : Except HttpError Exchange :=
  if request.error ≠ [] then .error ⟨400, str "Authentication failed"⟩
  else if request.code = [] then .error ⟨400, str "Invalid authentication response"⟩
  else .ok ⟨request.code, session.codeVerifier⟩

/-- The token is one for the session, with claims that can be used. -/
def verifyToken (session : OidcSession) (token : OAuth2Token) : Except HttpError NonceClaims :=
  match token.idToken with
  | .missing => .error ⟨500, str "Failed to complete authentication"⟩
  | .unverified => .error ⟨500, str "Failed to verify authentication"⟩
  | .unreadable => .error ⟨500, str "Failed to process authentication"⟩
  | .claims claims =>
    if claims.nonce ≠ session.nonce then .error ⟨500, str "Failed to verify authentication"⟩
    else .ok claims

/-- A callback that has arrived takes its entry. -/
def Callback.claim (s : SignIns) (callback : Callback) :
    Callback × GoMap GoString OidcSession :=
  match claimSession conf s.oidcSessions callback.request with
  | .error err => ({callback with stage := .refused err}, s.oidcSessions)
  | .ok (session, oidcSessions) =>
    ({callback with stage := .claimed, session := some session}, oidcSessions)

/-- A callback exchanges its code; `none` is a failure of the provider. -/
def Callback.send (callback : Callback) (session : OidcSession) (answer : Option OAuth2Token) :
    Callback :=
  match codeExchange callback.request session with
  | .error err => {callback with stage := .refused err}
  | .ok exchange =>
    match answer with
    | none =>
      { callback with
        stage := .refused ⟨500, str "Failed to complete authentication"⟩
        exchange := some exchange }
    | some token => {callback with stage := .exchanged token, exchange := some exchange}

/-- A callback verifies its token, stores the identity and sets the cookie, if it can be
encoded. -/
def Callback.finish (s : SignIns) (callback : Callback) (session : OidcSession)
    (token : OAuth2Token) (encoded : Bool) : Callback × OidcStore :=
  match verifyToken session token with
  | .error err => ({callback with stage := .refused err}, s.store)
  | .ok claims =>
    match oidcCallback conf s.now s.store ⟨claims.toIDTokenClaims, token.refreshToken⟩ with
    | .error err => ({callback with stage := .refused err}, s.store)
    | .ok (cookie, store) =>
      if encoded then ({callback with stage := .signedIn claims cookie}, store)
      else ({callback with stage := .refused ⟨500, str "Failed to create session"⟩}, store)

/-! ### Runs -/

inductive SignInAction where
  | login (state nonce codeVerifier : GoString)
  | arrive (request : CallbackRequest)
  | claim (i : Nat)
  | exchange (i : Nat) (answer : Option OAuth2Token)
  | finish (i : Nat) (encoded : Bool)
  | cleanup
  | wait (until_ : Int)
deriving DecidableEq

/-- Ten minutes. -/
def sessionLifetime : Int := 600 * 1000000000

/-- `cleanupOIDCSessions`, once: the entries that are not too old. -/
def cleanupOIDCSessions (now : Int) (oidcSessions : GoMap GoString OidcSession) :
    GoMap GoString OidcSession :=
  (oidcSessions.entries.filter (fun e => now - e.2.createdAt > sessionLifetime)).foldl
    (fun m e => m.erase e.1) oidcSessions

def signInStep (s : SignIns) : SignInAction → Option SignIns
  | .login state nonce codeVerifier =>
    if !conf.oidcSettings.oidcEnabled then some s
    else
      let session := ⟨state, nonce, codeVerifier, s.now⟩
      some { s with
        oidcSessions := s.oidcSessions.insert state session
        issued := s.issued ++ [session] }
  | .arrive request => some {s with callbacks := s.callbacks ++ [{request := request}]}
  | .claim i =>
    match s.callbacks[i]? with
    | some callback =>
      if callback.stage ≠ .arrived then none
      else
        let claimed := callback.claim conf s
        some {s with oidcSessions := claimed.2, callbacks := s.callbacks.set i claimed.1}
    | none => none
  | .exchange i answer =>
    match s.callbacks[i]? with
    | some callback =>
      match callback.stage, callback.session with
      | .claimed, some session =>
        some {s with callbacks := s.callbacks.set i (callback.send session answer)}
      | _, _ => none
    | none => none
  | .finish i encoded =>
    match s.callbacks[i]? with
    | some callback =>
      match callback.stage, callback.session with
      | .exchanged token, some session =>
        let finished := callback.finish conf s session token encoded
        some {s with store := finished.2, callbacks := s.callbacks.set i finished.1}
      | _, _ => none
    | none => none
  | .cleanup => some {s with oidcSessions := cleanupOIDCSessions s.now s.oidcSessions}
  | .wait now => some {s with now := now}

def signIns : System SignIns SignInAction where
  initial := fun s => s.oidcSessions = ∅ ∧ s.callbacks = [] ∧ s.issued = []
  step := signInStep conf

/-- No two logins are given one state. -/
def FreshLogin (s : SignIns) : SignInAction → Prop
  | .login state _ _ => ∀ session ∈ s.issued, session.state ≠ state
  | _ => True

instance (s : SignIns) : (a : SignInAction) → Decidable (FreshLogin s a)
  | .login state _ _ => inferInstanceAs (Decidable (∀ session ∈ s.issued, session.state ≠ state))
  | .arrive _ | .claim _ | .exchange _ _ | .finish _ _ | .cleanup | .wait _ => .isTrue trivial

variable {conf}

/-! ### What a step gives -/

theorem claimSession_ok {oidcSessions oidcSessions' : GoMap GoString OidcSession}
    {request : CallbackRequest} {session : OidcSession}
    (h : claimSession conf oidcSessions request = .ok (session, oidcSessions')) :
    request.cookie = some request.state ∧ oidcSessions.lookup request.state = some session ∧
      oidcSessions' = oidcSessions.erase request.state := by
  unfold claimSession at h
  split at h
  · cases h
  split at h
  · cases h
  split at h
  · cases h
  rename_i hcookie
  split at h
  · cases h
  · rename_i hlookup
    cases h
    exact ⟨Classical.not_not.mp hcookie, hlookup, rfl⟩

theorem codeExchange_ok {request : CallbackRequest} {session : OidcSession} {exchange : Exchange}
    (h : codeExchange request session = .ok exchange) :
    exchange = ⟨request.code, session.codeVerifier⟩ := by
  unfold codeExchange at h
  split at h
  · cases h
  split at h
  · cases h
  · cases h
    rfl

theorem verifyToken_ok {session : OidcSession} {token : OAuth2Token} {claims : NonceClaims}
    (h : verifyToken session token = .ok claims) : claims.nonce = session.nonce := by
  unfold verifyToken at h
  split at h
  · cases h
  · cases h
  · cases h
  · split at h
    · cases h
    · rename_i hnonce
      cases h
      exact Classical.not_not.mp hnonce

/-- The roles the claims map to. -/
def rolesOf (conf : ConfigSettings) (claims : IDTokenClaims) : List Role :=
  (extractUserInfoFromClaims conf claims).2.2

theorem oidcCallback_ok {now : Int} {store : OidcStore} {reply : OidcReply}
    {result : Cookie × OidcStore} (h : oidcCallback conf now store reply = .ok result) :
    rolesOf conf reply.claims ≠ [] := by
  unfold oidcCallback at h
  split at h
  · cases h
  dsimp only at h
  split at h
  · cases h
  split at h
  · cases h
  · assumption

/-! ### One callback -/

/-- Whatever a callback has got so far, it got with an entry of the table under its own
state, which its cookie carried too. -/
structure Callback.Sound (conf : ConfigSettings) (issued : List OidcSession)
    (callback : Callback) : Prop where
  arrived : callback.stage = .arrived → callback.session = none
  session : ∀ session, callback.session = some session → session ∈ issued ∧
    callback.request.state = session.state ∧ callback.request.cookie = some session.state
  exchange : ∀ exchange, callback.exchange = some exchange →
    ∃ session, callback.session = some session ∧
      exchange = ⟨callback.request.code, session.codeVerifier⟩
  exchanged : ∀ token, callback.stage = .exchanged token → callback.exchange.isSome
  signedIn : ∀ claims cookie, callback.stage = .signedIn claims cookie →
    callback.exchange.isSome ∧
      ∃ session, callback.session = some session ∧ claims.nonce = session.nonce ∧
        rolesOf conf claims.toIDTokenClaims ≠ []

/-- A refusal takes nothing back. -/
theorem Callback.Sound.refuse {issued : List OidcSession} {callback : Callback}
    (h : callback.Sound conf issued) (err : HttpError) :
    Callback.Sound conf issued {callback with stage := .refused err} where
  arrived hs := by cases hs
  session := h.session
  exchange := h.exchange
  exchanged _ hs := by cases hs
  signedIn _ _ hs := by cases hs

theorem Callback.Sound.mono {issued issued' : List OidcSession} {callback : Callback}
    (h : callback.Sound conf issued) (hsub : ∀ session ∈ issued, session ∈ issued') :
    callback.Sound conf issued' where
  arrived := h.arrived
  session session hs := ⟨hsub _ (h.session session hs).1, (h.session session hs).2⟩
  exchange := h.exchange
  exchanged := h.exchanged
  signedIn := h.signedIn

/-- What the exchange of a callback keeps and adds. -/
theorem Callback.Sound.send {issued : List OidcSession} {callback : Callback}
    (h : callback.Sound conf issued) {session : OidcSession}
    (hsession : callback.session = some session) (answer : Option OAuth2Token) :
    (callback.send session answer).Sound conf issued ∧
      (callback.send session answer).request = callback.request ∧
      (callback.send session answer).session = callback.session := by
  unfold Callback.send
  split
  · exact ⟨h.refuse _, rfl, rfl⟩
  · rename_i exchange hexchange
    have hnew : ∀ e, some exchange = some e → ∃ session, callback.session = some session ∧
        e = ⟨callback.request.code, session.codeVerifier⟩ := by
      intro e he
      obtain rfl := Option.some.inj he
      exact ⟨session, hsession, codeExchange_ok hexchange⟩
    split
    · exact ⟨⟨nofun, h.session, hnew, nofun, nofun⟩, rfl, rfl⟩
    · exact ⟨⟨nofun, h.session, hnew, fun _ _ => rfl, nofun⟩, rfl, rfl⟩

theorem Callback.Sound.finish {issued : List OidcSession} {callback : Callback}
    (h : callback.Sound conf issued) (s : SignIns) {session : OidcSession}
    (hsession : callback.session = some session) {token : OAuth2Token}
    (hstage : callback.stage = .exchanged token) (encoded : Bool) :
    (callback.finish conf s session token encoded).1.Sound conf issued ∧
      (callback.finish conf s session token encoded).1.request = callback.request ∧
      (callback.finish conf s session token encoded).1.session = callback.session := by
  unfold Callback.finish
  split
  · exact ⟨h.refuse _, rfl, rfl⟩
  · rename_i claims hverify
    split
    · exact ⟨h.refuse _, rfl, rfl⟩
    · rename_i cookie store hcallback
      split
      · refine ⟨⟨nofun, h.session, h.exchange, nofun, fun claims' cookie' hs => ?_⟩, rfl, rfl⟩
        obtain ⟨rfl, rfl⟩ := CallbackStage.signedIn.inj hs
        have hroles := oidcCallback_ok hcallback
        exact ⟨h.exchanged token hstage, session, hsession, verifyToken_ok hverify, hroles⟩
      · exact ⟨h.refuse _, rfl, rfl⟩

/-! ### All callbacks -/

/-- An entry is in the table, or with one callback, or gone. -/
structure SingleUse (conf : ConfigSettings) (s : SignIns) : Prop where
  table : ∀ state session, s.oidcSessions.lookup state = some session →
    session ∈ s.issued ∧ session.state = state
  sound : ∀ callback ∈ s.callbacks, callback.Sound conf s.issued
  taken : ∀ callback ∈ s.callbacks, callback.session.isSome →
    s.oidcSessions.lookup callback.request.state = none
  apart : ∀ (i j : Nat) (c d : Callback), s.callbacks[i]? = some c → s.callbacks[j]? = some d →
    c.session.isSome → d.session.isSome → c.request.state = d.request.state → i = j

theorem lookup_foldl_erase {m : GoMap GoString OidcSession}
    {old : List (Sigma fun _ : GoString => OidcSession)} {state : GoString} {session : OidcSession}
    (h : (old.foldl (fun m e => m.erase e.1) m).lookup state = some session) :
    m.lookup state = some session := by
  induction old generalizing m with
  | nil => exact h
  | cons e rest ih =>
    have hrest := ih h
    by_cases he : state = e.1
    · rw [he, AList.lookup_erase] at hrest
      cases hrest
    · rwa [AList.lookup_erase_ne he] at hrest

/-- The table only loses entries. -/
theorem SingleUse.shrink {s : SignIns} (h : SingleUse conf s)
    {oidcSessions : GoMap GoString OidcSession}
    (hsub : ∀ state session, oidcSessions.lookup state = some session →
      s.oidcSessions.lookup state = some session) :
    SingleUse conf {s with oidcSessions := oidcSessions} where
  table state session hs := h.table state session (hsub state session hs)
  sound := h.sound
  taken callback hc hsome := by
    show oidcSessions.lookup _ = none
    cases hl : oidcSessions.lookup callback.request.state with
    | none => rfl
    | some session =>
      have hold := hsub _ _ hl
      rw [h.taken callback hc hsome] at hold
      cases hold
  apart := h.apart

theorem getElem?_set_cases {α : Type} {l : List α} {i j : Nat} {a b : α}
    (h : (l.set i a)[j]? = some b) : (j = i ∧ b = a) ∨ (j ≠ i ∧ l[j]? = some b) := by
  rw [List.getElem?_set] at h
  split at h
  · rename_i hij
    split at h
    · exact .inl ⟨hij.symm, (Option.some.inj h).symm⟩
    · cases h
  · rename_i hij
    exact .inr ⟨fun hji => hij hji.symm, h⟩

/-- A callback goes on with the entry it has, if it has one. -/
theorem SingleUse.advance {s : SignIns} (h : SingleUse conf s) {i : Nat} {c c' : Callback}
    (hc : s.callbacks[i]? = some c) (hsound : c'.Sound conf s.issued)
    (hrequest : c'.request = c.request) (hsession : c'.session = c.session) (store : OidcStore) :
    SingleUse conf {s with store := store, callbacks := s.callbacks.set i c'} := by
  have hback : ∀ (j : Nat) (d : Callback), (s.callbacks.set i c')[j]? = some d →
      ∃ d' : Callback, s.callbacks[j]? = some d' ∧ d.request = d'.request ∧
        d.session = d'.session := by
    intro j d hd
    rcases getElem?_set_cases hd with ⟨rfl, rfl⟩ | ⟨_, hold⟩
    · exact ⟨c, hc, hrequest, hsession⟩
    · exact ⟨d, hold, rfl, rfl⟩
  refine ⟨h.table, fun d hd => ?_, fun d hd hsome => ?_, fun j k a b ha hb hsa hsb hst => ?_⟩
  · rcases List.mem_or_eq_of_mem_set hd with hold | rfl
    · exact h.sound d hold
    · exact hsound
  · obtain ⟨j, hj⟩ := List.mem_iff_getElem?.mp hd
    obtain ⟨d', hd', hr, hs⟩ := hback j d hj
    rw [hs] at hsome
    rw [hr]
    exact h.taken d' (List.mem_of_getElem? hd') hsome
  · obtain ⟨a', ha', hra, hsa'⟩ := hback j a ha
    obtain ⟨b', hb', hrb, hsb'⟩ := hback k b hb
    rw [hsa'] at hsa
    rw [hsb'] at hsb
    rw [hra, hrb] at hst
    exact h.apart j k a' b' ha' hb' hsa hsb hst

/-- A login puts its state in the table. No callback has an entry of that state. -/
theorem SingleUse.login {s : SignIns} (h : SingleUse conf s) (session : OidcSession)
    (hfresh : ∀ old ∈ s.issued, old.state ≠ session.state) :
    SingleUse conf { s with
      oidcSessions := s.oidcSessions.insert session.state session
      issued := s.issued ++ [session] } where
  table state found hs := by
    dsimp only at hs ⊢
    by_cases hstate : state = session.state
    · subst hstate
      rw [AList.lookup_insert] at hs
      obtain rfl := Option.some.inj hs
      exact ⟨List.mem_append_right _ (List.mem_singleton_self _), rfl⟩
    · rw [AList.lookup_insert_ne hstate] at hs
      obtain ⟨hissued, hst⟩ := h.table state found hs
      exact ⟨List.mem_append_left _ hissued, hst⟩
  sound callback hc := (h.sound callback hc).mono fun _ hold => List.mem_append_left _ hold
  taken callback hc hsome := by
    obtain ⟨old, hold⟩ := Option.isSome_iff_exists.mp hsome
    obtain ⟨hissued, hst, _⟩ := (h.sound callback hc).session old hold
    have hne : callback.request.state ≠ session.state := hst ▸ hfresh old hissued
    dsimp only
    rw [AList.lookup_insert_ne hne]
    exact h.taken callback hc hsome
  apart := h.apart

/-- A callback that has arrived has taken nothing yet. -/
theorem SingleUse.arrive {s : SignIns} (h : SingleUse conf s) (request : CallbackRequest) :
    SingleUse conf {s with callbacks := s.callbacks ++ [{request := request}]} where
  table := h.table
  sound callback hc := by
    rcases List.mem_append.mp hc with hold | hnew
    · exact h.sound callback hold
    · obtain rfl := List.mem_singleton.mp hnew
      exact ⟨fun _ => rfl, nofun, nofun, nofun, nofun⟩
  taken callback hc hsome := by
    rcases List.mem_append.mp hc with hold | hnew
    · exact h.taken callback hold hsome
    · obtain rfl := List.mem_singleton.mp hnew
      cases hsome
  apart i j c d hc hd hsc hsd hst := by
    have hold : ∀ (k : Nat) (e : Callback), (s.callbacks ++ [{request := request}])[k]? = some e →
        e.session.isSome → s.callbacks[k]? = some e := by
      intro k e he hse
      rw [List.getElem?_append] at he
      split at he
      · exact he
      · have hmem := List.mem_of_getElem? he
        obtain rfl := List.mem_singleton.mp hmem
        cases hse
    exact h.apart i j c d (hold i c hc hsc) (hold j d hd hsd) hsc hsd hst

/-- A callback takes the entry of its state: it was in the table, so no other callback has
one of that state. -/
theorem SingleUse.claim {s : SignIns} (h : SingleUse conf s) {i : Nat} {c : Callback}
    (hc : s.callbacks[i]? = some c) (hstage : c.stage = .arrived) :
    SingleUse conf { s with
      oidcSessions := (c.claim conf s).2
      callbacks := s.callbacks.set i (c.claim conf s).1 } := by
  have hsound := h.sound c (List.mem_of_getElem? hc)
  unfold Callback.claim
  split
  · exact h.advance hc (hsound.refuse _) rfl rfl s.store
  · rename_i session oidcSessions hclaim
    obtain ⟨hcookie, hlookup, rfl⟩ := claimSession_ok hclaim
    obtain ⟨hissued, hstate⟩ := h.table _ _ hlookup
    -- every other callback that has an entry has one of another state
    have hother : ∀ d ∈ s.callbacks, d.session.isSome → d.request.state ≠ c.request.state := by
      intro d hd hsome heq
      have htaken := h.taken d hd hsome
      rw [heq, hlookup] at htaken
      cases htaken
    have hnone : c.exchange = none := by
      cases hex : c.exchange with
      | none => rfl
      | some exchange =>
        obtain ⟨old, hold, _⟩ := hsound.exchange exchange hex
        rw [hsound.arrived hstage] at hold
        cases hold
    refine ⟨fun state found hs => ?_, fun d hd => ?_, fun d hd hsome => ?_,
      fun j k a b ha hb hsa hsb hst => ?_⟩
    · dsimp only at hs
      by_cases hst : state = c.request.state
      · rw [hst, AList.lookup_erase] at hs
        cases hs
      · rw [AList.lookup_erase_ne hst] at hs
        exact h.table state found hs
    · rcases List.mem_or_eq_of_mem_set hd with hold | rfl
      · exact h.sound d hold
      · refine ⟨nofun, fun found hs => ?_, fun e he => ?_, nofun, nofun⟩
        · obtain rfl := Option.some.inj hs
          exact ⟨hissued, hstate.symm, hstate ▸ hcookie⟩
        · rw [hnone] at he
          cases he
    · dsimp only at hd ⊢
      rcases List.mem_or_eq_of_mem_set hd with hold | rfl
      · rw [AList.lookup_erase_ne (hother d hold hsome)]
        exact h.taken d hold hsome
      · exact AList.lookup_erase ..
    · rcases getElem?_set_cases ha with ⟨rfl, rfl⟩ | ⟨_, ha'⟩ <;>
        rcases getElem?_set_cases hb with ⟨rfl, rfl⟩ | ⟨_, hb'⟩
      · rfl
      · exact absurd hst.symm (hother b (List.mem_of_getElem? hb') hsb)
      · exact absurd hst (hother a (List.mem_of_getElem? ha') hsa)
      · exact h.apart j k a b ha' hb' hsa hsb hst

/-! ### Every run -/

theorem SingleUse.initial {s : SignIns} (h : (signIns conf).initial s) : SingleUse conf s := by
  obtain ⟨htable, hcallbacks, -⟩ := h
  refine ⟨fun state session hs => ?_, fun c hc => ?_, fun c hc => ?_, fun i j c d hc => ?_⟩
  · rw [htable] at hs
    cases hs
  · rw [hcallbacks] at hc
    cases hc
  · rw [hcallbacks] at hc
    cases hc
  · simp [hcallbacks] at hc

theorem SingleUse.step {s s' : SignIns} {action : SignInAction} (hs : SingleUse conf s)
    (hfresh : FreshLogin s action) (hstep : (signIns conf).step s action = some s') :
    SingleUse conf s' := by
  cases action with
  | login state nonce codeVerifier =>
    simp only [signIns, signInStep] at hstep
    split at hstep
    · cases hstep
      exact hs
    · cases hstep
      exact hs.login ⟨state, nonce, codeVerifier, s.now⟩ hfresh
  | arrive request =>
    cases hstep
    exact hs.arrive request
  | claim i =>
    simp only [signIns, signInStep] at hstep
    split at hstep
    · rename_i c hc
      split at hstep
      · cases hstep
      · rename_i hstage
        cases hstep
        exact hs.claim hc (Classical.not_not.mp hstage)
    · cases hstep
  | exchange i answer =>
    simp only [signIns, signInStep] at hstep
    split at hstep
    · rename_i c hc
      split at hstep
      · rename_i session hstage hsession
        cases hstep
        obtain ⟨hsound, hrequest, hkept⟩ :=
          (hs.sound c (List.mem_of_getElem? hc)).send hsession answer
        exact hs.advance hc hsound hrequest hkept s.store
      · cases hstep
    · cases hstep
  | finish i encoded =>
    simp only [signIns, signInStep] at hstep
    split at hstep
    · rename_i c hc
      split at hstep
      · rename_i token session hstage hsession
        cases hstep
        obtain ⟨hsound, hrequest, hkept⟩ :=
          (hs.sound c (List.mem_of_getElem? hc)).finish s hsession hstage encoded
        exact hs.advance hc hsound hrequest hkept _
      · cases hstep
    · cases hstep
  | cleanup =>
    cases hstep
    exact hs.shrink fun _ _ hl => lookup_foldl_erase hl
  | wait now =>
    cases hstep
    exact ⟨hs.table, hs.sound, hs.taken, hs.apart⟩

theorem singleUse_of_reachable {s : SignIns} (h : Reachable (signIns conf) FreshLogin s) :
    SingleUse conf s :=
  Reachable.invariant (fun _ => SingleUse.initial) (fun _ _ _ => SingleUse.step) h

/-- Of the callbacks with one state at most one gets to the code exchange, and a callback
that sets the session cookie carried a state that was issued, in the query and in the
cookie, exchanged its code with the verifier and got the nonce issued with it, and has
a role. -/
theorem sign_in_single_use {s : SignIns} (h : Reachable (signIns conf) FreshLogin s) :
    (∀ (i j : Nat) (c d : Callback), s.callbacks[i]? = some c → s.callbacks[j]? = some d →
      c.exchange.isSome → d.exchange.isSome → c.request.state = d.request.state → i = j) ∧
    ∀ c ∈ s.callbacks, ∀ claims cookie, c.stage = .signedIn claims cookie →
      ∃ session ∈ s.issued, c.request.state = session.state ∧
        c.request.cookie = some session.state ∧
        c.exchange = some ⟨c.request.code, session.codeVerifier⟩ ∧
        claims.nonce = session.nonce ∧
        (extractUserInfoFromClaims conf claims.toIDTokenClaims).2.2 ≠ [] := by
  have hs := singleUse_of_reachable h
  have hsession : ∀ c ∈ s.callbacks, c.exchange.isSome → c.session.isSome := by
    intro c hc hsome
    obtain ⟨exchange, hexchange⟩ := Option.isSome_iff_exists.mp hsome
    obtain ⟨session, hsession, _⟩ := (hs.sound c hc).exchange exchange hexchange
    rw [hsession, Option.isSome_some]
  refine ⟨fun i j c d hc hd hec hed hst => ?_, fun c hc claims cookie hstage => ?_⟩
  · exact hs.apart i j c d hc hd (hsession c (List.mem_of_getElem? hc) hec)
      (hsession d (List.mem_of_getElem? hd) hed) hst
  · have hsound := hs.sound c hc
    obtain ⟨hsome, session, hsession, hnonce, hroles⟩ := hsound.signedIn claims cookie hstage
    obtain ⟨exchange, hexchange⟩ := Option.isSome_iff_exists.mp hsome
    obtain ⟨session', hsession', rfl⟩ := hsound.exchange exchange hexchange
    rw [hsession] at hsession'
    obtain rfl := Option.some.inj hsession'
    obtain ⟨hissued, hstate, hcookie⟩ := hsound.session session hsession
    exact ⟨session, hissued, hstate, hcookie, hexchange, hnonce, hroles⟩

def teamClaims : NonceClaims := {subject := [116], groups := [[103]], nonce := [110]}

/-- One login, and two callbacks with its state, of which the second comes to the table
after the first. -/
def oneLogin : List SignInAction :=
  [ .login [115] [110] [118],
    .arrive {state := [115], cookie := some [115], code := [99]},
    .arrive {state := [115], cookie := some [115], code := [99]},
    .claim 0, .claim 1, .exchange 0 (some {idToken := .claims teamClaims}), .finish 0 true ]

def teamProvider : ConfigSettings :=
  {oidcSettings := {oidcEnabled := true, oidcTeamGroups := [[103]]}}

theorem sign_in_single_use_replayed :
    ∃ s, Reachable (signIns teamProvider) FreshLogin s ∧
      (∃ c ∈ s.callbacks, ∃ session ∈ s.issued, c.request.state = session.state ∧
        c.exchange = some ⟨c.request.code, session.codeVerifier⟩) ∧
      ∃ d ∈ s.callbacks, d.exchange = none := by
  obtain ⟨s, hreach, ⟨c, hc, hstage⟩, hrefused⟩ :=
    Reachable.exists_of_replay (S := signIns teamProvider) (G := FreshLogin)
      (fun s => (∃ c ∈ s.callbacks, c.stage = .signedIn teamClaims ⟨[116], some (str "oidc")⟩) ∧
        ∃ d ∈ s.callbacks, d.exchange = none)
      {} oneLogin ⟨rfl, rfl, rfl⟩ (by decide +kernel)
  obtain ⟨session, hissued, hstate, _, hexchange, _⟩ :=
    (sign_in_single_use hreach).2 c hc teamClaims _ hstage
  exact ⟨s, hreach, ⟨c, hc, session, hissued, hstate, hexchange⟩, hrefused⟩

end QuotientScoring.WWW
