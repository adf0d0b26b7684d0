import QuotientScoring.WWW.Sessions

/-! Whether an expired session is renewed.

`GetOIDCUserInfo` asks the provider for a session that has expired, stores what it
answers and calls itself again, reading the clock anew in every turn. The store drops an entry
by itself when the session expires, so mostly there is nothing left to renew; and where a
lifetime is not positive, what is stored has expired when it is read again, and the read goes on
for as long as the provider answers (`readSession_diverges`). `session_renewed_iff` says when a
session is renewed, and at once. -/
namespace QuotientScoring.WWW
open DB GoText GoTime Config

/-- `storeOIDCUserInfo`: the TTL is the time from `now` to the expiry, and the store counts it
from when the call reaches it, at `stored`. Without a positive TTL it keeps the entry. -/
def storeOIDCUserInfo (now stored : Int) (username : GoString) (groups : List GoString)
    (roles : List Role) (expiresAt : Int) (refreshToken : GoString) : OidcEntry :=
  ⟨⟨username, groups, roles, expiresAt, refreshToken⟩,
    if now < expiresAt then some (stored + (expiresAt - now)) else none⟩

/-- When things happen in one turn of `GetOIDCUserInfo`. -/
structure Turn where
  /-- The store looks for the key. -/
  found : Int
  /-- `time.Now()` in the test of the expiry. -/
  tested : Int
  /-- `time.Now()` from which the refresh counts the new expiry. -/
  refreshed : Int
  /-- `time.Until`, which gives the TTL. -/
  counted : Int
  /-- The store has the new entry. -/
  stored : Int

/-- The turns of one read, one after another. -/
abbrev Clock := Nat → Turn

/-- Time goes on, and a message to the store or back takes some. -/
structure Clock.Onward (clock : Clock) : Prop where
  found : ∀ i, (clock i).found < (clock i).tested
  tested : ∀ i, (clock i).tested ≤ (clock i).refreshed
  refreshed : ∀ i, (clock i).refreshed ≤ (clock i).counted
  counted : ∀ i, (clock i).counted < (clock i).stored
  stored : ∀ i, (clock i).stored ≤ (clock (i + 1)).found

theorem Clock.Onward.tested_lt {clock : Clock} (h : clock.Onward) (i : Nat) :
    (clock i).tested < (clock (i + 1)).tested := by
  have htested := h.tested i
  have hrefreshed := h.refreshed i
  have hcounted := h.counted i
  have hstored := h.stored i
  have hfound := h.found (i + 1)
  omega

/-- The provider's answers to the calls of one read, by their number and the refresh token. -/
abbrev RefreshAnswers := Nat → GoString → Option OidcReply

variable (conf : ConfigSettings) (answers : RefreshAnswers) (clock : Clock) (username : GoString)

/-- `tryRefreshOIDCSession`, as time goes on. -/
def refreshOIDCSession (turn : Turn) (oldInfo : OidcUserInfo) (reply : OidcReply) :
    Option OidcEntry :=
  let (newUsername, groups, roles) := extractUserInfoFromClaims conf reply.claims
  if newUsername ≠ username then none
  else some (storeOIDCUserInfo turn.counted turn.stored username groups roles
    (turn.refreshed + seconds (getRefreshTokenExpiry conf roles))
    (if reply.refreshToken = [] then oldInfo.refreshToken else reply.refreshToken))

/-- `GetOIDCUserInfo` on the entry of its name, calling itself at most `fuel` times: the answer,
and how often the provider was called. It is `none` where that was not enough. -/
def readSession : Nat → Nat → Option OidcEntry → Option (Option OidcUserInfo × Nat)
  | 0, _, _ => none
  | _ + 1, calls, none => some (none, calls)
  | fuel + 1, calls, some entry =>
    if entry.evictedAt.any (fun evictedAt => evictedAt ≤ (clock calls).found) then
      some (none, calls)
    else if (clock calls).tested ≤ entry.info.expiresAt then some (some entry.info, calls)
    else if entry.info.refreshToken = [] ∨ conf.oidcSettings.oidcEnabled = false then
      some (none, calls)
    else
      match answers calls entry.info.refreshToken with
      | none => some (none, calls + 1)
      | some reply =>
        match refreshOIDCSession conf username (clock calls) entry.info reply with
        | none => some (none, calls + 1)
        -- every turn before this one has called the provider once
        | some entry => readSession fuel (calls + 1) (some entry)

/-- The read ends with one call of the provider at most, and a session that expires later. -/
def Renewed (entry : OidcEntry) : Prop :=
  ∃ fuel info calls, readSession conf answers clock username fuel 0 (some entry) =
    some (some info, calls) ∧ calls ≤ 1 ∧ entry.info.expiresAt < info.expiresAt

/-- How long a session with the answer lasts. -/
def lifetime (reply : OidcReply) : Int :=
  seconds (getRefreshTokenExpiry conf (extractUserInfoFromClaims conf reply.claims).2.2)

variable {conf answers clock username}

/-! ### The two ways to read an entry -/

/-- A clock that stands still. -/
def Clock.still (now : Int) : Clock := fun _ => ⟨now, now, now, now, now⟩

theorem refreshOIDCSession_still (now : Int) (oldInfo : OidcUserInfo) (reply : OidcReply) :
    refreshOIDCSession conf username ⟨now, now, now, now, now⟩ oldInfo reply =
      tryRefreshOIDCSession conf now username oldInfo reply := by
  have hcounted : ∀ expiresAt : Int, now + (expiresAt - now) = expiresAt := by
    intro expiresAt
    omega
  simp only [refreshOIDCSession, tryRefreshOIDCSession, storeOIDCUserInfo, oidcEntry, hcounted]

/-- Where the provider's answers come to an end and no time passes, so does the read, as
`readOIDCEntry` has it. -/
theorem readSession_replies (now : Int) (replies : List OidcReply) {fuel calls : Nat}
    {entry : Option OidcEntry} (h : (replies.drop calls).length < fuel) :
    ∃ called, readSession conf (fun i _ => replies[i]?) (Clock.still now) username fuel calls entry =
      some ((readOIDCEntry conf now username (replies.drop calls) entry).1, called) := by
  induction fuel generalizing calls entry with
  | zero => exact absurd h (Nat.not_lt_zero _)
  | succ fuel ih =>
    cases entry with
    | none => exact ⟨calls, by cases replies.drop calls <;> rfl⟩
    | some entry =>
      have hget : replies[calls]? = (replies.drop calls)[0]? := by
        rw [List.getElem?_drop, Nat.add_zero]
      have htail : replies.drop (calls + 1) = (replies.drop calls).tail := List.tail_drop.symm
      have hturn : Clock.still now calls = ⟨now, now, now, now, now⟩ := rfl
      rw [readSession, readOIDCEntry.eq_def, hget, hturn]
      dsimp only
      split
      · exact ⟨calls, rfl⟩
      · split
        · exact ⟨calls, rfl⟩
        · split
          · exact ⟨calls, rfl⟩
          · cases hdrop : replies.drop calls with
            | nil => exact ⟨calls + 1, rfl⟩
            | cons reply rest =>
              rw [hdrop] at htail h
              cases hrefresh : tryRefreshOIDCSession conf now username entry.info reply with
              | none => exact ⟨calls + 1, by simp [refreshOIDCSession_still, hrefresh]⟩
              | some entry =>
                have hlt : (replies.drop (calls + 1)).length < fuel := by
                  rw [htail]
                  simpa using h
                obtain ⟨called, hcalled⟩ := @ih (calls + 1) (some entry) hlt
                rw [htail] at hcalled
                refine ⟨called, ?_⟩
                simp only [List.getElem?_cons_zero, refreshOIDCSession_still, hrefresh]
                exact hcalled

/-! ### One call of the provider -/

section Refresh
variable {entry : OidcEntry} {reply : OidcReply} {fuel calls : Nat}

/-- The store still has the entry when the turn looks for it. -/
def KeptFor (turn : Turn) (entry : OidcEntry) : Prop :=
  ∀ evictedAt, entry.evictedAt = some evictedAt → turn.found < evictedAt

theorem refresh_of_username (conf : ConfigSettings) (turn : Turn) (entry : OidcEntry)
    (hname : reply.claims.username = username) :
    ∃ refreshed, refreshOIDCSession conf username turn entry.info reply = some refreshed ∧
      refreshed.info.expiresAt = turn.refreshed + lifetime conf reply ∧
      (entry.info.refreshToken ≠ [] → refreshed.info.refreshToken ≠ []) ∧
      refreshed.evictedAt = if turn.counted < turn.refreshed + lifetime conf reply then
        some (turn.stored + (turn.refreshed + lifetime conf reply - turn.counted)) else none := by
  have hmatch : ¬(extractUserInfoFromClaims conf reply.claims).1 ≠ username := not_not.mpr hname
  refine ⟨_, if_neg hmatch, rfl, ?_, rfl⟩
  intro htoken
  show (if reply.refreshToken = [] then entry.info.refreshToken else reply.refreshToken) ≠ []
  split
  · exact htoken
  · assumption

theorem not_evicted_iff {turn : Turn} :
    ¬entry.evictedAt.any (fun evictedAt => evictedAt ≤ turn.found) = true ↔ KeptFor turn entry := by
  unfold KeptFor
  cases hevicted : entry.evictedAt with
  | none => simp
  | some evictedAt => simp

/-- What has been renewed is still kept by the next turn, if it has not expired by then. -/
theorem kept_refreshed {expiresAt : Int} {i : Nat} (honward : clock.Onward)
    (hevicted : entry.evictedAt = if (clock i).counted < expiresAt then
      some ((clock i).stored + (expiresAt - (clock i).counted)) else none)
    (hlasts : (clock (i + 1)).tested ≤ expiresAt) : KeptFor (clock (i + 1)) entry := by
  intro evictedAt hsome
  rw [hevicted] at hsome
  split at hsome
  · obtain rfl := Option.some.inj hsome
    have hfound := honward.found (i + 1)
    have hcounted := honward.counted i
    omega
  · cases hsome

/-- A session whose time is not over is handed out. -/
theorem readSession_fresh (h : (clock calls).tested ≤ entry.info.expiresAt)
    (hkept : KeptFor (clock calls) entry) :
    readSession conf answers clock username (fuel + 1) calls (some entry) =
      some (some entry.info, calls) := by
  rw [readSession, if_neg (not_evicted_iff.mpr hkept), if_pos h]

/-- An expired entry that is still there goes to the provider. -/
theorem readSession_expired (hkept : KeptFor (clock calls) entry)
    (hexpired : entry.info.expiresAt < (clock calls).tested) (htoken : entry.info.refreshToken ≠ [])
    (henabled : conf.oidcSettings.oidcEnabled = true)
    (haccept : answers calls entry.info.refreshToken = some reply)
    {refreshed : OidcEntry}
    (hrefresh : refreshOIDCSession conf username (clock calls) entry.info reply = some refreshed) :
    readSession conf answers clock username (fuel + 1) calls (some entry) =
      readSession conf answers clock username fuel (calls + 1) (some refreshed) := by
  rw [readSession, if_neg (not_evicted_iff.mpr hkept), if_neg (Int.not_le.mpr hexpired),
    if_neg (by simp [htoken, henabled]), haccept]
  dsimp only
  rw [hrefresh]

/-- The calls of the provider are counted up. -/
theorem calls_le {result : Option OidcUserInfo} {called : Nat} {found : Option OidcEntry}
    (h : readSession conf answers clock username fuel calls found = some (result, called)) :
    calls ≤ called := by
  induction fuel generalizing calls found with
  | zero => cases h
  | succ fuel ih =>
    cases found with
    | none =>
      obtain ⟨-, rfl⟩ := Prod.mk.inj (Option.some.inj h)
      exact le_rfl
    | some entry =>
      rw [readSession] at h
      split at h
      · exact (Prod.mk.inj (Option.some.inj h)).2.le
      · split at h
        · exact (Prod.mk.inj (Option.some.inj h)).2.le
        · split at h
          · exact (Prod.mk.inj (Option.some.inj h)).2.le
          · split at h
            · obtain ⟨-, rfl⟩ := Prod.mk.inj (Option.some.inj h)
              exact Nat.le_succ _
            · split at h
              · obtain ⟨-, rfl⟩ := Prod.mk.inj (Option.some.inj h)
                exact Nat.le_succ _
              · exact (Nat.le_succ _).trans (ih h)

/-- A session that has expired is not handed out without a call of the provider. -/
theorem calls_lt_of_expired {info : OidcUserInfo} {called : Nat}
    (hexpired : entry.info.expiresAt < (clock calls).tested)
    (h : readSession conf answers clock username fuel calls (some entry) =
      some (some info, called)) :
    calls < called ∧ KeptFor (clock calls) entry ∧ conf.oidcSettings.oidcEnabled = true := by
  cases fuel with
  | zero => cases h
  | succ fuel =>
    rw [readSession] at h
    split at h
    · cases h
    · rename_i hkept
      rw [if_neg (Int.not_le.mpr hexpired)] at h
      split at h
      · cases h
      · rename_i hrefreshable
        refine ⟨?_, ?_, ?_⟩
        · split at h
          · cases h
          · split at h
            · cases h
            · exact calls_le h
        · exact not_evicted_iff.mp hkept
        · simpa using (not_or.mp hrefreshable).2

end Refresh

/-- What a refresh stores without a time to last has expired by the next turn, and is kept. -/
theorem expired_refreshed (honward : clock.Onward) (i : Nat) {lasting : Int}
    (hlasting : lasting ≤ 0) : (clock i).refreshed + lasting < (clock (i + 1)).tested ∧
      ¬(clock i).counted < (clock i).refreshed + lasting := by
  have hrefreshed := honward.refreshed i
  have hcounted := honward.counted i
  have hstored := honward.stored i
  have hfound := honward.found (i + 1)
  omega

/-- The read goes on for as long as the provider answers, if no answer makes a session last. -/
theorem readSession_diverges (honward : clock.Onward)
    (henabled : conf.oidcSettings.oidcEnabled = true)
    (hanswers : ∀ i token, ∃ reply, answers i token = some reply ∧ reply.claims.username = username ∧
      lifetime conf reply ≤ 0) {entry : OidcEntry} (hthere : entry.evictedAt = none)
    (fuel calls : Nat) (hexpired : entry.info.expiresAt < (clock calls).tested)
    (htoken : entry.info.refreshToken ≠ []) :
    readSession conf answers clock username fuel calls (some entry) = none := by
  induction fuel generalizing calls entry with
  | zero => rfl
  | succ fuel ih =>
    obtain ⟨reply, haccept, hname, hlasting⟩ := hanswers calls entry.info.refreshToken
    obtain ⟨refreshed, hrefresh, hexpires, htoken', hevicted⟩ :=
      refresh_of_username conf (clock calls) entry hname
    obtain ⟨hover, hkept⟩ := expired_refreshed honward calls hlasting
    rw [readSession_expired (by simp [KeptFor, hthere]) hexpired htoken henabled haccept hrefresh]
    apply ih
    · rw [hevicted, if_neg hkept]
    · rw [hexpires]
      exact hover
    · exact htoken' htoken

/-- An expired session is renewed, with one call of the provider, exactly if the store still has
it and what the provider answers lasts until it is read again. -/
theorem session_renewed_iff {now stored expiresAt : Int} {groups : List GoString}
    {roles : List Role} {refreshToken : GoString} {reply : OidcReply} (honward : clock.Onward)
    (htoken : refreshToken ≠ []) (hexpired : expiresAt < (clock 0).tested)
    (haccept : answers 0 refreshToken = some reply) (hname : reply.claims.username = username) :
    Renewed conf answers clock username
        (storeOIDCUserInfo now stored username groups roles expiresAt refreshToken) ↔
      conf.oidcSettings.oidcEnabled = true ∧
        (expiresAt ≤ now ∨ (clock 0).found < stored + (expiresAt - now)) ∧
        (clock 1).tested - (clock 0).refreshed ≤ lifetime conf reply := by
  obtain ⟨refreshed, hrefresh, hexpires, -, hevicted⟩ := refresh_of_username conf (clock 0)
    (storeOIDCUserInfo now stored username groups roles expiresAt refreshToken) hname
  have hkept : KeptFor (clock 0)
      (storeOIDCUserInfo now stored username groups roles expiresAt refreshToken) ↔
        expiresAt ≤ now ∨ (clock 0).found < stored + (expiresAt - now) := by
    show (∀ evictedAt, (if now < expiresAt then some (stored + (expiresAt - now)) else none) =
      some evictedAt → (clock 0).found < evictedAt) ↔ _
    by_cases hlt : now < expiresAt
    · simp [hlt]
    · simp [hlt, Int.not_lt.mp hlt]
  constructor
  · intro h
    obtain ⟨fuel, info, calls, hread, hcalls, -⟩ := h
    obtain ⟨-, hthere, henabled⟩ := calls_lt_of_expired hexpired hread
    refine ⟨henabled, hkept.mp hthere, ?_⟩
    by_contra hshort
    cases fuel with
    | zero => cases hread
    | succ fuel =>
      rw [readSession_expired hthere hexpired htoken henabled haccept hrefresh] at hread
      -- it has expired again, so the provider is called a second time
      have hagain : refreshed.info.expiresAt < (clock 1).tested := by omega
      have hcalled := (calls_lt_of_expired hagain hread).1
      omega
  · intro h
    obtain ⟨henabled, hthere, hlasts⟩ := h
    have hfresh : (clock 1).tested ≤ refreshed.info.expiresAt := by omega
    refine ⟨2, refreshed.info, 1, ?_, le_rfl, ?_⟩
    · rw [readSession_expired (hkept.mpr hthere) hexpired htoken henabled haccept hrefresh]
      apply readSession_fresh hfresh
      exact kept_refreshed honward hevicted (hexpires ▸ hfresh)
    · have hlater : (clock 0).tested < (clock 1).tested := honward.tested_lt 0
      show expiresAt < refreshed.info.expiresAt
      omega

/-! ### Lifetimes -/

/-- A clock that moves on by one between any two things that happen. -/
def Clock.ticking (start : Int) : Clock := fun i =>
  ⟨start + 5 * i, start + 5 * i + 1, start + 5 * i + 2, start + 5 * i + 3, start + 5 * i + 4⟩

theorem Clock.onward_ticking (start : Int) : (Clock.ticking start).Onward := by
  constructor <;> intro i <;> simp only [Clock.ticking] <;> push_cast <;> omega

/-- A file with its own lifetimes for teams and admins. -/
def briefFile (team admin : Int64) : ConfigSettings :=
  { groupsFile with
    oidcSettings :=
      { groupsFile.oidcSettings with
        oidcRefreshTokenExpiryTeam := team
        oidcRefreshTokenExpiryAdmin := admin } }

/-- The provider knows alice for a member of the first team. -/
def aliceReply : OidcReply :=
  ⟨{subject := str "7", preferredUsername := str "alice", groups := [str "Blue_Team01"]}, str "t"⟩

/-- Stored for an admin, whose sessions have a negative lifetime, and renewed for a team. -/
theorem session_renewed_as_team :
    Renewed (setConfig .plain {} (briefFile 0 (-1))) (fun _ _ => some aliceReply) (Clock.ticking 5)
      (str "alice")
      (storeOIDCUserInfo 0 1 (str "alice") [str "Staff"] [.admin] (-1000000000) (str "t")) :=
  (session_renewed_iff (Clock.onward_ticking 5) (by decide +kernel) (by decide) rfl
      (by decide +kernel)).mpr
    ⟨by decide +kernel, .inl (by decide), by decide +kernel⟩

/-- With the default lifetimes the store has dropped a session by the time it has expired; with a
negative one, and with one that is zero in the 64 bits of a duration, the read never ends. -/
theorem session_not_renewed :
    let day := setConfig .plain {} groupsFile
    let brief := fun team => setConfig .plain {} (briefFile team 0)
    let stored := fun expiresAt =>
      storeOIDCUserInfo 0 1 (str "alice") [str "Blue_Team01"] [.team] expiresAt (str "t")
    Accepts .plain groupsFile day ∧
      ¬Renewed day (fun _ _ => some aliceReply) (Clock.ticking 86400000000001) (str "alice")
        (stored 86400000000000) ∧
      (Accepts .plain (briefFile (-1) 0) (brief (-1)) ∧
        ∀ fuel, readSession (brief (-1)) (fun _ _ => some aliceReply) (Clock.ticking 5) (str "alice")
          fuel 0 (some (stored (-1000000000))) = none) ∧
      Accepts .plain (briefFile (2 ^ 55) 0) (brief (2 ^ 55)) ∧
        ∀ fuel, readSession (brief (2 ^ 55)) (fun _ _ => some aliceReply) (Clock.ticking 5)
          (str "alice") fuel 0 (some (stored 0)) = none := by
  intro day brief stored
  have hdiverges : ∀ (team : Int64) (expiresAt : Int) (fuel : Nat), expiresAt ≤ 0 →
      (brief team).oidcSettings.oidcEnabled = true → lifetime (brief team) aliceReply ≤ 0 →
      readSession (brief team) (fun _ _ => some aliceReply) (Clock.ticking 5) (str "alice") fuel 0
        (some (stored expiresAt)) = none := by
    intro team expiresAt fuel hover henabled hlasting
    have hexpired : expiresAt < (Clock.ticking 5 0).tested := by
      show expiresAt < 5 + 5 * 0 + 1
      omega
    exact readSession_diverges (Clock.onward_ticking 5) henabled
      (fun _ _ => ⟨aliceReply, rfl, by decide +kernel, hlasting⟩) (if_neg (by omega)) fuel 0 hexpired
      (show str "t" ≠ [] by decide +kernel)
  refine ⟨by decide +kernel, ?_, ⟨by decide +kernel, fun fuel => ?_⟩, by decide +kernel,
    fun fuel => ?_⟩
  · intro hrenewed
    obtain ⟨fuel, info, calls, hread, -, -⟩ := hrenewed
    have hkept := (calls_lt_of_expired (by decide) hread).2.1 86400000000001 (by decide +kernel)
    exact absurd hkept (by decide)
  · exact hdiverges (-1) _ fuel (by decide) (by decide +kernel) (by decide +kernel)
  · exact hdiverges (2 ^ 55) _ fuel (by decide) (by decide +kernel) (by decide +kernel)

end QuotientScoring.WWW
