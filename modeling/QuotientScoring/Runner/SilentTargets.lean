import QuotientScoring.Engine.DeadChecks
import QuotientScoring.Runner.HandleTask

/-! Targets that do not answer.

Nothing is up at the target: no connection comes about, no question, ping or request is answered,
and nothing can be logged in to. Of the sixteen kinds two can still pass, a command, which need not
ask the target anything, and a ping that is content with no answer at all; of the others no attempt
is a pass, so that whatever a runner tries, it pushes a failure: `silent_targets`. -/
namespace QuotientScoring.Checks
open DB GoText GoTime Attempts

def Fails {ε α : Type} (answer : Except ε α) : Prop := ∃ err, answer = .error err

structure Behaviour.Silent (b : Behaviour) : Prop where
  dial : Fails b.dial
  exchange : Fails b.exchange
  exchangeAgain : Fails b.exchangeAgain
  replies : b.replies = 0
  login : Fails b.login
  response : Fails b.response
  runShell : Fails b.runShell

theorem ne_ok_of_fails {ε α : Type} {answer : Except ε α} (h : Fails answer) (a : α) :
    answer ≠ .ok a := by
  obtain ⟨err, rfl⟩ := h
  exact fun heq => nomatch heq

section
variable {compiles : Compiles} {pkg : Packages} {teamID roundID : Nat} {teamIdentifier : GoString}
variable {b : Behaviour}

/-- Neither the question nor its repetition is answered. -/
theorem exchange_of_silent (h : b.Silent) (question : Option (GoString × DnsType))
    (address : GoString) (timeout : Int) (answers : List RR) :
    exchange pkg b question address timeout ≠ .ok answers := by
  have hagain := ne_ok_of_fails h.exchangeAgain answers
  obtain ⟨⟨err, late⟩, hexchange⟩ := h.exchange
  unfold exchange
  rw [hexchange]
  cases pkg.refuses (.exchange question address timeout) with
  | some err => exact fun heq => nomatch heq
  | none =>
    cases late with
    | true => exact hagain
    | false => exact fun heq => nomatch heq

theorem Ping.packetsRecv_of_silent {c : Ping} (h : b.replies = 0) : c.packetsRecv pkg b = 0 := by
  rw [Ping.packetsRecv, h, Nat.zero_min]

theorem Ping.not_all_of_silent {c : Ping} (h : b.replies = 0) :
    ¬(0 < c.count ∧ (c.packetsRecv pkg b : Int) = c.count.toInt) := by
  rintro ⟨hpos, heq⟩
  have htoInt : 0 < c.count.toInt := Int64.lt_iff_toInt_lt.mp hpos
  rw [Ping.packetsRecv_of_silent h] at heq
  omega

/-- All packets are lost. -/
theorem Ping.packetLoss_of_silent {c : Ping} (h : b.replies = 0) (hpings : 0 < pkg.pings) :
    c.packetLoss pkg b = 100 := by
  have hsent : 0 < c.packetsSent pkg := by
    unfold Ping.packetsSent
    split
    · rename_i hpos
      have htoInt : 0 < c.count.toInt := Int64.lt_iff_toInt_lt.mp hpos
      omega
    · exact hpings
  have hne : (c.packetsSent pkg : ℚ) ≠ 0 := Nat.cast_ne_zero.mpr hsent.ne'
  rw [Ping.packetLoss, Ping.packetsRecv_of_silent h, Nat.cast_zero, sub_zero, div_self hne, one_mul]

theorem Ping.test_of_silent {c : Ping} (h : b.replies = 0) (hcount : c.count ≠ 0)
    (hpings : 0 < pkg.pings) :
    c.test pkg b = .ok () ↔ c.allowPacketLoss = true ∧ 100 < c.percent.toInt := by
  unfold Ping.test
  split
  · rename_i hallow
    rw [require_eq_ok, Ping.packetLoss_of_silent h hpings, ge_iff_le, not_le, and_iff_right hallow]
    exact_mod_cast Iff.rfl
  · rename_i hallow
    rw [require_eq_ok, Ping.packetsRecv_of_silent h]
    exact iff_of_false (fun heq => hcount (Int64.toInt_inj.mp heq.symm))
      (fun hlax => hallow hlax.1)

/-- Without an answer a pinger waits five seconds. -/
theorem Ping.waits_of_silent {c : Ping} (h : b.replies = 0) : c.waits pkg b = 5000000000 := by
  rw [Ping.waits, if_neg (Ping.not_all_of_silent h)]

theorem passes_ping {c : Ping} : Passes (c.definition pkg b) ↔
    pkg.Allows (.newPinger c.target) ∧ b.client = .ok () ∧ b.ping = .ok () ∧
      c.test pkg b = .ok () := by
  simp [Ping.definition, and_assoc]

/-- The target makes no difference to the check: it is a command, or a ping that no answer at all
is enough for. -/
def Runner.Indifferent : Runner → Prop
  | .custom _ => True
  | .ping c => c.allowPacketLoss = true ∧ 100 < c.percent.toInt
  | _ => False

theorem passes_of_silent {r : Runner} (h : b.Silent) (hcount : r.Counted) (hpings : 0 < pkg.pings)
    (hpasses : Passes (r.definition compiles pkg teamID roundID teamIdentifier b)) :
    r.Indifferent := by
  have hdial := ne_ok_of_fails h.dial
  have hlogin := ne_ok_of_fails h.login
  have hresponse := ne_ok_of_fails h.response
  have hrunShell := ne_ok_of_fails h.runShell
  cases r with
  | custom c => exact trivial
  | ping c =>
    obtain ⟨-, -, -, htest⟩ := passes_ping.mp hpasses
    exact (Ping.test_of_silent h.replies (hcount c rfl) hpings).mp htest
  | dns c =>
    simp only [Runner.definition, Dns.definition] at hpasses
    split at hpasses
    · simp at hpasses
    · rename_i record hrecord
      obtain ⟨answers, hanswers, -⟩ := passes_bind.mp hpasses
      exact absurd (orFail_eq_ok.mp hanswers) (exchange_of_silent h _ _ _ answers)
  | ftp c => simp [Runner.definition, Ftp.definition, hdial] at hpasses
  | imap c => simp [Runner.definition, Imap.definition, hdial] at hpasses
  | ldap c => simp [Runner.definition, Ldap.definition, hdial] at hpasses
  | pop3 c => simp [Runner.definition, Pop3.definition, hdial] at hpasses
  | rdp c => simp [Runner.definition, Rdp.definition, hdial] at hpasses
  | smb c => simp [Runner.definition, Smb.definition, hdial] at hpasses
  | smtp c => simp [Runner.definition, Smtp.definition, hdial] at hpasses
  | sql c => simp [Runner.definition, Sql.definition, hlogin] at hpasses
  | ssh c => simp [Runner.definition, Ssh.definition, Ssh.connect, hdial] at hpasses
  | tcp c => simp [Runner.definition, Tcp.definition, hdial] at hpasses
  | vnc c => simp [Runner.definition, Vnc.definition, hdial] at hpasses
  | web c =>
    simp only [Runner.definition, Web.definition] at hpasses
    split at hpasses
    · simp at hpasses
    · simp [hresponse] at hpasses
  | winRM c =>
    simp only [Runner.definition, WinRM.definition] at hpasses
    obtain ⟨cred, -, hpasses⟩ := passes_bind.mp hpasses
    obtain ⟨-, -, hpasses⟩ := passes_bind.mp hpasses
    split at hpasses
    · simp [hrunShell] at hpasses
    · simp [hrunShell] at hpasses

theorem indifferent_atTarget (r : Runner) :
    (r.atTarget teamIdentifier).Indifferent ↔ r.Indifferent := by
  cases r <;> rfl

theorem counted_atTarget {r : Runner} (h : r.Counted) : (r.atTarget teamIdentifier).Counted := by
  intro c hc
  cases r with
  | ping d =>
    obtain rfl := Runner.ping.inj hc
    exact h d rfl
  | _ => cases hc

theorem pass_of_silent {r : Runner} (h : b.Silent) (hcount : r.Counted) (hpings : 0 < pkg.pings)
    (hpass : r.ReportsPass compiles pkg teamID roundID teamIdentifier b) : r.Indifferent :=
  (indifferent_atTarget r).mp
    (passes_of_silent h (counted_atTarget hcount) hpings (Runner.reportsPass_iff.mp hpass).2)

/-- The same, where nothing is up. -/
def Behaviour.silenced (b : Behaviour) : Behaviour :=
  { b with
    dial := .error [], exchange := .error ([], false), exchangeAgain := .error [], replies := 0
    login := .error [], response := .error [], runShell := .error [] }

theorem silent_silenced (b : Behaviour) : b.silenced.Silent :=
  ⟨⟨_, rfl⟩, ⟨_, rfl⟩, ⟨_, rfl⟩, rfl, ⟨_, rfl⟩, ⟨_, rfl⟩, ⟨_, rfl⟩⟩

theorem ping_of_silent {c : Ping} (h : b.replies = 0) (hcount : c.count ≠ 0)
    (hpings : 0 < pkg.pings) :
    (Runner.ping c).ReportsPass compiles pkg teamID roundID teamIdentifier b ↔
      5000000000 + (b.took : Int) < seconds c.timeout ∧
        pkg.Allows (.newPinger (Replace.replaceAll (str "_") teamIdentifier c.target)) ∧
        b.client = .ok () ∧ b.ping = .ok () ∧ c.allowPacketLoss = true ∧ 100 < c.percent.toInt := by
  let c' : Ping :=
    {c with target := Replace.replaceAll (str "_") teamIdentifier c.target}
  rw [Runner.reportsPass_iff]
  show c'.waits pkg b + (b.took : Int) < seconds c.timeout ∧ Passes (c'.definition pkg b) ↔ _
  rw [Ping.waits_of_silent h, passes_ping, Ping.test_of_silent (c := c') h hcount hpings]

/-- A command does not see the difference. -/
theorem custom_silenced {c : Custom} (b : Behaviour) :
    (Runner.custom c).ReportsPass compiles pkg teamID roundID teamIdentifier b.silenced ↔
      (Runner.custom c).ReportsPass compiles pkg teamID roundID teamIdentifier b := Iff.rfl

end

/-! ### A task -/

/-- Failed attempts make a failed result. -/
theorem status_attempt {task : Engine.Task} {result : Engine.Result}
    {attempts : List Runner.Attempt} (hresult : result.status = false)
    (h : ∀ a ∈ attempts, ∀ reported, a.reported = some reported → reported.status = false) :
    (Runner.attempt task result attempts).status = false := by
  induction attempts generalizing result with
  | nil => exact hresult
  | cons a rest ih =>
    have hreceived : (Runner.received task result a).status = false := by
      unfold Runner.received
      cases hreported : a.reported with
      | none => rfl
      | some reported => exact h a List.mem_cons_self reported hreported
    rw [Runner.attempt]
    split
    · exact hreceived
    · exact ih hreceived (fun a' ha' => h a' (List.mem_cons_of_mem a ha'))

/-- A check that makes a difference between targets, of a target where nothing is up: whatever is
drawn, however it fails and however long that takes, no attempt passes and the result that is
pushed is a failure. The others are a command, which passes with a silent target if it passes with
any, and a ping that may lose more than all of its packets, which passes if the timeout is more than
the five seconds of a ping. -/
theorem silent_targets {compiles : Compiles} {pkg : Packages} (hpings : 0 < pkg.pings) {r : Runner}
    (hcount : r.Counted) (teamID roundID : Nat) (teamIdentifier : GoString) :
    (¬r.Indifferent →
      (∀ b : Behaviour, b.Silent → ¬r.ReportsPass compiles pkg teamID roundID teamIdentifier b) ∧
      ∀ (task : Engine.Task) (attempts : List Runner.Attempt),
        (∀ a ∈ attempts, ∀ result, a.reported = some result → ∃ b : Behaviour, b.Silent ∧
          r.run compiles pkg teamID roundID teamIdentifier b = some result) →
        (Runner.handleTask task attempts).status = false) ∧
    ((∃ b : Behaviour, b.Silent ∧ r.ReportsPass compiles pkg teamID roundID teamIdentifier b) ↔
      match r with
      | .custom c => ∃ b, (Runner.custom c).ReportsPass compiles pkg teamID roundID teamIdentifier b
      | .ping c => (c.allowPacketLoss = true ∧ 100 < c.percent.toInt) ∧
          pkg.Allows (.newPinger (Replace.replaceAll (str "_") teamIdentifier c.target)) ∧
          5000000000 < seconds c.timeout
      | _ => False) := by
  have hnever : ¬r.Indifferent → ∀ b : Behaviour, b.Silent →
      ¬r.ReportsPass compiles pkg teamID roundID teamIdentifier b :=
    fun hr b hb hpass => hr (pass_of_silent hb hcount hpings hpass)
  refine ⟨fun hr => ⟨hnever hr, ?_⟩, ?_⟩
  · intro task attempts hattempts
    refine status_attempt rfl (fun a ha result hresult => ?_)
    obtain ⟨b, hb, hrun⟩ := hattempts a (List.mem_of_mem_take ha) result hresult
    cases hstatus : result.status with
    | false => rfl
    | true => exact absurd ⟨result, hrun, hstatus⟩ (hnever hr b hb)
  · cases r with
    | custom c =>
      constructor
      · rintro ⟨b, -, hpass⟩
        exact ⟨b, hpass⟩
      · rintro ⟨b, hpass⟩
        exact ⟨b.silenced, silent_silenced b, (custom_silenced b).mpr hpass⟩
    | ping c =>
      constructor
      · rintro ⟨b, hb, hpass⟩
        obtain ⟨htime, hallows, -, -, hlax⟩ :=
          (ping_of_silent hb.replies (hcount c rfl) hpings).mp hpass
        exact ⟨hlax, hallows, by omega⟩
      · rintro ⟨hlax, hallows, htime⟩
        have hwaits : 5000000000 + ((0 : Nat) : Int) < seconds c.timeout := by omega
        refine ⟨({} : Behaviour).silenced, silent_silenced {}, ?_⟩
        exact (ping_of_silent rfl (hcount c rfl) hpings).mpr
          ⟨hwaits, hallows, rfl, rfl, hlax⟩
    | _ => exact iff_of_false (fun ⟨b, hb, hpass⟩ => hnever id b hb hpass) id

/-- The server with the note, when it is down. -/
theorem silent_targets_note :
    ¬Engine.noteCheck.ReportsPass Config.Environment.plain.compiles Engine.plainPackages 1 7
      (str "01") ({} : Behaviour).silenced := by
  have hpings : 0 < Engine.plainPackages.pings := by decide
  have hcount : Engine.noteCheck.Counted := by
    intro c hc
    cases hc
  exact ((silent_targets hpings hcount 1 7 (str "01")).1 id).1 _ (silent_silenced {})

end QuotientScoring.Checks
