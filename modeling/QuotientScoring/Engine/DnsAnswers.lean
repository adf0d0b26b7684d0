import QuotientScoring.Engine.DeadChecks

/-! How a DNS check judges what it is answered.

A record of a check is of kind A or MX, and both kinds are asked for. Of the answers only the
A records are looked at, whatever was asked (`dns_reports_iff`), so a record of kind MX is
judged by the addresses beside it: `dns_judged_iff`. -/
namespace QuotientScoring.Checks
open DB GoText GoTime Replace Attempts

/-- What a resource record holds: an address, the name of a mail exchange, or something else. -/
inductive ResourceData where
  | a (ip : IP)
  | mx (exchange : GoString)
  | other
deriving DecidableEq

/-- A resource record of an answer section, with the text it prints as. -/
structure Resource where
  text : GoString
  data : ResourceData
deriving DecidableEq

/-- What the check sees of it. -/
def Resource.rr (resource : Resource) : RR where
  text := resource.text
  a :=
    match resource.data with
    | .a ip => some ip
    | _ => none

variable (compiles : Compiles) (pkg : Packages) (teamID roundID : Nat) (teamIdentifier : GoString)
variable (b : Behaviour)

/-- An A record with an acceptable address. -/
def Resource.HasAddress (resource : Resource) (record : DnsRecord) : Prop :=
  ∃ ip, resource.data = .a ip ∧ ip.string ∈ record.expected teamIdentifier

/-- An MX record with an acceptable name, up to a dot at the end. -/
def Resource.HasExchange (resource : Resource) (record : DnsRecord) : Prop :=
  ∃ exchange, resource.data = .mx exchange ∧ ∃ expected ∈ record.expected teamIdentifier,
    trimSuffix exchange (str ".") = trimSuffix expected (str ".")

/-- A record of the kind that is asked for, with an acceptable value. -/
def Resource.Answers (resource : Resource) (record : DnsRecord) : Prop :=
  record.kind = str "A" ∧ resource.HasAddress teamIdentifier record ∨
    record.kind = str "MX" ∧ resource.HasExchange teamIdentifier record

/-- The check as `Service.Run` has it, with the team's identifier in the target. -/
def Dns.atTarget (c : Dns) : Dns := {c with target := replaceAll (str "_") teamIdentifier c.target}

/-- A pass is reported exactly for an acceptable answer. -/
def Dns.Judges (c : Dns) (record : DnsRecord) (answers : List Resource) : Prop :=
  (∃ result, (Runner.dns c).run compiles pkg teamID roundID teamIdentifier b = some result ∧
      result.status = true) ↔
    ∃ resource ∈ answers, resource.Answers teamIdentifier record

variable {compiles pkg teamID roundID teamIdentifier b}

/-- The answers are searched for an A record with an acceptable address. -/
theorem found_isSome_iff {record : DnsRecord} {answers : List Resource} :
    (record.found teamIdentifier (answers.map Resource.rr)).isSome ↔
      ∃ resource ∈ answers, resource.HasAddress teamIdentifier record := by
  have haddress : ∀ resource : Resource,
      (resource.rr.a.bind (fun ip =>
        (record.expected teamIdentifier).find? (fun expected => ip.string = expected))).isSome ↔
        resource.HasAddress teamIdentifier record := by
    intro resource
    obtain ⟨text, data⟩ := resource
    cases data with
    | a ip => simp [Resource.rr, Resource.HasAddress]
    | mx exchange => simp [Resource.rr, Resource.HasAddress]
    | other => simp [Resource.rr, Resource.HasAddress]
  rw [DnsRecord.found, List.findSome?_isSome_iff]
  simp only [List.mem_map, exists_exists_and_eq_and, haddress]

theorem dns_passes_iff {c : Dns} {record : DnsRecord} {answers : List RR}
    (hpick : pick c.record b.draw = some record)
    (hreceived : exchange pkg b (record.question pkg teamIdentifier) c.address
      (seconds (c.timeout - 1)) = .ok answers) (hanswers : answers ≠ []) :
    Passes (c.definition pkg teamIdentifier b) ↔ (record.found teamIdentifier answers).isSome := by
  simp only [Dns.definition, hpick, passes_bind, exists_unit, orFail_eq_ok, require_eq_ok, hreceived,
    Except.ok.injEq, exists_eq_left', hanswers, not_false_eq_true, ne_eq, true_and]
  cases record.found teamIdentifier answers <;> simp

/-- A pass is reported for an acceptable address, whatever was asked. -/
theorem dns_reports_iff {c : Dns} {record : DnsRecord} {answers : List Resource}
    (hpick : pick c.record b.draw = some record)
    (hreceived : exchange pkg b (record.question pkg teamIdentifier)
      (c.atTarget teamIdentifier).address (seconds (c.timeout - 1)) =
        .ok (answers.map Resource.rr))
    (hanswers : answers ≠ []) (htime : b.took < seconds c.timeout) :
    (∃ result, (Runner.dns c).run compiles pkg teamID roundID teamIdentifier b = some result ∧
      result.status = true) ↔
        ∃ resource ∈ answers, resource.HasAddress teamIdentifier record := by
  have hpasses : Passes ((c.atTarget teamIdentifier).definition pkg teamIdentifier b) ↔
      (record.found teamIdentifier (answers.map Resource.rr)).isSome :=
    dns_passes_iff hpick hreceived (by simpa using hanswers)
  rw [← found_isSome_iff, ← hpasses]
  refine Runner.run_passes.trans (and_iff_right ?_)
  show 0 + (b.took : Int) < seconds c.timeout
  omega

/-- A record of kind A is judged as it should be, and one of kind MX only where there is an
acceptable address exactly if there is an acceptable mail exchange. -/
theorem dns_judged_iff {c : Dns} {record : DnsRecord} {answers : List Resource}
    (hpick : pick c.record b.draw = some record)
    (hkind : record.kind = str "A" ∨ record.kind = str "MX")
    (hreceived : exchange pkg b (record.question pkg teamIdentifier)
      (c.atTarget teamIdentifier).address (seconds (c.timeout - 1)) =
        .ok (answers.map Resource.rr))
    (hanswers : answers ≠ []) (htime : b.took < seconds c.timeout) :
    c.Judges compiles pkg teamID roundID teamIdentifier b record answers ↔
      record.kind = str "A" ∨
        ((∃ resource ∈ answers, resource.HasAddress teamIdentifier record) ↔
          ∃ resource ∈ answers, resource.HasExchange teamIdentifier record) := by
  rw [Dns.Judges, dns_reports_iff hpick hreceived hanswers htime]
  rcases hkind with ha | hmx
  · simp [Resource.Answers, ha]
  · simp [Resource.Answers, hmx]

/-! ### A record of each kind -/

def wwwRecord : DnsRecord :=
  ⟨str "A", str "www.team_.example.com", [str "10.100.1_.10"]⟩

def mailRecord : DnsRecord :=
  ⟨str "MX", str "team_.example.com", [str "mail.team_.example.com"]⟩

def recordCheck (record : DnsRecord) : Dns :=
  { name := str "box-dns", display := str "dns", port := 53, points := 1, timeout := 30
    slaPenalty := 5, slaThreshold := 5, target := str "10.100.1_.2", serviceType := str "Dns"
    attempts := 1, record := [record] }

/-- A name of the web server, and its address behind it. -/
def wwwAnswers : List Resource :=
  [⟨str "www.team01.example.com.\t300\tIN\tCNAME\tweb.team01.example.com.", .other⟩,
    ⟨str "web.team01.example.com.\t300\tIN\tA\t10.100.101.10", .a (.v4 10 100 101 10)⟩]

def mailAnswers : List Resource :=
  [⟨str "team01.example.com.\t300\tIN\tMX\t10 mail.team01.example.com.",
    .mx (str "mail.team01.example.com.")⟩]

theorem dns_judged_www :
    (recordCheck wwwRecord).Judges (fun _ => true) Engine.plainPackages 1 7 (str "01")
      {exchange := .ok (wwwAnswers.map Resource.rr)} wwwRecord wwwAnswers :=
  (dns_judged_iff (by decide +kernel) (.inl rfl) rfl (by decide +kernel) (by decide +kernel)).mpr
    (.inl rfl)

/-- The mail exchange that the record accepts is answered, and the check fails. -/
theorem mail_exchange_failed :
    ¬ (recordCheck mailRecord).Judges (fun _ => true) Engine.plainPackages 1 7 (str "01")
      {exchange := .ok (mailAnswers.map Resource.rr)} mailRecord mailAnswers := by
  intro hjudges
  have hanswered : ∃ resource ∈ mailAnswers, resource.Answers (str "01") mailRecord :=
    ⟨_, List.mem_singleton.mpr rfl, .inr ⟨rfl, str "mail.team01.example.com.", rfl,
      str "mail.team01.example.com", by decide +kernel, by decide +kernel⟩⟩
  obtain ⟨resource, hresource, ip, hip, -⟩ :=
    (dns_reports_iff rfl rfl (by decide +kernel) (by decide +kernel)).mp (hjudges.mpr hanswered)
  obtain rfl := List.mem_singleton.mp hresource
  cases hip

end QuotientScoring.Checks
