import QuotientScoring.WWW.Authentication

/-! What the handlers share: answers with an error, and the gate before the start. -/
namespace QuotientScoring.WWW
open DB GoText

/-- An answer with an error in it. -/
structure HttpError where
  status : Nat
  error : GoString
deriving DecidableEq

/-- Admins pass before the start; `none` is a request without a session. -/
def checkCompetitionStarted (started : Bool) (session : Option Session) : Except HttpError Unit :=
  if session.any (fun session => .admin ∈ session.roles) then .ok ()
  else if !started then .error ⟨403, str "Competition has not started"⟩
  else .ok ()

theorem checkCompetitionStarted_true (session : Option Session) :
    checkCompetitionStarted true session = .ok () := by
  unfold checkCompetitionStarted
  split <;> rfl

end QuotientScoring.WWW
