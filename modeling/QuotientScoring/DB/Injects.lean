import QuotientScoring.DB.Schema

/-! Announcements, injects and the submissions to them. -/
namespace QuotientScoring.DB

structure AnnouncementSchema where
  id : Nat
  openTime : Int
deriving DecidableEq, Repr

structure InjectSchema where
  id : Nat
  openTime : Int
  closeTime : Int
deriving DecidableEq, Repr

structure SubmissionSchema where
  teamID : Nat
  injectID : Nat
  submissionTime : Int
  submissionFileName : GoString
  version : Nat
deriving DecidableEq, Repr

/-- The rows of `submission_schemas` for one inject; the query leaves their order open. -/
def getSubmissionsForInject (submissions : List SubmissionSchema) (injectID : Nat) :
    List SubmissionSchema :=
  submissions.filter (fun submission => submission.injectID = injectID)

/-- The team and the inject of a submission. -/
def SubmissionSchema.key (submission : SubmissionSchema) : Nat × Nat :=
  (submission.injectID, submission.teamID)

/-- The versions of one team's submissions to one inject. -/
def versions (submissions : List SubmissionSchema) (key : Nat × Nat) : List Nat :=
  (submissions.filter (fun submission => submission.key = key)).map SubmissionSchema.version

/-- The hook that numbers a submission before it is stored: one more than the highest version
there is. -/
def SubmissionSchema.beforeCreate (submission : SubmissionSchema)
    (submissions : List SubmissionSchema) : SubmissionSchema :=
  { submission with version :=
      match (versions submissions submission.key).max? with
      | some existing => existing + 1
      | none => 1 }

/-- A call of the database that did not succeed. -/
inductive DbError where
  | recordNotFound
  | other (err : GoString)
deriving DecidableEq, Repr

end QuotientScoring.DB
