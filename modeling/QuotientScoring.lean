import QuotientScoring.Lib.Transition
import QuotientScoring.Lib.GoMap
import QuotientScoring.Lib.FailureRun
import QuotientScoring.Lib.Rows
import QuotientScoring.Lib.Utf8
import QuotientScoring.DB.Schema
import QuotientScoring.DB.Counters
import QuotientScoring.Engine.Sanitize
import QuotientScoring.Engine.Task
import QuotientScoring.Runner.HandleTask
import QuotientScoring.Engine.Results
import QuotientScoring.Engine.History
import QuotientScoring.Engine.SLA
import QuotientScoring.Engine.Restart
import QuotientScoring.Engine.Uptime
import QuotientScoring.Engine.Faults
import QuotientScoring.DB.ScoreOverTime
import QuotientScoring.Engine.Refresh
import QuotientScoring.DB.Scores
import QuotientScoring.WWW.ExportScores
import QuotientScoring.Engine.Loop
import QuotientScoring.Engine.RoundExactness
import QuotientScoring.Engine.Provenance
import QuotientScoring.Engine.Reset
import QuotientScoring.Engine.Checks
import QuotientScoring.Engine.Config
import QuotientScoring.Engine.RoundTime
import QuotientScoring.Engine.Enqueue
import QuotientScoring.Runner.Timing
import QuotientScoring.Engine.SafeRounds
import QuotientScoring.Engine.ServiceSettings
import QuotientScoring.Runner.CreateRunner
import QuotientScoring.WWW.Authentication
import QuotientScoring.Lib.Decimal
import QuotientScoring.DB.Injects
import QuotientScoring.WWW.Downloads
import QuotientScoring.Lib.GoOrder
import QuotientScoring.WWW.Graphs
import QuotientScoring.WWW.Submissions
import QuotientScoring.WWW.SubmissionRuns
import QuotientScoring.WWW.OIDC
import QuotientScoring.WWW.Teams
import QuotientScoring.WWW.TeamAgreement
import QuotientScoring.WWW.Sessions
import QuotientScoring.DB.Credentials
import QuotientScoring.DB.Seeding
import QuotientScoring.Engine.Credentials
import QuotientScoring.Engine.Seeding
import QuotientScoring.Engine.PCRHistory
import QuotientScoring.Engine.RoundLoop
import QuotientScoring.WWW.SignIn
import QuotientScoring.Lib.Replace
import QuotientScoring.WWW.UpdateTeams
import QuotientScoring.WWW.DebugOutput
import QuotientScoring.WWW.Isolation
import QuotientScoring.Lib.Relabel
import QuotientScoring.WWW.Anonymity
import QuotientScoring.Lib.Shell
import QuotientScoring.Engine.CustomCommand
import QuotientScoring.Engine.CheckRuns
import QuotientScoring.Engine.DeadChecks
import QuotientScoring.Engine.Acceptance
import QuotientScoring.Runner.TaskKeys
import QuotientScoring.Engine.PasswordChanges
import QuotientScoring.Engine.ArrivalOrder
import QuotientScoring.DB.ReplayOrder
import QuotientScoring.Engine.ConfigReload
import QuotientScoring.Engine.RunnerPanics
import QuotientScoring.Engine.PauseGate
import QuotientScoring.Lib.Handover
import QuotientScoring.Engine.ServiceRun
import QuotientScoring.Runner.AttemptLoop
import QuotientScoring.Engine.PasswordResets
import QuotientScoring.Engine.PasswordFaults
import QuotientScoring.WWW.PasswordRequests
import QuotientScoring.Engine.ResetFaults
import QuotientScoring.DB.InjectTable
import QuotientScoring.Lib.Directory
import QuotientScoring.WWW.Injects
import QuotientScoring.WWW.InjectFiles
import QuotientScoring.WWW.SubmissionWindow
import QuotientScoring.WWW.GroupTeams
import QuotientScoring.WWW.SessionRenewal
import QuotientScoring.Engine.DnsAnswers
import QuotientScoring.Engine.CommandOutput
import QuotientScoring.Engine.RetrievedFiles
import QuotientScoring.WWW.ClaimReaders
import QuotientScoring.WWW.SubmissionArchive
import QuotientScoring.Engine.CredlistReferences
import QuotientScoring.Lib.JsText
import QuotientScoring.WWW.CredentialForm
import QuotientScoring.Lib.Mux
import QuotientScoring.WWW.Router
import QuotientScoring.Lib.GoJson
import QuotientScoring.Runner.Reports
import QuotientScoring.Lib.Expiring
import QuotientScoring.Runner.ActiveTasks
import QuotientScoring.Lib.Writers
import QuotientScoring.DB.TeamServiceChecks
import QuotientScoring.WWW.TeamChecks
import QuotientScoring.Lib.Scoreboard
import QuotientScoring.WWW.ScoreReports
import QuotientScoring.Runner.SilentTargets
import QuotientScoring.WWW.CookieKeys
import QuotientScoring.Lib.Requests
import QuotientScoring.DB.Announcements
import QuotientScoring.WWW.Announcements
import QuotientScoring.WWW.AnnouncementFiles
import QuotientScoring.WWW.AnnouncementDownloads
import QuotientScoring.WWW.LoginSecrets
import QuotientScoring.DB.AddTeams
import QuotientScoring.WWW.TeamStarts
