import SetadJang.Framework.Txn
import SetadJang.Framework.Runs
import SetadJang.Framework.Rows
import SetadJang.Framework.PyText
import SetadJang.Framework.PyUnicode
import SetadJang.Framework.UniqueNames
import SetadJang.Framework.PyCase
import SetadJang.Framework.PyFold
import SetadJang.Framework.PyFormat
import SetadJang.Framework.PyClock
import SetadJang.Framework.PyJson
import SetadJang.Framework.PyJsonReader
import SetadJang.Framework.PyCsv
import SetadJang.Framework.EventLog
import SetadJang.Framework.HashChain
import SetadJang.Framework.Leases
import SetadJang.Framework.Slots
import SetadJang.Framework.CommitHooks
import SetadJang.Authentication.Normalizers
import SetadJang.Authentication.Otp
import SetadJang.Authentication.Services
import SetadJang.Authentication.OtpLockout
import SetadJang.Authentication.Sessions
import SetadJang.Authentication.OtpRaces
import SetadJang.Authentication.OtpSingleUse
import SetadJang.Authentication.OtpAttempts
import SetadJang.Authentication.Accounts
import SetadJang.Authentication.PrimaryIdentifier
import SetadJang.Authentication.VerifiedIdentifiers
import SetadJang.Authentication.OtpDelivery
import SetadJang.Authentication.OtpIssuing
import SetadJang.Authentication.OtpCurrent
import SetadJang.Authentication.OtpCooldown
import SetadJang.Authentication.OtpLatest
import SetadJang.Authentication.TargetThrottle
import SetadJang.Authentication.GlobalOtpGuard
import SetadJang.Madadkar.Model
import SetadJang.Madadkar.Services
import SetadJang.Madadkar.System
import SetadJang.Madadkar.Effects
import SetadJang.Madadkar.Integrity
import SetadJang.Madadkar.Counters
import SetadJang.Madadkar.PaymentLedger
import SetadJang.Madadkar.Terminal
import SetadJang.Madadkar.Overselling
import SetadJang.Madadkar.Agreement
import SetadJang.Madadkar.Refunds
import SetadJang.Madadkar.Completion
import SetadJang.Madadkar.Sequential
import SetadJang.Madadkar.Transparency
import SetadJang.Madadkar.CampaignEdits
import SetadJang.Madadkar.Prices
import SetadJang.Madadkar.Lifecycle
import SetadJang.Madadkar.Receipts
import SetadJang.Tabyin.Model
import SetadJang.Tabyin.Parser
import SetadJang.Tabyin.Engine
import SetadJang.Tabyin.SyncFrame
import SetadJang.Tabyin.Writes
import SetadJang.Tabyin.Batches
import SetadJang.Tabyin.Convergence
import SetadJang.Tabyin.IncrementalStops
import SetadJang.Tabyin.RepeatedItems
import SetadJang.Tabyin.Moderation
import SetadJang.Tabyin.Submissions
import SetadJang.AuditLogs.Model
import SetadJang.AuditLogs.Writers
import SetadJang.AuditLogs.HashStability
import SetadJang.AuditLogs.Tampering
import SetadJang.AuditLogs.Export
import SetadJang.AuditLogs.ExportTables
import SetadJang.Core.FilterSignature
import SetadJang.Core.Invalidation
import SetadJang.Core.NamespaceVersions
import SetadJang.Core.Outbox
import SetadJang.Core.PublicPayloads
import SetadJang.Core.PayloadAnswers
import SetadJang.Core.SingleFlight
import SetadJang.Lms.Model
import SetadJang.Lms.Completion
import SetadJang.Lms.Quiz
import SetadJang.Lms.QuizState
import SetadJang.Lms.QuizAttempts
import SetadJang.R4J.Bounties
import SetadJang.R4J.BountyTotals
import SetadJang.R4J.BountyWorkflow
import SetadJang.R4J.Reports
import SetadJang.R4J.ReportDecisions
import SetadJang.SupportDesk.Tickets
import SetadJang.SupportDesk.PausedTime
import SetadJang.SupportDesk.Breaches
import SetadJang.Core.AdminGuard
import SetadJang.Core.ClientIp
import SetadJang.Madadkar.ReceiptRuns
import SetadJang.Madadkar.ZarinpalVerify
import SetadJang.Madadkar.RefundWorkflow
import SetadJang.Madadkar.CampaignBooks
import SetadJang.Framework.Repeats
import SetadJang.Madadkar.SettlementReport
import SetadJang.Madadkar.FinancialControl
import SetadJang.Madadkar.Reconciliation
import SetadJang.Madadkar.DailyTrend
import SetadJang.Madadkar.Disbursements
import SetadJang.Framework.PyIp
import SetadJang.Framework.PyUrl
import SetadJang.Notifications.Dispatch
import SetadJang.Tabyin.MirrorGuard
import SetadJang.Tabyin.Mp4Duration
import SetadJang.Tabyin.MovieFiles
import SetadJang.Tabyin.MediaMeta
import SetadJang.Tabyin.MirrorStore
import SetadJang.Core.FileSecurity
import SetadJang.Notifications.Reading
import SetadJang.Notifications.Deliveries
import SetadJang.Framework.FirstOccurrences
import SetadJang.Notifications.Creation
import SetadJang.Notifications.Preferences
import SetadJang.R4J.ListQueries
import SetadJang.R4J.CriminalSlugs
import SetadJang.R4J.ListKeys
import SetadJang.R4J.ListCache
import SetadJang.Framework.Forest
import SetadJang.R4J.Custody
import SetadJang.SupportDesk.Categories
import SetadJang.SupportDesk.CategoryMoves
import SetadJang.SupportDesk.CategoryServices
import SetadJang.SupportDesk.Departments
import SetadJang.SupportDesk.DeskRuns
import SetadJang.SupportDesk.StatusHistory
import SetadJang.SupportDesk.CategoryCounters
import SetadJang.Framework.References
import SetadJang.SupportDesk.Deactivation
import SetadJang.Framework.Cascade
import SetadJang.Lms.Discussion
import SetadJang.Lms.Threads
import SetadJang.Lms.QuestionSummary
import SetadJang.Lms.Certificates
import SetadJang.Lms.CourseCounters
import SetadJang.KindnessWall.Contacts
import SetadJang.KindnessWall.Model
import SetadJang.KindnessWall.Expiry
import SetadJang.KindnessWall.Edits
import SetadJang.KindnessWall.Publishable
import SetadJang.KindnessWall.Views
import SetadJang.KindnessWall.Offers
import SetadJang.Authentication.PhoneSpellings
import SetadJang.Framework.Normalization
import SetadJang.Framework.Utf8
import SetadJang.Authentication.PasswordPolicy
import SetadJang.Authentication.PasswordSpellings
import SetadJang.SupportDesk.ReopenWindow
import SetadJang.Lms.ProgressEvents
import SetadJang.Lms.LateSubmissions
import SetadJang.Lms.SnapshotGrading
import SetadJang.Framework.Capacities
import SetadJang.SupportDesk.BusinessCalendars
import SetadJang.SupportDesk.BusinessHours
import SetadJang.Framework.PyIsoDate
import SetadJang.Framework.Writes
import SetadJang.R4J.FieldApplicators
import SetadJang.R4J.ReportReview
import SetadJang.R4J.ReviewReturns
import SetadJang.R4J.ReviewedProfile
import SetadJang.R4J.BadSuggestions
import SetadJang.Tabyin.RepeatedItems
import SetadJang.Core.UniqueSlugs
import SetadJang.Framework.ByteFields
import SetadJang.Framework.PyRound
import SetadJang.Tabyin.Mp4Duration
