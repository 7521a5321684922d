import SovriAgent.Tamper
import SovriAgent.SchemaVersion
import SovriAgent.ConcurrentOpen
import SovriAgent.Upgrade
import SovriAgent.DerivedTables
import SovriAgent.Persistence
import SovriAgent.PdfWriter
import SovriAgent.Faithful
import SovriAgent.Matrix
import SovriAgent.Scores
import SovriAgent.Workbook
import SovriAgent.Report
import SovriAgent.Summary
import SovriAgent.OrderIndependence
import SovriAgent.GapListings
import SovriAgent.EvidenceQueries
import SovriAgent.ProtectedEvidence
import SovriAgent.EvidenceSdk
import SovriAgent.LinkedEvidence
import SovriAgent.Strings
import SovriAgent.OrderedMap
import SovriAgent.DaemonJson
import SovriAgent.SystemScanner
import SovriAgent.UserScanner
import SovriAgent.DockerScanner
import SovriAgent.SshScanner
import SovriAgent.CitedEvidence
import SovriAgent.SecretValues
import SovriAgent.FailedProbes
import SovriAgent.Decimal
import SovriAgent.RecordIds
import SovriAgent.RowIdentity
import SovriAgent.CompactJson
import SovriAgent.CanonicalText
import SovriAgent.HostileInput
import SovriAgent.MemberSearch
import SovriAgent.IntegrityCheck
import SovriAgent.GapBackfill
import SovriAgent.ScoreRepair
import SovriAgent.SqliteLexer
import SovriAgent.GuardReading
import SovriAgent.DestructiveStatements
import SovriAgent.SqliteLiterals
import SovriAgent.GuardCoverage
import SovriAgent.HexCodec
import SovriAgent.ScannerAgreement
import SovriAgent.PageContent
import SovriAgent.JsonText
import SovriAgent.JsonLexemes
import SovriAgent.JsonReader
import SovriAgent.ScanListing
import SovriAgent.OpenAccounts
import SovriAgent.SshReading
import SovriAgent.SshIncludes
import SovriAgent.EvidenceReport
import SovriAgent.ReportAgreement
import SovriAgent.ReportFallback
import SovriAgent.Journal
import SovriAgent.StoreQueries
import SovriAgent.RunHistory
import SovriAgent.StoreAnswers
import SovriAgent.GapAnswers
import SovriAgent.Lifecycle
import SovriAgent.CommandLine
import SovriAgent.ScanCommand
import SovriAgent.ScanEvidence
import SovriAgent.ScanExit
import SovriAgent.ReportCommand
import SovriAgent.ReportView
