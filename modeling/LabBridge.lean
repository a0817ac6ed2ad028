import LabBridge.Library.ByteText
import LabBridge.Library.Json
import LabBridge.Library.Checks
import LabBridge.Library.Program
import LabBridge.Library.RowHistory
import LabBridge.Library.SerialTable
import LabBridge.Core.Models
import LabBridge.Server.Timestamps
import LabBridge.Server.Records
import LabBridge.Server.Runtime
import LabBridge.Server.Tables
import LabBridge.Server.Session
import LabBridge.Server.RunStatements
import LabBridge.Server.EvidenceStatements
import LabBridge.Server.Statement
import LabBridge.Server.Rules
import LabBridge.Server.Obeys
import LabBridge.Server.Effects
import LabBridge.Server.Runs
import LabBridge.Server.TaskRunFilesJson
import LabBridge.Server.TaskRunService
import LabBridge.Server.AgentReportService
import LabBridge.Server.Evidence
import LabBridge.Server.Receipts
import LabBridge.Server.Acceptance
import LabBridge.Server.ManagementCommandService
import LabBridge.Server.Operations
import LabBridge.Server.System
import LabBridge.Server.Progress
import LabBridge.Server.StartResults
import LabBridge.Server.Atomicity
import LabBridge.Server.Lifecycle
import LabBridge.Server.FrozenEvidence
import LabBridge.Server.TruthfulStart
import LabBridge.Server.StartReplay
import LabBridge.Server.Replay
import LabBridge.Server.ExactlyOnce
import LabBridge.Server.AgentReportHttp
import LabBridge.Server.ReportChecks
import LabBridge.Server.ReportStores
import LabBridge.Server.ReportClaims
import LabBridge.Server.SettledReports
import LabBridge.Library.JsonPrint
import LabBridge.Library.Sha256
import LabBridge.Server.Reference
import LabBridge.Library.RowVersions
import LabBridge.Library.Protocol
import LabBridge.Server.Interleaving
import LabBridge.Server.LockProtocol
import LabBridge.Server.RunWrites
import LabBridge.Server.RunChanges
import LabBridge.Server.Flights
import LabBridge.Server.FlightSteps
import LabBridge.Server.IndexEntries
import LabBridge.Server.Between
import LabBridge.Server.Orderly
import LabBridge.Server.ManualRuns
import LabBridge.Server.OperatorKeys
import LabBridge.Server.KeyedRuns
import LabBridge.Server.KeyedFlights
import LabBridge.Server.KeyedSteps
import LabBridge.Server.OperatorRuns
import LabBridge.Library.CivilTime
import LabBridge.Library.Anniversaries
import LabBridge.Library.Fallible
import LabBridge.Library.NewestRows
import LabBridge.Library.FileTree
import LabBridge.Library.JsonMembers
import LabBridge.Library.KeysetPages
import LabBridge.Library.PaddedNumerals
import LabBridge.Library.Utf8
import LabBridge.Library.Sorting
import LabBridge.Library.SelfDelimiting
import LabBridge.Library.CsvGrammar
import LabBridge.Core.CronSchedule
import LabBridge.Core.CronFields
import LabBridge.Core.CronSlots
import LabBridge.Core.CronWindow
import LabBridge.Server.AgentEndpoints
import LabBridge.Server.EvidenceOwners
import LabBridge.Server.NamedEvidence
import LabBridge.Server.RefusalTexts
import LabBridge.Server.NodeIsolation
import LabBridge.Server.RequestFingerprints
import LabBridge.Server.UtcTexts
import LabBridge.Server.AcceptedTimes
import LabBridge.Server.DayCounts
import LabBridge.Server.ManagementQueries
import LabBridge.Server.ManagementQueryService
import LabBridge.Server.ManagementPages
import LabBridge.Server.ManagementListings
import LabBridge.Server.NodeStatusFilter
import LabBridge.Agent.Errors
import LabBridge.Agent.CompactJson
import LabBridge.Agent.CsvParser
import LabBridge.Agent.CsvLines
import LabBridge.Agent.CsvRows
import LabBridge.Agent.CsvFiles
import LabBridge.Agent.Requests
import LabBridge.Agent.ControlPlaneClient
import LabBridge.Agent.ExecutionRequestCodec
import LabBridge.Agent.CodecRoundTrip
import LabBridge.Agent.ErrorSummary
import LabBridge.Agent.QueueTables
import LabBridge.Agent.QueueStore
import LabBridge.Agent.QueueOperations
import LabBridge.Agent.QueueRuns
import LabBridge.Agent.QueueInvariant
import LabBridge.Agent.QueueSteps
import LabBridge.Agent.QueueLifecycle
import LabBridge.Agent.QueueRows
import LabBridge.Agent.AttentionRetry
import LabBridge.Agent.ReliableDelivery
import LabBridge.Agent.RetryDelays
import LabBridge.Agent.DeliveryOutcomes
import LabBridge.Agent.CodecExceptions
import LabBridge.Agent.TaskScheduler
import LabBridge.Agent.SchedulerSlots
import LabBridge.Agent.TaskIdOrder
import LabBridge.Agent.TaskExecutor
import LabBridge.Agent.RepeatedDispatch
import LabBridge.Agent.RecoverableConfiguration
import LabBridge.Agent.LocalArchiveStore
import LabBridge.Agent.FileInspection
import LabBridge.Agent.ArchivePaths
import LabBridge.Agent.ArchiveCopies
import LabBridge.Agent.ArchiveRecovery
import LabBridge.Agent.ArchiveCrashes
import LabBridge.Agent.ProcessedFiles
import LabBridge.Console.PagedList
import LabBridge.Console.ShownPages
import LabBridge.Server.FaithfulReports
import LabBridge.Library.LinkedTree
import LabBridge.Agent.InputPlanning
import LabBridge.Agent.ConfinedInputs
import LabBridge.Agent.ReliableJobs
import LabBridge.Agent.PlanRows
import LabBridge.Agent.PlanFrames
import LabBridge.Agent.NumberedPlans
import LabBridge.Agent.JobRuns
import LabBridge.Agent.AlignedOutcomes
import LabBridge.Server.StatementFrames
import LabBridge.Server.AlertLifecycle
import LabBridge.Library.KeyedRows
import LabBridge.Library.Transactions
import LabBridge.Server.ConfigStatements
import LabBridge.Server.ControlPlane
import LabBridge.Server.ControlSystem
import LabBridge.Server.CreatedTasks
import LabBridge.Server.StoredTasks
import LabBridge.Library.Interference
import LabBridge.Server.NodeConfigurations
import LabBridge.Library.JsonTransfer
import LabBridge.Agent.ControlPlaneRequests
import LabBridge.Server.ResponseBodies
import LabBridge.Wire.Transport
import LabBridge.Wire.AgentCalls
import LabBridge.Wire.Configurations
import LabBridge.Wire.Handshake
