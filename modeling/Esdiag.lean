import Esdiag.SaturatingCounters
import Esdiag.KeyedMaps
import Esdiag.Texts
import Esdiag.JsonValues
import Esdiag.BatchResponses
import Esdiag.BulkExport
import Esdiag.BulkAccounting
import Esdiag.ReportInvariants
import Esdiag.RejectionAttribution
import Esdiag.ApiResolver
import Esdiag.KeyClosure
import Esdiag.ProcessSelections
import Esdiag.SelectionCoverage
import Esdiag.JobModel
import Esdiag.ExecutionOutcomes
import Esdiag.Executor
import Esdiag.StageRecords
import Esdiag.ChildJobs
import Esdiag.LifecycleEvents
import Esdiag.ExportFiles
import Esdiag.SharedExports
import Esdiag.SavedJobs
import Esdiag.DraftRoundTrip
import Esdiag.YamlValues
import Esdiag.JobDocuments
import Esdiag.SavedJobFiles
import Esdiag.LegacyMigration
import Esdiag.SavedJobStore
import Esdiag.SavedJobUpdates
import Esdiag.Keystores
import Esdiag.KeystoreOperations
import Esdiag.KeystoreInvariants
import Esdiag.UnlockLeases
import Esdiag.KnownHosts
import Esdiag.HostFiles
import Esdiag.HostRoundTrip
import Esdiag.KeystoreMigration
import Esdiag.SecretReferences
import Esdiag.DocumentChannels
import Esdiag.VersionRanges
import Esdiag.LiteScripts
import Esdiag.KeyedUpdates
import Esdiag.SourceCatalogues
import Esdiag.Reconciliation
import Esdiag.GuardedRuns
import Esdiag.RetainedBundles
import Esdiag.JobSlots
import Esdiag.UnlockRateLimit
import Esdiag.ApplicationConfigs
import Esdiag.HostBuilders
import Esdiag.SettingsForms
import Esdiag.RenameSafety
import Esdiag.ElasticContexts
import Esdiag.OutputDeployments
import Esdiag.OutputSources
import Esdiag.Onboarding
import Esdiag.ReadinessAgreement
import Esdiag.TemplateUpgrades
import Esdiag.TemplateConvergence
import Esdiag.KibanaCollection
import Esdiag.KibanaAttempts
import Esdiag.KibanaPages
import Esdiag.KibanaExactness
import Esdiag.BundleReceivers
import Esdiag.BundleArchives
import Esdiag.ArchiveReading
import Esdiag.FailureReports
import Esdiag.FailureTruth
import Esdiag.StackCollection
import Esdiag.StackAccounting
import Esdiag.EnvFiles
import Esdiag.FailingPrograms
import Esdiag.LocalStacks
import Esdiag.StackVersions
import Esdiag.FramedRecords
import Esdiag.SkillInstall
import Esdiag.SkillOwnership
import Esdiag.CommandJobs
import Esdiag.SavedCommands
import Esdiag.DefaultReferences
import Esdiag.KeyedFolds
import Esdiag.BatchAggregation
import Esdiag.SummaryOrder
import Esdiag.ReportTotals
import Esdiag.JsonSizes
import Esdiag.BulkSplitting
import Esdiag.BackingIndices
import Esdiag.SelectionClosure
import Esdiag.OutputIndependence
import Esdiag.DraftTargets
import Esdiag.UnlockTtls
import Esdiag.HostCommands
import Esdiag.HostEdits
import Esdiag.ConfigReferences
import Esdiag.ReferenceStability
import Esdiag.CommandArgv
import Esdiag.Outcomes
import Esdiag.TextParts
import Esdiag.ContextTargets
import Esdiag.ResolverExpressions
import Esdiag.MappingSummaries
import Esdiag.CheckedIntegers
import Esdiag.NodeStatistics
import Esdiag.IndexStatistics
import Esdiag.ArchivePaths
import Esdiag.NormalizedRanges
import Esdiag.UrlRedaction
import Esdiag.TemplateReferences
import Esdiag.Lookups
import Esdiag.DataStreams
import Esdiag.DataStreamLookups
import Esdiag.WriteIndices
import Esdiag.JsonTrees
import Esdiag.ServerlessSettings
import Esdiag.HostUpdates
import Esdiag.UploadParts
import Esdiag.LineStreams
import Esdiag.LossyText
import Esdiag.SseDecoding
import Esdiag.WebUrls
import Esdiag.AgentLocations
import Esdiag.DelimitedSpans
import Esdiag.RelativeLinks
import Esdiag.AgentTurns
import Esdiag.KibanaSpaces
import Esdiag.CyclicCodes
import Esdiag.ProjectIds
import Esdiag.RuleOverlaps
import Esdiag.SharedCells
import Esdiag.WorkspacePrograms
import Esdiag.LostUpdates
import Esdiag.SharedInvariants
import Esdiag.WorkspaceSafety
import Esdiag.PendingJobs
import Esdiag.BroadcastChannels
import Esdiag.EventBus
import Esdiag.BundleManifests
import Esdiag.SettingsMigration
