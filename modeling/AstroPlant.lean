import AstroPlant.Conc
import AstroPlant.Table
import AstroPlant.Problem
import AstroPlant.Schema
import AstroPlant.Authorization
import AstroPlant.ConfigurationModel
import AstroPlant.MediaModel
import AstroPlant.Kits
import AstroPlant.KitConfigurations
import AstroPlant.Api
import AstroPlant.KitMembers
import AstroPlant.Ownership
import AstroPlant.UsedConfiguration
import AstroPlant.Pool
import AstroPlant.Connections
import AstroPlant.KitRpc
import AstroPlant.KitRpcCorrelation
import AstroPlant.KitRequests
import AstroPlant.KitRpcTimeouts
import AstroPlant.Keyed
import AstroPlant.ServerRpc
import AstroPlant.ServerRpcAnswers
import AstroPlant.MqttConnection
import AstroPlant.Messages
import AstroPlant.Ingest
import AstroPlant.Services
import AstroPlant.Attribution
import AstroPlant.Listeners
import AstroPlant.LiveMeasurements
import AstroPlant.ListenerRegistry
import AstroPlant.CacheHandover
import AstroPlant.Deletions
import AstroPlant.LeakedMedia
import AstroPlant.Measurements
import AstroPlant.ReadableAggregates
import AstroPlant.Like
import AstroPlant.Users
import AstroPlant.Authentication
import AstroPlant.UserLookup
import AstroPlant.OwnedRows
import AstroPlant.Activations
import AstroPlant.SerialActivations
import AstroPlant.Keyset
import AstroPlant.Pages
import AstroPlant.ExactPages
import AstroPlant.PlainCodecs
import AstroPlant.NotifyQueue
import AstroPlant.LocalTaskPool
import AstroPlant.TasksOnce
import AstroPlant.IngestService
import AstroPlant.Hyphenated
import AstroPlant.QueuedMedia
import AstroPlant.MediaObjects
import AstroPlant.Journal
import AstroPlant.MemberAuthority
import AstroPlant.WriteIsolation
import AstroPlant.Reads
import AstroPlant.TwoRuns
import AstroPlant.Confidentiality
import AstroPlant.Accounts
import AstroPlant.DeclaredBounds
import AstroPlant.UniqueAccounts
import AstroPlant.Tokens
import AstroPlant.TokenKinds
import AstroPlant.PeripheralDefinitions
import AstroPlant.AstroplantDefinitions
import AstroPlant.ConformingPeripherals
import AstroPlant.ActivationHistory
import AstroPlant.SoleMembership
import AstroPlant.IngestedOnce
import AstroPlant.SentConfiguration
import AstroPlant.PublishPanics
import AstroPlant.LappedSubscribers
import AstroPlant.Csv
import AstroPlant.FloatDisplay
import AstroPlant.ArchiveText
import AstroPlant.Pipe
import AstroPlant.ArchiveZip
import AstroPlant.KitPages
import AstroPlant.EmailConflicts
import AstroPlant.MediaDownloads
import AstroPlant.SplitOn
import AstroPlant.OwnMessages
import AstroPlant.Base64
import AstroPlant.PasswordHashes
import AstroPlant.Path
import AstroPlant.ObjectPaths
import AstroPlant.Serde
import AstroPlant.ProblemRoundTrip
import AstroPlant.Alter
import AstroPlant.Migrations
import AstroPlant.NeverUsedRollback
import AstroPlant.Newest
import AstroPlant.NewestMeasurements
import AstroPlant.FaithfulClones
import AstroPlant.KeyedEdits
import AstroPlant.NamedDefinitions
import AstroPlant.ImportRuns
import AstroPlant.ImportedDefinitions
import AstroPlant.Given
import AstroPlant.PatchDocuments
import AstroPlant.MergedPatches
import AstroPlant.SubscriptionOrigins
import AstroPlant.LiveFeed
import AstroPlant.LiveOrigins
import AstroPlant.LiveOrder
import AstroPlant.SocketLimits
import AstroPlant.PermittedWrites
import AstroPlant.SessionOrigins
import AstroPlant.Published
import AstroPlant.SessionReads
import AstroPlant.Catalogue
