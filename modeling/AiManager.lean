import AiManager.Lib.KMap
import AiManager.Lib.Place
import AiManager.Lib.Prog
import AiManager.Lib.Lock
import AiManager.Lib.Levels
import AiManager.Lib.LockPool
import AiManager.Lib.Json
import AiManager.Lib.Text
import AiManager.Lib.Sha256
import AiManager.Lib.MergeTree
import AiManager.Lib.OrderLimit
import AiManager.Lib.Register
import AiManager.Lib.SlidingWindow
import AiManager.Lib.Sorting
import AiManager.Lib.DateTime
import AiManager.Lib.Delimited
import AiManager.Lib.Fallible
import AiManager.Graph.MemberOf
import AiManager.Graph.Membership
import AiManager.Graph.Model
import AiManager.Graph.NothingLost
import AiManager.Graph.Project
import AiManager.Graph.ProjectAll
import AiManager.Graph.Projector
import AiManager.Graph.Query
import AiManager.Graph.AccessOrder
import AiManager.Graph.Lifecycle
import AiManager.Graph.MapEvent
import AiManager.Graph.ReadersAgree
import AiManager.Graph.Replay
import AiManager.Graph.Snapshots
import AiManager.Graph.Store
import AiManager.Graph.StoreCrdb
import AiManager.Graph.StoreLocks
import AiManager.Graph.WritersAgree
import AiManager.Graph.Consumers
import AiManager.Graph.ConflictOrder
import AiManager.Graph.ConflictOwners
import AiManager.Graph.Conflicts
import AiManager.Graph.Endpoints
import AiManager.Graph.Neighborhood
import AiManager.Graph.Noninterference
import AiManager.Graph.Path
import AiManager.Platform.NamedMember
import AiManager.Platform.PullRequestStatus
import AiManager.Platform.OwnDraft
import AiManager.Platform.Roles
import AiManager.Platform.Redelivery
import AiManager.Platform.Scheduler
import AiManager.Platform.SlackEvents
import AiManager.Platform.TwoTopics
import AiManager.Platform.Wire
import AiManager.Platform.TwinWriters
import AiManager.Platform.TwinEdits
import AiManager.Platform.Commitments
import AiManager.Platform.TenantLists
import AiManager.Platform.ListUpdates
import AiManager.Lib.CappedList
import AiManager.Telemetry.Acl
import AiManager.Telemetry.Identity
import AiManager.Telemetry.DedupLocks
import AiManager.Telemetry.DedupWindow
import AiManager.Telemetry.ByResource
import AiManager.Telemetry.ClickHouse
import AiManager.Telemetry.Dedup
import AiManager.Telemetry.EventQuery
import AiManager.Telemetry.Github
import AiManager.Telemetry.IngestPhases
import AiManager.Telemetry.LatestState
import AiManager.Telemetry.Model
import AiManager.Telemetry.Normalize
import AiManager.Telemetry.Pipeline
import AiManager.Telemetry.Retriable
import AiManager.Telemetry.RetryAfter
import AiManager.Telemetry.Revocations
import AiManager.Telemetry.Store
import AiManager.Telemetry.Upsert
import AiManager.Telemetry.ZeroLoss
import AiManager.Twins.Model
import AiManager.Twins.Store
import AiManager.Lib.Run
import AiManager.Twins.PublishedLedger
import AiManager.Twins.StateMachine
import AiManager.Twins.NotifyPolicy
import AiManager.Twins.DailyCap
import AiManager.Twins.Delivery
import AiManager.Twins.ExactlyOnce
import AiManager.Twins.Veto
import AiManager.Twins.Consent
import AiManager.Twins.DraftIds
import AiManager.Twins.DraftRows
import AiManager.Twins.Decisions
import AiManager.Twins.SilenceWindow
import AiManager.Twins.Transient
import AiManager.Twins.Transitions
import AiManager.Twins.ApprovalDm
import AiManager.Twins.Compiler
import AiManager.Twins.GraphView
import AiManager.Twins.LedgerText
import AiManager.Twins.StoreCrdb
import AiManager.Twins.DraftStores
import AiManager.Twins.Digest
import AiManager.Twins.DigestComplete
import AiManager.Lib.UniqueTable
import AiManager.Graph.Api
import AiManager.Twins.HttpV2
import AiManager.Platform.FinishedWork
import AiManager.Platform.FreeText
import AiManager.Twins.StartCalls
import AiManager.Twins.ScheduledCompiles
import AiManager.Lib.NumberedLog
import AiManager.Telemetry.BusGroups
import AiManager.Telemetry.BusRecv
import AiManager.Egress.Url
import AiManager.Egress.Client
import AiManager.Egress.Target
import AiManager.Egress.RoundTrip
import AiManager.Egress.Registry
import AiManager.Egress.Proxy
import AiManager.Egress.Confinement
import AiManager.Telemetry.AclCache
import AiManager.Graph.IdClash
import AiManager.Lib.Percent
import AiManager.Twins.UrlText
import AiManager.Platform.FormText
import AiManager.Lib.SqlText
import AiManager.Telemetry.ClickHouseText
import AiManager.Telemetry.Placeholders
import AiManager.Telemetry.Secrets
import AiManager.Lib.Tally
import AiManager.Telemetry.Metrics
import AiManager.Twins.Fingerprint
import AiManager.Platform.Duplicates
import AiManager.Platform.ResolvePerson
import AiManager.Telemetry.Providers
import AiManager.Telemetry.ActorAgreement
import AiManager.Lib.FirstRule
import AiManager.Platform.OwnerLabel
import AiManager.Platform.ClosingScope
import AiManager.Lib.Multimap
import AiManager.Egress.Transparency
import AiManager.Lib.Replace
import AiManager.Egress.Redaction
import AiManager.Lib.Calendar
import AiManager.Lib.Digits
import AiManager.Lib.Instant
import AiManager.Platform.IntentLedger
import AiManager.Graph.WalksAgree
import AiManager.Lib.StaleCopies
import AiManager.Lib.StandIns
import AiManager.Graph.SnapshotView
import AiManager.Graph.Tenants
import AiManager.Telemetry.AclCrdb
import AiManager.Telemetry.AclStores
import AiManager.Lib.WriteThrough
import AiManager.Telemetry.AclJournal
import AiManager.Graph.ConsumeLoop
import AiManager.Lib.Serde
import AiManager.Platform.WireJson
import AiManager.Platform.CommitmentLedger
import AiManager.Platform.FollowThrough
import AiManager.Lib.Hmac
import AiManager.Telemetry.Auth
import AiManager.Telemetry.AuthGate
import AiManager.Platform.WebhookToGraph
import AiManager.Telemetry.WebhookToReader
