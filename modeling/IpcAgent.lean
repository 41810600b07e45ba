import IpcAgent.Library.HashMap
import IpcAgent.Library.Newest
import IpcAgent.Types
import IpcAgent.Resolver.ProviderCache
import IpcAgent.Resolver.CacheRun
import IpcAgent.Resolver.CacheReference
import IpcAgent.Resolver.CacheEviction
import IpcAgent.Resolver.CacheInvariant
import IpcAgent.Resolver.Discovery
import IpcAgent.Resolver.DiscoveryEvents
import IpcAgent.Resolver.Membership
import IpcAgent.Library.Fallible
import IpcAgent.Resolver.MembershipRun
import IpcAgent.Resolver.Readmission
import IpcAgent.Resolver.Service
import IpcAgent.Resolver.QueryLife
import IpcAgent.Resolver.ServiceRun
import IpcAgent.Library.Dialogue
import IpcAgent.Lotus.Client
import IpcAgent.Manager.BottomUp
import IpcAgent.Manager.TopDown
import IpcAgent.Manager.LotusSubnetManager
import IpcAgent.Manager.Receipts
import IpcAgent.Manager.Votes
import IpcAgent.Manager.StopSignal
import IpcAgent.Manager.TopDownAgreement
import IpcAgent.Manager.BottomUpAgreement
import IpcAgent.Resolver.MembershipEvents
import IpcAgent.Resolver.Subscriptions
import IpcAgent.Resolver.VoteTopics
import IpcAgent.Library.Signature
import IpcAgent.Resolver.SignedRecord
import IpcAgent.Library.Gcra
import IpcAgent.Library.GcraTicks
import IpcAgent.Resolver.Content
import IpcAgent.Resolver.ServingLimit
import IpcAgent.Config.Reload
import IpcAgent.Manager.CheckpointSubsystem
import IpcAgent.Manager.Panics
import IpcAgent.Library.Worklist
import IpcAgent.Resolver.EvictionPolicy
import IpcAgent.Resolver.MissingBlocks
import IpcAgent.Resolver.FailedChange
import IpcAgent.Resolver.Fallback
import IpcAgent.Manager.Reads
import IpcAgent.Manager.JustifiedVotes
import IpcAgent.Manager.StaleVotes
import IpcAgent.Manager.ProofHeight
import IpcAgent.Resolver.Expiry
import IpcAgent.Resolver.Gauges
import IpcAgent.Resolver.PublishTimer
import IpcAgent.Library.TimeCache
import IpcAgent.Resolver.Limiter
import IpcAgent.Library.Json
import IpcAgent.Serialization.Checkpoint
import IpcAgent.Server.JsonRpc
import IpcAgent.Library.JsonText
import IpcAgent.Lotus.SubnetIdJson
import IpcAgent.Manager.PushOnce
import IpcAgent.Manager.PushedVotes
import IpcAgent.Server.SubnetHandlers
import IpcAgent.Resolver.RateLimitKey
import IpcAgent.Resolver.TopicNames
import IpcAgent.Library.Gate
import IpcAgent.Resolver.Bootstrap
import IpcAgent.Library.Owners
import IpcAgent.Resolver.Connections
import IpcAgent.Resolver.Announcements
import IpcAgent.Resolver.CacheRecords
import IpcAgent.Resolver.Network
import IpcAgent.Resolver.ClientEvents
import IpcAgent.Resolver.Publications
import IpcAgent.Resolver.QueryPeers
import IpcAgent.Resolver.AdmissionLimit
import IpcAgent.Library.JsonFields
import IpcAgent.Server.Commands
import IpcAgent.Library.Partner
import IpcAgent.Manager.Progress
import IpcAgent.Manager.Responses
import IpcAgent.Resolver.ServingProvider
import IpcAgent.Manager.Generations
import IpcAgent.Library.Backoff
import IpcAgent.Resolver.Lookups
import IpcAgent.Server.Effects
import IpcAgent.Server.RightNetwork
import IpcAgent.Server.Cooperation
