import Sopmq.Arrival
import Sopmq.AuthenticatedSession
import Sopmq.Authentication
import Sopmq.Basic
import Sopmq.ByteOrder
import Sopmq.Circle
import Sopmq.CircularBuffer
import Sopmq.ClientCluster
import Sopmq.ClientDisclosure
import Sopmq.ClockLaws
import Sopmq.ClockOrder
import Sopmq.ClusterConnect
import Sopmq.ClusterEndpoint
import Sopmq.Connection
import Sopmq.ConnectionIn
import Sopmq.DominanceOrder
import Sopmq.Endpoint
import Sopmq.FailureDetector
import Sopmq.Handshake
import Sopmq.KeyedMap
import Sopmq.LocalNode
import Sopmq.LocalReply
import Sopmq.LocalRuns
import Sopmq.LoginRuns
import Sopmq.LoneServer
import Sopmq.Loop
import Sopmq.Machine
import Sopmq.Majority
import Sopmq.MessageDispatcher
import Sopmq.MessageQueue
import Sopmq.MessageUtil
import Sopmq.Messages
import Sopmq.Mixing
import Sopmq.MurmurHash3
import Sopmq.NodeClock
import Sopmq.NodeLiveness
import Sopmq.OverlappingPublish
import Sopmq.PeerAuthentication
import Sopmq.Publish
import Sopmq.PublishAttempts
import Sopmq.PublishCallbacks
import Sopmq.PublishHandler
import Sopmq.PublishOutcomes
import Sopmq.PublishRetry
import Sopmq.PublishRuns
import Sopmq.PublishSafety
import Sopmq.PublishTargets
import Sopmq.PublishVerdicts
import Sopmq.QueueContents
import Sopmq.QueueExpiry
import Sopmq.QueueIndex
import Sopmq.QueueManager
import Sopmq.QueuePeek
import Sopmq.QueueProjection
import Sopmq.QueueRuns
import Sopmq.QueueStamps
import Sopmq.QuorumHeld
import Sopmq.QuorumLogic
import Sopmq.QuorumRuns
import Sopmq.ReadOutcomes
import Sopmq.ReplicaAgreement
import Sopmq.Ring
import Sopmq.RingAdditions
import Sopmq.RingLookup
import Sopmq.RingQuorum
import Sopmq.SequentialDelivery
import Sopmq.SequentialPublish
import Sopmq.Server
import Sopmq.ServerIsolation
import Sopmq.SortedMap
import Sopmq.Storage
import Sopmq.StorageQuery
import Sopmq.StreamDelivery
import Sopmq.UserAccount
import Sopmq.VectorClock
import Sopmq.Words128
import Sopmq.Words128Text
