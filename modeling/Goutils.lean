import Goutils.Lib.Machine
import Goutils.Lib.Sync
import Goutils.Lib.Wire
import Goutils.Rpc.Errors
import Goutils.Rpc.Frames
import Goutils.Lib.Pieces
import Goutils.Rpc.BaseStream
import Goutils.Rpc.ServerStream
import Goutils.Rpc.ClientSend
import Goutils.Rpc.WebrtcServer
import Goutils.Rpc.ServerChannel
import Goutils.Rpc.ClientToServer
import Goutils.Rpc.ServerHandler
import Goutils.Rpc.ServerMachine
import Goutils.Rpc.ServerProgress
import Goutils.Rpc.ClientStream
import Goutils.Rpc.ClientMachine
import Goutils.Rpc.CleanEnd
import Goutils.Rpc.FrameGrammar
import Goutils.Rpc.ServerOutput
import Goutils.Rpc.Conclusion
import Goutils.Rpc.ServerToClient
import Goutils.Rpc.Invoke
import Goutils.CallQueue.Document
import Goutils.CallQueue.Memory
import Goutils.CallQueue.Lifecycle
import Goutils.Dial.CachedDialer
import Goutils.Dial.CacheKey
import Goutils.CallQueue.RecvOffer
import Goutils.CallQueue.ChangeStream
import Goutils.CallQueue.ClusterTime
import Goutils.CallQueue.CallerCandidates
import Goutils.Signaling.Call
import Goutils.Signaling.MongoCall
import Goutils.Signaling.Relay
import Goutils.Rpc.FrameSize
import Goutils.Lib.Jwt
import Goutils.Auth.Server
import Goutils.Auth.Decision
import Goutils.Auth.Interceptors
import Goutils.Auth.Options
import Goutils.Auth.Issued
import Goutils.Lib.Traced
import Goutils.Dial.Multicast
import Goutils.Rpc.BaseChannel
import Goutils.Rpc.ClientChannel
import Goutils.Rpc.MsgCh
import Goutils.Lib.Forest
import Goutils.Lib.Stateful
import Goutils.Artifact.Tree
import Goutils.Artifact.Cache
import Goutils.Lib.Strings
import Goutils.Artifact.Dangling
import Goutils.Artifact.RoundTrip
import Goutils.Rpc.Reassembly
import Goutils.Rpc.BufferLock
import Goutils.Rpc.HeaderMetadata
import Goutils.CallQueue.LostRace
import Goutils.CallQueue.Admission
import Goutils.CallQueue.ReadyFuncs
import Goutils.Signaling.AnswerStream
import Goutils.CallQueue.OfferFields
import Goutils.Pexec.ManagedProcess
import Goutils.Artifact.TreeNode
import Goutils.Artifact.TreeJson
import Goutils.Lib.Json
import Goutils.Dial.Parallel
import Goutils.Mongo.ChangeStream
import Goutils.Rpc.Peers
import Goutils.Signaling.Answer
import Goutils.Lib.WorkGroup
import Goutils.Signaling.Close
import Goutils.Signaling.Answerer
import Goutils.Signaling.AnswerAttempt
import Goutils.Artifact.Status
import Goutils.Artifact.Clean
import Goutils.Artifact.PullLimit
import Goutils.Pexec.StopCalls
import Goutils.Lib.Keyed
import Goutils.Pexec.ProcessManager
import Goutils.Lib.JsonDocument
import Goutils.Pexec.ProcessConfig
import Goutils.Lib.Utf8
import Goutils.Utils.StoppableWorkers
import Goutils.Utils.FilterError
import Goutils.Lib.FlagSet
import Goutils.Utils.Flags
import Goutils.Protoutils.InterfaceToMap
import Goutils.Rpc.SpanMetadata
import Goutils.Signaling.CandidateCodec
import Goutils.Rpc.BrowserChannel
import Goutils.Web.Sessions
import Goutils.Signaling.HostICEServers
import Goutils.CallQueue.Subscriptions
import Goutils.CallQueue.HostQueueSize
import Goutils.Signaling.Exchange
