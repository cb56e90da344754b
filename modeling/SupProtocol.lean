import SupProtocol.Vocabulary
import SupProtocol.AnyValue
import SupProtocol.ReferenceValue
import SupProtocol.ProtocolRpc
import SupProtocol.PacketLayout
import SupProtocol.PacketRoundTrip
import SupProtocol.Library.Machine
import SupProtocol.Library.Tasks
import SupProtocol.Library.Mailbox
import SupProtocol.AsyncInvoke
import SupProtocol.AsyncInvokeServer
import SupProtocol.ServerTransition
import SupProtocol.ServerInvariants
import SupProtocol.ServerFunctions
import SupProtocol.ServerMailbox
import SupProtocol.ServerDelivery
import SupProtocol.ServerRetention
import SupProtocol.ServerAgreement
import SupProtocol.ProtocolRPCServer
import SupProtocol.PacketGrammar
import SupProtocol.PacketDispatch
import SupProtocol.AsyncInvocation
import SupProtocol.ProtocolRPCClient
import SupProtocol.ClientFunctions
import SupProtocol.ReplyDecoding
import SupProtocol.ServerFunctor
import SupProtocol.SyncTransport
import SupProtocol.ErrorReplies
import SupProtocol.AsyncTransport
import SupProtocol.EncodedVariable
import SupProtocol.EmptyPayload
import SupProtocol.ReplyAccess
import SupProtocol.ClientTotality
import SupProtocol.WireTrace
import SupProtocol.SyncFallback
import SupProtocol.ServerClosure
import SupProtocol.WallClock
import SupProtocol.ServerReclaim
import SupProtocol.ServerInterference
import SupProtocol.ReadyWaits
import SupProtocol.VariableWait
import SupProtocol.WaitContract
import SupProtocol.WaitTimeout
import SupProtocol.ServerWaiting
import SupProtocol.PollingBound
import SupProtocol.DecodedVariable
import SupProtocol.FunctionProtocol
import SupProtocol.ReferenceParameters
import SupProtocol.ParameterPacking
import SupProtocol.ParameterExtraction
import SupProtocol.PackAtomicity
import SupProtocol.CallProgress
import SupProtocol.SharedServer
import SupProtocol.SharedInvariant
import SupProtocol.SharedDelivery
import SupProtocol.ServerThreads
import SupProtocol.ThreadCompletion
import SupProtocol.Library.Dialogue
import SupProtocol.FunctorSimulation
import SupProtocol.LoggingStack
import SupProtocol.LoggingServerStack
import SupProtocol.RelayedProtocol
import SupProtocol.AsyncRelay
import SupProtocol.RemoteFunctions
import SupProtocol.ApplicationInfo
import SupProtocol.InvocationOwners
import SupProtocol.OwnerSafety
import SupProtocol.OwnerService
import SupProtocol.EncodedWait
import SupProtocol.ResultNames
import SupProtocol.ClientConfiguration
