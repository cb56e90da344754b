import SupProtocol.ServerTransition

namespace SupProtocol

-- The application behind the server: what one call of each method does with its
-- input and the output value it is given.
structure Protocol (V : Type) where
  invoke : V → V → Outcome V
  service : V → V → Outcome V

inductive Made (V : Type) where
  | invoked (input output : V)
  | serviced (input output : V)

structure PacketAnswer (V : Type) where
  reply : Except Exception V
  made : List (Made V)

structure ExpirationTimeoutHandler where
  lastTimestamp : UInt64
  cleanupNs : UInt64
  deriving DecidableEq, Repr

def ExpirationTimeoutHandler.isCleanUpNeeded (handler : ExpirationTimeoutHandler) (now : UInt64) :
    Bool × ExpirationTimeoutHandler :=
  if now - handler.lastTimestamp > handler.cleanupNs then (true,{handler with lastTimestamp := now})
  else (false,handler)

structure ProtocolRPCServer (V : Type) where
  asyncServer : AsyncInvokeServer V
  expirationHandler : ExpirationTimeoutHandler

-- What the threads around one call of operator() do: the clock it reads first,
-- the moments of its clean-up and of the packet's command, and what reaches the
-- asynchronous server from other threads before the clean-up and after it.
structure Schedule (V : Type) where
  before : List (Event V)
  now : UInt64
  cleanUp : Nat → Moment V
  between : List (Event V)
  moments : Nat → Moment V

namespace ProtocolRPCServer
variable {V : Type} [AnyValue V] [Codec V]

def handleServiceRequest (protocol : Protocol V) (request : V) (encoding : PayloadEncoding) :
    PacketAnswer V :=
  match tryExtractServiceRequestPayload request encoding with
  | none => ⟨createRPCStatusReply .serverTransportDecodingError,[]⟩
  | some payload =>
    match protocol.service payload empty with
    | .error _ => ⟨createServiceStatusReply .serverProtocolException,[.serviced payload empty]⟩
    | .ok (result,output) => ⟨createServiceReply result output encoding,[.serviced payload empty]⟩

def handleInvokeRequest (protocol : Protocol V) (request : V) (encoding : PayloadEncoding)
    (moments : Nat → Moment V) (server : AsyncInvokeServer V) :
    PacketAnswer V × AsyncInvokeServer V :=
  if !checkRequestFormat request then
    (⟨createRPCStatusReply .serverTransportDecodingError,[]⟩,server)
  else
    match tryExtractRPCRequestPayload request encoding with
    | none => (⟨createRPCStatusReply .serverTransportDecodingError,[]⟩,server)
    | some payload =>
      match getAsyncInfo request with
      | some command =>
        let (answer,server) := server.handleInvoke payload encoding command moments
        (⟨answer.reply,[]⟩,server)
      | none =>
        match protocol.invoke payload empty with
        | .error _ =>
          (⟨createRPCStatusReply .serverProtocolException,[.invoked payload empty]⟩,server)
        | .ok (result,output) =>
          (⟨createRPCReply result output encoding,[.invoked payload empty]⟩,server)

-- operator() after its clean-up.
def handlePacket (protocol : Protocol V) (input : V) (moments : Nat → Moment V)
    (server : AsyncInvokeServer V) : PacketAnswer V × AsyncInvokeServer V :=
  match tryGetPacketEncoding input with
  | none => (⟨createRPCStatusReply .serverUnsupportedPayloadEncodingError,[]⟩,server)
  | some encoding =>
    if checkServiceRequest input then (handleServiceRequest protocol input encoding,server)
    else handleInvokeRequest protocol input encoding moments server

def prepared (server : ProtocolRPCServer V) (schedule : Schedule V) : AsyncInvokeServer V :=
  let found := Machine.run AsyncInvokeServer.step server.asyncServer schedule.before
  let cleaned :=
    if (server.expirationHandler.isCleanUpNeeded schedule.now).1 then
      (found.cleanUpExpiredRequests schedule.cleanUp).1
    else found
  Machine.run AsyncInvokeServer.step cleaned schedule.between

def call (protocol : Protocol V) (server : ProtocolRPCServer V) (input : V)
    (schedule : Schedule V) : PacketAnswer V × ProtocolRPCServer V :=
  let (answer,asyncServer) := handlePacket protocol input schedule.moments (server.prepared schedule)
  (answer,⟨asyncServer,(server.expirationHandler.isCleanUpNeeded schedule.now).2⟩)

end ProtocolRPCServer

end SupProtocol
