import SupProtocol.AsyncInvocation
import SupProtocol.PacketDispatch

namespace SupProtocol
open AsyncInvokeServer Machine

variable {V : Type} [AnyValue V] [Codec V]

-- What a packet brings to the asynchronous server, and what one call of
-- operator() brings to it in all.
def packetCommands (packet : V) (moments : Nat → Moment V) : List (Event V) :=
  match tryGetPacketEncoding packet with
  | none => []
  | some encoding =>
    if checkServiceRequest packet || !checkRequestFormat packet then []
    else
      match tryExtractRPCRequestPayload packet encoding,getAsyncInfo packet with
      | some payload,some command => [.handleInvoke payload encoding command moments]
      | _,_ => []

def ProtocolRPCServer.arrivals (server : ProtocolRPCServer V) (schedule : Schedule V) :
    List (Event V) :=
  schedule.before ++
    ((if (server.expirationHandler.isCleanUpNeeded schedule.now).1 then
        [.cleanUpExpiredRequests schedule.cleanUp] else []) ++ schedule.between)

theorem handlePacket_run (protocol : Protocol V) (packet : V) (moments : Nat → Moment V)
    (server : AsyncInvokeServer V) :
    (ProtocolRPCServer.handlePacket protocol packet moments server).2 =
      run step server (packetCommands packet moments) := by
  unfold ProtocolRPCServer.handlePacket packetCommands
  cases tryGetPacketEncoding packet with
  | none => rfl
  | some encoding =>
    cases service : checkServiceRequest packet with
    | true => simp [run]
    | false =>
      dsimp only
      cases format : checkRequestFormat packet with
      | false => simp [ProtocolRPCServer.handleInvokeRequest,format,run]
      | true =>
        cases extracted : tryExtractRPCRequestPayload packet encoding with
        | none => simp [ProtocolRPCServer.handleInvokeRequest,format,extracted,run]
        | some payload =>
          cases asked : getAsyncInfo packet with
          | none => simp [invoke_answers format extracted asked,run]
          | some command => simp [command_answers format extracted asked,commandAnswer,run]

theorem prepared_run (server : ProtocolRPCServer V) (schedule : Schedule V) :
    server.prepared schedule = run step server.asyncServer (server.arrivals schedule) := by
  unfold ProtocolRPCServer.prepared ProtocolRPCServer.arrivals
  rw [run_append,run_append]
  cases (server.expirationHandler.isCleanUpNeeded schedule.now).1 <;> rfl

theorem call_run (protocol : Protocol V) (server : ProtocolRPCServer V) (packet : V)
    (schedule : Schedule V) : (server.call protocol packet schedule).2.asyncServer =
      run step server.asyncServer
        (server.arrivals schedule ++ packetCommands packet schedule.moments) := by
  rw [run_append,← prepared_run]
  exact handlePacket_run protocol packet schedule.moments (server.prepared schedule)

-- A client's functor that is the server itself. Beside the server it counts the
-- packets and notes all that reached the asynchronous server, the calls that the
-- packets of this client made on their own thread and those they launched.
structure Link (V : Type) where
  server : ProtocolRPCServer V
  packets : Nat
  events : List (Event V)
  made : List (Made V)
  launched : List V

namespace Link

def connect (expirationTimeNs : UInt64) (handler : ExpirationTimeoutHandler) (past : List (Event V)) :
    Link V := ⟨⟨reached expirationTimeNs past,handler⟩,0,past,[],[]⟩

def functor (protocol : Protocol V) (schedule : Nat → Schedule V) : AnyFunctor (Link V) V :=
  fun packet link =>
    let now := schedule link.packets
    let (answer,server) := link.server.call protocol packet now
    (answer.reply,
     {server := server
      packets := link.packets + 1
      events := link.events ++ (link.server.arrivals now ++ packetCommands packet now.moments)
      made := link.made ++ answer.made
      launched := link.launched ++
        launchedInputs (link.server.prepared now) server.asyncServer})

-- The asynchronous server is where its events have taken it.
def Tracks (expirationTimeNs : UInt64) (link : Link V) : Prop :=
  link.server.asyncServer = reached expirationTimeNs link.events

def found (link : Link V) (schedule : Nat → Schedule V) : AsyncInvokeServer V :=
  link.server.prepared (schedule link.packets)

def nextCall (link : Link V) (schedule : Nat → Schedule V) : Nat := (link.found schedule).calls.length
def nextId (link : Link V) (schedule : Nat → Schedule V) : UInt64 := (link.found schedule).lastId + 1

def pending (link : Link V) (schedule : Nat → Schedule V) : List (Event V) :=
  link.events ++ link.server.arrivals (schedule link.packets)

theorem found_reached {expirationTimeNs : UInt64} {link : Link V} (tracks : link.Tracks expirationTimeNs)
    (schedule : Nat → Schedule V) :
    link.found schedule = reached expirationTimeNs (link.pending schedule) := by
  unfold found pending
  rw [prepared_run,tracks]
  exact (run_append _ _ _).symm

def arriving (link : Link V) (schedule : Nat → Schedule V) (packet : V) : List (Event V) :=
  link.server.arrivals (schedule link.packets) ++
    packetCommands packet (schedule link.packets).moments

theorem functor_exact {protocol : Protocol V} {schedule : Nat → Schedule V} {link : Link V}
    {packet : V} {answer : PacketAnswer V} {after : AsyncInvokeServer V}
    (handled : ProtocolRPCServer.handlePacket protocol packet (schedule link.packets).moments
      (link.found schedule) = (answer,after)) :
    functor protocol schedule packet link = (answer.reply,
      ⟨⟨after,(link.server.expirationHandler.isCleanUpNeeded (schedule link.packets).now).2⟩,
       link.packets + 1,link.events ++ link.arriving schedule packet,link.made ++ answer.made,
       link.launched ++ launchedInputs (link.found schedule) after⟩) := by
  unfold found at handled
  simp only [functor,ProtocolRPCServer.call,handled]
  rfl

end Link

section Packets
variable [LawfulAnyValue V] [LawfulCodec V] {packet payload : V} {encoding : PayloadEncoding}
  (protocol : Protocol V) (moments : Nat → Moment V) (server : AsyncInvokeServer V)

theorem service_handled (known : Represents packet ⟨none,some (.service,payload),encoding,none⟩)
    (supported : isSupportedPayloadEncoding encoding = true) :
    ProtocolRPCServer.handlePacket protocol packet moments server =
      (serviceAnswer protocol payload encoding,server) := by
  have read := known.encoding supported
  have service := known.serviceRequest
  have extracted := known.extract supported .service
  simp only [ProtocolRPCServer.handlePacket,read,service]
  rw [← service_answers extracted]
  rfl

omit [LawfulCodec V] in
theorem query_handled {command : Option AsyncCommand}
    (known : Represents packet ⟨none,some (.query,payload),encoding,command⟩)
    (supported : isSupportedPayloadEncoding encoding = true) :
    ProtocolRPCServer.handlePacket protocol packet moments server =
      ProtocolRPCServer.handleInvokeRequest protocol packet encoding moments server := by
  have read := known.encoding supported
  have service := known.serviceRequest
  simp only [ProtocolRPCServer.handlePacket,read,service]
  rfl

theorem invoke_handled (known : Represents packet ⟨none,some (.query,payload),encoding,none⟩)
    (supported : isSupportedPayloadEncoding encoding = true) :
    ProtocolRPCServer.handlePacket protocol packet moments server =
      (invokeAnswer protocol payload encoding,server) := by
  rw [query_handled protocol moments server known supported]
  exact invoke_answers known.requestFormat (known.extract supported .query) known.command

theorem command_handled {command : AsyncCommand}
    (known : Represents packet ⟨none,some (.query,payload),encoding,some command⟩)
    (supported : isSupportedPayloadEncoding encoding = true) :
    ProtocolRPCServer.handlePacket protocol packet moments server =
      commandAnswer server payload encoding command moments := by
  rw [query_handled protocol moments server known supported]
  exact command_answers known.requestFormat (known.extract supported .query) known.command

theorem command_arrives {command : AsyncCommand}
    (known : Represents packet ⟨none,some (.query,payload),encoding,some command⟩)
    (supported : isSupportedPayloadEncoding encoding = true) :
    packetCommands packet moments = [.handleInvoke payload encoding command moments] := by
  have read := known.encoding supported
  have service := known.serviceRequest
  have format := known.requestFormat
  have extracted : tryExtractRPCRequestPayload packet encoding = some payload :=
    known.extract supported .query
  simp [packetCommands,read,Packet.wireEncoding,service,Packet.payloadOf,format,extracted,known.command]

end Packets

namespace Link

def commanded (link : Link V) (schedule : Nat → Schedule V) (payload : V) (encoding : PayloadEncoding)
    (command : AsyncCommand) : Link V :=
  let now := schedule link.packets
  let event := Event.handleInvoke payload encoding command now.moments
  {server := ⟨((link.found schedule).step event).2,
    (link.server.expirationHandler.isCleanUpNeeded now.now).2⟩
   packets := link.packets + 1
   events := link.pending schedule ++ [event]
   made := link.made
   launched := link.launched ++ event.launches}

@[simp] theorem commanded_events (link : Link V) (schedule : Nat → Schedule V) (payload : V)
    (encoding : PayloadEncoding) (command : AsyncCommand) :
    (link.commanded schedule payload encoding command).events = link.pending schedule ++
      [.handleInvoke payload encoding command (schedule link.packets).moments] := rfl

theorem functor_command [LawfulAnyValue V] [LawfulCodec V] {packet payload : V}
    {encoding : PayloadEncoding} {command : AsyncCommand}
    (known : Represents packet ⟨none,some (.query,payload),encoding,some command⟩)
    (supported : isSupportedPayloadEncoding encoding = true) (protocol : Protocol V)
    (schedule : Nat → Schedule V) (link : Link V) :
    functor protocol schedule packet link =
      (((link.found schedule).handleInvoke payload encoding command
          (schedule link.packets).moments).1.reply,
       link.commanded schedule payload encoding command) := by
  have handled := command_handled protocol (schedule link.packets).moments (link.found schedule)
    known supported
  have launched : launchedInputs (link.found schedule) ((link.found schedule).handleInvoke payload
      encoding command (schedule link.packets).moments).2 =
      if command = .kInitialRequest then [payload] else [] :=
    launched_command (link.found schedule) payload encoding command (schedule link.packets).moments
  rw [functor_exact handled,arriving,command_arrives _ known supported,launched]
  simp only [commanded,pending,Event.launches,List.append_assoc,List.append_nil]
  rfl

end Link

end SupProtocol
