import SupProtocol.PacketLayout
import SupProtocol.ReferenceValue

namespace SupProtocol.PacketRoundTrip

variable {V : Type} [AnyValue V] [Codec V]

-- What every reader of the library returns on a request of the Invoke family.
structure RequestReads (w payload : V) (encoding : PayloadEncoding) (command : Option AsyncCommand) :
    Prop where
  format : checkRequestFormat w = true
  wire : tryGetPacketEncoding w = some encoding
  extracted : tryExtractRPCRequestPayload w encoding = some payload
  async : getAsyncInfo w = command
  notService : checkServiceRequest w = false
  notReply : checkReplyFormat w = false ∧ tryExtractProtocolResult w = none

structure ServiceRequestReads (w payload : V) (encoding : PayloadEncoding) : Prop where
  format : checkServiceRequest w = true
  wire : tryGetPacketEncoding w = some encoding
  extracted : tryExtractServiceRequestPayload w encoding = some payload
  async : getAsyncInfo w = none
  notRequest : checkRequestFormat w = false
  notReply : checkReplyFormat w = false ∧ tryExtractProtocolResult w = none

-- A reply without a payload reads as not encoded, and its extractor fails.
structure ReplyReads (w : V) (result : ProtocolResult) (payload : Option V)
    (encoding : PayloadEncoding) (command : Option AsyncCommand) : Prop where
  format : checkReplyFormat w = true ∧ checkServiceReplyFormat w = true
  wire : tryGetPacketEncoding w = some (if payload.isSome then encoding else .kNone)
  resultRead : tryExtractProtocolResult w = some result
  extracted : ∀ found, tryGetPacketEncoding w = some found →
    tryExtractRPCReplyPayload w found = payload
  async : getAsyncInfo w = command
  notRequest : checkRequestFormat w = false ∧ checkServiceRequest w = false

def givenPayload (payload : V) : Option V := if isEmptyValue payload then none else some payload

variable [LawfulAnyValue V] [LawfulCodec V] {encoding : PayloadEncoding}

theorem request_reads {w payload : V} {command : Option AsyncCommand}
    (known : Represents w ⟨none,some (.query,payload),encoding,command⟩)
    (supported : isSupportedPayloadEncoding encoding = true) :
    RequestReads w payload encoding command where
  format := known.requestFormat
  wire := known.encoding supported
  extracted := known.extract supported .query
  async := known.command
  notService := known.serviceRequest
  notReply := ⟨known.replyFormat,known.result⟩

theorem serviceRequest_reads {w payload : V}
    (known : Represents w ⟨none,some (.service,payload),encoding,none⟩)
    (supported : isSupportedPayloadEncoding encoding = true) :
    ServiceRequestReads w payload encoding where
  format := known.serviceRequest
  wire := known.encoding supported
  extracted := known.extract supported .service
  async := known.command
  notRequest := known.requestFormat
  notReply := ⟨known.replyFormat,known.result⟩

theorem reply_reads {w payload : V} {result : ProtocolResult} {command : Option AsyncCommand}
    (known : Represents w ⟨some result,optionalReply payload,encoding,command⟩)
    (supported : isSupportedPayloadEncoding encoding = true) :
    ReplyReads w result (givenPayload payload) encoding command := by
  have requestRead := known.requestFormat
  have serviceRead := known.serviceRequest
  have wire := known.encoding supported
  cases isEmpty : isEmptyValue payload with
  | false =>
    have payloadRead := known.extract supported .reply
    simp only [optionalReply,givenPayload,isEmpty,Packet.wireEncoding,Packet.payloadOf] at *
    refine ⟨⟨known.replyFormat,known.serviceReplyFormat⟩,wire,known.result,?_,known.command,
      requestRead,serviceRead⟩
    intro found same
    cases wire.symm.trans same
    exact payloadRead
  | true =>
    -- without a payload the member is absent, whatever the encoding
    have absent := known.hasPayload .reply
    simp only [optionalReply,givenPayload,isEmpty,Packet.wireEncoding,Packet.payloadOf,hasField,
      PayloadField.name] at *
    refine ⟨⟨known.replyFormat,known.serviceReplyFormat⟩,wire,known.result,?_,known.command,
      requestRead,serviceRead⟩
    intro found _
    have missing : member w replyPayload = none := by simpa using absent
    simp [tryExtractRPCReplyPayload,tryExtractRPCPayload,missing]

theorem scalarReply_reads {w inner : V} {n : String} {t : ScalarType} {x : t.Rep}
    {result : ProtocolResult} {command : AsyncCommand}
    (members : HasMembers inner [(n,scalar t x)]) (name : n ∈ packetFieldNames)
    (known : Represents w ⟨some result,some (.reply,inner),encoding,some command⟩)
    (supported : isSupportedPayloadEncoding encoding = true) :
    ReplyReads w result (some inner) encoding (some command) ∧
      tryExtractPayloadScalar w replyPayload n t encoding = some x := by
  have asReply : optionalReply inner = some (.reply,inner) := by
    simp [optionalReply,members.nonempty]
  have asGiven : givenPayload inner = some inner := by simp [givenPayload,members.nonempty]
  refine ⟨?_,known.extractScalar n name t x members supported⟩
  rw [← asGiven]
  exact reply_reads (by rw [asReply]; exact known) supported

theorem idRequest_reads (id : UInt64) (command : AsyncCommand)
    (supported : isSupportedPayloadEncoding encoding = true) :
    ∃ payload w : V, createAsyncIdRequest id encoding command = .ok w ∧
      RequestReads w payload encoding (some command) ∧ tryExtractRequestId w encoding = some id := by
  obtain ⟨payload,w,inner,built,known⟩ := createAsyncIdRequest_represents (V := V) id command supported
  exact ⟨payload,w,built,request_reads known supported,
    known.extractScalar asyncIdFieldName (by decide) .unsignedInteger64 id inner supported⟩

structure RequestsRoundTrip (payload : V) (encoding : PayloadEncoding) (id : UInt64) : Prop where
  rpc : ∃ w, createRPCRequest payload encoding = .ok w ∧ RequestReads w payload encoding none
  asyncRpc : ∃ w, createAsyncRPCRequest payload encoding = .ok w ∧
    RequestReads w payload encoding (some .kInitialRequest)
  poll : ∃ inner w : V, createAsyncRPCPoll id encoding = .ok w ∧
    RequestReads w inner encoding (some .kPoll) ∧ tryExtractRequestId w encoding = some id
  getReply : ∃ inner w : V, createAsyncRPCGetReply id encoding = .ok w ∧
    RequestReads w inner encoding (some .kGetReply) ∧ tryExtractRequestId w encoding = some id
  invalidate : ∃ inner w : V, createAsyncRPCInvalidate id encoding = .ok w ∧
    RequestReads w inner encoding (some .kInvalidate) ∧ tryExtractRequestId w encoding = some id
  service : ∃ w, createServiceRequest payload encoding = .ok w ∧
    ServiceRequestReads w payload encoding

structure RepliesRoundTrip (payload : V) (encoding : PayloadEncoding) (id : UInt64)
    (result : ProtocolResult) (isReady : Bool) (command : AsyncCommand) : Prop where
  rpc : ∃ w, createRPCReply result payload encoding = .ok w ∧
    ReplyReads w result (givenPayload payload) encoding none
  asyncRpc : ∃ w, createAsyncRPCReply result payload encoding command = .ok w ∧
    ReplyReads w result (givenPayload payload) encoding (some command)
  newRequest : ∃ inner w : V, createAsyncRPCNewRequestReply id encoding = .ok w ∧
    ReplyReads w .success (some inner) encoding (some .kInitialRequest) ∧
    tryExtractReplyId w encoding = some id
  poll : ∃ inner w : V, createAsyncRPCPollReply isReady encoding = .ok w ∧
    ReplyReads w .success (some inner) encoding (some .kPoll) ∧
    tryExtractReadyStatus w encoding = some isReady
  service : ∃ w, createServiceReply result payload encoding = .ok w ∧
    ReplyReads w result (givenPayload payload) encoding none

theorem requests_roundtrip {payload : V} (nonempty : isEmptyValue payload = false)
    (supported : isSupportedPayloadEncoding encoding = true) (id : UInt64) :
    RequestsRoundTrip payload encoding id where
  rpc := by
    obtain ⟨w,built,known⟩ := createRPCRequest_represents nonempty supported
    exact ⟨w,built,request_reads known supported⟩
  asyncRpc := by
    obtain ⟨w,built,known⟩ := createAsyncRPCRequest_represents nonempty supported
    exact ⟨w,built,request_reads known supported⟩
  poll := idRequest_reads id .kPoll supported
  getReply := idRequest_reads id .kGetReply supported
  invalidate := idRequest_reads id .kInvalidate supported
  service := by
    obtain ⟨w,built,known⟩ := createServiceRequest_represents nonempty supported
    exact ⟨w,built,serviceRequest_reads known supported⟩

theorem replies_roundtrip (payload : V) (supported : isSupportedPayloadEncoding encoding = true)
    (id : UInt64) (result : ProtocolResult) (isReady : Bool) (command : AsyncCommand) :
    RepliesRoundTrip payload encoding id result isReady command where
  rpc := by
    obtain ⟨w,built,known⟩ := createRPCReply_represents result payload supported
    exact ⟨w,built,reply_reads known supported⟩
  asyncRpc := by
    obtain ⟨w,built,known⟩ := createAsyncRPCReply_represents result payload command supported
    exact ⟨w,built,reply_reads known supported⟩
  newRequest := by
    obtain ⟨inner,w,members,built,known⟩ := createAsyncRPCNewRequestReply_represents (V := V) id supported
    exact ⟨inner,w,built,scalarReply_reads members (by decide) known supported⟩
  poll := by
    obtain ⟨inner,w,members,built,known⟩ := createAsyncRPCPollReply_represents (V := V) isReady supported
    exact ⟨inner,w,built,scalarReply_reads members (by decide) known supported⟩
  service := by
    obtain ⟨w,built,known⟩ := createServiceReply_represents result payload supported
    exact ⟨w,built,reply_reads known supported⟩

theorem packets_roundtrip (payload anyPayload : V) (encoding : PayloadEncoding) (id : UInt64)
    (result : ProtocolResult) (isReady : Bool) (command : AsyncCommand)
    (nonempty : isEmptyValue payload = false)
    (supported : isSupportedPayloadEncoding encoding = true) :
    RequestsRoundTrip payload encoding id ∧
      RepliesRoundTrip anyPayload encoding id result isReady command :=
  ⟨requests_roundtrip nonempty supported id,
   replies_roundtrip anyPayload supported id result isReady command⟩

theorem packets_roundtrip_plain :
    RequestsRoundTrip (Reference.Value.string "set_point") .kNone 42 ∧
      RepliesRoundTrip Reference.Value.empty .kNone 42 .notConnected true .kGetReply :=
  packets_roundtrip (Reference.Value.string "set_point") Reference.Value.empty .kNone 42
    .notConnected true .kGetReply (by decide) (by decide)

end SupProtocol.PacketRoundTrip
