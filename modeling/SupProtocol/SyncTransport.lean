import SupProtocol.ClientFunctions
import SupProtocol.ReplyDecoding
import SupProtocol.ServerFunctor

namespace SupProtocol

variable {V : Type} [AnyValue V]

-- What a caller sees of a call that ended in `outcome`, had it made the call
-- itself: an exception becomes a result, and only a successful call with an
-- output touches the caller's value.
def callResult (outcome : Outcome V) (output : V) : ProtocolResult × V :=
  match outcome with
  | .error _ => (.serverProtocolException,output)
  | .ok (result,payload) =>
    if result ≠ .success ∨ isEmptyValue payload then (result,output)
    else if (tryAssignIfEmptyOrConvert output payload).1 then
      (.success,(tryAssignIfEmptyOrConvert output payload).2)
    else (.clientTransportDecodingError,output)

theorem callResult_settled [LawfulAnyValue V] (outcome : Outcome V) (output : V) :
    callResult (.ok (AsyncInvoke.settled outcome)) output = callResult outcome output := by
  cases outcome with
  | ok reply => rfl
  | error thrown => simp [AsyncInvoke.settled,callResult]

theorem acceptPayload_assigns [LawfulAssign V] {payload : V} (nonempty : isEmptyValue payload = false)
    (output : V) : acceptPayload (some payload) output = callResult (.ok (.success,payload)) output := by
  simp only [acceptPayload,callResult,nonempty]
  rcases assigned : tryAssignIfEmptyOrConvert output payload with ⟨taken,kept⟩
  cases taken with
  | true => simp
  | false =>
    have untouched := LawfulAssign.assign_failed output payload (by rw [assigned])
    rw [assigned] at untouched
    simp [show kept = output from untouched]

theorem callResult_taken [LawfulAssign V] {payload output : V} (nonempty : isEmptyValue payload = false)
    (bare : isEmptyValue output = true) :
    callResult (.ok (.success,payload)) output = (.success,payload) := by
  have assigned := LawfulAssign.assign_empty output payload bare
  simp [callResult,nonempty,assigned]

variable [Codec V]

section Replies
variable [LawfulAnyValue V] [LawfulCodec V] [LawfulAssign V] {reply payload : V} {result : ProtocolResult}
  {encoding : PayloadEncoding} {command : Option AsyncCommand}

theorem replyPayload_read (known : Represents reply ⟨some result,optionalReply payload,encoding,command⟩)
    (supported : isSupportedPayloadEncoding encoding = true) (output : V) :
    acceptPayload (tryGetReplyPayload reply) output = callResult (.ok (.success,payload)) output := by
  have present := known.hasPayload .reply
  unfold optionalReply Packet.payloadOf at present
  cases bare : isEmptyValue payload with
  | true =>
    have absent : member reply replyPayload = none := by
      simpa [bare,hasField,PayloadField.name] using present
    simp [tryGetReplyPayload,absent,acceptPayload,callResult,bare]
  | false =>
    obtain ⟨field,here⟩ := Option.isSome_iff_exists.mp
      (show (member reply replyPayload).isSome = true by
        simpa [bare,hasField,PayloadField.name] using present)
    have read := known.encoding supported
    have extracted := known.extract supported .reply
    simp only [optionalReply,bare,Packet.wireEncoding,Packet.payloadOf] at read extracted
    have taken : tryGetReplyPayload reply = some payload := by
      simp only [tryGetReplyPayload,here,read]
      exact extracted
    rw [taken,acceptPayload_assigns bare]

-- All decoders of the client read such a reply in the same way.
theorem replied_read (known : Represents reply ⟨some result,optionalReply payload,encoding,command⟩)
    (supported : isSupportedPayloadEncoding encoding = true) (output : V) :
    AsyncInvocation.replied reply output = callResult (.ok (result,payload)) output := by
  unfold AsyncInvocation.replied
  rw [known.result]
  by_cases success : result = .success
  · subst result
    simpa using replyPayload_read known supported output
  · simp [success,callResult]

theorem handleSyncInvokeReply_read
    (known : Represents reply ⟨some result,optionalReply payload,encoding,command⟩)
    (supported : isSupportedPayloadEncoding encoding = true) (output : V) :
    handleSyncInvokeReply reply output = callResult (.ok (result,payload)) output := by
  have typed : optionalTyped reply = true := by
    have format := known.replyFormat
    rw [checkReplyFormat_exact] at format
    exact (Bool.and_eq_true_iff.mp format).2
  rw [decodeReply_same,decodeReply_typed typed,replied_read known supported]

theorem serviced_read (known : Represents reply ⟨some result,optionalReply payload,encoding,command⟩)
    (supported : isSupportedPayloadEncoding encoding = true) (output : V) :
    serviced reply output = callResult (.ok (result,payload)) output := by
  have same : serviced reply output = AsyncInvocation.replied reply output := by
    unfold serviced AsyncInvocation.replied
    rw [known.serviceReplyFormat,known.result]
    by_cases success : result = .success <;> simp [success,tryGetPayload_same]
  rw [same,replied_read known supported]

end Replies

-- One synchronous call through a link: the caller sees the outcome of exactly
-- one call on the application, and the asynchronous server is not involved.
structure SyncCall (schedule : Nat → Schedule V) (link : Link V) (made : Made V) (outcome : Outcome V)
    (out0 : V) (invoked : Invoked V) (after : Link V) : Prop where
  result : invoked.result = .ok (callResult outcome out0).1
  output : invoked.output = (callResult outcome out0).2
  taken : ∀ payload, outcome = .ok (.success,payload) → isEmptyValue payload = false →
    isEmptyValue out0 = true → invoked.result = .ok .success ∧ invoked.output = payload
  once : after.made = link.made ++ [made]
  apart : after.launched = link.launched ∧ after.server.asyncServer = link.found schedule

section Transport
variable [LawfulAnyValue V] [LawfulCodec V] [LawfulAssign V] {protocol : Protocol V}
  {schedule : Nat → Schedule V} {link : Link V} {input : V} {encoding : PayloadEncoding}

omit [LawfulAnyValue V] [LawfulCodec V] in
theorem answered_call {request : Except Exception V} {packet reply : V}
    {decode : V → V → ProtocolResult × V} {made : Made V} {outcome : Outcome V} {answer : PacketAnswer V}
    (built : request = .ok packet)
    (handled : ProtocolRPCServer.handlePacket protocol packet (schedule link.packets).moments
      (link.found schedule) = (answer,link.found schedule))
    (sent : answer.reply = .ok reply) (calls : answer.made = [made])
    (read : ∀ output, decode reply output = callResult outcome output) (out0 : V) :
    let (invoked,after) :=
      ProtocolRPCClient.exchange (Link.functor protocol schedule) request decode out0 link
    SyncCall schedule link made outcome out0 invoked after := by
  have answered := Link.functor_exact handled
  rw [sent,calls] at answered
  rw [exchange_answered built answered,read out0]
  refine ⟨rfl,rfl,?_,rfl,?_,rfl⟩
  · rintro payload rfl nonempty bare
    rw [callResult_taken nonempty bare]
    exact ⟨rfl,rfl⟩
  · simp [launched_none]

theorem invokeAnswer_read (protocol : Protocol V) (input : V)
    (supported : isSupportedPayloadEncoding encoding = true) :
    ∃ reply, (invokeAnswer protocol input encoding).reply = .ok reply ∧ ∀ output,
      handleSyncInvokeReply reply output = callResult (protocol.invoke input empty) output := by
  unfold invokeAnswer
  cases protocol.invoke input empty with
  | error thrown =>
    obtain ⟨reply,built,known⟩ := createRPCReply_represents (V := V) .serverProtocolException empty
      (show isSupportedPayloadEncoding .kNone = true from rfl)
    exact ⟨reply,built,fun output => (handleSyncInvokeReply_read known rfl output).trans
      (callResult_settled (.error thrown) output)⟩
  | ok outcome =>
    obtain ⟨reply,built,known⟩ := createRPCReply_represents outcome.1 outcome.2 supported
    exact ⟨reply,built,handleSyncInvokeReply_read known supported⟩

theorem serviceAnswer_read (protocol : Protocol V) (input : V)
    (supported : isSupportedPayloadEncoding encoding = true) :
    ∃ reply, (serviceAnswer protocol input encoding).reply = .ok reply ∧ ∀ output,
      serviced reply output = callResult (protocol.service input empty) output := by
  unfold serviceAnswer
  cases protocol.service input empty with
  | error thrown =>
    obtain ⟨reply,built,known⟩ := createServiceReply_represents (V := V) .serverProtocolException empty
      (show isSupportedPayloadEncoding .kNone = true from rfl)
    exact ⟨reply,built,fun output => (serviced_read known rfl output).trans
      (callResult_settled (.error thrown) output)⟩
  | ok outcome =>
    obtain ⟨reply,built,known⟩ := createServiceReply_represents outcome.1 outcome.2 supported
    exact ⟨reply,built,serviced_read known supported⟩

variable (protocol schedule link)

theorem handleSyncInvoke_call (nonempty : isEmptyValue input = false) (config : ProtocolRPCClientConfig)
    (supported : isSupportedPayloadEncoding config.encoding = true) (out0 : V) :
    let (invoked,after) := ProtocolRPCClient.handleSyncInvoke (Link.functor protocol schedule) config
      input out0 link
    SyncCall schedule link (.invoked input empty) (protocol.invoke input empty) out0 invoked after := by
  obtain ⟨packet,built,known⟩ := createRPCRequest_represents nonempty supported
  obtain ⟨reply,sent,read⟩ := invokeAnswer_read protocol input supported
  exact answered_call built (invoke_handled protocol _ _ known supported) sent rfl read out0

theorem service_call (nonempty : isEmptyValue input = false) (config : ProtocolRPCClientConfig)
    (supported : isSupportedPayloadEncoding config.encoding = true) (out0 : V) :
    let (invoked,after) := ProtocolRPCClient.service (Link.functor protocol schedule) config
      input out0 link
    SyncCall schedule link (.serviced input empty) (protocol.service input empty) out0 invoked after := by
  obtain ⟨packet,built,known⟩ := createServiceRequest_represents nonempty supported
  obtain ⟨reply,sent,read⟩ := serviceAnswer_read protocol input supported
  simp only [ProtocolRPCClient.service,nonempty]
  exact answered_call built (service_handled protocol _ _ known supported) sent rfl read out0

theorem sync_transparent (config : ProtocolRPCClientConfig)
    (supported : isSupportedPayloadEncoding config.encoding = true) (input out0 : V)
    (nonempty : isEmptyValue input = false) :
    (config.async = false → ∀ startTimestamp clock polls,
      ∃ invoked after, ProtocolRPCClient.invoke (Link.functor protocol schedule) config startTimestamp
          clock polls input out0 link = (some invoked,after) ∧
        SyncCall schedule link (.invoked input empty) (protocol.invoke input empty) out0 invoked after) ∧
    ∃ invoked after, ProtocolRPCClient.service (Link.functor protocol schedule) config input out0 link =
        (invoked,after) ∧
      SyncCall schedule link (.serviced input empty) (protocol.service input empty) out0 invoked after := by
  constructor
  · intro synchronous startTimestamp clock polls
    have call := handleSyncInvoke_call protocol schedule link nonempty config supported out0
    exact ⟨_,_,invoke_synchronous nonempty synchronous _ startTimestamp clock polls out0 link,call⟩
  · exact ⟨_,_,rfl,service_call protocol schedule link nonempty config supported out0⟩

theorem sync_transparent_base64 :
    let protocol : Protocol Reference.Value :=
      ⟨fun _ _ => .ok (.success,.string "done"),fun _ _ => .error (.foreign "service")⟩
    let schedule : Nat → Schedule Reference.Value := fun k =>
      ⟨[],UInt64.ofNat k,AsyncInvokeServer.instant 7,[],AsyncInvokeServer.instant 8⟩
    let link : Link Reference.Value := .connect 10 ⟨0,5⟩ []
    let config : ProtocolRPCClientConfig := ⟨.kBase64,false,20,1⟩
    (config.async = false → ∀ startTimestamp clock polls,
      ∃ invoked after, ProtocolRPCClient.invoke (Link.functor protocol schedule) config startTimestamp
          clock polls (.string "measure") .empty link = (some invoked,after) ∧
        SyncCall schedule link (.invoked (.string "measure") empty)
          (protocol.invoke (.string "measure") empty) .empty invoked after) ∧
    ∃ invoked after, ProtocolRPCClient.service (Link.functor protocol schedule) config
        (.string "measure") .empty link = (invoked,after) ∧
      SyncCall schedule link (.serviced (.string "measure") empty)
        (protocol.service (.string "measure") empty) .empty invoked after :=
  sync_transparent _ _ _ ⟨.kBase64,false,20,1⟩ rfl (Reference.Value.string "measure")
    Reference.Value.empty rfl

end Transport

end SupProtocol
