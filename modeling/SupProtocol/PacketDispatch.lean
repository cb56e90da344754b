import SupProtocol.PacketGrammar
import SupProtocol.ReferenceValue

namespace SupProtocol

variable {V : Type} [AnyValue V] [Codec V]

def serviceAnswer (protocol : Protocol V) (payload : V) (encoding : PayloadEncoding) :
    PacketAnswer V :=
  ⟨match protocol.service payload empty with
    | .error _ => createServiceStatusReply .serverProtocolException
    | .ok (result,output) => createServiceReply result output encoding,[.serviced payload empty]⟩

def invokeAnswer (protocol : Protocol V) (payload : V) (encoding : PayloadEncoding) :
    PacketAnswer V :=
  ⟨match protocol.invoke payload empty with
    | .error _ => createRPCStatusReply .serverProtocolException
    | .ok (result,output) => createRPCReply result output encoding,[.invoked payload empty]⟩

def commandAnswer (server : AsyncInvokeServer V) (payload : V) (encoding : PayloadEncoding)
    (command : AsyncCommand) (moments : Nat → Moment V) : PacketAnswer V × AsyncInvokeServer V :=
  (⟨(server.handleInvoke payload encoding command moments).1.reply,[]⟩,
   (server.handleInvoke payload encoding command moments).2)

def refusal (error : ProtocolResult) : PacketAnswer V := ⟨createRPCStatusReply error,[]⟩

inductive Dispatched (protocol : Protocol V) (packet : V) (moments : Nat → Moment V)
    (server : AsyncInvokeServer V) : PacketAnswer V × AsyncInvokeServer V → Prop where
  | refused (error : ProtocolResult)
      (why : (error = .serverUnsupportedPayloadEncodingError ∧
          ∀ encoding, ¬ EncodingRead packet encoding) ∨
        (error = .serverTransportDecodingError ∧ ∃ encoding, EncodingRead packet encoding))
      (noService : ∀ payload, ¬ ServiceAccepted packet payload)
      (noRequest : ∀ payload command, ¬ RequestRead packet payload command) :
      Dispatched protocol packet moments server (refusal error,server)
  | service (encoding : PayloadEncoding) (payload : V) (read : EncodingRead packet encoding)
      (accepted : ServiceAccepted packet payload) :
      Dispatched protocol packet moments server (serviceAnswer protocol payload encoding,server)
  | invoke (encoding : PayloadEncoding) (payload : V) (read : EncodingRead packet encoding)
      (accepted : RequestRead packet payload none) :
      Dispatched protocol packet moments server (invokeAnswer protocol payload encoding,server)
  | command (encoding : PayloadEncoding) (payload : V) (command : AsyncCommand)
      (read : EncodingRead packet encoding) (accepted : RequestRead packet payload (some command)) :
      Dispatched protocol packet moments server
        (commandAnswer server payload encoding command moments)

section Dispatch
variable {protocol : Protocol V} {packet : V} {moments : Nat → Moment V}
  {server : AsyncInvokeServer V} {encoding : PayloadEncoding}

theorem service_answers {payload : V}
    (extracted : tryExtractServiceRequestPayload packet encoding = some payload) :
    ProtocolRPCServer.handleServiceRequest protocol packet encoding =
      serviceAnswer protocol payload encoding := by
  unfold ProtocolRPCServer.handleServiceRequest serviceAnswer
  simp only [extracted]
  cases protocol.service payload empty <;> rfl

theorem service_dispatched (read : EncodingRead packet encoding) {content : V}
    (here : member packet serviceRequestPayload = some content) :
    Dispatched protocol packet moments server
      (ProtocolRPCServer.handleServiceRequest protocol packet encoding,server) := by
  cases extracted : tryExtractServiceRequestPayload packet encoding with
  | none =>
    have refused : ProtocolRPCServer.handleServiceRequest protocol packet encoding =
        refusal .serverTransportDecodingError := by
      simp only [ProtocolRPCServer.handleServiceRequest,extracted,refusal]
    rw [refused]
    apply Dispatched.refused _ (Or.inr ⟨rfl,encoding,read⟩)
    · intro payload accepted
      have found := (extract_exact read .service payload).mpr accepted
      cases extracted.symm.trans found
    · intro payload command request
      cases here.symm.trans request.notService
  | some payload =>
    rw [service_answers extracted]
    exact .service encoding payload read ((extract_exact read .service payload).mp extracted)

theorem invoke_answers {payload : V} (format : checkRequestFormat packet = true)
    (extracted : tryExtractRPCRequestPayload packet encoding = some payload)
    (plain : getAsyncInfo packet = none) :
    ProtocolRPCServer.handleInvokeRequest protocol packet encoding moments server =
      (invokeAnswer protocol payload encoding,server) := by
  unfold ProtocolRPCServer.handleInvokeRequest invokeAnswer
  simp only [format,extracted,plain]
  cases protocol.invoke payload empty <;> rfl

theorem command_answers {payload : V} {command : AsyncCommand}
    (format : checkRequestFormat packet = true)
    (extracted : tryExtractRPCRequestPayload packet encoding = some payload)
    (asked : getAsyncInfo packet = some command) :
    ProtocolRPCServer.handleInvokeRequest protocol packet encoding moments server =
      commandAnswer server payload encoding command moments := by
  simp only [ProtocolRPCServer.handleInvokeRequest,commandAnswer,format,extracted,asked]
  rfl

-- The format check and the extractor together decide RequestRead.
theorem request_exact (read : EncodingRead packet encoding)
    (notService : member packet serviceRequestPayload = none) (payload : V)
    (command : Option AsyncCommand) : RequestRead packet payload command ↔
      checkRequestFormat packet = true ∧
      tryExtractRPCRequestPayload packet encoding = some payload ∧ getAsyncInfo packet = command := by
  constructor
  · intro request
    have stamp := (optional_exact packet requestTimestamp .unsignedInteger64).mpr request.timestamp
    have asked := command_typed request.command
    have present : hasField packet requestPayload = true := by
      obtain ⟨_,content,_,here,_⟩ := request.payload
      have here : member packet requestPayload = some content := here
      simp [hasField,here]
    refine ⟨by simp [checkRequestFormat,stamp,encoding_typed read,asked,present],?_,?_⟩
    · exact (extract_exact read .query payload).mpr request.payload
    · exact command_unique (command_exact asked) request.command
  · rintro ⟨format,extracted,rfl⟩
    simp only [checkRequestFormat,Bool.and_eq_true] at format
    obtain ⟨⟨⟨stamp,_⟩,asked⟩,_⟩ := format
    exact ⟨notService,(extract_exact read .query payload).mp extracted,
      (optional_exact packet requestTimestamp .unsignedInteger64).mp stamp,command_exact asked⟩

theorem request_refused (read : EncodingRead packet encoding)
    (notService : member packet serviceRequestPayload = none)
    (refused : ProtocolRPCServer.handleInvokeRequest protocol packet encoding moments server =
      (refusal .serverTransportDecodingError,server))
    (noRequest : ∀ payload command, ¬ RequestRead packet payload command) :
    Dispatched protocol packet moments server
      (ProtocolRPCServer.handleInvokeRequest protocol packet encoding moments server) := by
  rw [refused]
  apply Dispatched.refused _ (Or.inr ⟨rfl,encoding,read⟩)
  · rintro payload ⟨_,content,_,here,_⟩
    cases here.symm.trans notService
  · exact noRequest

theorem invoke_dispatched (read : EncodingRead packet encoding)
    (notService : member packet serviceRequestPayload = none) :
    Dispatched protocol packet moments server
      (ProtocolRPCServer.handleInvokeRequest protocol packet encoding moments server) := by
  cases format : checkRequestFormat packet with
  | false =>
    apply request_refused read notService
    · simp only [ProtocolRPCServer.handleInvokeRequest,format,refusal]
      rfl
    · intro payload command request
      cases format.symm.trans ((request_exact read notService payload command).mp request).1
  | true =>
    cases extracted : tryExtractRPCRequestPayload packet encoding with
    | none =>
      apply request_refused read notService
      · simp only [ProtocolRPCServer.handleInvokeRequest,format,extracted,refusal]
        rfl
      · intro payload command request
        cases extracted.symm.trans ((request_exact read notService payload command).mp request).2.1
    | some payload =>
      cases asked : getAsyncInfo packet with
      | none =>
        rw [invoke_answers format extracted asked]
        exact .invoke encoding payload read
          ((request_exact read notService payload none).mpr ⟨format,extracted,asked⟩)
      | some command =>
        rw [command_answers format extracted asked]
        exact .command encoding payload command read
          ((request_exact read notService payload (some command)).mpr ⟨format,extracted,asked⟩)

theorem packet_dispatched (protocol : Protocol V) (packet : V) (moments : Nat → Moment V)
    (server : AsyncInvokeServer V) : Dispatched protocol packet moments server
      (ProtocolRPCServer.handlePacket protocol packet moments server) := by
  unfold ProtocolRPCServer.handlePacket
  cases found : tryGetPacketEncoding packet with
  | none =>
    have unread : ∀ encoding, ¬ EncodingRead packet encoding := by
      intro encoding read
      cases found.symm.trans ((encoding_exact packet encoding).mpr read)
    apply Dispatched.refused _ (Or.inl ⟨rfl,unread⟩)
    · rintro payload ⟨encoding,_,read,_⟩
      exact unread encoding read
    · intro payload command request
      obtain ⟨encoding,_,read,_⟩ := request.payload
      exact unread encoding read
  | some encoding =>
    have read := (encoding_exact packet encoding).mp found
    dsimp only
    cases here : member packet serviceRequestPayload with
    | none =>
      have notService : checkServiceRequest packet = false := by
        simp [checkServiceRequest,hasField,here]
      rw [notService]
      exact invoke_dispatched read here
    | some content =>
      have isService : checkServiceRequest packet = true := by
        simp [checkServiceRequest,encoding_typed read,hasField,here]
      rw [isService]
      exact service_dispatched read here

end Dispatch

def Replies (reply : Except Exception V) (result : ProtocolResult) : Prop :=
  ∃ (w : V) (p : Packet V), reply = .ok w ∧ Represents w p ∧ p.result = some result

structure WellFormed (reply : Except Exception V) (result : ProtocolResult) (w : V) : Prop where
  sent : reply = .ok w
  format : checkReplyFormat w = true ∧ checkServiceReplyFormat w = true
  result : tryExtractProtocolResult w = some result

section Replies
variable [LawfulAnyValue V] {encoding : PayloadEncoding}

theorem Replies.wellFormed {reply : Except Exception V} {result : ProtocolResult}
    (replies : Replies reply result) : ∃ w, WellFormed reply result w := by
  obtain ⟨w,p,sent,known,found⟩ := replies
  refine ⟨w,sent,⟨?_,?_⟩,?_⟩
  · rw [known.replyFormat,found]
    rfl
  · rw [known.serviceReplyFormat,found]
    rfl
  · rw [known.result,found]

theorem refusal_replies (error : ProtocolResult) :
    Replies (createRPCStatusReply error : Except Exception V) error := by
  obtain ⟨w,built,known⟩ := createRPCStatusReply_represents (V := V) error
  exact ⟨w,_,built,known,rfl⟩

theorem asyncStatus_replies (error : ProtocolResult) (command : AsyncCommand) :
    Replies (createAsyncRPCStatusReply error command : Except Exception V) error := by
  obtain ⟨w,built,known⟩ := createAsyncRPCStatusReply_represents (V := V) error command
  exact ⟨w,_,built,known,rfl⟩

theorem service_replies (protocol : Protocol V) (payload : V)
    (supported : isSupportedPayloadEncoding encoding = true) :
    ∃ result, Replies (serviceAnswer protocol payload encoding).reply result := by
  unfold serviceAnswer
  cases protocol.service payload empty with
  | error thrown =>
    obtain ⟨w,built,known⟩ := createServiceStatusReply_represents (V := V) .serverProtocolException
    exact ⟨_,w,_,built,known,rfl⟩
  | ok outcome =>
    obtain ⟨w,built,known⟩ := createServiceReply_represents outcome.1 outcome.2 supported
    exact ⟨_,w,_,built,known,rfl⟩

theorem invoke_replies (protocol : Protocol V) (payload : V)
    (supported : isSupportedPayloadEncoding encoding = true) :
    ∃ result, Replies (invokeAnswer protocol payload encoding).reply result := by
  unfold invokeAnswer
  cases protocol.invoke payload empty with
  | error thrown => exact ⟨_,refusal_replies _⟩
  | ok outcome =>
    obtain ⟨w,built,known⟩ := createRPCReply_represents outcome.1 outcome.2 supported
    exact ⟨_,w,_,built,known,rfl⟩

theorem poll_replies (server : AsyncInvokeServer V) (id : UInt64) (moments : Nat → Moment V)
    (supported : isSupportedPayloadEncoding encoding = true) :
    ∃ result, Replies (server.poll id encoding moments).1.reply result := by
  unfold AsyncInvokeServer.poll
  cases server.invokes[id]? with
  | none => exact ⟨_,asyncStatus_replies _ _⟩
  | some invoke =>
    dsimp only
    split
    · exact ⟨_,asyncStatus_replies _ _⟩
    · obtain ⟨inner,w,_,built,known⟩ := createAsyncRPCPollReply_represents (V := V)
        (invoke.isReady ((server.observe (moments 0)).observe (moments 1)).calls (moments 1).now).1
        supported
      exact ⟨_,w,_,built,known,rfl⟩

theorem getReply_replies (server : AsyncInvokeServer V) (id : UInt64) (moments : Nat → Moment V)
    (supported : isSupportedPayloadEncoding encoding = true) :
    ∃ result, Replies (server.getReply id encoding moments).1.reply result := by
  unfold AsyncInvokeServer.getReply
  cases server.invokes[id]? with
  | none => exact ⟨_,asyncStatus_replies _ _⟩
  | some invoke =>
    obtain ⟨w,built,known⟩ := createAsyncRPCReply_represents
      (invoke.getReply (server.observe (moments 0)).calls).1.1
      (invoke.getReply (server.observe (moments 0)).calls).1.2 .kGetReply supported
    exact ⟨_,w,_,built,known,rfl⟩

theorem invalidate_replies (server : AsyncInvokeServer V) (id : UInt64) (moments : Nat → Moment V) :
    ∃ result, Replies (server.invalidate id moments).1.reply result := by
  unfold AsyncInvokeServer.invalidate
  cases server.invokes[id]? with
  | none => exact ⟨_,asyncStatus_replies _ _⟩
  | some invoke => exact ⟨_,asyncStatus_replies _ _⟩

theorem command_replies (server : AsyncInvokeServer V) (payload : V) (command : AsyncCommand)
    (moments : Nat → Moment V) (supported : isSupportedPayloadEncoding encoding = true) :
    ∃ result, Replies (commandAnswer server payload encoding command moments).1.reply result := by
  unfold commandAnswer
  rcases AsyncInvokeServer.handleInvoke_cases server payload encoding command moments with
    ⟨_,taken⟩ | ⟨_,error,taken⟩ | ⟨id,_,⟨_,taken⟩ | ⟨_,taken⟩ | ⟨_,taken⟩⟩
  · rw [taken]
    obtain ⟨inner,w,_,built,known⟩ :=
      createAsyncRPCNewRequestReply_represents (V := V) (server.lastId + 1) supported
    exact ⟨_,w,_,built,known,rfl⟩
  · rw [taken]
    exact ⟨_,asyncStatus_replies error command⟩
  · rw [taken]
    exact poll_replies server id moments supported
  · rw [taken]
    exact getReply_replies server id moments supported
  · rw [taken]
    exact invalidate_replies server id moments

end Replies

section Effects

def Made.output : Made V → V
  | .invoked _ output => output
  | .serviced _ output => output

def servicedInputs (answer : PacketAnswer V) : List V :=
  answer.made.filterMap fun made => match made with
    | .serviced input _ => some input
    | .invoked .. => none

def invokedInputs (answer : PacketAnswer V) : List V :=
  answer.made.filterMap fun made => match made with
    | .invoked input _ => some input
    | .serviced .. => none

def launchedInputs (before after : AsyncInvokeServer V) : List V :=
  (Tasks.inputs after.calls).drop before.calls.length

end Effects

inductive RefusedFor (packet : V) (server : AsyncInvokeServer V) : ProtocolResult → Prop where
  | encoding (unread : ∀ encoding, ¬ EncodingRead packet encoding) :
      RefusedFor packet server .serverUnsupportedPayloadEncodingError
  | format (read : EncodingRead packet encoding)
      (noService : ∀ payload, ¬ ServiceAccepted packet payload)
      (noRequest : ∀ payload command, ¬ RequestRead packet payload command) :
      RefusedFor packet server .serverTransportDecodingError
  | unnamed (request : RequestRead packet payload (some command)) (later : command ≠ .kInitialRequest)
      (noId : extractAsyncRequestId payload = none) :
      RefusedFor packet server .serverTransportDecodingError
  | unknownId (request : RequestRead packet payload (some command))
      (named : extractAsyncRequestId payload = some key) (absent : server.invokes[key]? = none) :
      RefusedFor packet server .invalidRequestIdentifierError
  | unknownCommand (request : RequestRead packet payload (some command))
      (unknown : command ≠ .kInitialRequest ∧ command ≠ .kPoll ∧ command ≠ .kGetReply ∧
        command ≠ .kInvalidate) (named : extractAsyncRequestId payload = some key) :
      RefusedFor packet server .invalidAsynchronousOperationError

structure PacketLaw (packet : V) (before : AsyncInvokeServer V) (answer : PacketAnswer V)
    (after : AsyncInvokeServer V) : Prop where
  replied : ∃ result w, WellFormed answer.reply result w
  service : ∀ payload, servicedInputs answer = [payload] ↔ ServiceAccepted packet payload
  serviceOnce : (servicedInputs answer).length ≤ 1
  invoke : ∀ payload, invokedInputs answer ++ launchedInputs before after = [payload] ↔
    InvokeAccepted packet payload
  invokeOnce : (invokedInputs answer ++ launchedInputs before after).length ≤ 1
  outputs : ∀ made ∈ answer.made, made.output = empty
  rejected : Rejected packet before → answer.made = [] ∧ after = before ∧
    ∃ error w, RefusedFor packet before error ∧ WellFormed answer.reply error w

section Laws

omit [AnyValue V] [Codec V] in
theorem launched_none (server : AsyncInvokeServer V) : launchedInputs server server = [] := by
  unfold launchedInputs
  rw [← Tasks.length_inputs,List.drop_length]

theorem launched_command (server : AsyncInvokeServer V) (payload : V) (encoding : PayloadEncoding)
    (command : AsyncCommand) (moments : Nat → Moment V) :
    launchedInputs server (commandAnswer server payload encoding command moments).2 =
      if command = .kInitialRequest then [payload] else [] := by
  have grown := AsyncInvokeServer.step_inputs server (.handleInvoke payload encoding command moments)
  rw [AsyncInvokeServer.step_handleInvoke] at grown
  unfold launchedInputs commandAnswer
  rw [grown,← Tasks.length_inputs,List.drop_left]
  rfl

variable [LawfulAnyValue V] {packet : V} {server : AsyncInvokeServer V} {encoding : PayloadEncoding}

theorem refused_law {error : ProtocolResult}
    (why : (error = .serverUnsupportedPayloadEncodingError ∧
        ∀ encoding, ¬ EncodingRead packet encoding) ∨
      (error = .serverTransportDecodingError ∧ ∃ encoding, EncodingRead packet encoding))
    (noService : ∀ payload, ¬ ServiceAccepted packet payload)
    (noRequest : ∀ payload command, ¬ RequestRead packet payload command) :
    PacketLaw packet server (refusal error) server := by
  have answered := (refusal_replies (V := V) error).wellFormed
  have unasked : ∀ payload, ¬ InvokeAccepted packet payload := by
    rintro payload (request | request)
    · exact noRequest payload _ request
    · exact noRequest payload _ request
  refine ⟨⟨error,answered⟩,?_,by simp [servicedInputs,refusal],?_,?_,by simp [refusal],?_⟩
  · intro payload
    simp [servicedInputs,refusal,noService payload]
  · intro payload
    simp [invokedInputs,refusal,launched_none,unasked payload]
  · simp [invokedInputs,refusal,launched_none]
  · intro _
    obtain ⟨w,wellFormed⟩ := answered
    refine ⟨rfl,rfl,error,w,?_,wellFormed⟩
    rcases why with ⟨rfl,unread⟩ | ⟨rfl,found,read⟩
    · exact .encoding unread
    · exact .format read noService noRequest

theorem service_law (protocol : Protocol V) {payload : V} (read : EncodingRead packet encoding)
    (accepted : ServiceAccepted packet payload) :
    PacketLaw packet server (serviceAnswer protocol payload encoding) server := by
  obtain ⟨result,replies⟩ := service_replies protocol payload (encoding_supported read)
  have unasked : ∀ other, ¬ InvokeAccepted packet other := by
    rintro other (request | request)
    · exact service_excludes accepted request
    · exact service_excludes accepted request
  refine ⟨⟨result,replies.wellFormed⟩,?_,by simp [servicedInputs,serviceAnswer],?_,?_,?_,?_⟩
  · intro other
    simp only [servicedInputs,serviceAnswer]
    constructor
    · intro same
      cases same
      exact accepted
    · intro again
      rw [payload_unique again accepted]
      rfl
  · intro other
    simp [invokedInputs,serviceAnswer,launched_none,unasked other]
  · simp [invokedInputs,serviceAnswer,launched_none]
  · simp [serviceAnswer,Made.output]
  · intro rejected
    exact absurd accepted (rejected.noService payload)

theorem invoke_law (protocol : Protocol V) {payload : V} (read : EncodingRead packet encoding)
    (accepted : RequestRead packet payload none) :
    PacketLaw packet server (invokeAnswer protocol payload encoding) server := by
  obtain ⟨result,replies⟩ := invoke_replies protocol payload (encoding_supported read)
  refine ⟨⟨result,replies.wellFormed⟩,?_,by simp [servicedInputs,invokeAnswer],?_,?_,?_,?_⟩
  · intro other
    have excluded : ¬ ServiceAccepted packet other := fun service => service_excludes service accepted
    simp [servicedInputs,invokeAnswer,excluded]
  · intro other
    simp only [invokedInputs,invokeAnswer,launched_none,List.append_nil]
    constructor
    · intro same
      cases same
      exact Or.inl accepted
    · rintro (request | request)
      · rw [(request.unique accepted).1]
        rfl
      · cases (request.unique accepted).2
  · simp [invokedInputs,invokeAnswer,launched_none]
  · simp [invokeAnswer,Made.output]
  · intro rejected
    exact absurd (Or.inl accepted) (rejected.noInvoke payload)

theorem command_rejected {payload : V} {command : AsyncCommand} (encoding : PayloadEncoding)
    (moments : Nat → Moment V) (request : RequestRead packet payload (some command))
    (rejected : Rejected packet server) :
    (commandAnswer server payload encoding command moments).2 = server ∧
    ∃ error, RefusedFor packet server error ∧
      Replies (commandAnswer server payload encoding command moments).1.reply error := by
  have later : command ≠ .kInitialRequest := by
    rintro rfl
    exact rejected.noInvoke payload (Or.inr request)
  unfold commandAnswer
  cases named : extractAsyncRequestId payload with
  | none =>
    rw [AsyncInvokeServer.handleInvoke_unnamed later named]
    exact ⟨rfl,_,.unnamed request later named,asyncStatus_replies _ _⟩
  | some key =>
    by_cases known : command = .kPoll ∨ command = .kGetReply ∨ command = .kInvalidate
    · have absent : server.invokes[key]? = none := by
        cases here : server.invokes[key]? with
        | none => rfl
        | some invoke =>
          exact absurd ⟨payload,command,key,request,named,known,invoke,here⟩ rejected.noEntry
      rcases known with rfl | rfl | rfl
      · rw [AsyncInvokeServer.handleInvoke_poll named,
          AsyncInvokeServer.poll_absent encoding moments absent]
        exact ⟨rfl,_,.unknownId request named absent,asyncStatus_replies _ _⟩
      · rw [AsyncInvokeServer.handleInvoke_getReply named,
          AsyncInvokeServer.getReply_absent encoding moments absent]
        exact ⟨rfl,_,.unknownId request named absent,asyncStatus_replies _ _⟩
      · rw [AsyncInvokeServer.handleInvoke_invalidate named]
        simp only [AsyncInvokeServer.invalidate,absent]
        exact ⟨trivial,_,.unknownId request named absent,asyncStatus_replies _ _⟩
    · push Not at known
      have unknown := And.intro later known
      rw [AsyncInvokeServer.handleInvoke_unknown unknown named]
      exact ⟨rfl,_,.unknownCommand request unknown named,asyncStatus_replies _ _⟩

theorem command_law {payload : V} {command : AsyncCommand} (moments : Nat → Moment V)
    (read : EncodingRead packet encoding) (request : RequestRead packet payload (some command)) :
    PacketLaw packet server (commandAnswer server payload encoding command moments).1
      (commandAnswer server payload encoding command moments).2 := by
  obtain ⟨result,replies⟩ := command_replies server payload command moments (encoding_supported read)
  refine ⟨⟨result,replies.wellFormed⟩,?_,by simp [servicedInputs,commandAnswer],?_,?_,?_,?_⟩
  · intro other
    have excluded : ¬ ServiceAccepted packet other := fun service => service_excludes service request
    simp [servicedInputs,commandAnswer,excluded]
  · intro other
    rw [launched_command]
    by_cases initial : command = .kInitialRequest
    · subst command
      simp only [invokedInputs,commandAnswer,if_true,List.filterMap_nil,List.nil_append]
      constructor
      · intro same
        cases same
        exact Or.inr request
      · rintro (again | again)
        · cases (again.unique request).2
        · rw [(again.unique request).1]
    · have unasked : ¬ InvokeAccepted packet other := by
        rintro (again | again)
        · cases (again.unique request).2
        · exact initial (Option.some.inj (again.unique request).2).symm
      simp [invokedInputs,commandAnswer,initial,unasked]
  · rw [launched_command]
    split <;> simp [invokedInputs,commandAnswer]
  · simp [commandAnswer]
  · intro rejected
    obtain ⟨unchanged,error,why,refused⟩ := command_rejected encoding moments request rejected
    obtain ⟨w,wellFormed⟩ := refused.wellFormed
    exact ⟨rfl,unchanged,error,w,why,wellFormed⟩

theorem handlePacket_law (protocol : Protocol V) (packet : V) (moments : Nat → Moment V)
    (server : AsyncInvokeServer V) :
    PacketLaw packet server (ProtocolRPCServer.handlePacket protocol packet moments server).1
      (ProtocolRPCServer.handlePacket protocol packet moments server).2 := by
  have dispatched := packet_dispatched protocol packet moments server
  generalize ProtocolRPCServer.handlePacket protocol packet moments server = handled at dispatched ⊢
  cases dispatched with
  | refused error why noService noRequest => exact refused_law why noService noRequest
  | service encoding payload read accepted => exact service_law protocol read accepted
  | invoke encoding payload read accepted => exact invoke_law protocol read accepted
  | command encoding payload command read accepted => exact command_law moments read accepted

end Laws

-- operator() never throws, answers every packet well-formed, and calls the
-- application for exactly the packets of its grammar.
theorem call_grammar [LawfulAnyValue V] (protocol : Protocol V) (server : ProtocolRPCServer V)
    (packet : V) (schedule : Schedule V) :
    PacketLaw packet (server.prepared schedule) (server.call protocol packet schedule).1
      (server.call protocol packet schedule).2.asyncServer :=
  handlePacket_law protocol packet schedule.moments (server.prepared schedule)

theorem call_grammar_scalar :
    let server : ProtocolRPCServer Reference.Value := ⟨.start 10,⟨0,5⟩⟩
    let protocol : Protocol Reference.Value :=
      ⟨fun _ _ => .error (.foreign "invoke"),fun _ _ => .error (.foreign "service")⟩
    let schedule : Schedule Reference.Value :=
      ⟨[],7,AsyncInvokeServer.instant 7,[],AsyncInvokeServer.instant 8⟩
    PacketLaw (.string "no packet") (server.prepared schedule)
      (server.call protocol (.string "no packet") schedule).1
      (server.call protocol (.string "no packet") schedule).2.asyncServer :=
  call_grammar _ _ _ _

end SupProtocol
