import SupProtocol.ProtocolRpc

namespace SupProtocol

-- What a packet says, apart from how it is laid out in a struct: an optional
-- result, an optional payload under one of three names, an optional command.
inductive PayloadField where
  | query | reply | service
  deriving DecidableEq, Repr

def PayloadField.name : PayloadField → String
  | .query => requestPayload
  | .reply => replyPayload
  | .service => serviceRequestPayload

theorem PayloadField.name_known (field : PayloadField) : field.name ∈ packetFieldNames := by
  cases field <;> decide

structure Packet (V : Type) where
  result : Option ProtocolResult
  payload : Option (PayloadField × V)
  encoding : PayloadEncoding
  command : Option AsyncCommand

variable {V : Type} [AnyValue V] [Codec V]

def encodedPayload (value : V) (encoding : PayloadEncoding) : V :=
  if encoding = .kNone then value else Encoding.base64Encode value

def resultMembers (result : Option ProtocolResult) : List (String × V) :=
  match result with
  | none => []
  | some r => [(replyResult,scalar .unsignedInteger32 r.value)]

def payloadMembers (name : String) (value : V) (encoding : PayloadEncoding) : List (String × V) :=
  if encoding = .kNone then [(name,value)]
  else [(encodingFieldName,scalar .signedInteger32 (encodingToInteger encoding)),
        (name,encodedPayload value encoding)]

def commandMembers (command : Option AsyncCommand) : List (String × V) :=
  match command with
  | none => []
  | some command => [(asyncCommandFieldName,scalar .unsignedInteger32 command.value)]

def Packet.payloadMembers (p : Packet V) : List (String × V) :=
  match p.payload with
  | none => []
  | some (field,value) => SupProtocol.payloadMembers field.name value p.encoding

def Packet.members (p : Packet V) : List (String × V) :=
  resultMembers p.result ++ p.payloadMembers ++ commandMembers p.command

def Represents (w : V) (p : Packet V) : Prop := HasMembers w p.members

-- The encoding a reader finds: the one in use if there is a payload to encode.
def Packet.wireEncoding (p : Packet V) : PayloadEncoding :=
  if p.payload.isSome then p.encoding else .kNone

theorem encode_supported (value : V) (supported : isSupportedPayloadEncoding encoding = true) :
    Encoding.encode value encoding = .ok (encodedPayload value encoding) := by
  rcases supported_cases supported with rfl | rfl
  · rfl
  · rfl

theorem decode_encoded [LawfulAnyValue V] [LawfulCodec V] (value : V)
    (supported : isSupportedPayloadEncoding encoding = true) :
    Encoding.decode (encodedPayload value encoding) encoding = .ok value := by
  rcases supported_cases supported with rfl | rfl
  · rfl
  · change Encoding.base64Decode (Encoding.base64Encode value) = .ok value
    simp only [Encoding.base64Decode,Encoding.base64Encode,LawfulAnyValue.asScalar_scalar,
      LawfulCodec.base64_roundtrip]
    exact LawfulCodec.binary_roundtrip value

theorem decode_unsupported (value : V) (unsupported : isSupportedPayloadEncoding encoding = false) :
    ∃ error, Encoding.decode value encoding = .error error := by
  have known : encoding ≠ .kNone ∧ encoding ≠ .kBase64 := by
    refine ⟨?_,?_⟩ <;> (rintro rfl; cases unsupported)
  exact ⟨_,by rw [Encoding.decode,if_neg known.1,if_neg known.2]⟩

theorem extractScalar_unsupported (packet : V) (memberName fieldName : String) (t : ScalarType)
    (unsupported : isSupportedPayloadEncoding encoding = false) :
    tryExtractPayloadScalar packet memberName fieldName t encoding = none := by
  unfold tryExtractPayloadScalar tryExtractRPCPayload
  cases member packet memberName with
  | none => rfl
  | some field =>
    obtain ⟨error,failed⟩ := decode_unsupported field unsupported
    simp only [failed]

theorem encodedPayload_nonempty [LawfulAnyValue V] {value : V} (encoding : PayloadEncoding)
    (nonempty : isEmptyValue value = false) : isEmptyValue (encodedPayload value encoding) = false := by
  unfold encodedPayload
  split
  · exact nonempty
  · simp [Encoding.base64Encode]

omit [AnyValue V] [Codec V] in
theorem lookup_entry (n m : String) (value : V) (members : List (String × V)) :
    List.lookup n ((m,value) :: members) = if n = m then some value else List.lookup n members := by
  by_cases same : n = m
  · subst m; simp
  · have differ : (n == m) = false := by simpa using same
    simp [List.lookup_cons,differ,same]

-- Each reader looks up exactly one part of the packet.
section Lookups

omit [Codec V] in
theorem lookup_resultMembers (n : String) (result : Option ProtocolResult) :
    (resultMembers result : List (String × V)).lookup n =
      if n = replyResult then result.map fun r => scalar .unsignedInteger32 r.value else none := by
  cases result <;> simp [resultMembers,lookup_entry]

omit [Codec V] in
theorem lookup_commandMembers (n : String) (command : Option AsyncCommand) :
    (commandMembers command : List (String × V)).lookup n =
      if n = asyncCommandFieldName then command.map fun c => scalar .unsignedInteger32 c.value
      else none := by
  cases command <;> simp [commandMembers,lookup_entry]

theorem lookup_payloadMembers (n : String) (field : PayloadField) (value : V)
    (encoding : PayloadEncoding) : (payloadMembers field.name value encoding).lookup n =
      if n = field.name then some (encodedPayload value encoding)
      else if n = encodingFieldName ∧ encoding ≠ .kNone then
        some (scalar .signedInteger32 (encodingToInteger encoding))
      else none := by
  have other : encodingFieldName ≠ field.name := by cases field <;> decide
  unfold payloadMembers
  split
  · rename_i plain
    simp [lookup_entry,plain,encodedPayload]
  · rename_i coded
    simp only [lookup_entry,List.lookup_nil,coded,ne_eq,not_false_eq_true,and_true]
    by_cases same : n = encodingFieldName
    · subst n; simp [other]
    · simp [same]

variable (p : Packet V)

theorem members_lookup (n : String) : p.members.lookup n =
    ((resultMembers p.result).lookup n).or
      ((p.payloadMembers.lookup n).or ((commandMembers p.command).lookup n)) := by
  simp [Packet.members,List.lookup_append]

theorem lookup_result : p.members.lookup replyResult =
    p.result.map fun r => scalar .unsignedInteger32 r.value := by
  rw [members_lookup,lookup_resultMembers,lookup_commandMembers,Packet.payloadMembers]
  rcases p.payload with _ | ⟨field,value⟩
  · simp +decide
  · cases field <;> simp +decide [lookup_payloadMembers]

theorem lookup_command : p.members.lookup asyncCommandFieldName =
    p.command.map fun c => scalar .unsignedInteger32 c.value := by
  rw [members_lookup,lookup_resultMembers,lookup_commandMembers,Packet.payloadMembers]
  rcases p.payload with _ | ⟨field,value⟩
  · simp +decide
  · cases field <;> simp +decide [lookup_payloadMembers]

theorem lookup_encoding : p.members.lookup encodingFieldName =
    if p.wireEncoding = .kNone then none
    else some (scalar .signedInteger32 (encodingToInteger p.wireEncoding)) := by
  rw [members_lookup,lookup_resultMembers,lookup_commandMembers,Packet.payloadMembers,
    Packet.wireEncoding]
  rcases p.payload with _ | ⟨field,value⟩
  · simp +decide
  · by_cases plain : p.encoding = .kNone
    · cases field <;> simp +decide [lookup_payloadMembers,plain]
    · cases field <;> simp +decide [lookup_payloadMembers,plain]

theorem lookup_payload (field : PayloadField) : p.members.lookup field.name =
    match p.payload with
    | none => none
    | some (used,value) => if field = used then some (encodedPayload value p.encoding) else none := by
  rw [members_lookup,lookup_resultMembers,lookup_commandMembers,Packet.payloadMembers]
  rcases p.payload with _ | ⟨used,value⟩
  · cases field <;> simp +decide
  · cases field <;> cases used <;> simp +decide [lookup_payloadMembers]

theorem lookup_unused (n : String) (unused : n = requestTimestamp ∨ n = replyReason) :
    p.members.lookup n = none := by
  rw [members_lookup,lookup_resultMembers,lookup_commandMembers,Packet.payloadMembers]
  rcases p.payload with _ | ⟨field,value⟩
  · rcases unused with rfl | rfl <;> simp +decide
  · rcases unused with rfl | rfl <;> cases field <;> simp +decide [lookup_payloadMembers]

end Lookups

section Readers
variable [LawfulAnyValue V] {w : V} {p : Packet V}

omit [Codec V] in
theorem hasType_scalar (t : ScalarType) (x : t.Rep) : hasType (scalar t x : V) t = true := by
  simp [hasType]

theorem Represents.result (known : Represents w p) : tryExtractProtocolResult w = p.result := by
  unfold tryExtractProtocolResult
  rw [known.at replyResult (by decide),lookup_result]
  cases p.result <;> simp

theorem Represents.command (known : Represents w p) : getAsyncInfo w = p.command := by
  unfold getAsyncInfo
  rw [known.at asyncCommandFieldName (by decide),lookup_command]
  cases p.command <;> simp

omit [AnyValue V] [Codec V] [LawfulAnyValue V] in
theorem wireEncoding_supported (supported : isSupportedPayloadEncoding p.encoding = true) :
    isSupportedPayloadEncoding p.wireEncoding = true := by
  unfold Packet.wireEncoding
  split
  · exact supported
  · decide

theorem Represents.encoding (known : Represents w p)
    (supported : isSupportedPayloadEncoding p.encoding = true) :
    tryGetPacketEncoding w = some p.wireEncoding := by
  unfold tryGetPacketEncoding
  rw [known.at encodingFieldName (by decide),lookup_encoding]
  by_cases plain : p.wireEncoding = .kNone
  · simp [plain]
  · simp [plain,encoding_integer_roundtrip,wireEncoding_supported supported]

def Packet.payloadOf (p : Packet V) (field : PayloadField) : Option V :=
  match p.payload with
  | none => none
  | some (used,value) => if field = used then some value else none

theorem Represents.extract [LawfulCodec V] (known : Represents w p)
    (supported : isSupportedPayloadEncoding p.encoding = true) (field : PayloadField) :
    tryExtractRPCPayload w field.name p.encoding = p.payloadOf field := by
  unfold tryExtractRPCPayload Packet.payloadOf
  rw [known.at field.name field.name_known,lookup_payload]
  rcases p.payload with _ | ⟨used,value⟩
  · rfl
  · by_cases same : field = used
    · simp [same,decode_encoded value supported]
    · simp [same]

theorem Represents.hasPayload (known : Represents w p) (field : PayloadField) :
    hasField w field.name = (p.payloadOf field).isSome := by
  unfold hasField Packet.payloadOf
  rw [known.at field.name field.name_known,lookup_payload]
  rcases p.payload with _ | ⟨used,value⟩
  · rfl
  · by_cases same : field = used <;> simp [same]

theorem Represents.optional (known : Represents w p) :
    validateMemberTypeIfPresent w requestTimestamp .unsignedInteger64 = true ∧
    validateMemberTypeIfPresent w encodingFieldName .signedInteger32 = true ∧
    validateMemberTypeIfPresent w replyReason .string = true ∧
    validateMemberTypeIfPresent w asyncCommandFieldName .unsignedInteger32 = true := by
  unfold validateMemberTypeIfPresent
  rw [known.at requestTimestamp (by decide),known.at encodingFieldName (by decide),
    known.at replyReason (by decide),known.at asyncCommandFieldName (by decide),
    lookup_unused p requestTimestamp (Or.inl rfl),lookup_unused p replyReason (Or.inr rfl),
    lookup_encoding,lookup_command]
  refine ⟨rfl,?_,rfl,?_⟩
  · split
    · rfl
    · rename_i value found
      split at found
      · cases found
      · cases found; exact hasType_scalar _ _
  · cases p.command with
    | none => rfl
    | some c => exact hasType_scalar _ _

theorem Represents.resultTyped (known : Represents w p) :
    validateMemberType w replyResult .unsignedInteger32 = p.result.isSome := by
  unfold validateMemberType
  rw [known.at replyResult (by decide),lookup_result]
  cases p.result with
  | none => rfl
  | some r => exact hasType_scalar _ _

theorem Represents.requestFormat (known : Represents w p) :
    checkRequestFormat w = (p.payloadOf .query).isSome := by
  obtain ⟨timestamp,encoding,_,command⟩ := known.optional
  have payload := known.hasPayload .query
  simp only [PayloadField.name] at payload
  simp [checkRequestFormat,timestamp,encoding,command,payload]

theorem Represents.replyFormat (known : Represents w p) :
    checkReplyFormat w = p.result.isSome := by
  obtain ⟨timestamp,encoding,reason,command⟩ := known.optional
  have stamp : validateMemberTypeIfPresent w replyTimestamp .unsignedInteger64 = true := timestamp
  simp [checkReplyFormat,known.resultTyped,stamp,encoding,reason,command]

theorem Represents.serviceRequest (known : Represents w p) :
    checkServiceRequest w = (p.payloadOf .service).isSome := by
  obtain ⟨_,encoding,_,_⟩ := known.optional
  have payload := known.hasPayload .service
  simp only [PayloadField.name] at payload
  simp [checkServiceRequest,encoding,payload]

theorem Represents.serviceReplyFormat (known : Represents w p) :
    checkServiceReplyFormat w = p.result.isSome := by
  obtain ⟨_,encoding,_,_⟩ := known.optional
  have typed : validateMemberType w serviceReplyResult .unsignedInteger32 = p.result.isSome :=
    known.resultTyped
  simp [checkServiceReplyFormat,typed,encoding]

end Readers

section Builders
variable [LawfulAnyValue V]

theorem addRPCPayload_represents {packet payload : V} {members : List (String × V)}
    (known : HasMembers packet members) (field : PayloadField)
    (freshPayload : members.lookup field.name = none)
    (freshEncoding : members.lookup encodingFieldName = none)
    (nonempty : isEmptyValue payload = false)
    (supported : isSupportedPayloadEncoding encoding = true) :
    ∃ w, addRPCPayload packet payload field.name encoding = .ok w ∧
      HasMembers w (members ++ payloadMembers field.name payload encoding) := by
  have name := LawfulAnyValue.packet_names (V := V) field.name field.name_known
  have encodingName := LawfulAnyValue.packet_names (V := V) encodingFieldName (by decide)
  unfold addRPCPayload payloadMembers
  by_cases plain : encoding = .kNone
  · simp only [plain,if_true]
    exact addMember_members known name freshPayload nonempty
  · simp only [plain,if_false,encode_supported payload supported]
    obtain ⟨middle,addedEncoding,extended⟩ := addMember_members known encodingName freshEncoding
      (LawfulAnyValue.scalar_nonempty (V := V) .signedInteger32 (encodingToInteger encoding))
    have distinct : field.name ≠ encodingFieldName := by cases field <;> decide
    have stillFresh : (members ++ [(encodingFieldName,
        scalar .signedInteger32 (encodingToInteger encoding))] : List (String × V)).lookup
          field.name = none := by
      simp [List.lookup_append,freshPayload,lookup_entry,distinct]
    obtain ⟨w,addedPayload,final⟩ := addMember_members extended name stillFresh
      (encodedPayload_nonempty encoding nonempty)
    refine ⟨w,?_,by simpa using final⟩
    change (addMember packet encodingFieldName _ >>= fun packet =>
      addMember packet field.name (encodedPayload payload encoding)) = .ok w
    rw [addedEncoding]
    exact addedPayload

theorem request_represents (typeName : String) (field : PayloadField) {payload : V}
    (nonempty : isEmptyValue payload = false)
    (supported : isSupportedPayloadEncoding encoding = true) :
    ∃ w, addRPCPayload (emptyStruct typeName) payload field.name encoding = .ok w ∧
      Represents w ⟨none,some (field,payload),encoding,none⟩ := by
  obtain ⟨w,built,members⟩ := addRPCPayload_represents (emptyStruct_members (V := V) typeName) field
    rfl rfl nonempty supported
  refine ⟨w,built,?_⟩
  simpa [Represents,Packet.members,resultMembers,commandMembers,Packet.payloadMembers] using members

theorem addAsyncCommand_represents {packet : V} {result : Option ProtocolResult}
    {payload : Option (PayloadField × V)} (command : AsyncCommand)
    (known : Represents packet ⟨result,payload,encoding,none⟩) :
    ∃ w, addAsyncCommand packet command = .ok w ∧
      Represents w ⟨result,payload,encoding,some command⟩ := by
  have fresh := lookup_command (⟨result,payload,encoding,none⟩ : Packet V)
  obtain ⟨w,added,members⟩ := addMember_members known
    (LawfulAnyValue.packet_names asyncCommandFieldName (by decide)) fresh
    (LawfulAnyValue.scalar_nonempty .unsignedInteger32 command.value)
  refine ⟨w,added,?_⟩
  simpa [Represents,Packet.members,commandMembers,Packet.payloadMembers] using members

theorem createRPCRequest_represents {payload : V} (nonempty : isEmptyValue payload = false)
    (supported : isSupportedPayloadEncoding encoding = true) :
    ∃ w, createRPCRequest payload encoding = .ok w ∧
      Represents w ⟨none,some (.query,payload),encoding,none⟩ := by
  simp only [createRPCRequest,nonempty]
  exact request_represents requestTypeName .query nonempty supported

theorem createServiceRequest_represents {payload : V} (nonempty : isEmptyValue payload = false)
    (supported : isSupportedPayloadEncoding encoding = true) :
    ∃ w, createServiceRequest payload encoding = .ok w ∧
      Represents w ⟨none,some (.service,payload),encoding,none⟩ := by
  simp only [createServiceRequest,nonempty]
  exact request_represents serviceRequestTypeName .service nonempty supported

theorem asyncRequest_represents {payload : V} (command : AsyncCommand)
    (nonempty : isEmptyValue payload = false)
    (supported : isSupportedPayloadEncoding encoding = true) :
    ∃ w, (do let request ← addRPCPayload (emptyStruct requestTypeName) payload requestPayload encoding
             addAsyncCommand request command) = .ok w ∧
      Represents w ⟨none,some (.query,payload),encoding,some command⟩ := by
  obtain ⟨request,built,known⟩ := request_represents requestTypeName .query nonempty supported
  obtain ⟨w,added,final⟩ := addAsyncCommand_represents command known
  simp only [PayloadField.name] at built
  refine ⟨w,?_,final⟩
  rw [built]
  exact added

theorem createAsyncRPCRequest_represents {payload : V} (nonempty : isEmptyValue payload = false)
    (supported : isSupportedPayloadEncoding encoding = true) :
    ∃ w, createAsyncRPCRequest payload encoding = .ok w ∧
      Represents w ⟨none,some (.query,payload),encoding,some .kInitialRequest⟩ := by
  simp only [createAsyncRPCRequest,nonempty]
  exact asyncRequest_represents .kInitialRequest nonempty supported

omit [Codec V] in
theorem singleton_members (n : String) (known : n ∈ packetFieldNames) (t : ScalarType) (x : t.Rep) :
    ∃ payload : V, addMember (emptyStruct "") n (scalar t x) = .ok payload ∧
      HasMembers payload [(n,scalar t x)] :=
  addMember_members (emptyStruct_members "") (LawfulAnyValue.packet_names n known) rfl
    (LawfulAnyValue.scalar_nonempty t x)

theorem createAsyncIdRequest_represents (id : UInt64) (command : AsyncCommand)
    (supported : isSupportedPayloadEncoding encoding = true) :
    ∃ payload w : V, HasMembers payload [(asyncIdFieldName,scalar .unsignedInteger64 id)] ∧
      createAsyncIdRequest id encoding command = .ok w ∧
      Represents w ⟨none,some (.query,payload),encoding,some command⟩ := by
  obtain ⟨payload,made,inner⟩ := singleton_members (V := V) asyncIdFieldName (by decide)
    .unsignedInteger64 id
  obtain ⟨w,built,known⟩ := asyncRequest_represents command inner.nonempty supported
  refine ⟨payload,w,inner,?_,known⟩
  simp only [createAsyncIdRequest,createRequestIdPayload,made]
  exact built

def optionalReply (payload : V) : Option (PayloadField × V) :=
  if isEmptyValue payload then none else some (.reply,payload)

theorem createReply_represents (typeName : String) (result : ProtocolResult) (payload : V)
    (supported : isSupportedPayloadEncoding encoding = true) :
    ∃ w, createReply typeName replyResult replyPayload result payload encoding = .ok w ∧
      Represents w ⟨some result,optionalReply payload,encoding,none⟩ := by
  obtain ⟨start,added,known⟩ := addMember_members (emptyStruct_members (V := V) typeName)
    (LawfulAnyValue.packet_names replyResult (by decide)) rfl
    (LawfulAnyValue.scalar_nonempty .unsignedInteger32 result.value)
  simp only [createReply,added,optionalReply]
  by_cases isEmpty : isEmptyValue payload = true
  · refine ⟨start,by simp only [isEmpty]; rfl,?_⟩
    simpa [Represents,Packet.members,resultMembers,commandMembers,Packet.payloadMembers,isEmpty]
      using known
  · have nonempty : isEmptyValue payload = false := by simpa using isEmpty
    obtain ⟨w,built,members⟩ := addRPCPayload_represents known .reply
      (by simp +decide [lookup_entry]) (by simp +decide [lookup_entry]) nonempty supported
    refine ⟨w,by simp only [nonempty]; exact built,?_⟩
    simpa [Represents,Packet.members,resultMembers,commandMembers,Packet.payloadMembers,nonempty]
      using members

theorem createRPCReply_represents (result : ProtocolResult) (payload : V)
    (supported : isSupportedPayloadEncoding encoding = true) :
    ∃ w, createRPCReply result payload encoding = .ok w ∧
      Represents w ⟨some result,optionalReply payload,encoding,none⟩ :=
  createReply_represents replyTypeName result payload supported

theorem createServiceReply_represents (result : ProtocolResult) (payload : V)
    (supported : isSupportedPayloadEncoding encoding = true) :
    ∃ w, createServiceReply result payload encoding = .ok w ∧
      Represents w ⟨some result,optionalReply payload,encoding,none⟩ :=
  createReply_represents serviceReplyTypeName result payload supported

theorem createAsyncRPCReply_represents (result : ProtocolResult) (payload : V)
    (command : AsyncCommand) (supported : isSupportedPayloadEncoding encoding = true) :
    ∃ w, createAsyncRPCReply result payload encoding command = .ok w ∧
      Represents w ⟨some result,optionalReply payload,encoding,some command⟩ := by
  obtain ⟨reply,built,known⟩ := createRPCReply_represents result payload supported
  obtain ⟨w,added,final⟩ := addAsyncCommand_represents command known
  refine ⟨w,?_,final⟩
  rw [createAsyncRPCReply,built]
  exact added

theorem asyncScalarReply_represents (n : String) (name : n ∈ packetFieldNames) (t : ScalarType)
    (x : t.Rep) (command : AsyncCommand) (supported : isSupportedPayloadEncoding encoding = true) :
    ∃ payload w : V, HasMembers payload [(n,scalar t x)] ∧
      (do let payload ← addMember (emptyStruct "") n (scalar t x)
          createAsyncRPCReply .success payload encoding command) = .ok w ∧
      Represents w ⟨some .success,some (.reply,payload),encoding,some command⟩ := by
  obtain ⟨payload,made,inner⟩ := singleton_members (V := V) n name t x
  obtain ⟨w,built,known⟩ := createAsyncRPCReply_represents .success payload command supported
  refine ⟨payload,w,inner,?_,?_⟩
  · rw [made]; exact built
  · simpa [optionalReply,inner.nonempty] using known

theorem createAsyncRPCNewRequestReply_represents (id : UInt64)
    (supported : isSupportedPayloadEncoding encoding = true) :
    ∃ payload w : V, HasMembers payload [(asyncIdFieldName,scalar .unsignedInteger64 id)] ∧
      createAsyncRPCNewRequestReply id encoding = .ok w ∧
      Represents w ⟨some .success,some (.reply,payload),encoding,some .kInitialRequest⟩ :=
  asyncScalarReply_represents asyncIdFieldName (by decide) .unsignedInteger64 id .kInitialRequest
    supported

theorem createAsyncRPCPollReply_represents (isReady : Bool)
    (supported : isSupportedPayloadEncoding encoding = true) :
    ∃ payload w : V, HasMembers payload [(asyncReadyFieldName,scalar .boolean isReady)] ∧
      createAsyncRPCPollReply isReady encoding = .ok w ∧
      Represents w ⟨some .success,some (.reply,payload),encoding,some .kPoll⟩ :=
  asyncScalarReply_represents asyncReadyFieldName (by decide) .boolean isReady .kPoll supported

theorem createRPCStatusReply_represents (result : ProtocolResult) :
    ∃ w : V, createRPCStatusReply result = .ok w ∧ Represents w ⟨some result,none,.kNone,none⟩ := by
  have plain : isSupportedPayloadEncoding .kNone = true := by decide
  obtain ⟨w,built,known⟩ := createRPCReply_represents (V := V) result empty plain
  exact ⟨w,built,by simpa [optionalReply] using known⟩

theorem createServiceStatusReply_represents (result : ProtocolResult) :
    ∃ w : V, createServiceStatusReply result = .ok w ∧
      Represents w ⟨some result,none,.kNone,none⟩ := by
  have plain : isSupportedPayloadEncoding .kNone = true := by decide
  obtain ⟨w,built,known⟩ := createServiceReply_represents (V := V) result empty plain
  exact ⟨w,built,by simpa [optionalReply] using known⟩

theorem createAsyncRPCStatusReply_represents (result : ProtocolResult) (command : AsyncCommand) :
    ∃ w : V, createAsyncRPCStatusReply result command = .ok w ∧
      Represents w ⟨some result,none,.kNone,some command⟩ := by
  have plain : isSupportedPayloadEncoding .kNone = true := by decide
  obtain ⟨w,built,known⟩ := createAsyncRPCReply_represents (V := V) result empty command plain
  exact ⟨w,built,by simpa [optionalReply] using known⟩

end Builders

theorem Represents.noPayload [LawfulAnyValue V] {w : V} {result : Option ProtocolResult}
    {command : Option AsyncCommand} {used : PayloadEncoding}
    (known : Represents w ⟨result,none,used,command⟩) (field : PayloadField)
    (encoding : PayloadEncoding) : tryExtractRPCPayload w field.name encoding = none := by
  have absent := known.hasPayload field
  have missing : member w field.name = none := by simpa [hasField,Packet.payloadOf] using absent
  simp only [tryExtractRPCPayload,missing]

theorem Represents.noScalar [LawfulAnyValue V] {w : V} {result : Option ProtocolResult}
    {command : Option AsyncCommand} {used : PayloadEncoding}
    (known : Represents w ⟨result,none,used,command⟩) (field : PayloadField) (n : String)
    (t : ScalarType) (encoding : PayloadEncoding) :
    tryExtractPayloadScalar w field.name n t encoding = none := by
  simp only [tryExtractPayloadScalar,known.noPayload field encoding]

theorem Represents.extractScalar [LawfulAnyValue V] [LawfulCodec V] {w payload : V}
    {result : Option ProtocolResult} {command : Option AsyncCommand} {encoding : PayloadEncoding}
    {field : PayloadField}
    (known : Represents w ⟨result,some (field,payload),encoding,command⟩) (n : String)
    (name : n ∈ packetFieldNames) (t : ScalarType) (x : t.Rep)
    (inner : HasMembers payload [(n,scalar t x)])
    (supported : isSupportedPayloadEncoding encoding = true) :
    tryExtractPayloadScalar w field.name n t encoding = some x := by
  have extracted := known.extract supported field
  simp only [Packet.payloadOf,if_true] at extracted
  simp only [tryExtractPayloadScalar,extracted,inner.at n name,lookup_entry,if_true]
  exact LawfulAnyValue.asScalar_scalar t x

end SupProtocol
