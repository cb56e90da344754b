import SupProtocol.ClientFunctions

namespace SupProtocol

variable {V : Type} [AnyValue V] [Codec V]

-- The bare accessors: `value[name]` and `value.As<T>()` throw on a member that is
-- not there and on a value of another type.
def memberAt (value : V) (name : String) : Except Exception V :=
  match member value name with
  | none => .error (.foreign "operator[]: no such member")
  | some field => .ok field

def scalarAs (t : ScalarType) (value : V) : Except Exception t.Rep :=
  match asScalar t value with
  | none => .error (.foreign "As(): the value has another type")
  | some x => .ok x

-- The readers of replies once more, check by check and access by access, so that
-- an access without its check would throw.
namespace Access

def tryExtractProtocolResult (packet : V) : Except Exception (Option ProtocolResult) :=
  if !hasField packet replyResult then return none
  else do
    let resultField ← memberAt packet replyResult
    if !hasType resultField .unsignedInteger32 then return none
    else
      let resultInt ← scalarAs .unsignedInteger32 resultField
      return some ⟨resultInt⟩

def tryGetPacketEncoding (packet : V) : Except Exception (Option PayloadEncoding) :=
  if !hasField packet encodingFieldName then return some .kNone
  else do
    let encodingField ← memberAt packet encodingFieldName
    if !hasType encodingField .signedInteger32 then return none
    else
      let val ← scalarAs .signedInteger32 encodingField
      if !isSupportedPayloadEncoding (encodingFromInteger val) then return none
      else return some (encodingFromInteger val)

-- The member is looked up for its type and once more for its value.
def getAsyncInfo (packet : V) : Except Exception (Option AsyncCommand) :=
  if !hasField packet asyncCommandFieldName then return none
  else do
    let field ← memberAt packet asyncCommandFieldName
    if !hasType field .unsignedInteger32 then return none
    else
      let field ← memberAt packet asyncCommandFieldName
      let commandNr ← scalarAs .unsignedInteger32 field
      return some ⟨commandNr⟩

-- The access stands inside of the try block, beside the decoder.
def tryExtractRPCPayload (packet : V) (memberName : String) (encoding : PayloadEncoding) : Option V :=
  if !hasField packet memberName then none
  else
    match memberAt packet memberName >>= (Encoding.decode · encoding) with
    | .error _ => none
    | .ok payload => some payload

def tryExtractPayloadScalar (packet : V) (memberName fieldName : String) (t : ScalarType)
    (encoding : PayloadEncoding) : Except Exception (Option t.Rep) :=
  match tryExtractRPCPayload packet memberName encoding with
  | none => return none
  | some payload =>
    if !hasField payload fieldName then return none
    else do
      let field ← memberAt payload fieldName
      if !hasType field t then return none
      else
        let x ← scalarAs t field
        return some x

def tryGetReplyPayload (reply : V) : Except Exception (Option V) :=
  if !hasField reply replyPayload then return some empty
  else do
    match ← tryGetPacketEncoding reply with
    | none => return none
    | some encoding => return tryExtractRPCPayload reply replyPayload encoding

def replied (reply output : V) : Except Exception (ProtocolResult × V) := do
  match ← tryExtractProtocolResult reply with
  | none => return (.clientTransportDecodingError,output)
  | some result =>
    if result ≠ .success then return (result,output)
    else
      let payloadInfo ← tryGetReplyPayload reply
      return acceptPayload payloadInfo output

def decodeReply (reply output : V) : Except Exception (ProtocolResult × V) :=
  if !checkReplyFormat reply then return (.clientTransportDecodingError,output)
  else replied reply output

def serviced (reply output : V) : Except Exception (ProtocolResult × V) :=
  if !checkServiceReplyFormat reply then return (.clientTransportDecodingError,output)
  else replied reply output

def started (invocation : AsyncInvocation V) (reply : V) :
    Except Exception (ProtocolResult × AsyncInvocation V) := do
  match ← getAsyncInfo reply with
  | none =>
    if !checkReplyFormat reply then return (.clientTransportDecodingError,invocation)
    else return (.success,{invocation with synchronous := true, syncReply := reply})
  | some _ =>
    match ← tryGetPacketEncoding reply with
    | none => return (.clientTransportDecodingError,invocation)
    | some encoding =>
      match ← tryExtractPayloadScalar reply replyPayload asyncIdFieldName .unsignedInteger64 encoding with
      | none => return (.clientTransportDecodingError,invocation)
      | some id =>
        if id = 0 then return (.clientTransportDecodingError,invocation)
        else return (.success,{invocation with id := id})

def polled (pollReply : V) : Except Exception (ProtocolResult × Bool) := do
  match ← tryGetPacketEncoding pollReply with
  | none => return (.clientTransportDecodingError,false)
  | some encoding =>
    match ← tryExtractPayloadScalar pollReply replyPayload asyncReadyFieldName .boolean encoding with
    | none => return (.clientTransportDecodingError,false)
    | some ready => return (.success,ready)

end Access

section Guards
variable {value field : V} {name : String}

omit [Codec V] in
theorem memberAt_present (here : member value name = some field) : memberAt value name = .ok field := by
  simp only [memberAt,here]

omit [Codec V] in
theorem scalarAs_typed {t : ScalarType} {x : t.Rep} (typed : asScalar t value = some x) :
    scalarAs t value = .ok x := by
  simp only [scalarAs,typed]

omit [Codec V] in
theorem guarded_access {α : Type} (value : V) (name : String) (t : ScalarType)
    (absent mistyped : Except Exception α) (next : t.Rep → Except Exception α) :
    (if !hasField value name then absent
      else do
        let field ← memberAt value name
        if !hasType field t then mistyped
        else
          let x ← scalarAs t field
          next x) =
      match member value name with
      | none => absent
      | some field =>
        match asScalar t field with
        | none => mistyped
        | some x => next x := by
  cases here : member value name with
  | none => simp [hasField,here]
  | some field =>
    rw [memberAt_present here]
    cases typed : asScalar t field with
    | none => simp [hasField,hasType,here,typed]
    | some x => simp [hasField,hasType,here,typed,scalarAs_typed typed]

omit [Codec V] in
theorem tryExtractProtocolResult_guarded (packet : V) :
    Access.tryExtractProtocolResult packet = .ok (tryExtractProtocolResult packet) := by
  unfold Access.tryExtractProtocolResult tryExtractProtocolResult
  rw [guarded_access]
  cases member packet replyResult with
  | none => rfl
  | some field =>
    dsimp only
    cases asScalar .unsignedInteger32 field <;> rfl

omit [Codec V] in
theorem tryGetPacketEncoding_guarded (packet : V) :
    Access.tryGetPacketEncoding packet = .ok (tryGetPacketEncoding packet) := by
  unfold Access.tryGetPacketEncoding tryGetPacketEncoding
  rw [guarded_access]
  cases member packet encodingFieldName with
  | none => rfl
  | some field =>
    dsimp only
    cases asScalar .signedInteger32 field with
    | none => rfl
    | some val =>
      cases supported : isSupportedPayloadEncoding (encodingFromInteger val) <;> simp [supported]

omit [Codec V] in
theorem getAsyncInfo_guarded (packet : V) :
    Access.getAsyncInfo packet = .ok (getAsyncInfo packet) := by
  unfold Access.getAsyncInfo getAsyncInfo
  cases here : member packet asyncCommandFieldName with
  | none => simp [hasField,here]
  | some field =>
    rw [memberAt_present here]
    cases typed : asScalar .unsignedInteger32 field with
    | none => simp [hasField,hasType,here,typed]
    | some x => simp [hasField,hasType,here,typed,scalarAs_typed typed]

theorem tryExtractRPCPayload_guarded (packet : V) (memberName : String) (encoding : PayloadEncoding) :
    Access.tryExtractRPCPayload packet memberName encoding =
      tryExtractRPCPayload packet memberName encoding := by
  unfold Access.tryExtractRPCPayload tryExtractRPCPayload
  cases here : member packet memberName with
  | none => simp [hasField,here]
  | some field =>
    rw [memberAt_present here]
    simp only [hasField,here,ok_then]
    cases Encoding.decode field encoding <;> rfl

theorem tryExtractPayloadScalar_guarded (packet : V) (memberName fieldName : String) (t : ScalarType)
    (encoding : PayloadEncoding) :
    Access.tryExtractPayloadScalar packet memberName fieldName t encoding =
      .ok (tryExtractPayloadScalar packet memberName fieldName t encoding) := by
  unfold Access.tryExtractPayloadScalar tryExtractPayloadScalar
  rw [tryExtractRPCPayload_guarded]
  cases tryExtractRPCPayload packet memberName encoding with
  | none => rfl
  | some payload =>
    dsimp only
    rw [guarded_access]
    cases member payload fieldName with
    | none => rfl
    | some field =>
      dsimp only
      cases asScalar t field <;> rfl

theorem tryGetReplyPayload_guarded (reply : V) :
    Access.tryGetReplyPayload reply = .ok (tryGetReplyPayload reply) := by
  unfold Access.tryGetReplyPayload tryGetReplyPayload
  rw [tryGetPacketEncoding_guarded]
  cases here : member reply replyPayload with
  | none => simp [hasField,here]
  | some field =>
    simp only [hasField,here,ok_then,tryExtractRPCPayload_guarded,tryExtractRPCReplyPayload]
    cases tryGetPacketEncoding reply <;> rfl

theorem replied_guarded (reply output : V) :
    Access.replied reply output = .ok (AsyncInvocation.replied reply output) := by
  unfold Access.replied AsyncInvocation.replied
  rw [tryExtractProtocolResult_guarded,tryGetReplyPayload_guarded]
  cases tryExtractProtocolResult reply with
  | none => rfl
  | some result =>
    simp only [ok_then,return_ok]
    split <;> rfl

theorem decodeReply_guarded (reply output : V) :
    Access.decodeReply reply output = .ok (decodeReply reply output) := by
  unfold Access.decodeReply decodeReply
  rw [replied_guarded]
  unfold AsyncInvocation.replied
  cases checkReplyFormat reply with
  | false => rfl
  | true =>
    cases tryExtractProtocolResult reply with
    | none => rfl
    | some result => by_cases success : result = .success <;> simp [success]

theorem serviced_guarded (reply output : V) :
    Access.serviced reply output = .ok (serviced reply output) := by
  unfold Access.serviced serviced
  rw [replied_guarded]
  unfold AsyncInvocation.replied
  cases checkServiceReplyFormat reply with
  | false => rfl
  | true =>
    cases tryExtractProtocolResult reply with
    | none => rfl
    | some result =>
      by_cases success : result = .success
      · subst result
        rfl
      · simp [success]

theorem started_guarded (invocation : AsyncInvocation V) (reply : V) :
    Access.started invocation reply = .ok (invocation.started reply) := by
  unfold Access.started AsyncInvocation.started
  rw [getAsyncInfo_guarded,tryGetPacketEncoding_guarded]
  cases getAsyncInfo reply with
  | none => cases checkReplyFormat reply <;> rfl
  | some command =>
    cases tryGetPacketEncoding reply with
    | none => rfl
    | some encoding =>
      simp only [ok_then,tryExtractPayloadScalar_guarded,tryExtractReplyId]
      cases tryExtractPayloadScalar reply replyPayload asyncIdFieldName .unsignedInteger64 encoding with
      | none => rfl
      | some id => by_cases zero : id = 0 <;> simp [zero]

theorem polled_guarded (pollReply : V) :
    Access.polled pollReply = .ok (AsyncInvocation.polled pollReply) := by
  unfold Access.polled AsyncInvocation.polled
  rw [tryGetPacketEncoding_guarded]
  cases tryGetPacketEncoding pollReply with
  | none => rfl
  | some encoding =>
    simp only [ok_then,tryExtractPayloadScalar_guarded,tryExtractReadyStatus]
    cases tryExtractPayloadScalar pollReply replyPayload asyncReadyFieldName .boolean encoding <;> rfl

end Guards

-- What each decoder returns is what its own accesses return: none of them throws.
structure DecodersGuarded (V : Type) [AnyValue V] [Codec V] : Prop where
  synchronous : ∀ reply output : V, Access.decodeReply reply output =
    .ok (handleSyncInvokeReply reply output)
  fallback : ∀ reply output : V, Access.decodeReply reply output = .ok (decodeReply reply output)
  service : ∀ reply output : V, Access.serviced reply output = .ok (serviced reply output)
  start : ∀ (invocation : AsyncInvocation V) (reply : V),
    Access.started invocation reply = .ok (invocation.started reply)
  poll : ∀ reply : V, Access.polled reply = .ok (AsyncInvocation.polled reply)
  fetch : ∀ reply output : V, Access.replied reply output = .ok (AsyncInvocation.replied reply output)

theorem decoders_guarded : DecodersGuarded V where
  synchronous := decodeReply_guarded
  fallback := decodeReply_guarded
  service := serviced_guarded
  start := started_guarded
  poll := polled_guarded
  fetch := replied_guarded

end SupProtocol
