import SupProtocol.AnyValue

namespace SupProtocol

variable {V : Type} [AnyValue V]

def checkRequestFormat (request : V) : Bool :=
  validateMemberTypeIfPresent request requestTimestamp .unsignedInteger64 &&
  validateMemberTypeIfPresent request encodingFieldName .signedInteger32 &&
  validateMemberTypeIfPresent request asyncCommandFieldName .unsignedInteger32 &&
  hasField request requestPayload

def checkReplyFormat (reply : V) : Bool :=
  validateMemberType reply replyResult .unsignedInteger32 &&
  validateMemberTypeIfPresent reply replyTimestamp .unsignedInteger64 &&
  validateMemberTypeIfPresent reply encodingFieldName .signedInteger32 &&
  validateMemberTypeIfPresent reply replyReason .string &&
  validateMemberTypeIfPresent reply asyncCommandFieldName .unsignedInteger32

def checkServiceRequest (request : V) : Bool :=
  if hasField request encodingFieldName &&
      !validateMemberTypeIfPresent request encodingFieldName .signedInteger32 then false
  else hasField request serviceRequestPayload

def checkServiceReplyFormat (reply : V) : Bool :=
  validateMemberType reply serviceReplyResult .unsignedInteger32 &&
  validateMemberTypeIfPresent reply encodingFieldName .signedInteger32

-- Readers return `none` where the source returns the pair {false, _}.
def tryExtractProtocolResult (packet : V) : Option ProtocolResult :=
  match member packet replyResult with
  | none => none
  | some resultField => (asScalar .unsignedInteger32 resultField).map ProtocolResult.mk

def tryGetPacketEncoding (packet : V) : Option PayloadEncoding :=
  match member packet encodingFieldName with
  | none => some .kNone
  | some encodingField =>
    match asScalar .signedInteger32 encodingField with
    | none => none
    | some val =>
      if isSupportedPayloadEncoding (encodingFromInteger val) then some (encodingFromInteger val)
      else none

def getAsyncInfo (packet : V) : Option AsyncCommand :=
  match member packet asyncCommandFieldName with
  | none => none
  | some field => (asScalar .unsignedInteger32 field).map AsyncCommand.mk

variable [Codec V]

namespace Encoding

def base64Encode (val : V) : V := scalar .string (SupProtocol.base64Encode V (anyValueToBinary val))

def base64Decode (val : V) : Except Exception V :=
  match asScalar .string val with
  | none => .error (.invalidOperation "Base64Decode(): passed value was not of string type")
  | some text => do
    let binary ← SupProtocol.base64Decode V text
    anyValueFromBinary binary

def encode (val : V) (encoding : PayloadEncoding) : Except Exception V :=
  if encoding = .kNone then .ok val
  else if encoding = .kBase64 then .ok (base64Encode val)
  else .error (.invalidOperation
    ("encoding::Encode(): unknown encoding type: " ++ toString encoding.value))

def decode (val : V) (encoding : PayloadEncoding) : Except Exception V :=
  if encoding = .kNone then .ok val
  else if encoding = .kBase64 then base64Decode val
  else .error (.invalidOperation
    ("encoding::Decode(): unknown encoding type: " ++ toString encoding.value))

end Encoding

def addRPCPayload (packet payload : V) (memberName : String) (encoding : PayloadEncoding) :
    Except Exception V :=
  if encoding = .kNone then addMember packet memberName payload
  else do
    let encodedPayload ← Encoding.encode payload encoding
    let encodingField := scalar .signedInteger32 (encodingToInteger encoding)
    let packet ← addMember packet encodingFieldName encodingField
    addMember packet memberName encodedPayload

def addAsyncCommand (packet : V) (command : AsyncCommand) : Except Exception V :=
  addMember packet asyncCommandFieldName (scalar .unsignedInteger32 command.value)

def createRPCRequest (payload : V) (encoding : PayloadEncoding) : Except Exception V :=
  if isEmptyValue payload then
    .error (.invalidOperation "CreateRPCRequest(): empty payload is not allowed")
  else addRPCPayload (emptyStruct requestTypeName) payload requestPayload encoding

-- The message names CreateRPCRequest in the source too.
def createAsyncRPCRequest (payload : V) (encoding : PayloadEncoding) : Except Exception V :=
  if isEmptyValue payload then
    .error (.invalidOperation "CreateRPCRequest(): empty payload is not allowed")
  else do
    let request ← addRPCPayload (emptyStruct requestTypeName) payload requestPayload encoding
    addAsyncCommand request .kInitialRequest

def createRequestIdPayload (id : UInt64) : Except Exception V :=
  addMember (emptyStruct "") asyncIdFieldName (scalar .unsignedInteger64 id)

-- The three packets that name a request differ in their command only.
def createAsyncIdRequest (id : UInt64) (encoding : PayloadEncoding) (command : AsyncCommand) :
    Except Exception V := do
  let payload ← createRequestIdPayload id
  let request ← addRPCPayload (emptyStruct requestTypeName) payload requestPayload encoding
  addAsyncCommand request command

def createAsyncRPCPoll (id : UInt64) (encoding : PayloadEncoding) : Except Exception V :=
  createAsyncIdRequest id encoding .kPoll
def createAsyncRPCGetReply (id : UInt64) (encoding : PayloadEncoding) : Except Exception V :=
  createAsyncIdRequest id encoding .kGetReply
def createAsyncRPCInvalidate (id : UInt64) (encoding : PayloadEncoding) : Except Exception V :=
  createAsyncIdRequest id encoding .kInvalidate

def createReply (typeName resultName payloadName : String) (result : ProtocolResult) (payload : V)
    (encoding : PayloadEncoding) : Except Exception V := do
  let reply ← addMember (emptyStruct typeName) resultName (scalar .unsignedInteger32 result.value)
  if isEmptyValue payload then return reply
  else addRPCPayload reply payload payloadName encoding

def createRPCReply (result : ProtocolResult) (payload : V) (encoding : PayloadEncoding) :
    Except Exception V :=
  createReply replyTypeName replyResult replyPayload result payload encoding

def createRPCStatusReply (result : ProtocolResult) : Except Exception V :=
  createRPCReply result empty .kNone

def createAsyncRPCReply (result : ProtocolResult) (payload : V) (encoding : PayloadEncoding)
    (command : AsyncCommand) : Except Exception V := do
  let reply ← createRPCReply result payload encoding
  addAsyncCommand reply command

def createAsyncRPCStatusReply (result : ProtocolResult) (command : AsyncCommand) :
    Except Exception V :=
  createAsyncRPCReply result empty .kNone command

def createAsyncRPCNewRequestReply (id : UInt64) (encoding : PayloadEncoding) :
    Except Exception V := do
  let payload ← addMember (emptyStruct "") asyncIdFieldName (scalar .unsignedInteger64 id)
  createAsyncRPCReply .success payload encoding .kInitialRequest

def createAsyncRPCPollReply (isReady : Bool) (encoding : PayloadEncoding) : Except Exception V := do
  let payload ← addMember (emptyStruct "") asyncReadyFieldName (scalar .boolean isReady)
  createAsyncRPCReply .success payload encoding .kPoll

def createServiceRequest (payload : V) (encoding : PayloadEncoding) : Except Exception V :=
  if isEmptyValue payload then
    .error (.invalidOperation "CreateServiceRequest(): empty payload is not allowed")
  else addRPCPayload (emptyStruct serviceRequestTypeName) payload serviceRequestPayload encoding

def createServiceReply (result : ProtocolResult) (payload : V) (encoding : PayloadEncoding) :
    Except Exception V :=
  createReply serviceReplyTypeName serviceReplyResult serviceReplyPayload result payload encoding

def createServiceStatusReply (result : ProtocolResult) : Except Exception V :=
  createServiceReply result empty .kNone

def tryExtractRPCPayload (packet : V) (memberName : String) (encoding : PayloadEncoding) :
    Option V :=
  match member packet memberName with
  | none => none
  | some field =>
    match Encoding.decode field encoding with
    | .error _ => none
    | .ok payload => some payload

def tryExtractRPCRequestPayload (packet : V) (encoding : PayloadEncoding) : Option V :=
  tryExtractRPCPayload packet requestPayload encoding
def tryExtractRPCReplyPayload (packet : V) (encoding : PayloadEncoding) : Option V :=
  tryExtractRPCPayload packet replyPayload encoding
def tryExtractServiceRequestPayload (packet : V) (encoding : PayloadEncoding) : Option V :=
  tryExtractRPCPayload packet serviceRequestPayload encoding

-- The value of a typed member of the decoded payload: the identifier or the
-- ready flag.
def tryExtractPayloadScalar (packet : V) (memberName fieldName : String) (t : ScalarType)
    (encoding : PayloadEncoding) : Option t.Rep :=
  match tryExtractRPCPayload packet memberName encoding with
  | none => none
  | some payload =>
    match member payload fieldName with
    | none => none
    | some field => asScalar t field

def tryExtractRequestId (packet : V) (encoding : PayloadEncoding) : Option UInt64 :=
  tryExtractPayloadScalar packet requestPayload asyncIdFieldName .unsignedInteger64 encoding
def tryExtractReplyId (packet : V) (encoding : PayloadEncoding) : Option UInt64 :=
  tryExtractPayloadScalar packet replyPayload asyncIdFieldName .unsignedInteger64 encoding
def tryExtractReadyStatus (packet : V) (encoding : PayloadEncoding) : Option Bool :=
  tryExtractPayloadScalar packet replyPayload asyncReadyFieldName .boolean encoding

end SupProtocol
