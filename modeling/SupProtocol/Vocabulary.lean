import Mathlib.Data.List.Basic

namespace SupProtocol

-- What can leave a function by throwing. The exceptions of this library keep
-- their text; those of the packages below and of application code are opaque.
inductive Exception where
  | invalidOperation (message : String)
  | foreign (what : String)
  deriving DecidableEq, Repr

-- A thin wrapper around an unsigned integer; any value can travel in a packet.
structure ProtocolResult where
  value : UInt32
  deriving DecidableEq, Repr

namespace ProtocolResult

def success : ProtocolResult := ⟨0⟩
def notConnected : ProtocolResult := ⟨1⟩
def clientNetworkEncodingError : ProtocolResult := ⟨2⟩
def serverNetworkEncodingError : ProtocolResult := ⟨3⟩
def clientNetworkDecodingError : ProtocolResult := ⟨4⟩
def serverNetworkDecodingError : ProtocolResult := ⟨5⟩
def clientTransportEncodingError : ProtocolResult := ⟨6⟩
def serverTransportEncodingError : ProtocolResult := ⟨7⟩
def clientTransportDecodingError : ProtocolResult := ⟨8⟩
def serverTransportDecodingError : ProtocolResult := ⟨9⟩
def clientProtocolEncodingError : ProtocolResult := ⟨10⟩
def serverProtocolEncodingError : ProtocolResult := ⟨11⟩
def clientProtocolDecodingError : ProtocolResult := ⟨12⟩
def serverProtocolDecodingError : ProtocolResult := ⟨13⟩
def serverUnsupportedPayloadEncodingError : ProtocolResult := ⟨14⟩
def invalidRequestIdentifierError : ProtocolResult := ⟨15⟩
def invalidAsynchronousOperationError : ProtocolResult := ⟨16⟩
def serverProtocolException : ProtocolResult := ⟨17⟩
def clientTransportException : ProtocolResult := ⟨18⟩
def asynchronousProtocolTimeout : ProtocolResult := ⟨19⟩

end ProtocolResult

-- Both enumerations have a fixed underlying type and are filled by static_cast
-- from a packet, so every integer of that type is a possible value.
structure PayloadEncoding where
  value : Int32
  deriving DecidableEq, Repr

namespace PayloadEncoding

def kNone : PayloadEncoding := ⟨0⟩
def kBase64 : PayloadEncoding := ⟨1⟩

end PayloadEncoding

structure AsyncCommand where
  value : UInt32
  deriving DecidableEq, Repr

namespace AsyncCommand

def kInitialRequest : AsyncCommand := ⟨0⟩
def kPoll : AsyncCommand := ⟨1⟩
def kGetReply : AsyncCommand := ⟨2⟩
def kInvalidate : AsyncCommand := ⟨3⟩

end AsyncCommand

def encodingToInteger (encoding : PayloadEncoding) : Int32 := encoding.value
def encodingFromInteger (val : Int32) : PayloadEncoding := ⟨val⟩

def supportedEncodings : List PayloadEncoding := [.kNone,.kBase64]
def isSupportedPayloadEncoding (encoding : PayloadEncoding) : Bool :=
  supportedEncodings.contains encoding

theorem supported_cases (supported : isSupportedPayloadEncoding encoding = true) :
    encoding = .kNone ∨ encoding = .kBase64 := by
  simpa [isSupportedPayloadEncoding,supportedEncodings] using supported

theorem encoding_integer_roundtrip (encoding : PayloadEncoding) :
    encodingFromInteger (encodingToInteger encoding) = encoding := rfl

def encodingFieldName : String := "encoding"
def asyncCommandFieldName : String := "async"
def asyncIdFieldName : String := "id"
def asyncReadyFieldName : String := "ready"

def requestTypeName : String := "sup::protocolRequest/v2.1"
def requestTimestamp : String := "timestamp"
def requestPayload : String := "query"

def replyTypeName : String := "sup::protocolReply/v2.1"
def replyResult : String := "result"
def replyTimestamp : String := "timestamp"
def replyReason : String := "reason"
def replyPayload : String := "reply"

def serviceRequestTypeName : String := "sup::ServiceRequest/v2.0"
def serviceRequestPayload : String := "service"

def serviceReplyTypeName : String := "sup::ServiceReply/v2.0"
def serviceReplyResult : String := "result"
def serviceReplyPayload : String := "reply"

def packetFieldNames : List String :=
  [encodingFieldName,asyncCommandFieldName,asyncIdFieldName,asyncReadyFieldName,requestTimestamp,
   requestPayload,replyResult,replyReason,replyPayload,serviceRequestPayload]

end SupProtocol
