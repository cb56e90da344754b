import SupProtocol.ProtocolRpc

namespace SupProtocol

-- A network client: it answers a packet or throws, and the state it acts on,
-- its server and everything around it, moves on either way.
abbrev AnyFunctor (σ V : Type) := V → σ → Except Exception V × σ

-- What a packet comes back as: no reply stands for the catch (...) around the
-- call of the functor. An exception while the request is built is not caught.
def send (functor : AnyFunctor σ V) (request : Except Exception V) (s : σ) :
    Except Exception (Option V) × σ :=
  match request with
  | .error error => (.error error,s)
  | .ok request =>
    match functor request s with
    | (.error _,s) => (.ok none,s)
    | (.ok reply,s) => (.ok (some reply),s)

structure AsyncInvocation (V : Type) where
  encoding : PayloadEncoding
  id : UInt64
  synchronous : Bool
  syncReply : V

section Decoding
variable {V : Type} [AnyValue V] [Codec V]

def tryGetReplyPayload (reply : V) : Option V :=
  match member reply replyPayload with
  | none => some empty
  | some _ =>
    match tryGetPacketEncoding reply with
    | none => none
    | some encoding => tryExtractRPCReplyPayload reply encoding

-- The end of every decoder that found Success: `none` is the pair {false, _}.
def acceptPayload (payloadInfo : Option V) (output : V) : ProtocolResult × V :=
  match payloadInfo with
  | none => (.clientTransportDecodingError,output)
  | some payload =>
    if isEmptyValue payload then (.success,output)
    else
      let (assigned,output) := tryAssignIfEmptyOrConvert output payload
      if assigned then (.success,output) else (.clientTransportDecodingError,output)

def decodeReply (reply output : V) : ProtocolResult × V :=
  if !checkReplyFormat reply then (.clientTransportDecodingError,output)
  else
    match tryExtractProtocolResult reply with
    | none => (.clientTransportDecodingError,output)
    | some result =>
      if result = .success then acceptPayload (tryGetReplyPayload reply) output
      else (result,output)

end Decoding

namespace AsyncInvocation
variable {V : Type} [AnyValue V] [Codec V] {σ : Type}

def make (encoding : PayloadEncoding) : AsyncInvocation V := ⟨encoding,0,false,empty⟩

-- Start, from its reply on.
def started (invocation : AsyncInvocation V) (reply : V) : ProtocolResult × AsyncInvocation V :=
  match getAsyncInfo reply with
  | none =>
    if checkReplyFormat reply then (.success,{invocation with synchronous := true, syncReply := reply})
    else (.clientTransportDecodingError,invocation)
  | some _ =>
    match tryGetPacketEncoding reply with
    | none => (.clientTransportDecodingError,invocation)
    | some encoding =>
      match tryExtractReplyId reply encoding with
      | none => (.clientTransportDecodingError,invocation)
      | some id =>
        if id = 0 then (.clientTransportDecodingError,invocation)
        else (.success,{invocation with id := id})

def start (functor : AnyFunctor σ V) (invocation : AsyncInvocation V) (input : V) (s : σ) :
    Except Exception (ProtocolResult × AsyncInvocation V) × σ :=
  match send functor (createAsyncRPCRequest input invocation.encoding) s with
  | (.error error,s) => (.error error,s)
  | (.ok none,s) => (.ok (.clientTransportException,invocation),s)
  | (.ok (some reply),s) => (.ok (invocation.started reply),s)

def polled (pollReply : V) : ProtocolResult × Bool :=
  match tryGetPacketEncoding pollReply with
  | none => (.clientTransportDecodingError,false)
  | some encoding =>
    match tryExtractReadyStatus pollReply encoding with
    | none => (.clientTransportDecodingError,false)
    | some ready => (.success,ready)

def pollOnce (functor : AnyFunctor σ V) (invocation : AsyncInvocation V) (s : σ) :
    Except Exception (ProtocolResult × Bool) × σ :=
  if invocation.synchronous then (.ok (.success,true),s)
  else
    match send functor (createAsyncRPCPoll invocation.id invocation.encoding) s with
    | (.error error,s) => (.error error,s)
    | (.ok none,s) => (.ok (.clientTransportException,false),s)
    | (.ok (some pollReply),s) => (.ok (polled pollReply),s)

-- GetReply of an asynchronous request, from its reply on.
def replied (reply output : V) : ProtocolResult × V :=
  match tryExtractProtocolResult reply with
  | none => (.clientTransportDecodingError,output)
  | some result =>
    if result ≠ .success then (result,output)
    else acceptPayload (tryGetReplyPayload reply) output

def getReply (functor : AnyFunctor σ V) (invocation : AsyncInvocation V) (output : V) (s : σ) :
    Except Exception ProtocolResult × V × σ :=
  if invocation.synchronous then
    let (result,output) := decodeReply invocation.syncReply output
    (.ok result,output,s)
  else
    match send functor (createAsyncRPCGetReply invocation.id invocation.encoding) s with
    | (.error error,s) => (.error error,output,s)
    | (.ok none,s) => (.ok .clientTransportException,output,s)
    | (.ok (some reply),s) =>
      let (result,output) := replied reply output
      (.ok result,output,s)

-- Whatever the functor answers is ignored.
def invalidate (functor : AnyFunctor σ V) (invocation : AsyncInvocation V) (s : σ) :
    Except Exception Unit × σ :=
  if invocation.synchronous || invocation.id = 0 then (.ok (),s)
  else
    match send functor (createAsyncRPCInvalidate invocation.id invocation.encoding) s with
    | (.error error,s) => (.error error,s)
    | (.ok _,s) => (.ok (),s)

def isSynchronous (invocation : AsyncInvocation V) : Bool := invocation.synchronous

end AsyncInvocation

end SupProtocol
