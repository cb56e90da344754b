import SupProtocol.AsyncInvocation

namespace SupProtocol

-- The times of the configuration after ToNanoseconds.
structure ProtocolRPCClientConfig where
  encoding : PayloadEncoding
  async : Bool
  timeoutNs : UInt64
  pollingIntervalNs : UInt64
  deriving DecidableEq, Repr

structure PollingTimeoutHandler where
  startTimestamp : UInt64
  timeoutDurationNs : UInt64
  pollingIntervalNs : UInt64
  deriving DecidableEq, Repr

-- The time slept before the next poll, or `none` when Wait returns false.
def PollingTimeoutHandler.wait (handler : PollingTimeoutHandler) (now : UInt64) : Option UInt64 :=
  let passedNs := now - handler.startTimestamp
  if passedNs > handler.timeoutDurationNs then none
  else some (min handler.pollingIntervalNs (handler.timeoutDurationNs - passedNs))

-- How a call of the client ends: its result, unless an exception leaves it, and
-- the output parameter.
@[ext] structure Invoked (V : Type) where
  result : Except Exception ProtocolResult
  output : V

-- How the polling loop ends: with a reply to fetch, with a result of its own, or
-- not within the given number of polls.
inductive Polling where
  | ready
  | returned (result : Except Exception ProtocolResult)
  | unfinished

section Decoding
variable {V : Type} [AnyValue V] [Codec V]

def tryGetPayload (reply : V) : Option V :=
  match member reply replyPayload with
  | none => some empty
  | some _ =>
    match tryGetPacketEncoding reply with
    | none => none
    | some encoding => tryExtractRPCReplyPayload reply encoding

def handleSyncInvokeReply (reply output : V) : ProtocolResult × V :=
  if !checkReplyFormat reply then (.clientTransportDecodingError,output)
  else
    match tryExtractProtocolResult reply with
    | none => (.clientTransportDecodingError,output)
    | some result =>
      if result = .success then acceptPayload (tryGetPayload reply) output
      else (result,output)

def serviced (reply output : V) : ProtocolResult × V :=
  if !checkServiceReplyFormat reply then (.clientTransportDecodingError,output)
  else
    match tryExtractProtocolResult reply with
    | none => (.clientTransportDecodingError,output)
    | some result =>
      if result = .success then acceptPayload (tryGetPayload reply) output
      else (result,output)

end Decoding

namespace ProtocolRPCClient
variable {V : Type} [AnyValue V] [Codec V] {σ : Type}

def exchange (functor : AnyFunctor σ V) (request : Except Exception V)
    (decode : V → V → ProtocolResult × V)
    (output : V) (s : σ) : Invoked V × σ :=
  match send functor request s with
  | (.error error,s) => (⟨.error error,output⟩,s)
  | (.ok none,s) => (⟨.ok .clientTransportException,output⟩,s)
  | (.ok (some reply),s) =>
    let (result,output) := decode reply output
    (⟨.ok result,output⟩,s)

def handleSyncInvoke (functor : AnyFunctor σ V) (config : ProtocolRPCClientConfig) (input output : V)
    (s : σ) : Invoked V × σ :=
  exchange functor (createRPCRequest input config.encoding) handleSyncInvokeReply output s

-- The loop of HandleAsyncInvoke: `clock k` is what Wait reads after poll number k,
-- and `polls` bounds how many polls are looked at, nothing else.
def pollUntilReady (functor : AnyFunctor σ V) (invocation : AsyncInvocation V)
    (handler : PollingTimeoutHandler) (clock : Nat → UInt64) : Nat → Nat → σ → Polling × σ
  | 0,_,s => (.unfinished,s)
  | polls+1,k,s =>
    match invocation.pollOnce functor s with
    | (.error error,s) => (.returned (.error error),s)
    | (.ok (result,ready),s) =>
      if result ≠ .success then (.returned (.ok result),s)
      else if ready then (.ready,s)
      else
        match handler.wait (clock k) with
        | none => (.returned (.ok .asynchronousProtocolTimeout),s)
        | some _ => pollUntilReady functor invocation handler clock polls (k+1) s

-- From the accepted request on; `none` as long as the loop goes on.
def awaitReply (functor : AnyFunctor σ V) (config : ProtocolRPCClientConfig) (startTimestamp : UInt64)
    (clock : Nat → UInt64) (polls : Nat) (invocation : AsyncInvocation V) (output : V) (s : σ) :
    Option (Invoked V) × σ :=
  let handler := ⟨startTimestamp,config.timeoutNs,config.pollingIntervalNs⟩
  let (polling,s) :=
    if invocation.isSynchronous then (.ready,s)
    else pollUntilReady functor invocation handler clock polls 0 s
  match polling with
  | .unfinished => (none,s)
  | .returned result => (some ⟨result,output⟩,s)
  | .ready =>
    let (result,output,s) := invocation.getReply functor output s
    (some ⟨result,output⟩,s)

def handleAsyncInvoke (functor : AnyFunctor σ V) (config : ProtocolRPCClientConfig)
    (startTimestamp : UInt64) (clock : Nat → UInt64) (polls : Nat) (input output : V) (s : σ) :
    Option (Invoked V) × σ :=
  match (AsyncInvocation.make config.encoding).start functor input s with
  | (.error error,s) => (some ⟨.error error,output⟩,s)
  | (.ok (startResult,invocation),s) =>
    if startResult ≠ .success then (some ⟨.ok startResult,output⟩,s)
    else awaitReply functor config startTimestamp clock polls invocation output s

def invoke (functor : AnyFunctor σ V) (config : ProtocolRPCClientConfig)
    (startTimestamp : UInt64) (clock : Nat → UInt64) (polls : Nat) (input output : V) (s : σ) :
    Option (Invoked V) × σ :=
  if isEmptyValue input then (some ⟨.ok .clientTransportEncodingError,output⟩,s)
  else if config.async then
    handleAsyncInvoke functor config startTimestamp clock polls input output s
  else
    let (invoked,s) := handleSyncInvoke functor config input output s
    (some invoked,s)

def service (functor : AnyFunctor σ V) (config : ProtocolRPCClientConfig) (input output : V) (s : σ) :
    Invoked V × σ :=
  if isEmptyValue input then (⟨.ok .clientTransportEncodingError,output⟩,s)
  else exchange functor (createServiceRequest input config.encoding) serviced output s

end ProtocolRPCClient

end SupProtocol
