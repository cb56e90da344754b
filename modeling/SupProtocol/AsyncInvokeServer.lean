import Std.Data.TreeMap
import Std.Data.TreeMap.Lemmas
import SupProtocol.AsyncInvoke

namespace SupProtocol

structure AsyncInvokeServer (V : Type) where
  expirationTimeNs : UInt64
  invokes : Std.TreeMap UInt64 AsyncInvoke
  lastId : UInt64
  calls : Calls V

-- Between two looks at a future worker threads run on: a moment says which calls
-- have ended since the one before and what the clock shows.
structure Moment (V : Type) where
  completions : List (Nat × Outcome V)
  now : UInt64

inductive Effect where
  | launched (id : UInt64) (call : Nat) (now : UInt64)
  | on (id : UInt64) (access : Access)
  | erased (id : UInt64)
  deriving DecidableEq, Repr

structure Answer (V : Type) where
  reply : Except Exception V
  effects : List Effect

structure Output (V : Type) where
  reply : Option (Except Exception V)
  effects : List Effect

def Answer.output (answer : Answer V) : Output V := ⟨some answer.reply,answer.effects⟩

def extractAsyncRequestId [AnyValue V] (payload : V) : Option UInt64 :=
  match member payload asyncIdFieldName with
  | none => none
  | some idField => asScalar .unsignedInteger64 idField

namespace AsyncInvokeServer
variable {V : Type}

def start (expirationTimeNs : UInt64) : AsyncInvokeServer V := ⟨expirationTimeNs,∅,0,[]⟩

def observe (server : AsyncInvokeServer V) (moment : Moment V) : AsyncInvokeServer V :=
  {server with calls := Tasks.finishAll server.calls moment.completions}

def store (server : AsyncInvokeServer V) (id : UInt64) (invoke : AsyncInvoke) : AsyncInvokeServer V :=
  {server with invokes := server.invokes.insert id invoke}

def erase (server : AsyncInvokeServer V) (id : UInt64) : AsyncInvokeServer V :=
  {server with invokes := server.invokes.erase id}

-- m_invokes.emplace: the entry is built, and its call launched, before the map
-- looks at the key; an entry in the way is kept.
def emplace (server : AsyncInvokeServer V) (id : UInt64) (payload : V) (now : UInt64) :
    AsyncInvokeServer V × List Effect :=
  let (call,calls) := Tasks.launch server.calls payload
  ({server with
    invokes := server.invokes.insertIfNew id ⟨some call,false,now,server.expirationTimeNs⟩
    calls := calls},[.launched id call now])

variable [AnyValue V]

def removeIfReady (server : AsyncInvokeServer V) (id : UInt64) (invoke : AsyncInvoke)
    (moment : Moment V) : AsyncInvokeServer V × List Effect :=
  let server := server.observe moment
  let (removable,seen) := invoke.isReadyForRemoval server.calls moment.now
  if removable then (server.erase id,seen.map (.on id) ++ [.erased id])
  else (server,seen.map (.on id))

-- The iterator visits the keys in their order; erasing one does not move the rest.
def cleanUpFrom (moments : Nat → Moment V) : Nat → List UInt64 → AsyncInvokeServer V →
    AsyncInvokeServer V × List Effect
  | _,[],server => (server,[])
  | k,id :: ids,server =>
    match server.invokes[id]? with
    | none => cleanUpFrom moments k ids server
    | some invoke =>
      let (server,first) := server.removeIfReady id invoke (moments k)
      let (server,rest) := cleanUpFrom moments (k+1) ids server
      (server,first ++ rest)

def cleanUpExpiredRequests (server : AsyncInvokeServer V) (moments : Nat → Moment V) :
    AsyncInvokeServer V × List Effect :=
  cleanUpFrom moments 0 server.invokes.keys server

variable [Codec V]

def newRequest (server : AsyncInvokeServer V) (payload : V) (encoding : PayloadEncoding)
    (moments : Nat → Moment V) : Answer V × AsyncInvokeServer V :=
  let id := server.lastId + 1
  let server := {server with lastId := id}
  let (server,effects) := (server.observe (moments 0)).emplace id payload (moments 0).now
  (⟨createAsyncRPCNewRequestReply id encoding,effects⟩,server)

def poll (server : AsyncInvokeServer V) (id : UInt64) (encoding : PayloadEncoding)
    (moments : Nat → Moment V) : Answer V × AsyncInvokeServer V :=
  match server.invokes[id]? with
  | none => (⟨createAsyncRPCStatusReply .invalidRequestIdentifierError .kPoll,[]⟩,server)
  | some invoke =>
    let server := server.observe (moments 0)
    let (removable,seen) := invoke.isReadyForRemoval server.calls (moments 0).now
    if removable then
      (⟨createAsyncRPCStatusReply .invalidAsynchronousOperationError .kPoll,
        seen.map (.on id)⟩,server)
    else
      let server := server.observe (moments 1)
      let (isReady,invoke,access) := invoke.isReady server.calls (moments 1).now
      (⟨createAsyncRPCPollReply isReady encoding,seen.map (.on id) ++ access.map (.on id)⟩,
       server.store id invoke)

def getReply (server : AsyncInvokeServer V) (id : UInt64) (encoding : PayloadEncoding)
    (moments : Nat → Moment V) : Answer V × AsyncInvokeServer V :=
  match server.invokes[id]? with
  | none => (⟨createAsyncRPCStatusReply .invalidRequestIdentifierError .kGetReply,[]⟩,server)
  | some invoke =>
    let server := server.observe (moments 0)
    let (reply,invoke,access) := invoke.getReply server.calls
    let (server,removal) := (server.store id invoke).removeIfReady id invoke (moments 1)
    (⟨createAsyncRPCReply reply.1 reply.2 encoding .kGetReply,
      access.map (.on id) ++ removal⟩,server)

def invalidate (server : AsyncInvokeServer V) (id : UInt64) (moments : Nat → Moment V) :
    Answer V × AsyncInvokeServer V :=
  match server.invokes[id]? with
  | none => (⟨createAsyncRPCStatusReply .invalidRequestIdentifierError .kInvalidate,[]⟩,server)
  | some invoke =>
    let invoke := invoke.invalidate
    let (server,removal) := (server.store id invoke).removeIfReady id invoke (moments 0)
    (⟨createAsyncRPCStatusReply .success .kInvalidate,.on id .invalidated :: removal⟩,server)

def handleInvoke (server : AsyncInvokeServer V) (payload : V) (encoding : PayloadEncoding)
    (command : AsyncCommand) (moments : Nat → Moment V) : Answer V × AsyncInvokeServer V :=
  if command = .kInitialRequest then server.newRequest payload encoding moments
  else
    match extractAsyncRequestId payload with
    | none => (⟨createAsyncRPCStatusReply .serverTransportDecodingError command,[]⟩,server)
    | some id =>
      if command = .kPoll then server.poll id encoding moments
      else if command = .kGetReply then server.getReply id encoding moments
      else if command = .kInvalidate then server.invalidate id moments
      else (⟨createAsyncRPCStatusReply .invalidAsynchronousOperationError command,[]⟩,server)

end AsyncInvokeServer

-- Every member function runs under the mutex of the server, so the commands of
-- all clients, the clean-ups and the ends of calls come one after the other.
inductive Event (V : Type) where
  | handleInvoke (payload : V) (encoding : PayloadEncoding) (command : AsyncCommand)
      (moments : Nat → Moment V)
  | cleanUpExpiredRequests (moments : Nat → Moment V)
  | complete (call : Nat) (outcome : Outcome V)

namespace AsyncInvokeServer
variable {V : Type} [AnyValue V] [Codec V]

def step (server : AsyncInvokeServer V) : Event V → Output V × AsyncInvokeServer V
  | .handleInvoke payload encoding command moments =>
    let (answer,server) := server.handleInvoke payload encoding command moments
    (answer.output,server)
  | .cleanUpExpiredRequests moments =>
    let (server,effects) := server.cleanUpExpiredRequests moments
    (⟨none,effects⟩,server)
  | .complete call outcome =>
    (⟨none,[]⟩,{server with calls := Tasks.finish server.calls call outcome})

end AsyncInvokeServer

end SupProtocol
