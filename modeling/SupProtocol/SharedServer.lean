import Mathlib.Logic.Function.Basic
import SupProtocol.CallProgress
import SupProtocol.ServerRetention
import SupProtocol.SyncTransport

namespace SupProtocol
open AsyncInvokeServer Machine

-- What the network makes of a packet. One that is lost on either way ends, for
-- its sender, in an exception of the functor.
inductive Carriage where
  | delivered | requestLost | replyLost
  deriving DecidableEq, Repr

-- Any number of calls of Invoke on one server. Beside them the state notes all
-- that reached the asynchronous server, and for each call launched on the
-- application the caller whose request launched it.
structure Shared (V : Type) where
  server : AsyncInvokeServer V
  progress : Nat → Progress V
  launchedBy : List Nat
  events : List (Event V)

-- A packet meets the server after the clean-up of operator(), which is an event
-- of its own here: other packets may come between the two.
inductive Happening (V : Type) where
  | packet (caller : Nat) (moments : Nat → Moment V) (carriage : Carriage)
  | cleanUp (moments : Nat → Moment V)
  | complete (call : Nat) (outcome : Outcome V)

namespace Shared
variable {V : Type} [AnyValue V] [Codec V]

def start (expirationTimeNs : UInt64) (calls : Nat → ClientCall V) : Shared V :=
  ⟨AsyncInvokeServer.start expirationTimeNs,fun caller => (calls caller).begin,[],[]⟩

def put (s : Shared V) (caller : Nat) (progress : Progress V) : Shared V :=
  {s with progress := Function.update s.progress caller progress}

def reach (s : Shared V) (event : Event V) : Shared V :=
  {s with server := (s.server.step event).2, events := s.events ++ [event]}

def heard (carriage : Carriage) (reply : Except Exception V) : Option V :=
  match carriage,reply with
  | .delivered,.ok reply => some reply
  | _,_ => none

def exchange (protocol : Protocol V) (calls : Nat → ClientCall V) (s : Shared V) (caller : Nat)
    (packet : V) (moments : Nat → Moment V) (carriage : Carriage) : Shared V :=
  let (answer,server) := ProtocolRPCServer.handlePacket protocol packet moments s.server
  let arrived := packetCommands packet moments
  {server := server
   progress := Function.update s.progress caller
    ((calls caller).receive (s.progress caller) (heard carriage answer.reply))
   launchedBy := s.launchedBy ++ (arrived.flatMap Event.launches).map fun _ => caller
   events := s.events ++ arrived}

def step (protocol : Protocol V) (calls : Nat → ClientCall V) (s : Shared V) :
    Happening V → Unit × Shared V
  | .packet caller moments carriage =>
    match (calls caller).request (s.progress caller) with
    | none => ((),s)
    | some (.error error) => ((),s.put caller (.returned ⟨.error error,(calls caller).output⟩))
    | some (.ok packet) =>
      if carriage = .requestLost then
        ((),s.put caller ((calls caller).receive (s.progress caller) none))
      else ((),s.exchange protocol calls caller packet moments carriage)
  | .cleanUp moments => ((),s.reach (.cleanUpExpiredRequests moments))
  | .complete call outcome => ((),s.reach (.complete call outcome))

def after (protocol : Protocol V) (calls : Nat → ClientCall V) (expirationTimeNs : UInt64)
    (happenings : List (Happening V)) : Shared V :=
  run (step protocol calls) (start expirationTimeNs calls) happenings

end Shared

section Answers
variable {V : Type} [AnyValue V] [Codec V] [LawfulAnyValue V] [LawfulCodec V]
  {encoding : PayloadEncoding} (supported : isSupportedPayloadEncoding encoding = true)
  (server : AsyncInvokeServer V) (id : UInt64) (moments : Nat → Moment V)

omit [LawfulCodec V] in
theorem polled_status {reply : V} {result : ProtocolResult} {command : AsyncCommand}
    (known : Represents reply ⟨some result,none,.kNone,some command⟩) :
    AsyncInvocation.polled reply = (.clientTransportDecodingError,false) := by
  have plain : tryGetPacketEncoding reply = some .kNone := known.encoding rfl
  have unread : tryExtractReadyStatus reply .kNone = none :=
    known.noScalar .reply asyncReadyFieldName .boolean .kNone
  simp only [AsyncInvocation.polled,plain,unread]

include supported

theorem polled_flag (ready : Bool) : ∃ reply : V, createAsyncRPCPollReply ready encoding = .ok reply ∧
    AsyncInvocation.polled reply = (.success,ready) := by
  obtain ⟨payload,reply,inner,built,known⟩ := createAsyncRPCPollReply_represents (V := V) ready supported
  refine ⟨reply,built,polled_reads ⟨encoding,known.encoding supported,?_⟩⟩
  exact known.extractScalar asyncReadyFieldName (by decide) .boolean _ inner supported

theorem poll_answer : ∃ reply, (server.poll id encoding moments).1.reply = .ok reply ∧
    (AsyncInvocation.polled reply = (.clientTransportDecodingError,false) ∨
      AsyncInvocation.polled reply = (.success,false) ∨
      AsyncInvocation.polled reply = (.success,true) ∧ ∃ (invoke : AsyncInvoke) (call : Nat),
        server.invokes[id]? = some invoke ∧ invoke.future = some call ∧ invoke.invalidated = false ∧
        Tasks.isReady (server.poll id encoding moments).2.calls call = true) := by
  cases found : server.invokes[id]? with
  | none =>
    obtain ⟨reply,built,known⟩ := createAsyncRPCStatusReply_represents (V := V)
      .invalidRequestIdentifierError .kPoll
    rw [poll_absent encoding moments found]
    exact ⟨reply,built,Or.inl (polled_status known)⟩
  | some invoke =>
    cases removable : (invoke.isReadyForRemoval (server.observe (moments 0)).calls
        (moments 0).now).1 with
    | true =>
      obtain ⟨reply,built,known⟩ := createAsyncRPCStatusReply_represents (V := V)
        .invalidAsynchronousOperationError .kPoll
      rw [poll_removable encoding moments found removable]
      exact ⟨reply,built,Or.inl (polled_status known)⟩
    | false =>
      rw [poll_answers encoding moments found removable]
      dsimp only
      rcases AsyncInvoke.isReady_cases invoke ((server.observe (moments 0)).observe (moments 1)).calls
        (moments 1).now with refused | ⟨call,held,wanted,looked⟩
      · rw [refused]
        obtain ⟨reply,built,read⟩ := polled_flag (V := V) supported false
        exact ⟨reply,built,Or.inr (Or.inl read)⟩
      · rw [looked]
        obtain ⟨reply,built,read⟩ := polled_flag (V := V) supported
          (Tasks.isReady ((server.observe (moments 0)).observe (moments 1)).calls call)
        refine ⟨reply,built,Or.inr ?_⟩
        cases ready : Tasks.isReady ((server.observe (moments 0)).observe (moments 1)).calls call with
        | false => exact Or.inl (by rw [read,ready])
        | true => exact Or.inr ⟨by rw [read,ready],invoke,call,rfl,held,wanted,ready⟩

variable [LawfulAssign V]

theorem fetch_answer (output : V) : ∃ reply, (server.getReply id encoding moments).1.reply = .ok reply ∧
    ((∃ result, (result = .invalidRequestIdentifierError ∨
        result = .invalidAsynchronousOperationError) ∧
        AsyncInvocation.replied reply output = (result,output)) ∨
      ∃ (invoke : AsyncInvoke) (call : Nat) (outcome : Outcome V),
        server.invokes[id]? = some invoke ∧ invoke.future = some call ∧ invoke.invalidated = false ∧
        Tasks.outcomeOf (server.getReply id encoding moments).2.calls call = some outcome ∧
        AsyncInvocation.replied reply output = callResult outcome output ∧
        (server.getReply id encoding moments).2.invokes[id]? = none) := by
  have status : ∀ result, result ≠ .success → ∃ reply : V,
      createAsyncRPCStatusReply result .kGetReply = .ok reply ∧
      AsyncInvocation.replied reply output = (result,output) := by
    intro result failed
    obtain ⟨reply,built,known⟩ := createAsyncRPCStatusReply_represents (V := V) result .kGetReply
    exact ⟨reply,built,by simp [AsyncInvocation.replied,known.result,failed]⟩
  rcases getReply_cases moments server id with
    absent | ⟨invoke,found,refused | ⟨call,outcome,held,ended,wanted⟩⟩
  · obtain ⟨reply,built,read⟩ := status .invalidRequestIdentifierError (by decide)
    rw [getReply_absent encoding moments absent]
    exact ⟨reply,built,Or.inl ⟨_,Or.inl rfl,read⟩⟩
  · obtain ⟨reply,built,read⟩ := status .invalidAsynchronousOperationError (by decide)
    rw [getReply_refused encoding moments found refused]
    exact ⟨reply,built,Or.inl ⟨_,Or.inr rfl,read⟩⟩
  · obtain ⟨reply,built,known⟩ := createAsyncRPCReply_represents (AsyncInvoke.settled outcome).1
      (AsyncInvoke.settled outcome).2 .kGetReply supported
    rw [getReply_delivered encoding moments found held ended wanted]
    refine ⟨reply,built,Or.inr ⟨invoke,call,outcome,found,held,wanted,?_,?_,?_⟩⟩
    · exact (Tasks.finishAll_extends _ (moments 1).completions).outcomes call outcome ended
    · rw [replied_read known supported,callResult_settled]
    · rw [erase_lookup,if_pos rfl]

omit [LawfulAssign V] in
theorem start_answer (payload : V) (nonzero : server.lastId + 1 ≠ 0) : ∃ reply,
    (server.newRequest payload encoding moments).1.reply = .ok reply ∧
    ∀ invocation : AsyncInvocation V,
      invocation.started reply = (.success,{invocation with id := server.lastId + 1}) := by
  obtain ⟨inner,reply,members,built,known⟩ :=
    createAsyncRPCNewRequestReply_represents (V := V) (server.lastId + 1) supported
  have read : IdRead reply (server.lastId + 1) := ⟨encoding,known.encoding supported,
    known.extractScalar asyncIdFieldName (by decide) .unsignedInteger64 _ members supported,nonzero⟩
  exact ⟨reply,built,started_reads (by simp [known.command]) read⟩

end Answers

namespace Shared
variable {V : Type} [AnyValue V] [Codec V] [LawfulAnyValue V] [LawfulCodec V] {encoding : PayloadEncoding}
  (supported : isSupportedPayloadEncoding encoding = true) (protocol : Protocol V)
  (calls : Nat → ClientCall V) (s : Shared V) (caller : Nat) {packet payload : V}
  (moments : Nat → Moment V) (carriage : Carriage)
include supported

theorem exchange_direct (known : Represents packet ⟨none,some (.query,payload),encoding,none⟩) :
    s.exchange protocol calls caller packet moments carriage =
      s.put caller ((calls caller).receive (s.progress caller)
        (heard carriage (invokeAnswer protocol payload encoding).reply)) := by
  have handled := invoke_handled protocol moments s.server known supported
  have nothing : packetCommands packet moments = [] := by
    simp [packetCommands,known.encoding supported,known.command]
  simp [exchange,handled,nothing,put]

theorem exchange_command {command : AsyncCommand}
    (known : Represents packet ⟨none,some (.query,payload),encoding,some command⟩) :
    s.exchange protocol calls caller packet moments carriage =
      {(s.reach (.handleInvoke payload encoding command moments)).put caller
        ((calls caller).receive (s.progress caller)
          (heard carriage (s.server.handleInvoke payload encoding command moments).1.reply)) with
        launchedBy := s.launchedBy ++ if command = .kInitialRequest then [caller] else []} := by
  have handled := command_handled protocol moments s.server known supported
  have arrived := command_arrives moments known supported
  by_cases initial : command = .kInitialRequest <;>
    simp [exchange,handled,arrived,put,reach,commandAnswer,Event.launches,initial]

end Shared

end SupProtocol
