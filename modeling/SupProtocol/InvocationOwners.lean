import SupProtocol.ClientTotality
import SupProtocol.ServerClosure
import SupProtocol.SharedServer

namespace SupProtocol
open AsyncInvokeServer Machine

structure Wire (V : Type) where
  server : AsyncInvokeServer V
  events : List (Event V)

namespace Wire
variable {V : Type} [AnyValue V] [Codec V]

def reach (w : Wire V) (event : Event V) : Wire V := ⟨(w.server.step event).2,w.events ++ [event]⟩

-- The functor for one packet; an exception is what a loss is to its sender.
def functor (protocol : Protocol V) (moments : Nat → Moment V) (carriage : Carriage) :
    AnyFunctor (Wire V) V := fun packet w =>
  if carriage = .requestLost then (.error (.foreign "connection lost"),w)
  else
    let (answer,server) := ProtocolRPCServer.handlePacket protocol packet moments w.server
    let w : Wire V := ⟨server,w.events ++ packetCommands packet moments⟩
    if carriage = .replyLost then (.error (.foreign "connection lost"),w) else (answer.reply,w)

def carried (w : Wire V) (carriage : Carriage) (event : Event V) : Wire V :=
  if carriage = .requestLost then w else w.reach event

variable [LawfulAnyValue V] [LawfulCodec V] (protocol : Protocol V) (moments : Nat → Moment V)
  (carriage : Carriage) (w : Wire V) {packet payload : V} {encoding : PayloadEncoding}
  {command : AsyncCommand}

theorem send_command (known : Represents packet ⟨none,some (.query,payload),encoding,some command⟩)
    (supported : isSupportedPayloadEncoding encoding = true) :
    send (functor protocol moments carriage) (.ok packet) w =
      (.ok (Shared.heard carriage (w.server.handleInvoke payload encoding command moments).1.reply),
       w.carried carriage (.handleInvoke payload encoding command moments)) := by
  have handled := command_handled protocol moments w.server known supported
  have arrived := command_arrives moments known supported
  have moved : (⟨(w.server.handleInvoke payload encoding command moments).2,
      w.events ++ [.handleInvoke payload encoding command moments]⟩ : Wire V) =
      w.reach (.handleInvoke payload encoding command moments) := rfl
  cases carriage with
  | requestLost => simp [send,functor,carried,Shared.heard]
  | replyLost => simp [send,functor,carried,Shared.heard,handled,arrived,commandAnswer,moved]
  | delivered =>
    cases reply : (w.server.handleInvoke payload encoding command moments).1.reply <;>
      simp [send,functor,carried,Shared.heard,handled,arrived,commandAnswer,moved,reply]

theorem send_named (id : UInt64) (command : AsyncCommand)
    (supported : isSupportedPayloadEncoding encoding = true) : ∃ payload,
      extractAsyncRequestId payload = some id ∧
      send (functor protocol moments carriage) (createAsyncIdRequest id encoding command) w =
        (.ok (Shared.heard carriage (w.server.handleInvoke payload encoding command moments).1.reply),
         w.carried carriage (.handleInvoke payload encoding command moments)) := by
  obtain ⟨payload,packet,inner,built,known⟩ :=
    createAsyncIdRequest_represents (V := V) id command supported
  refine ⟨payload,named_id inner,?_⟩
  rw [built]
  exact send_command protocol moments carriage w known supported

def Reaches (w v : Wire V) : Prop :=
  ∃ more, v.server = run AsyncInvokeServer.step w.server more ∧ v.events = w.events ++ more

omit [LawfulAnyValue V] [LawfulCodec V] in
theorem Reaches.refl (w : Wire V) : Reaches w w := ⟨[],rfl,by simp⟩

omit [LawfulAnyValue V] [LawfulCodec V] in
theorem reach_reaches (event : Event V) : Reaches w (w.reach event) := ⟨[event],rfl,rfl⟩

omit [LawfulAnyValue V] [LawfulCodec V] in
theorem Reaches.path {v : Wire V} (reaches : Reaches w v) :
    ∃ labels, Path Transition w.server labels v.server := by
  obtain ⟨more,moved,_⟩ := reaches
  rw [moved]
  exact ⟨_,run_path w.server more⟩

omit [LawfulAnyValue V] [LawfulCodec V] in
theorem send_reaches (request : Except Exception V) :
    Reaches w (send (functor protocol moments carriage) request w).2 := by
  cases request with
  | error error => exact .refl w
  | ok packet =>
    have taken : Reaches w (functor protocol moments carriage packet w).2 := by
      have moved := handlePacket_run protocol packet moments w.server
      cases carriage with
      | requestLost => exact .refl w
      | replyLost => exact ⟨packetCommands packet moments,moved,rfl⟩
      | delivered => exact ⟨packetCommands packet moments,moved,rfl⟩
    unfold send
    rcases called : functor protocol moments carriage packet w with ⟨reply,v⟩
    rw [called] at taken
    cases reply <;> simpa only [called] using taken

omit [LawfulAnyValue V] [LawfulCodec V] in
theorem owned_sends (functor : AnyFunctor (Wire V) V) (invocation : AsyncInvocation V)
    (call : OwnerCall V) : (owned functor (invocation,w) call).2.2 = w ∨
      ∃ request, (owned functor (invocation,w) call).2.2 = (send functor request w).2 := by
  cases call with
  | start input nonempty =>
    refine Or.inr ⟨createAsyncRPCRequest input invocation.encoding,?_⟩
    simp only [owned,AsyncInvocation.start]
    rcases send functor (createAsyncRPCRequest input invocation.encoding) w with
      ⟨error | _ | reply,v⟩ <;> rfl
  | pollOnce =>
    simp only [owned,AsyncInvocation.pollOnce]
    split
    · exact Or.inl rfl
    · refine Or.inr ⟨createAsyncRPCPoll invocation.id invocation.encoding,?_⟩
      rcases send functor (createAsyncRPCPoll invocation.id invocation.encoding) w with
        ⟨error | _ | reply,v⟩ <;> rfl
  | getReply output =>
    simp only [owned,AsyncInvocation.getReply]
    split
    · exact Or.inl rfl
    · refine Or.inr ⟨createAsyncRPCGetReply invocation.id invocation.encoding,?_⟩
      rcases send functor (createAsyncRPCGetReply invocation.id invocation.encoding) w with
        ⟨error | _ | reply,v⟩ <;> rfl
  | invalidate =>
    simp only [owned,AsyncInvocation.invalidate]
    split
    · exact Or.inl rfl
    · refine Or.inr ⟨createAsyncRPCInvalidate invocation.id invocation.encoding,?_⟩
      rcases send functor (createAsyncRPCInvalidate invocation.id invocation.encoding) w with
        ⟨error | reply,v⟩ <;> rfl

omit [LawfulAnyValue V] [LawfulCodec V] in
theorem owned_reaches (invocation : AsyncInvocation V) (call : OwnerCall V) :
    Reaches w (owned (functor protocol moments carriage) (invocation,w) call).2.2 := by
  rcases owned_sends w (functor protocol moments carriage) invocation call with same | ⟨request,sent⟩
  · rw [same]
    exact .refl w
  · rw [sent]
    exact send_reaches protocol moments carriage w request

end Wire

-- Any number of AsyncInvocation objects on one server, and for each call launched
-- on the application the owner whose Start launched it.
structure Owners (V : Type) where
  wire : Wire V
  invocations : Nat → AsyncInvocation V
  startedBy : List Nat

inductive Turn (V : Type) [AnyValue V] where
  | operate (owner : Nat) (call : OwnerCall V) (moments : Nat → Moment V) (carriage : Carriage)
  | cleanUp (moments : Nat → Moment V)
  | complete (call : Nat) (outcome : Outcome V)

namespace Owners
variable {V : Type} [AnyValue V] [Codec V]

def make (expirationTimeNs : UInt64) (encodings : Nat → PayloadEncoding) : Owners V :=
  ⟨⟨AsyncInvokeServer.start expirationTimeNs,[]⟩,fun owner => .make (encodings owner),[]⟩

-- The owner's object after its call; what the call launched is the owner's.
def put (s : Owners V) (owner : Nat) (invocation : AsyncInvocation V) (wire : Wire V) : Owners V where
  wire := wire
  invocations := Function.update s.invocations owner invocation
  startedBy := s.startedBy ++
    List.replicate (wire.server.calls.length - s.wire.server.calls.length) owner

def step (protocol : Protocol V) (s : Owners V) : Turn V → Option (Ended V) × Owners V
  | .operate owner call moments carriage =>
    let (ended,invocation,wire) :=
      owned (Wire.functor protocol moments carriage) (s.invocations owner,s.wire) call
    (some ended,s.put owner invocation wire)
  | .cleanUp moments => (none,{s with wire := s.wire.reach (.cleanUpExpiredRequests moments)})
  | .complete call outcome => (none,{s with wire := s.wire.reach (.complete call outcome)})

-- The request that an owner's object stands for launched the call of this number.
def Owns (s : Owners V) (owner number : Nat) : Prop :=
  (s.invocations owner).id.toNat = number + 1 ∧ s.startedBy[number]? = some owner

def refusals : List ProtocolResult :=
  [.clientTransportException,.invalidRequestIdentifierError,.invalidAsynchronousOperationError]

-- One call more, which is this owner's and has this input, or none.
structure Launched (s t : Owners V) (owner : Nat) (input : V) : Prop where
  inputs : Tasks.inputs t.wire.server.calls = Tasks.inputs s.wire.server.calls ++ [input]
  startedBy : t.startedBy = s.startedBy ++ [owner]

structure LaunchedNothing (s t : Owners V) : Prop where
  inputs : Tasks.inputs t.wire.server.calls = Tasks.inputs s.wire.server.calls
  startedBy : t.startedBy = s.startedBy

inductive Permitted (s t : Owners V) (owner : Nat) : OwnerCall V → Ended V → Prop where
  | started (input : V) (nonempty : isEmptyValue input = false)
      (owns : t.Owns owner s.wire.server.calls.length) (launched : Launched s t owner input) :
      Permitted s t owner (.start input nonempty) (.started (.ok .success))
  | unstarted (input : V) (nonempty : isEmptyValue input = false)
      (kept : t.invocations owner = s.invocations owner)
      (lost : LaunchedNothing s t ∨ Launched s t owner input) :
      Permitted s t owner (.start input nonempty) (.started (.ok .clientTransportException))
  | waiting (result : ProtocolResult)
      (listed : result ∈ [.success,.clientTransportException,.clientTransportDecodingError]) :
      Permitted s t owner .pollOnce (.polled (.ok (result,false)))
  | ready (number : Nat) (owns : s.Owns owner number)
      (ended : Tasks.isReady t.wire.server.calls number = true) :
      Permitted s t owner .pollOnce (.polled (.ok (.success,true)))
  | refused (result : ProtocolResult) (listed : result ∈ refusals) (output : V) :
      Permitted s t owner (.getReply output) (.replied ⟨.ok result,output⟩)
  | obtained (number : Nat) (outcome : Outcome V) (output : V) (owns : s.Owns owner number)
      (ended : Tasks.outcomeOf t.wire.server.calls number = some outcome) :
      Permitted s t owner (.getReply output)
        (.replied ⟨.ok (callResult outcome output).1,(callResult outcome output).2⟩)
  | invalidated : Permitted s t owner .invalidate (.invalidated (.ok ()))

structure Sound (expirationTimeNs : UInt64) (s : Owners V) : Prop where
  tracks : s.wire.server = reached expirationTimeNs s.wire.events
  counted : s.startedBy.length = s.wire.server.calls.length
  asynchronous : ∀ owner, (s.invocations owner).synchronous = false
  supported : ∀ owner, isSupportedPayloadEncoding (s.invocations owner).encoding = true
  owns : ∀ owner, (s.invocations owner).id ≠ 0 → ∃ number, s.Owns owner number

def Within (s : Owners V) : Prop := s.wire.events.countP Event.isInitialRequest < UInt64.size

instance (s : Owners V) : Decidable s.Within := inferInstanceAs (Decidable (_ < _))

section Calls
variable [LawfulAnyValue V] [LawfulCodec V] (protocol : Protocol V) (moments : Nat → Moment V)
  (carriage : Carriage) {invocation : AsyncInvocation V} (w : Wire V)
  (supported : isSupportedPayloadEncoding invocation.encoding = true)

include supported

theorem owned_start {input : V} (nonempty : isEmptyValue input = false) :
    owned (Wire.functor protocol moments carriage) (invocation,w) (.start input nonempty) =
      match Shared.heard carriage
        (w.server.newRequest input invocation.encoding moments).1.reply with
      | none => (.started (.ok .clientTransportException),invocation,
          w.carried carriage (.handleInvoke input invocation.encoding .kInitialRequest moments))
      | some reply => (.started (.ok (invocation.started reply).1),(invocation.started reply).2,
          w.carried carriage (.handleInvoke input invocation.encoding .kInitialRequest moments)) := by
  obtain ⟨packet,built,known⟩ := createAsyncRPCRequest_represents nonempty supported
  have sent := Wire.send_command protocol moments carriage w known supported
  rw [handleInvoke_newRequest] at sent
  simp only [owned,AsyncInvocation.start,built,sent]
  cases Shared.heard carriage (w.server.newRequest input invocation.encoding moments).1.reply <;> rfl

variable (asynchronous : invocation.synchronous = false)
include asynchronous

theorem owned_poll : ∃ payload, extractAsyncRequestId payload = some invocation.id ∧
    owned (Wire.functor protocol moments carriage) (invocation,w) .pollOnce =
      (.polled (.ok ((Shared.heard carriage (w.server.poll invocation.id invocation.encoding
          moments).1.reply).elim (.clientTransportException,false) AsyncInvocation.polled)),invocation,
        w.carried carriage (.handleInvoke payload invocation.encoding .kPoll moments)) := by
  obtain ⟨payload,named,sent⟩ := Wire.send_named protocol moments carriage w invocation.id .kPoll supported
  rw [handleInvoke_poll named] at sent
  refine ⟨payload,named,?_⟩
  simp only [owned,AsyncInvocation.pollOnce,asynchronous,createAsyncRPCPoll,sent]
  cases Shared.heard carriage (w.server.poll invocation.id invocation.encoding moments).1.reply <;> rfl

theorem owned_getReply (output : V) : ∃ payload, extractAsyncRequestId payload = some invocation.id ∧
    owned (Wire.functor protocol moments carriage) (invocation,w) (.getReply output) =
      (let answer := (Shared.heard carriage (w.server.getReply invocation.id invocation.encoding
          moments).1.reply).elim (.clientTransportException,output) (AsyncInvocation.replied · output)
       (.replied ⟨.ok answer.1,answer.2⟩,invocation,
        w.carried carriage (.handleInvoke payload invocation.encoding .kGetReply moments))) := by
  obtain ⟨payload,named,sent⟩ :=
    Wire.send_named protocol moments carriage w invocation.id .kGetReply supported
  rw [handleInvoke_getReply named] at sent
  refine ⟨payload,named,?_⟩
  simp only [owned,AsyncInvocation.getReply,asynchronous,createAsyncRPCGetReply,sent]
  cases Shared.heard carriage (w.server.getReply invocation.id invocation.encoding moments).1.reply <;> rfl

theorem owned_invalidate : ∃ payload, extractAsyncRequestId payload = some invocation.id ∧
    owned (Wire.functor protocol moments carriage) (invocation,w) .invalidate =
      (.invalidated (.ok ()),invocation,if invocation.id = 0 then w else
        w.carried carriage (.handleInvoke payload invocation.encoding .kInvalidate moments)) := by
  obtain ⟨payload,named,sent⟩ :=
    Wire.send_named protocol moments carriage w invocation.id .kInvalidate supported
  refine ⟨payload,named,?_⟩
  by_cases unstarted : invocation.id = 0
  · simp [owned,AsyncInvocation.invalidate,unstarted]
  · simp [owned,AsyncInvocation.invalidate,asynchronous,createAsyncRPCInvalidate,sent,unstarted]

end Calls

section Moves
variable {expirationTimeNs : UInt64} {s : Owners V} {owner : Nat} {event : Event V} {w : Wire V}

omit [AnyValue V] [Codec V] in
theorem put_kept (same : w.server.calls.length = s.wire.server.calls.length) :
    s.put owner (s.invocations owner) w = {s with wire := w} := by
  simp [put,same]

theorem reach_tracks (tracks : w.server = reached expirationTimeNs w.events) :
    (w.reach event).server = reached expirationTimeNs (w.reach event).events := by
  change (w.server.step event).2 = reached expirationTimeNs (w.events ++ [event])
  rw [reached_snoc,← tracks]

theorem reach_length (w : Wire V) (event : Event V) :
    (w.reach event).server.calls.length = w.server.calls.length + event.launches.length := by
  have grown := congrArg List.length (step_inputs w.server event)
  rwa [Tasks.length_inputs,List.length_append,Tasks.length_inputs] at grown

theorem carried_inputs (quiet : event.launches = []) (carriage : Carriage) :
    Tasks.inputs (w.carried carriage event).server.calls = Tasks.inputs w.server.calls := by
  unfold Wire.carried
  split
  · rfl
  · refine (step_inputs w.server event).trans ?_
    rw [quiet,List.append_nil]

theorem carried_length (quiet : event.launches = []) (carriage : Carriage) :
    (w.carried carriage event).server.calls.length = w.server.calls.length := by
  rw [← Tasks.length_inputs,carried_inputs quiet,Tasks.length_inputs]

theorem reach_sound (sound : s.Sound expirationTimeNs) (quiet : event.launches = []) :
    Sound expirationTimeNs {s with wire := s.wire.reach event} where
  tracks := reach_tracks sound.tracks
  counted := by
    rw [reach_length,quiet]
    exact sound.counted
  asynchronous := sound.asynchronous
  supported := sound.supported
  owns := sound.owns

theorem carried_sound (sound : s.Sound expirationTimeNs) (quiet : event.launches = [])
    (carriage : Carriage) : Sound expirationTimeNs {s with wire := s.wire.carried carriage event} := by
  unfold Wire.carried
  split
  · exact sound
  · exact reach_sound sound quiet

theorem Sound.numbered (sound : s.Sound expirationTimeNs) (within : s.Within) :
    Numbered s.wire.server := by
  rw [sound.tracks]
  exact reached_numbered expirationTimeNs s.wire.events within

theorem Sound.found (sound : s.Sound expirationTimeNs) (numbered : Numbered s.wire.server)
    {invoke : AsyncInvoke} (found : s.wire.server.invokes[(s.invocations owner).id]? = some invoke)
    {call : Nat} (held : invoke.future = some call) : s.Owns owner call := by
  obtain ⟨again,same,named,_⟩ := numbered.entries _ invoke found
  cases held.symm.trans same
  have started : (s.invocations owner).id ≠ 0 := by
    intro unstarted
    rw [unstarted] at named
    cases named
  obtain ⟨number,owns⟩ := sound.owns owner started
  have own := owns.1
  have equal : number = call := by omega
  subst equal
  exact owns

theorem Sound.apart (sound : s.Sound expirationTimeNs) {other : Nat}
    (started : (s.invocations owner).id ≠ 0) (same : (s.invocations other).id = (s.invocations owner).id) :
    other = owner := by
  obtain ⟨number,named,own⟩ := sound.owns owner started
  obtain ⟨again,also,other⟩ := sound.owns other (by rw [same]; exact started)
  have equal : again = number := by
    rw [same] at also
    omega
  subst again
  exact Option.some.inj (other.symm.trans own)

end Moves

section Turns
variable [LawfulAnyValue V] [LawfulCodec V] {expirationTimeNs : UInt64} {s : Owners V}
  (protocol : Protocol V) (owner : Nat) (moments : Nat → Moment V) (carriage : Carriage)

-- What is known of a turn: the objects still fit the server, and the owner is
-- given something that it may be given.
structure Fair (expirationTimeNs : UInt64) (s : Owners V) (owner : Nat) (call : OwnerCall V)
    (taken : Option (Ended V) × Owners V) : Prop where
  sound : taken.2.Sound expirationTimeNs
  permitted : ∃ ended, taken.1 = some ended ∧ Permitted s taken.2 owner call ended

omit [LawfulAnyValue V] [LawfulCodec V] in
theorem quiet_step {moments : Nat → Moment V} {carriage : Carriage} {call : OwnerCall V} {ended : Ended V}
    {event : Event V} (quiet : event.launches = [])
    (called : owned (Wire.functor protocol moments carriage) (s.invocations owner,s.wire) call =
      (ended,s.invocations owner,s.wire.carried carriage event)) :
    s.step protocol (.operate owner call moments carriage) =
      (some ended,{s with wire := s.wire.carried carriage event}) := by
  simp only [step,called]
  rw [put_kept (carried_length quiet carriage)]

theorem poll_step (sound : s.Sound expirationTimeNs) : ∃ (payload : V) (answer : ProtocolResult × Bool),
    extractAsyncRequestId payload = some (s.invocations owner).id ∧
    s.step protocol (.operate owner .pollOnce moments carriage) =
      (some (.polled (.ok answer)),{s with
        wire := s.wire.carried carriage
          (.handleInvoke payload (s.invocations owner).encoding .kPoll moments)}) ∧
    (answer.2 = false ∧ answer.1 ∈ [.success,.clientTransportException,.clientTransportDecodingError] ∨
      answer = (.success,true) ∧ ∃ (invoke : AsyncInvoke) (call : Nat),
        s.wire.server.invokes[(s.invocations owner).id]? = some invoke ∧ invoke.future = some call ∧
        invoke.invalidated = false ∧ Tasks.isReady
          (s.step protocol (.operate owner .pollOnce moments carriage)).2.wire.server.calls call = true) := by
  have supported := sound.supported owner
  obtain ⟨payload,named,called⟩ := owned_poll protocol moments carriage s.wire supported
    (sound.asynchronous owner)
  obtain ⟨reply,answered,outcome⟩ := poll_answer supported s.wire.server (s.invocations owner).id moments
  rw [answered] at called
  have stepped := quiet_step protocol owner rfl called
  refine ⟨payload,_,named,stepped,?_⟩
  rw [stepped]
  cases carriage with
  | requestLost => exact Or.inl ⟨rfl,by simp [Shared.heard]⟩
  | replyLost => exact Or.inl ⟨rfl,by simp [Shared.heard]⟩
  | delivered =>
    simp only [Shared.heard,Option.elim_some]
    rcases outcome with refused | waits | ⟨ready,invoke,call,found,held,wanted,ended⟩
    · rw [refused]
      exact Or.inl ⟨rfl,by simp⟩
    · rw [waits]
      exact Or.inl ⟨rfl,by simp⟩
    · refine Or.inr ⟨ready,invoke,call,found,held,wanted,?_⟩
      change Tasks.isReady (s.wire.server.handleInvoke payload _ .kPoll moments).2.calls call = true
      rw [handleInvoke_poll named]
      exact ended

-- A get-reply is refused, or it hands out the outcome under the id that it names
-- and leaves no entry there.
theorem getReply_step [LawfulAssign V] (sound : s.Sound expirationTimeNs) (output : V) :
    ∃ (payload : V) (answer : ProtocolResult × V),
    extractAsyncRequestId payload = some (s.invocations owner).id ∧
    s.step protocol (.operate owner (.getReply output) moments carriage) =
      (some (.replied ⟨.ok answer.1,answer.2⟩),{s with
        wire := s.wire.carried carriage
          (.handleInvoke payload (s.invocations owner).encoding .kGetReply moments)}) ∧
    (answer.1 ∈ refusals ∧ answer.2 = output ∨
      ∃ (invoke : AsyncInvoke) (call : Nat) (outcome : Outcome V),
        s.wire.server.invokes[(s.invocations owner).id]? = some invoke ∧ invoke.future = some call ∧
        invoke.invalidated = false ∧ answer = callResult outcome output ∧ Tasks.outcomeOf
          (s.step protocol (.operate owner (.getReply output) moments carriage)).2.wire.server.calls call =
            some outcome ∧
        (s.step protocol (.operate owner (.getReply output) moments carriage)).2.wire.server.invokes[
          (s.invocations owner).id]? = none) := by
  have supported := sound.supported owner
  obtain ⟨payload,named,called⟩ := owned_getReply protocol moments carriage s.wire supported
    (sound.asynchronous owner) output
  obtain ⟨reply,answered,outcome⟩ := fetch_answer supported s.wire.server (s.invocations owner).id moments
    output
  rw [answered] at called
  have stepped := quiet_step protocol owner rfl called
  refine ⟨payload,_,named,stepped,?_⟩
  rw [stepped]
  cases carriage with
  | requestLost => exact Or.inl ⟨by simp [Shared.heard,refusals],rfl⟩
  | replyLost => exact Or.inl ⟨by simp [Shared.heard,refusals],rfl⟩
  | delivered =>
    have moved : (s.wire.carried .delivered (.handleInvoke payload (s.invocations owner).encoding
        .kGetReply moments)).server =
        (s.wire.server.getReply (s.invocations owner).id (s.invocations owner).encoding moments).2 := by
      change (s.wire.server.handleInvoke payload _ .kGetReply moments).2 = _
      rw [handleInvoke_getReply named]
    simp only [Shared.heard,Option.elim_some]
    rcases outcome with ⟨result,refused,read⟩ | ⟨invoke,call,outcome,found,held,wanted,ended,read,gone⟩
    · rw [read]
      exact Or.inl ⟨by rcases refused with rfl | rfl <;> simp [refusals],rfl⟩
    · rw [moved]
      exact Or.inr ⟨invoke,call,outcome,found,held,wanted,read,ended,gone⟩

theorem invalidate_step (sound : s.Sound expirationTimeNs) : ∃ payload : V,
    extractAsyncRequestId payload = some (s.invocations owner).id ∧
    s.step protocol (.operate owner .invalidate moments carriage) =
      (some (.invalidated (.ok ())),{s with
        wire := if (s.invocations owner).id = 0 then s.wire else s.wire.carried carriage
          (.handleInvoke payload (s.invocations owner).encoding .kInvalidate moments)}) := by
  obtain ⟨payload,named,called⟩ := owned_invalidate protocol moments carriage s.wire (sound.supported owner)
    (sound.asynchronous owner)
  refine ⟨payload,named,?_⟩
  by_cases unstarted : (s.invocations owner).id = 0
  · rw [if_pos unstarted] at called ⊢
    simp only [step,called]
    rw [put_kept rfl]
  · rw [if_neg unstarted] at called ⊢
    exact quiet_step protocol owner rfl called

theorem poll_fair (sound : s.Sound expirationTimeNs) (numbered : Numbered s.wire.server) :
    Fair expirationTimeNs s owner .pollOnce (s.step protocol (.operate owner .pollOnce moments carriage)) := by
  obtain ⟨payload,⟨result,ready⟩,_,stepped,outcome⟩ := poll_step protocol owner moments carriage sound
  rcases outcome with ⟨waits,listed⟩ | ⟨announced,invoke,call,found,held,_,ended⟩
  · cases waits
    rw [stepped]
    exact ⟨carried_sound sound rfl carriage,_,rfl,.waiting result listed⟩
  · cases announced
    have permitted := Permitted.ready (t := (s.step protocol (.operate owner .pollOnce moments carriage)).2)
      call (sound.found numbered found held) ended
    rw [stepped] at permitted ⊢
    exact ⟨carried_sound sound rfl carriage,_,rfl,permitted⟩

theorem getReply_fair [LawfulAssign V] (sound : s.Sound expirationTimeNs)
    (numbered : Numbered s.wire.server) (output : V) :
    Fair expirationTimeNs s owner (.getReply output)
      (s.step protocol (.operate owner (.getReply output) moments carriage)) := by
  obtain ⟨payload,⟨result,value⟩,_,stepped,outcome⟩ :=
    getReply_step protocol owner moments carriage sound output
  rcases outcome with ⟨listed,same⟩ | ⟨invoke,call,outcome,found,held,_,read,ended,_⟩
  · subst same
    rw [stepped]
    exact ⟨carried_sound sound rfl carriage,_,rfl,.refused result listed value⟩
  · have permitted := Permitted.obtained call outcome output (sound.found numbered found held) ended
    rw [← read,stepped] at permitted
    rw [stepped]
    exact ⟨carried_sound sound rfl carriage,_,rfl,permitted⟩

theorem invalidate_fair (sound : s.Sound expirationTimeNs) :
    Fair expirationTimeNs s owner .invalidate
      (s.step protocol (.operate owner .invalidate moments carriage)) := by
  obtain ⟨payload,_,stepped⟩ := invalidate_step protocol owner moments carriage sound
  rw [stepped]
  split
  · exact ⟨sound,_,rfl,.invalidated⟩
  · exact ⟨carried_sound sound rfl carriage,_,rfl,.invalidated⟩

section Start
variable {input : V} {encoding : PayloadEncoding} {invocation : AsyncInvocation V} {moments}

omit [LawfulAnyValue V] [LawfulCodec V] in
theorem launch_put : (s.put owner invocation
    (s.wire.reach (.handleInvoke input encoding .kInitialRequest moments))).startedBy =
      s.startedBy ++ [owner] := by
  have one : (s.wire.reach (.handleInvoke input encoding .kInitialRequest moments)).server.calls.length =
      s.wire.server.calls.length + 1 := reach_length ..
  change s.startedBy ++ List.replicate (_ - _) owner = _
  rw [one,Nat.add_sub_cancel_left]
  rfl

omit [LawfulAnyValue V] [LawfulCodec V] in
theorem launched_put : Launched s (s.put owner invocation
    (s.wire.reach (.handleInvoke input encoding .kInitialRequest moments))) owner input :=
  ⟨step_inputs s.wire.server _,launch_put owner⟩

omit [LawfulAnyValue V] [LawfulCodec V] in
theorem launch_sound (sound : s.Sound expirationTimeNs) (asynchronous : invocation.synchronous = false)
    (supported : isSupportedPayloadEncoding invocation.encoding = true)
    (number : (s.wire.server.lastId + 1).toNat = s.wire.server.calls.length + 1)
    (own : invocation.id = s.wire.server.lastId + 1 ∨ invocation = s.invocations owner) :
    Sound expirationTimeNs (s.put owner invocation
      (s.wire.reach (.handleInvoke input encoding .kInitialRequest moments))) := by
  have kept : ∀ (other number : Nat), s.startedBy[number]? = some other →
      (s.startedBy ++ [owner])[number]? = some other := by
    intro other number known
    rw [List.getElem?_append_left (List.getElem?_eq_some_iff.mp known).1]
    exact known
  refine ⟨reach_tracks sound.tracks,?_,?_,?_,?_⟩
  · rw [launch_put,List.length_append,sound.counted]
    exact (reach_length s.wire (.handleInvoke input encoding .kInitialRequest moments)).symm
  · intro other
    by_cases same : other = owner
    · simpa [put,same] using asynchronous
    · simpa [put,same] using sound.asynchronous other
  · intro other
    by_cases same : other = owner
    · simpa [put,same] using supported
    · simpa [put,same] using sound.supported other
  · intro other started
    unfold Owns
    rw [launch_put]
    by_cases same : other = owner
    · subst other
      simp only [put,Function.update_self] at started ⊢
      rcases own with fresh | same
      · refine ⟨s.startedBy.length,?_,List.getElem?_concat_length⟩
        rw [fresh,number,sound.counted]
      · rw [same] at started ⊢
        obtain ⟨number,named,known⟩ := sound.owns owner started
        exact ⟨number,named,kept owner number known⟩
    · simp only [put,Function.update_of_ne same] at started ⊢
      obtain ⟨number,named,known⟩ := sound.owns other started
      exact ⟨number,named,kept other number known⟩

end Start

omit [LawfulAnyValue V] [LawfulCodec V] in
theorem Sound.nextId (sound : s.Sound expirationTimeNs) {input : V} {encoding : PayloadEncoding}
    {moments : Nat → Moment V} (within : (s.wire.reach (.handleInvoke input encoding .kInitialRequest
      moments)).events.countP Event.isInitialRequest < UInt64.size) :
    (s.wire.server.lastId + 1).toNat = s.wire.server.calls.length + 1 := by
  have number := reached_nextId expirationTimeNs within
  rwa [← sound.tracks] at number

theorem start_wire (sound : s.Sound expirationTimeNs) {input : V} (nonempty : isEmptyValue input = false) :
    (s.step protocol (.operate owner (.start input nonempty) moments carriage)).2.wire =
      s.wire.carried carriage
        (.handleInvoke input (s.invocations owner).encoding .kInitialRequest moments) := by
  have called := owned_start protocol moments carriage s.wire (sound.supported owner) nonempty
  simp only [step,called]
  split <;> rfl

theorem start_fair (sound : s.Sound expirationTimeNs) {input : V} (nonempty : isEmptyValue input = false)
    (within : (s.step protocol (.operate owner (.start input nonempty) moments carriage)).2.Within) :
    Fair expirationTimeNs s owner (.start input nonempty)
      (s.step protocol (.operate owner (.start input nonempty) moments carriage)) := by
  have supported := sound.supported owner
  have called := owned_start protocol moments carriage s.wire supported nonempty
  rw [Within,start_wire protocol owner moments carriage sound] at within
  cases carriage with
  | requestLost =>
    simp only [step,called,Shared.heard,Wire.carried,if_true,put_kept]
    exact ⟨sound,_,rfl,.unstarted input nonempty rfl (Or.inl ⟨rfl,rfl⟩)⟩
  | replyLost =>
    have number := sound.nextId within
    simp only [step,called,Shared.heard,Wire.carried]
    exact ⟨launch_sound owner sound (sound.asynchronous owner) supported number (Or.inr rfl),_,rfl,
      .unstarted input nonempty (by simp [put]) (Or.inr (launched_put owner))⟩
  | delivered =>
    have number := sound.nextId within
    have nonzero : s.wire.server.lastId + 1 ≠ 0 := by
      intro zero
      rw [zero] at number
      cases number
    obtain ⟨reply,answered,read⟩ := start_answer supported s.wire.server moments input nonzero
    rw [answered] at called
    simp only [step,called,Shared.heard,Wire.carried,read]
    refine ⟨launch_sound owner sound (sound.asynchronous owner) supported number (Or.inl rfl),_,rfl,
      .started input nonempty ⟨?_,?_⟩ (launched_put owner)⟩
    · simp [put,number]
    · simp only [reduceCtorEq,if_false]
      rw [launch_put,← sound.counted]
      exact List.getElem?_concat_length

theorem operate_fair [LawfulAssign V] (sound : s.Sound expirationTimeNs)
    (numbered : Numbered s.wire.server) (call : OwnerCall V)
    (within : (s.step protocol (.operate owner call moments carriage)).2.Within) :
    Fair expirationTimeNs s owner call (s.step protocol (.operate owner call moments carriage)) := by
  cases call with
  | start input nonempty => exact start_fair protocol owner moments carriage sound nonempty within
  | pollOnce => exact poll_fair protocol owner moments carriage sound numbered
  | getReply output => exact getReply_fair protocol owner moments carriage sound numbered output
  | invalidate => exact invalidate_fair protocol owner moments carriage sound

-- Nothing but a Start launches a call, and it launches one at most.
theorem step_launches [LawfulAssign V] (turn : Turn V) (sound : s.Sound expirationTimeNs)
    (within : (s.step protocol turn).2.Within) : LaunchedNothing s (s.step protocol turn).2 ∨
      ∃ owner input nonempty moments carriage, turn = .operate owner (.start input nonempty) moments carriage ∧
        Launched s (s.step protocol turn).2 owner input := by
  cases turn with
  | cleanUp moments => exact Or.inl ⟨(step_inputs s.wire.server _).trans (List.append_nil _),rfl⟩
  | complete call outcome => exact Or.inl ⟨(step_inputs s.wire.server _).trans (List.append_nil _),rfl⟩
  | operate owner call moments carriage =>
    cases call with
    | start input nonempty =>
      obtain ⟨_,_,permitted⟩ := (start_fair protocol owner moments carriage sound nonempty within).permitted
      have launches : LaunchedNothing s (s.step protocol (.operate owner (.start input nonempty) moments
          carriage)).2 ∨ Launched s (s.step protocol (.operate owner (.start input nonempty) moments
          carriage)).2 owner input := by
        cases permitted with
        | started _ _ _ launched => exact Or.inr launched
        | unstarted _ _ _ lost => exact lost
      exact launches.imp_right fun launched => ⟨owner,input,nonempty,moments,carriage,rfl,launched⟩
    | pollOnce =>
      obtain ⟨_,_,_,stepped,_⟩ := poll_step protocol owner moments carriage sound
      rw [stepped]
      exact Or.inl ⟨carried_inputs rfl carriage,rfl⟩
    | getReply output =>
      obtain ⟨_,_,_,stepped,_⟩ := getReply_step protocol owner moments carriage sound output
      rw [stepped]
      exact Or.inl ⟨carried_inputs rfl carriage,rfl⟩
    | invalidate =>
      obtain ⟨_,_,stepped⟩ := invalidate_step protocol owner moments carriage sound
      rw [stepped]
      dsimp only
      split
      · exact Or.inl ⟨rfl,rfl⟩
      · exact Or.inl ⟨carried_inputs rfl carriage,rfl⟩

omit [LawfulAnyValue V] [LawfulCodec V] in
theorem step_reaches (turn : Turn V) : Wire.Reaches s.wire (s.step protocol turn).2.wire := by
  cases turn with
  | operate owner call moments carriage => exact Wire.owned_reaches protocol moments carriage s.wire _ call
  | cleanUp moments => exact Wire.reach_reaches s.wire _
  | complete call outcome => exact Wire.reach_reaches s.wire _

omit [LawfulAnyValue V] [LawfulCodec V] in
theorem step_within (s : Owners V) (turn : Turn V) (within : (s.step protocol turn).2.Within) :
    s.Within := by
  obtain ⟨more,_,parts⟩ := step_reaches (s := s) protocol turn
  rw [Within,parts,List.countP_append] at within
  exact Nat.lt_of_le_of_lt (Nat.le_add_right ..) within

theorem step_sound [LawfulAssign V] (s : Owners V) (turn : Turn V) (sound : s.Sound expirationTimeNs)
    (within : (s.step protocol turn).2.Within) : (s.step protocol turn).2.Sound expirationTimeNs := by
  have numbered := sound.numbered (step_within protocol s turn within)
  cases turn with
  | operate owner call moments carriage =>
    exact (operate_fair protocol owner moments carriage sound numbered call within).sound
  | cleanUp moments => exact reach_sound sound rfl
  | complete call outcome => exact reach_sound sound rfl

omit [LawfulAnyValue V] [LawfulCodec V] in
theorem make_sound (expirationTimeNs : UInt64) {encodings : Nat → PayloadEncoding}
    (supported : ∀ owner, isSupportedPayloadEncoding (encodings owner) = true) :
    (make expirationTimeNs encodings : Owners V).Sound expirationTimeNs :=
  ⟨rfl,rfl,fun _ => rfl,supported,fun _ started => absurd rfl started⟩

end Turns

end Owners

end SupProtocol
