import SupProtocol.ClientFunctions

namespace SupProtocol
open AsyncInvocation ProtocolRPCClient

structure ClientCall (V : Type) where
  config : ProtocolRPCClientConfig
  startTimestamp : UInt64
  clock : Nat → UInt64
  input : V
  output : V

inductive Progress (V : Type) where
  | called
  | polling (invocation : AsyncInvocation V) (polls : Nat)
  | fetching (invocation : AsyncInvocation V)
  | returned (invoked : Invoked V)

namespace ClientCall
variable {V : Type} [AnyValue V] [Codec V] {σ : Type}

def invoke (call : ClientCall V) (functor : AnyFunctor σ V) (polls : Nat) (s : σ) :
    Option (Invoked V) × σ :=
  ProtocolRPCClient.invoke functor call.config call.startTimestamp call.clock polls call.input
    call.output s

-- An empty input is refused before there is a packet.
def begin (call : ClientCall V) : Progress V :=
  if isEmptyValue call.input then .returned ⟨.ok .clientTransportEncodingError,call.output⟩
  else .called

def request (call : ClientCall V) : Progress V → Option (Except Exception V)
  | .called =>
    if call.config.async then some (createAsyncRPCRequest call.input call.config.encoding)
    else some (createRPCRequest call.input call.config.encoding)
  | .polling invocation _ => some (createAsyncRPCPoll invocation.id invocation.encoding)
  | .fetching invocation => some (createAsyncRPCGetReply invocation.id invocation.encoding)
  | .returned _ => none

def gaveUp (call : ClientCall V) (result : ProtocolResult) : Progress V :=
  .returned ⟨.ok result,call.output⟩

def decoded (answer : ProtocolResult × V) : Progress V := .returned ⟨.ok answer.1,answer.2⟩

-- Start took the reply: the loop has to be gone through only if it was accepted.
def accepted (call : ClientCall V) (answer : ProtocolResult × AsyncInvocation V) : Progress V :=
  if answer.1 ≠ .success then call.gaveUp answer.1
  else if answer.2.synchronous then decoded (decodeReply answer.2.syncReply call.output)
  else .polling answer.2 0

def awaited (call : ClientCall V) (invocation : AsyncInvocation V) (polls : Nat)
    (answer : ProtocolResult × Bool) : Progress V :=
  if answer.1 ≠ .success then call.gaveUp answer.1
  else if answer.2 then .fetching invocation
  else
    match (call.config.handler call.startTimestamp).wait (call.clock polls) with
    | none => call.gaveUp .asynchronousProtocolTimeout
    | some _ => .polling invocation (polls+1)

-- What the call makes of the answer; `none` stands for an exception of the functor.
def receive (call : ClientCall V) : Progress V → Option V → Progress V
  | .returned invoked,_ => .returned invoked
  | _,none => call.gaveUp .clientTransportException
  | .called,some reply =>
    if call.config.async then call.accepted ((make call.config.encoding).started reply)
    else decoded (handleSyncInvokeReply reply call.output)
  | .polling invocation polls,some reply => call.awaited invocation polls (polled reply)
  | .fetching _,some reply => decoded (replied reply call.output)

def step (functor : AnyFunctor σ V) (call : ClientCall V) (s : Progress V × σ) : Progress V × σ :=
  match call.request s.1 with
  | none => s
  | some request =>
    match send functor request s.2 with
    | (.error error,t) => (.returned ⟨.error error,call.output⟩,t)
    | (.ok answer,t) => (call.receive s.1 answer,t)

def drive (functor : AnyFunctor σ V) (call : ClientCall V) : Nat → Progress V × σ → Progress V × σ
  | 0,s => s
  | packets+1,s => drive functor call packets (call.step functor s)

section Steps
variable (functor : AnyFunctor σ V) (call : ClientCall V) (s : σ)

theorem step_sends {progress : Progress V} {packet : Except Exception V}
    (asks : call.request progress = some packet) : call.step functor (progress,s) =
    match send functor packet s with
    | (.error error,t) => (.returned ⟨.error error,call.output⟩,t)
    | (.ok answer,t) => (call.receive progress answer,t) := by
  simp only [step,asks]

theorem step_synchronous (synchronous : call.config.async = false) :
    call.step functor (.called,s) =
      (.returned (handleSyncInvoke functor call.config call.input call.output s).1,
        (handleSyncInvoke functor call.config call.input call.output s).2) := by
  have asks : call.request .called = some (createRPCRequest call.input call.config.encoding) := by
    simp [request,synchronous]
  rw [step_sends functor call s asks]
  simp only [handleSyncInvoke,exchange]
  rcases send functor (createRPCRequest call.input call.config.encoding) s with ⟨_ | _ | reply,t⟩
  · rfl
  · rfl
  · simp [receive,synchronous,decoded]

theorem step_start (asynchronous : call.config.async = true) : call.step functor (.called,s) =
    match (make call.config.encoding).start functor call.input s with
    | (.error error,t) => (.returned ⟨.error error,call.output⟩,t)
    | (.ok answer,t) => (call.accepted answer,t) := by
  have failed : ProtocolResult.clientTransportException ≠ .success := by decide
  have encoding : (make call.config.encoding : AsyncInvocation V).encoding = call.config.encoding := rfl
  have asks : call.request .called = some (createAsyncRPCRequest call.input call.config.encoding) := by
    simp [request,asynchronous]
  rw [step_sends functor call s asks]
  simp only [start,encoding]
  rcases send functor (createAsyncRPCRequest call.input call.config.encoding) s with ⟨_ | _ | reply,t⟩
  · rfl
  · simp [receive,accepted,failed]
  · simp [receive,asynchronous]

variable {invocation : AsyncInvocation V} (waiting : invocation.synchronous = false)
include waiting

theorem step_poll (polls : Nat) : call.step functor (.polling invocation polls,s) =
    match invocation.pollOnce functor s with
    | (.error error,t) => (.returned ⟨.error error,call.output⟩,t)
    | (.ok answer,t) => (call.awaited invocation polls answer,t) := by
  have failed : ProtocolResult.clientTransportException ≠ .success := by decide
  rw [step_sends functor call s rfl]
  simp only [pollOnce,waiting]
  rcases send functor (createAsyncRPCPoll invocation.id invocation.encoding) s with ⟨_ | _ | reply,t⟩
  · rfl
  · simp [receive,awaited,failed]
  · rfl

theorem step_fetch : call.step functor (.fetching invocation,s) =
    (.returned ⟨(invocation.getReply functor call.output s).1,
      (invocation.getReply functor call.output s).2.1⟩,
      (invocation.getReply functor call.output s).2.2) := by
  rw [step_sends functor call s rfl]
  simp only [getReply,waiting]
  rcases send functor (createAsyncRPCGetReply invocation.id invocation.encoding) s with
    ⟨_ | _ | reply,t⟩ <;> rfl

omit waiting

theorem drive_returned (invoked : Invoked V) (packets : Nat) :
    call.drive functor packets (.returned invoked,s) = (.returned invoked,s) := by
  induction packets with
  | zero => rfl
  | succ packets ih => exact ih

end Steps

section Answers
variable (call : ClientCall V) (invocation : AsyncInvocation V) (polls : Nat)

omit [AnyValue V] [Codec V] in
theorem awaited_failed {answer : ProtocolResult × Bool} (failed : answer.1 ≠ .success) :
    call.awaited invocation polls answer = call.gaveUp answer.1 := if_pos failed

omit [AnyValue V] [Codec V] in
@[simp] theorem awaited_ready :
    call.awaited invocation polls (.success,true) = .fetching invocation := rfl

omit [AnyValue V] [Codec V] in
theorem awaited_timeout
    (wait : (call.config.handler call.startTimestamp).wait (call.clock polls) = none) :
    call.awaited invocation polls (.success,false) = call.gaveUp .asynchronousProtocolTimeout := by
  simp [awaited,wait]

omit [AnyValue V] [Codec V] in
theorem awaited_sleeps {slept : UInt64}
    (wait : (call.config.handler call.startTimestamp).wait (call.clock polls) = some slept) :
    call.awaited invocation polls (.success,false) = .polling invocation (polls+1) := by
  simp [awaited,wait]

end Answers

section Loop
variable {functor : AnyFunctor σ V} {call : ClientCall V} {invocation : AsyncInvocation V}
  {invoked : Invoked V} {t : σ}

theorem fetch_drives (waiting : invocation.synchronous = false) (s : σ) :
    concluded functor invocation call.output (.ready,s) = (some invoked,t) ↔
      ∃ packets, call.drive functor packets (.fetching invocation,s) = (.returned invoked,t) := by
  have fetched := step_fetch functor call s waiting
  rcases got : invocation.getReply functor call.output s with ⟨result,output,after⟩
  rw [got] at fetched
  simp only [concluded,got]
  constructor
  · rintro ⟨rfl,rfl⟩
    exact ⟨1,fetched⟩
  · rintro ⟨packets,driven⟩
    cases packets with
    | zero => cases congrArg Prod.fst driven
    | succ packets =>
      rw [drive,fetched,drive_returned] at driven
      cases driven
      rfl

theorem polls_drive (waiting : invocation.synchronous = false) (polls : Nat) :
    ∀ (k : Nat) (s : σ), concluded functor invocation call.output (pollUntilReady functor invocation
        (call.config.handler call.startTimestamp) call.clock polls k s) = (some invoked,t) →
      ∃ packets, call.drive functor packets (.polling invocation k,s) = (.returned invoked,t) := by
  induction polls with
  | zero => intro k s ended; cases congrArg Prod.fst ended
  | succ polls ih =>
    intro k s ended
    have polled := step_poll functor call s waiting k
    rw [pollUntilReady] at ended
    rcases asked : invocation.pollOnce functor s with ⟨error | ⟨result,ready⟩,u⟩
    · rw [asked] at polled ended
      cases ended
      exact ⟨1,polled⟩
    · rw [asked] at polled ended
      dsimp only at polled ended
      by_cases success : result = .success
      · subst result
        cases ready with
        | true =>
          obtain ⟨packets,driven⟩ := (fetch_drives waiting u).mp (by simpa using ended)
          exact ⟨packets+1,by rw [drive,polled]; exact driven⟩
        | false =>
          cases wait : (call.config.handler call.startTimestamp).wait (call.clock k) with
          | none =>
            rw [awaited_timeout call invocation k wait] at polled
            simp only [wait] at ended
            cases ended
            exact ⟨1,polled⟩
          | some slept =>
            rw [awaited_sleeps call invocation k wait] at polled
            simp only [wait] at ended
            obtain ⟨packets,driven⟩ := ih (k+1) u ended
            exact ⟨packets+1,by rw [drive,polled]; exact driven⟩
      · rw [awaited_failed call invocation k success] at polled
        rw [if_pos success] at ended
        cases ended
        exact ⟨1,polled⟩

theorem drive_polls (waiting : invocation.synchronous = false) (packets : Nat) :
    ∀ (k : Nat) (s : σ),
      call.drive functor packets (.polling invocation k,s) = (.returned invoked,t) →
      ∃ polls, concluded functor invocation call.output (pollUntilReady functor invocation
        (call.config.handler call.startTimestamp) call.clock polls k s) = (some invoked,t) := by
  induction packets with
  | zero => intro k s driven; cases congrArg Prod.fst driven
  | succ packets ih =>
    intro k s driven
    rw [drive,step_poll functor call s waiting k] at driven
    rcases asked : invocation.pollOnce functor s with ⟨error | ⟨result,ready⟩,u⟩
    · rw [asked,drive_returned] at driven
      cases driven
      exact ⟨1,by rw [pollUntilReady,asked]; rfl⟩
    · rw [asked] at driven
      dsimp only at driven
      by_cases success : result = .success
      · subst result
        cases ready with
        | true =>
          have fetched := (fetch_drives waiting u).mpr ⟨packets,driven⟩
          exact ⟨1,by simpa [pollUntilReady,asked] using fetched⟩
        | false =>
          cases wait : (call.config.handler call.startTimestamp).wait (call.clock k) with
          | none =>
            rw [awaited_timeout call invocation k wait,gaveUp,drive_returned] at driven
            cases driven
            exact ⟨1,by simp [pollUntilReady,asked,wait,concluded]⟩
          | some slept =>
            rw [awaited_sleeps call invocation k wait] at driven
            obtain ⟨polls,ended⟩ := ih (k+1) u driven
            exact ⟨polls+1,by simpa [pollUntilReady,asked,wait] using ended⟩
      · rw [awaited_failed call invocation k success,gaveUp,drive_returned] at driven
        cases driven
        exact ⟨1,by simp [pollUntilReady,asked,success,concluded]⟩

end Loop

section Whole
variable {functor : AnyFunctor σ V} {call : ClientCall V} {invoked : Invoked V} {t : σ}

theorem sync_stepwise (synchronous : call.config.async = false) (s : σ) :
    handleSyncInvoke functor call.config call.input call.output s = (invoked,t) ↔
      ∃ packets, call.drive functor packets (.called,s) = (.returned invoked,t) := by
  have sent := step_synchronous functor call s synchronous
  constructor
  · intro ended
    exact ⟨1,by rw [drive,sent,ended]; rfl⟩
  · rintro ⟨packets,driven⟩
    cases packets with
    | zero => cases congrArg Prod.fst driven
    | succ packets =>
      rw [drive,sent,drive_returned] at driven
      obtain ⟨same,rfl⟩ := Prod.mk.inj driven
      rw [← Progress.returned.inj same]

theorem await_stepwise (invocation : AsyncInvocation V) (s : σ) :
    (∃ polls, awaitReply functor call.config call.startTimestamp call.clock polls invocation call.output
      s = (some invoked,t)) ↔
    ∃ packets, call.drive functor packets (call.accepted (.success,invocation),s) =
      (.returned invoked,t) := by
  cases synchronous : invocation.synchronous with
  | true =>
    have here : call.accepted (.success,invocation) =
        decoded (decodeReply invocation.syncReply call.output) := by simp [accepted,synchronous]
    simp only [awaitReply_synchronous synchronous,here,decoded,drive_returned]
    simp
  | false =>
    have here : call.accepted (.success,invocation) = .polling invocation 0 := by
      simp [accepted,synchronous]
    simp only [awaitReply_concluded synchronous,here]
    constructor
    · rintro ⟨polls,ended⟩
      exact polls_drive synchronous polls 0 s ended
    · rintro ⟨packets,driven⟩
      exact drive_polls synchronous packets 0 s driven

theorem async_stepwise (asynchronous : call.config.async = true) (s : σ) :
    (∃ polls, handleAsyncInvoke functor call.config call.startTimestamp call.clock polls call.input
      call.output s = (some invoked,t)) ↔
    ∃ packets, call.drive functor packets (.called,s) = (.returned invoked,t) := by
  have first := step_start functor call s asynchronous
  have later : (∃ packets, call.drive functor packets (.called,s) = (.returned invoked,t)) ↔
      ∃ packets, call.drive functor packets (call.step functor (.called,s)) = (.returned invoked,t) := by
    constructor
    · rintro ⟨packets,driven⟩
      cases packets with
      | zero => cases congrArg Prod.fst driven
      | succ packets => exact ⟨packets,driven⟩
    · rintro ⟨packets,driven⟩
      exact ⟨packets+1,driven⟩
  rw [later,first]
  unfold handleAsyncInvoke
  rcases (make call.config.encoding).start functor call.input s with ⟨error | ⟨result,invocation⟩,u⟩
  · simp [drive_returned]
  · by_cases success : result = .success
    · subst result
      simpa using await_stepwise invocation u
    · simp [accepted,success,gaveUp,drive_returned]

end Whole

-- A call that is driven packet by packet ends as the call that runs through, and
-- leaves its surroundings in the same state; it does not end if that does not.
theorem invoke_stepwise (functor : AnyFunctor σ V) (call : ClientCall V) (s t : σ)
    (invoked : Invoked V) : (∃ polls, call.invoke functor polls s = (some invoked,t)) ↔
      ∃ packets, call.drive functor packets (call.begin,s) = (.returned invoked,t) := by
  unfold invoke begin
  cases bare : isEmptyValue call.input with
  | true => simp [ProtocolRPCClient.invoke,bare,drive_returned]
  | false =>
    cases asynchronous : call.config.async with
    | true =>
      simp only [invoke_asynchronous bare asynchronous]
      exact async_stepwise asynchronous s
    | false =>
      simp only [invoke_synchronous bare asynchronous]
      exact Iff.trans (by simp [Prod.ext_iff]) (sync_stepwise asynchronous s)

end ClientCall

end SupProtocol
