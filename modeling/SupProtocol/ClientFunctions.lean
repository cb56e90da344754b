import SupProtocol.ProtocolRPCClient

namespace SupProtocol
open AsyncInvocation ProtocolRPCClient

variable {V : Type} [AnyValue V] [Codec V]

def ProtocolRPCClientConfig.handler (config : ProtocolRPCClientConfig) (startTimestamp : UInt64) :
    PollingTimeoutHandler := ⟨startTimestamp,config.timeoutNs,config.pollingIntervalNs⟩

theorem wait_ends (handler : PollingTimeoutHandler) (now : UInt64) :
    handler.wait now = none ↔ now - handler.startTimestamp > handler.timeoutDurationNs := by
  unfold PollingTimeoutHandler.wait
  dsimp only
  split
  · rename_i exceeds
    exact ⟨fun _ => exceeds,fun _ => rfl⟩
  · rename_i within
    exact ⟨fun slept => (by cases slept),fun exceeds => absurd exceeds within⟩

theorem wait_sleeps (handler : PollingTimeoutHandler) (now slept : UInt64) :
    handler.wait now = some slept ↔ ¬ now - handler.startTimestamp > handler.timeoutDurationNs ∧
      slept = min handler.pollingIntervalNs
        (handler.timeoutDurationNs - (now - handler.startTimestamp)) := by
  unfold PollingTimeoutHandler.wait
  dsimp only
  split
  · rename_i exceeds
    exact ⟨fun sleeping => (by cases sleeping),fun sleeping => absurd exceeds sleeping.1⟩
  · rename_i within
    exact ⟨fun sleeping => ⟨within,(Option.some.inj sleeping).symm⟩,fun sleeping => by rw [sleeping.2]⟩

def ReadyRead (reply : V) (ready : Bool) : Prop :=
  ∃ encoding, tryGetPacketEncoding reply = some encoding ∧
    tryExtractReadyStatus reply encoding = some ready

def IdRead (reply : V) (id : UInt64) : Prop :=
  ∃ encoding, tryGetPacketEncoding reply = some encoding ∧
    tryExtractReplyId reply encoding = some id ∧ id ≠ 0

theorem IdRead.unique {reply : V} {id other : UInt64} (left : IdRead reply id)
    (right : IdRead reply other) : id = other := by
  obtain ⟨encoding,read,here,_⟩ := left
  obtain ⟨again,same,there,_⟩ := right
  cases read.symm.trans same
  exact Option.some.inj (here.symm.trans there)

theorem polled_reads {reply : V} {ready : Bool} (read : ReadyRead reply ready) :
    polled reply = (.success,ready) := by
  obtain ⟨encoding,found,extracted⟩ := read
  simp only [polled,found,extracted]

theorem polled_cases (reply : V) :
    ((polled reply).1 = .success ∧ ∃ ready, ReadyRead reply ready) ∨
    ((polled reply).1 = .clientTransportDecodingError ∧ ∀ ready, ¬ ReadyRead reply ready) := by
  unfold polled ReadyRead
  cases tryGetPacketEncoding reply with
  | none => simp
  | some encoding =>
    cases extracted : tryExtractReadyStatus reply encoding with
    | none => simp [extracted]
    | some ready => simp [extracted]

theorem started_cases (invocation : AsyncInvocation V) (reply : V) :
    (getAsyncInfo reply = none ∧ ((checkReplyFormat reply = true ∧ invocation.started reply =
        (.success,{invocation with synchronous := true, syncReply := reply})) ∨
      (checkReplyFormat reply = false ∧
        invocation.started reply = (.clientTransportDecodingError,invocation)))) ∨
    (getAsyncInfo reply ≠ none ∧ ((∃ id, IdRead reply id ∧
        invocation.started reply = (.success,{invocation with id := id})) ∨
      ((∀ id, ¬ IdRead reply id) ∧
        invocation.started reply = (.clientTransportDecodingError,invocation)))) := by
  unfold started IdRead
  cases getAsyncInfo reply with
  | none => cases format : checkReplyFormat reply <;> simp
  | some command =>
    cases tryGetPacketEncoding reply with
    | none => simp
    | some encoding =>
      cases extracted : tryExtractReplyId reply encoding with
      | none => simp [extracted]
      | some id => by_cases zero : id = 0 <;> simp [extracted,zero]

theorem started_code {reply : V} (marked : getAsyncInfo reply ≠ none)
    (invocation : AsyncInvocation V) :
    ((invocation.started reply).1 = .success ∧ ∃ id, IdRead reply id) ∨
    ((invocation.started reply).1 = .clientTransportDecodingError ∧ ∀ id, ¬ IdRead reply id) := by
  rcases started_cases invocation reply with ⟨plain,_⟩ | ⟨_,⟨id,read,same⟩ | ⟨unread,same⟩⟩
  · exact absurd plain marked
  · exact Or.inl ⟨by rw [same],id,read⟩
  · exact Or.inr ⟨by rw [same],unread⟩

theorem started_reads {reply : V} {id : UInt64} (marked : getAsyncInfo reply ≠ none)
    (read : IdRead reply id) (invocation : AsyncInvocation V) :
    invocation.started reply = (.success,{invocation with id := id}) := by
  rcases started_cases invocation reply with ⟨plain,_⟩ | ⟨_,⟨other,found,same⟩ | ⟨unread,_⟩⟩
  · exact absurd plain marked
  · rw [same,found.unique read]
  · exact absurd read (unread id)

theorem reply_cases (reply : V) : getAsyncInfo reply = none ∨
    (getAsyncInfo reply ≠ none ∧ ((∃ id, IdRead reply id) ∨ ∀ id, ¬ IdRead reply id)) := by
  by_cases plain : getAsyncInfo reply = none
  · exact Or.inl plain
  · refine Or.inr ⟨plain,?_⟩
    by_cases named : ∃ id, IdRead reply id
    · exact Or.inl named
    · exact Or.inr fun id read => named ⟨id,read⟩

section Steps
variable {σ : Type} {functor : AnyFunctor σ V} {invocation : AsyncInvocation V} {packet reply : V}
  {s t : σ} {error : Exception}

omit [AnyValue V] [Codec V] in
theorem exchange_answered {request : Except Exception V} (built : request = .ok packet)
    (answered : functor packet s = (.ok reply,t)) (decode : V → V → ProtocolResult × V) (output : V) :
    exchange functor request decode output s =
      (⟨.ok (decode reply output).1,(decode reply output).2⟩,t) := by
  simp only [exchange,send,built,answered]

theorem start_reads {input : V}
    (built : createAsyncRPCRequest input invocation.encoding = .ok packet)
    (answered : functor packet s = (.ok reply,t)) :
    invocation.start functor input s = (.ok (invocation.started reply),t) := by
  simp [start,send,built,answered]

theorem start_throws {input : V}
    (built : createAsyncRPCRequest input invocation.encoding = .ok packet)
    (thrown : functor packet s = (.error error,t)) :
    invocation.start functor input s = (.ok (.clientTransportException,invocation),t) := by
  simp [start,send,built,thrown]

theorem pollOnce_reads (waiting : invocation.synchronous = false)
    (built : createAsyncRPCPoll invocation.id invocation.encoding = .ok packet)
    (answered : functor packet s = (.ok reply,t)) :
    invocation.pollOnce functor s = (.ok (polled reply),t) := by
  simp [pollOnce,waiting,send,built,answered]

theorem pollOnce_throws (waiting : invocation.synchronous = false)
    (built : createAsyncRPCPoll invocation.id invocation.encoding = .ok packet)
    (thrown : functor packet s = (.error error,t)) :
    invocation.pollOnce functor s = (.ok (.clientTransportException,false),t) := by
  simp [pollOnce,waiting,send,built,thrown]

theorem getReply_reads (waiting : invocation.synchronous = false)
    (built : createAsyncRPCGetReply invocation.id invocation.encoding = .ok packet)
    (answered : functor packet s = (.ok reply,t)) (output : V) :
    invocation.getReply functor output s =
      (.ok (replied reply output).1,(replied reply output).2,t) := by
  simp [getReply,waiting,send,built,answered]

theorem getReply_throws (waiting : invocation.synchronous = false)
    (built : createAsyncRPCGetReply invocation.id invocation.encoding = .ok packet)
    (thrown : functor packet s = (.error error,t)) (output : V) :
    invocation.getReply functor output s = (.ok .clientTransportException,output,t) := by
  simp [getReply,waiting,send,built,thrown]

theorem start_state {input : V}
    (built : createAsyncRPCRequest input invocation.encoding = .ok packet) (s : σ) :
    (invocation.start functor input s).2 = (functor packet s).2 := by
  rcases answered : functor packet s with ⟨_ | reply,t⟩
  · rw [start_throws built answered]
  · rw [start_reads built answered]

theorem pollOnce_state (waiting : invocation.synchronous = false)
    (built : createAsyncRPCPoll invocation.id invocation.encoding = .ok packet) (s : σ) :
    (invocation.pollOnce functor s).2 = (functor packet s).2 := by
  rcases answered : functor packet s with ⟨_ | reply,t⟩
  · rw [pollOnce_throws waiting built answered]
  · rw [pollOnce_reads waiting built answered]

theorem getReply_state (waiting : invocation.synchronous = false)
    (built : createAsyncRPCGetReply invocation.id invocation.encoding = .ok packet) (output : V)
    (s : σ) : (invocation.getReply functor output s).2.2 = (functor packet s).2 := by
  rcases answered : functor packet s with ⟨_ | reply,t⟩
  · rw [getReply_throws waiting built answered]
  · rw [getReply_reads waiting built answered]

section Round
variable (handler : PollingTimeoutHandler) (clock : Nat → UInt64) (polls k : Nat)

theorem polls_throws (waiting : invocation.synchronous = false)
    (built : createAsyncRPCPoll invocation.id invocation.encoding = .ok packet)
    (thrown : functor packet s = (.error error,t)) :
    pollUntilReady functor invocation handler clock (polls+1) k s =
      (.returned (.ok .clientTransportException),t) := by
  have failed : ProtocolResult.clientTransportException ≠ .success := by decide
  rw [pollUntilReady,pollOnce_throws waiting built thrown]
  dsimp only
  rw [if_pos failed]

theorem polls_refused (waiting : invocation.synchronous = false)
    (built : createAsyncRPCPoll invocation.id invocation.encoding = .ok packet)
    (answered : functor packet s = (.ok reply,t)) (failed : (polled reply).1 ≠ .success) :
    pollUntilReady functor invocation handler clock (polls+1) k s =
      (.returned (.ok (polled reply).1),t) := by
  rw [pollUntilReady,pollOnce_reads waiting built answered]
  dsimp only
  rw [if_pos failed]

theorem polls_ready (waiting : invocation.synchronous = false)
    (built : createAsyncRPCPoll invocation.id invocation.encoding = .ok packet)
    (answered : functor packet s = (.ok reply,t)) (read : ReadyRead reply true) :
    pollUntilReady functor invocation handler clock (polls+1) k s = (.ready,t) := by
  rw [pollUntilReady,pollOnce_reads waiting built answered,polled_reads read]
  rfl

theorem polls_waits (waiting : invocation.synchronous = false)
    (built : createAsyncRPCPoll invocation.id invocation.encoding = .ok packet)
    (answered : functor packet s = (.ok reply,t)) (read : ReadyRead reply false) :
    pollUntilReady functor invocation handler clock (polls+1) k s =
      match handler.wait (clock k) with
      | none => (.returned (.ok .asynchronousProtocolTimeout),t)
      | some _ => pollUntilReady functor invocation handler clock polls (k+1) t := by
  rw [pollUntilReady,pollOnce_reads waiting built answered,polled_reads read]
  rfl

end Round

theorem polls_cases (functor : AnyFunctor σ V) (invocation : AsyncInvocation V)
    (handler : PollingTimeoutHandler) (clock : Nat → UInt64) (polls k : Nat) (s : σ) :
    (pollUntilReady functor invocation handler clock (polls+1) k s).2 =
      (invocation.pollOnce functor s).2 ∨
    pollUntilReady functor invocation handler clock (polls+1) k s =
      pollUntilReady functor invocation handler clock polls (k+1) (invocation.pollOnce functor s).2 := by
  rw [pollUntilReady]
  rcases invocation.pollOnce functor s with ⟨_ | ⟨result,ready⟩,t⟩
  · exact Or.inl rfl
  · dsimp only
    split
    · exact Or.inl rfl
    · split
      · exact Or.inl rfl
      · cases handler.wait (clock k) with
        | none => exact Or.inl rfl
        | some slept => exact Or.inr rfl

theorem awaitReply_synchronous (synchronous : invocation.synchronous = true)
    (functor : AnyFunctor σ V) (config : ProtocolRPCClientConfig) (startTimestamp : UInt64)
    (clock : Nat → UInt64) (polls : Nat) (output : V) (s : σ) :
    awaitReply functor config startTimestamp clock polls invocation output s =
      (some ⟨.ok (decodeReply invocation.syncReply output).1,
        (decodeReply invocation.syncReply output).2⟩,s) := by
  simp [awaitReply,isSynchronous,getReply,synchronous]

def concluded (functor : AnyFunctor σ V) (invocation : AsyncInvocation V) (output : V) :
    Polling × σ → Option (Invoked V) × σ
  | (.unfinished,s) => (none,s)
  | (.returned result,s) => (some ⟨result,output⟩,s)
  | (.ready,s) =>
    let (result,output,s) := invocation.getReply functor output s
    (some ⟨result,output⟩,s)

theorem awaitReply_concluded (waiting : invocation.synchronous = false) (functor : AnyFunctor σ V)
    (config : ProtocolRPCClientConfig) (startTimestamp : UInt64) (clock : Nat → UInt64) (polls : Nat)
    (output : V) (s : σ) :
    awaitReply functor config startTimestamp clock polls invocation output s =
      concluded functor invocation output
        (pollUntilReady functor invocation (config.handler startTimestamp) clock polls 0 s) := by
  unfold awaitReply concluded
  simp only [isSynchronous,waiting,ProtocolRPCClientConfig.handler]
  rcases pollUntilReady functor invocation
    ⟨startTimestamp,config.timeoutNs,config.pollingIntervalNs⟩ clock polls 0 s with ⟨_ | _ | _,t⟩ <;> rfl

-- The first packet of an asynchronous call, by the answer to it. A reply without an
-- async member is the reply to the call, and DecodeReply finds a wrong format too.
section First
variable {config : ProtocolRPCClientConfig} {input : V} (startTimestamp : UInt64)
  (clock : Nat → UInt64) (polls : Nat) (output : V)

theorem handleAsyncInvoke_throws (built : createAsyncRPCRequest input config.encoding = .ok packet)
    (thrown : functor packet s = (.error error,t)) :
    handleAsyncInvoke functor config startTimestamp clock polls input output s =
      (some ⟨.ok .clientTransportException,output⟩,t) := by
  have failed : ProtocolResult.clientTransportException ≠ .success := by decide
  rw [handleAsyncInvoke,start_throws built thrown]
  dsimp only
  rw [if_pos failed]

theorem handleAsyncInvoke_plain (built : createAsyncRPCRequest input config.encoding = .ok packet)
    (answered : functor packet s = (.ok reply,t)) (plain : getAsyncInfo reply = none) :
    handleAsyncInvoke functor config startTimestamp clock polls input output s =
      (some ⟨.ok (decodeReply reply output).1,(decodeReply reply output).2⟩,t) := by
  have failed : ProtocolResult.clientTransportDecodingError ≠ .success := by decide
  rw [handleAsyncInvoke,start_reads built answered]
  dsimp only
  rcases started_cases (make config.encoding) reply with
    ⟨_,⟨_,same⟩ | ⟨mistyped,same⟩⟩ | ⟨marked,_⟩
  · rw [same,if_neg (by simp),awaitReply_synchronous rfl]
  · rw [same,if_pos failed]
    simp [decodeReply,mistyped]
  · exact absurd plain marked

theorem handleAsyncInvoke_accepted (built : createAsyncRPCRequest input config.encoding = .ok packet)
    (answered : functor packet s = (.ok reply,t)) (marked : getAsyncInfo reply ≠ none) {id : UInt64}
    (read : IdRead reply id) :
    handleAsyncInvoke functor config startTimestamp clock polls input output s =
      awaitReply functor config startTimestamp clock polls ⟨config.encoding,id,false,empty⟩ output t := by
  rw [handleAsyncInvoke,start_reads built answered,started_reads marked read]
  rfl

theorem handleAsyncInvoke_refused (built : createAsyncRPCRequest input config.encoding = .ok packet)
    (answered : functor packet s = (.ok reply,t)) (marked : getAsyncInfo reply ≠ none)
    (unread : ∀ id, ¬ IdRead reply id) :
    handleAsyncInvoke functor config startTimestamp clock polls input output s =
      (some ⟨.ok .clientTransportDecodingError,output⟩,t) := by
  have failed : ProtocolResult.clientTransportDecodingError ≠ .success := by decide
  rw [handleAsyncInvoke,start_reads built answered]
  dsimp only
  rcases started_cases (make config.encoding) reply with
    ⟨plain,_⟩ | ⟨_,⟨id,read,_⟩ | ⟨_,same⟩⟩
  · exact absurd plain marked
  · exact absurd read (unread id)
  · rw [same,if_pos failed]

end First

theorem invoke_synchronous {config : ProtocolRPCClientConfig} {input : V}
    (nonempty : isEmptyValue input = false) (synchronous : config.async = false)
    (functor : AnyFunctor σ V) (startTimestamp : UInt64) (clock : Nat → UInt64) (polls : Nat)
    (output : V) (s : σ) :
    invoke functor config startTimestamp clock polls input output s =
      (some (handleSyncInvoke functor config input output s).1,
       (handleSyncInvoke functor config input output s).2) := by
  simp [invoke,nonempty,synchronous]

theorem invoke_asynchronous {config : ProtocolRPCClientConfig} {input : V}
    (nonempty : isEmptyValue input = false) (asynchronous : config.async = true)
    (functor : AnyFunctor σ V) (startTimestamp : UInt64) (clock : Nat → UInt64) (polls : Nat)
    (output : V) (s : σ) :
    invoke functor config startTimestamp clock polls input output s =
      handleAsyncInvoke functor config startTimestamp clock polls input output s := by
  simp [invoke,nonempty,asynchronous]

end Steps

-- A preorder that every answered packet respects is respected by whole calls.
section Advance
variable {σ : Type} {R : σ → σ → Prop} {functor : AnyFunctor σ V}

omit [AnyValue V] [Codec V] in
theorem send_advance (stays : ∀ s, R s s) (sent : ∀ packet s, R s (functor packet s).2)
    (request : Except Exception V) (s : σ) : R s (send functor request s).2 := by
  cases request with
  | error error => exact stays s
  | ok packet =>
    have moved := sent packet s
    rcases answered : functor packet s with ⟨_ | reply,t⟩ <;>
      (rw [answered] at moved; simpa [send,answered] using moved)

theorem pollOnce_advance (stays : ∀ s, R s s) (sent : ∀ packet s, R s (functor packet s).2)
    (invocation : AsyncInvocation V) (s : σ) : R s (invocation.pollOnce functor s).2 := by
  have moved := send_advance stays sent (createAsyncRPCPoll invocation.id invocation.encoding) s
  unfold pollOnce
  split
  · exact stays s
  · split <;> (rename_i answered; rw [answered] at moved; exact moved)

theorem polls_advance (stays : ∀ s, R s s) (trans : ∀ s t u, R s t → R t u → R s u)
    (sent : ∀ packet s, R s (functor packet s).2) (invocation : AsyncInvocation V)
    (handler : PollingTimeoutHandler) (clock : Nat → UInt64) (polls : Nat) :
    ∀ (k : Nat) (s : σ), R s (pollUntilReady functor invocation handler clock polls k s).2 := by
  induction polls with
  | zero => exact fun _ s => stays s
  | succ polls ih =>
    intro k s
    have moved := pollOnce_advance stays sent invocation s
    rcases polls_cases functor invocation handler clock polls k s with ended | goesOn
    · rw [ended]
      exact moved
    · rw [goesOn]
      exact trans _ _ _ moved (ih (k+1) _)

theorem firstPoll_advance (stays : ∀ s, R s s) (trans : ∀ s t u, R s t → R t u → R s u)
    (sent : ∀ packet s, R s (functor packet s).2) (invocation : AsyncInvocation V)
    (handler : PollingTimeoutHandler) (clock : Nat → UInt64) (polls k : Nat) (s : σ) :
    R (invocation.pollOnce functor s).2
      (pollUntilReady functor invocation handler clock (polls+1) k s).2 := by
  rcases polls_cases functor invocation handler clock polls k s with ended | goesOn
  · rw [ended]
    exact stays _
  · rw [goesOn]
    exact polls_advance stays trans sent invocation handler clock polls (k+1) _

theorem getReply_advance (stays : ∀ s, R s s) (sent : ∀ packet s, R s (functor packet s).2)
    (invocation : AsyncInvocation V) (output : V) (s : σ) :
    R s (invocation.getReply functor output s).2.2 := by
  have moved := send_advance stays sent (createAsyncRPCGetReply invocation.id invocation.encoding) s
  unfold AsyncInvocation.getReply
  split
  · exact stays s
  · split <;> (rename_i answered; rw [answered] at moved; exact moved)

theorem awaitReply_advance (stays : ∀ s, R s s) (trans : ∀ s t u, R s t → R t u → R s u)
    (sent : ∀ packet s, R s (functor packet s).2) (config : ProtocolRPCClientConfig)
    (startTimestamp : UInt64) (clock : Nat → UInt64) (polls : Nat) (invocation : AsyncInvocation V)
    (output : V) (s : σ) :
    R s (awaitReply functor config startTimestamp clock polls invocation output s).2 := by
  cases synchronous : invocation.synchronous with
  | true =>
    rw [awaitReply_synchronous synchronous]
    exact stays s
  | false =>
    have moved := polls_advance stays trans sent invocation (config.handler startTimestamp) clock
      polls 0 s
    rw [awaitReply_concluded synchronous]
    rcases looped : pollUntilReady functor invocation (config.handler startTimestamp) clock polls 0 s
      with ⟨ended,t⟩
    rw [looped] at moved
    cases ended with
    | unfinished => exact moved
    | returned result => exact moved
    | ready => exact trans _ _ _ moved (getReply_advance stays sent invocation output t)

theorem started_advance (stays : ∀ s, R s s) (trans : ∀ s t u, R s t → R t u → R s u)
    (sent : ∀ packet s, R s (functor packet s).2) (config : ProtocolRPCClientConfig)
    (startTimestamp : UInt64) (clock : Nat → UInt64) (polls : Nat) (input output : V) (s : σ) :
    R ((make config.encoding).start functor input s).2
      (handleAsyncInvoke functor config startTimestamp clock polls input output s).2 := by
  unfold handleAsyncInvoke
  rcases (make config.encoding).start functor input s with ⟨_ | ⟨startResult,invocation⟩,t⟩
  · exact stays t
  · dsimp only
    split
    · exact stays t
    · exact awaitReply_advance stays trans sent config startTimestamp clock polls invocation output t

end Advance

end SupProtocol
