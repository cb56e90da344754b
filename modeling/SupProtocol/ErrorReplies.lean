import SupProtocol.SyncTransport

namespace SupProtocol
open AsyncInvocation ProtocolRPCClient

variable {V : Type} {σ : Type}

def recording (functor : AnyFunctor σ V) : AnyFunctor (σ × List (V × V)) V :=
  fun request s =>
    match functor request s.1 with
    | (.error error,t) => (.error error,t,s.2)
    | (.ok reply,t) => (.ok reply,t,s.2 ++ [(request,reply)])

theorem recording_throws {functor : AnyFunctor σ V} {request : V} {s t : σ} {error : Exception}
    (thrown : functor request s = (.error error,t)) (log : List (V × V)) :
    recording functor request (s,log) = (.error error,t,log) := by
  simp only [recording,thrown]

theorem recording_replies {functor : AnyFunctor σ V} {request reply : V} {s t : σ}
    (replied : functor request s = (.ok reply,t)) (log : List (V × V)) :
    recording functor request (s,log) = (.ok reply,t,log ++ [(request,reply)]) := by
  simp only [recording,replied]

variable [AnyValue V] [Codec V]

structure ErrorReply (reply : V) (r : ProtocolResult) : Prop where
  format : checkReplyFormat reply = true
  result : tryExtractProtocolResult reply = some r
  failed : r ≠ .success

-- The two steps that read a reply for something else than its result.
def IsPoll (request : V) : Prop := getAsyncInfo request = some .kPoll
def IsAccepted (request reply : V) : Prop :=
  getAsyncInfo request = some .kInitialRequest ∧ getAsyncInfo reply ≠ none

-- The code of an error reply is what Invoke returns, and what PollOnce or Start
-- returns where one of these received it.
structure Reported (invoked : Option (Invoked V)) (request reply : V) (r : ProtocolResult) : Prop where
  invoke : ∃ output, invoked = some ⟨.ok r,output⟩
  poll : IsPoll request → (polled reply).1 = r
  start : IsAccepted request reply → ∀ invocation : AsyncInvocation V, (invocation.started reply).1 = r

def ErrorsReported (invoked : Option (Invoked V)) (log : List (V × V)) : Prop :=
  ∀ exchange ∈ log, ∀ r, ErrorReply exchange.2 r → Reported invoked exchange.1 exchange.2 r

-- No error reply reaches one of these steps, unless it is a malformed one that
-- says so itself.
structure Unmasked (request reply : V) (r : ProtocolResult) : Prop where
  poll : IsPoll request → r = .clientTransportDecodingError ∧ ∀ ready, ¬ ReadyRead reply ready
  start : IsAccepted request reply → r = .clientTransportDecodingError ∧ ∀ id, ¬ IdRead reply id

def ErrorsUnmasked (log : List (V × V)) : Prop :=
  ∀ exchange ∈ log, ∀ r, ErrorReply exchange.2 r → Unmasked exchange.1 exchange.2 r

structure Accounted (invoked : Option (Invoked V)) (request reply : V) : Prop where
  last : ¬ IsPoll request → ¬ IsAccepted request reply → ∀ r, ErrorReply reply r →
    ∃ output, invoked = some ⟨.ok r,output⟩
  poll : IsPoll request → (polled reply).1 ≠ .success →
    ∃ output, invoked = some ⟨.ok (polled reply).1,output⟩
  start : IsAccepted request reply →
    ∀ invocation : AsyncInvocation V, (invocation.started reply).1 ≠ .success →
    ∃ output, invoked = some ⟨.ok (invocation.started reply).1,output⟩

theorem Accounted.reported {invoked : Option (Invoked V)} {request reply : V} {r : ProtocolResult}
    (accounted : Accounted invoked request reply) (error : ErrorReply reply r) :
    Reported invoked request reply r ↔ Unmasked request reply r := by
  constructor
  · intro reported
    refine ⟨?_,?_⟩
    · intro isPoll
      have same := reported.poll isPoll
      rcases polled_cases reply with ⟨success,_⟩ | ⟨refused,unread⟩
      · exact absurd (same.symm.trans success) error.failed
      · exact ⟨same.symm.trans refused,unread⟩
    · intro accepted
      have same := reported.start accepted (.make .kNone)
      rcases started_code accepted.2 (.make .kNone) with ⟨success,_⟩ | ⟨refused,unread⟩
      · exact absurd (same.symm.trans success) error.failed
      · exact ⟨same.symm.trans refused,unread⟩
  · intro unmasked
    have polls : IsPoll request → (polled reply).1 = r := by
      intro isPoll
      obtain ⟨code,unread⟩ := unmasked.poll isPoll
      rcases polled_cases reply with ⟨_,ready,read⟩ | ⟨refused,_⟩
      · exact absurd read (unread ready)
      · exact refused.trans code.symm
    have starts : IsAccepted request reply →
        ∀ invocation : AsyncInvocation V, (invocation.started reply).1 = r := by
      intro accepted invocation
      obtain ⟨code,unread⟩ := unmasked.start accepted
      rcases started_code accepted.2 invocation with ⟨_,id,read⟩ | ⟨refused,_⟩
      · exact absurd read (unread id)
      · exact refused.trans code.symm
    refine ⟨?_,polls,starts⟩
    by_cases isPoll : IsPoll request
    · rw [← polls isPoll]
      exact accounted.poll isPoll (by rw [polls isPoll]; exact error.failed)
    by_cases accepted : IsAccepted request reply
    · have same := starts accepted (.make .kNone)
      rw [← same]
      exact accounted.start accepted (.make .kNone) (by rw [same]; exact error.failed)
    · exact accounted.last isPoll accepted r error

section Runs
variable {functor : AnyFunctor σ V} {s : σ} {log : List (V × V)}

variable [LawfulAnyValue V]

theorem polls_recorded {invocation : AsyncInvocation V} (waiting : invocation.synchronous = false)
    (supported : isSupportedPayloadEncoding invocation.encoding = true) (functor : AnyFunctor σ V)
    (handler : PollingTimeoutHandler) (clock : Nat → UInt64) (polls : Nat) :
    ∀ (k : Nat) (s : σ) (log : List (V × V)), ∃ more,
      pollUntilReady (recording functor) invocation handler clock polls k (s,log) =
        ((pollUntilReady functor invocation handler clock polls k s).1,
         (pollUntilReady functor invocation handler clock polls k s).2,log ++ more) ∧
      ∀ exchange ∈ more, IsPoll exchange.1 ∧ ((polled exchange.2).1 ≠ .success →
        (pollUntilReady functor invocation handler clock polls k s).1 =
          .returned (.ok (polled exchange.2).1)) := by
  obtain ⟨_,packet,_,built,known⟩ :=
    createAsyncIdRequest_represents (V := V) invocation.id .kPoll supported
  have isPoll : IsPoll packet := known.command
  induction polls with
  | zero => exact fun k s log => ⟨[],by simp [pollUntilReady],by simp⟩
  | succ polls ih =>
    intro k s log
    rcases answered : functor packet s with ⟨_ | reply,t⟩
    · rw [polls_throws handler clock polls k waiting built answered,
        polls_throws handler clock polls k waiting built (recording_throws answered log)]
      exact ⟨[],by simp,by simp⟩
    · have noted := recording_replies answered log
      rcases polled_cases reply with ⟨success,ready,read⟩ | ⟨refused,_⟩
      · cases ready with
        | true =>
          rw [polls_ready handler clock polls k waiting built answered read,
            polls_ready handler clock polls k waiting built noted read]
          refine ⟨[(packet,reply)],rfl,?_⟩
          intro exchange member
          cases List.mem_singleton.mp member
          exact ⟨isPoll,fun failed => absurd success failed⟩
        | false =>
          rw [polls_waits handler clock polls k waiting built answered read,
            polls_waits handler clock polls k waiting built noted read]
          cases handler.wait (clock k) with
          | none =>
            refine ⟨[(packet,reply)],rfl,?_⟩
            intro exchange member
            cases List.mem_singleton.mp member
            exact ⟨isPoll,fun failed => absurd success failed⟩
          | some slept =>
            obtain ⟨more,same,rest⟩ := ih (k+1) t (log ++ [(packet,reply)])
            refine ⟨(packet,reply) :: more,by simp [same],?_⟩
            intro exchange member
            rcases List.mem_cons.mp member with rfl | later
            · exact ⟨isPoll,fun failed => absurd success failed⟩
            · exact rest exchange later
      · have failed : (polled reply).1 ≠ .success := by rw [refused]; decide
        rw [polls_refused handler clock polls k waiting built answered failed,
          polls_refused handler clock polls k waiting built noted failed]
        refine ⟨[(packet,reply)],rfl,?_⟩
        intro exchange member
        cases List.mem_singleton.mp member
        exact ⟨isPoll,fun _ => rfl⟩

omit [LawfulAnyValue V] in
theorem replied_error {reply : V} {r : ProtocolResult} (error : ErrorReply reply r) (output : V) :
    replied reply output = (r,output) := by
  simp [replied,error.result,error.failed]

omit [LawfulAnyValue V] in
theorem decodeReply_error {reply : V} {r : ProtocolResult} (error : ErrorReply reply r) (output : V) :
    decodeReply reply output = (r,output) := by
  simp [decodeReply,error.format,error.result,error.failed]

theorem getReply_recorded {invocation : AsyncInvocation V} (waiting : invocation.synchronous = false)
    (supported : isSupportedPayloadEncoding invocation.encoding = true) (functor : AnyFunctor σ V)
    (output : V) (s : σ) (log : List (V × V)) : ∃ more,
      invocation.getReply (recording functor) output (s,log) =
        ((invocation.getReply functor output s).1,(invocation.getReply functor output s).2.1,
         (invocation.getReply functor output s).2.2,log ++ more) ∧
      ∀ exchange ∈ more, getAsyncInfo exchange.1 = some .kGetReply ∧
        ∀ r, ErrorReply exchange.2 r → (invocation.getReply functor output s).1 = .ok r := by
  obtain ⟨_,packet,_,built,known⟩ :=
    createAsyncIdRequest_represents (V := V) invocation.id .kGetReply supported
  have request : createAsyncRPCGetReply invocation.id invocation.encoding = .ok packet := built
  rcases answered : functor packet s with ⟨_ | reply,t⟩
  · have once := getReply_throws waiting request answered output
    have noted := getReply_throws waiting request (recording_throws answered log) output
    exact ⟨[],by simp [once,noted],by simp⟩
  · have once := getReply_reads waiting request answered output
    have noted := getReply_reads waiting request (recording_replies answered log) output
    refine ⟨[(packet,reply)],by simp [once,noted],?_⟩
    intro exchange member
    cases List.mem_singleton.mp member
    refine ⟨known.command,?_⟩
    intro r error
    simp [once,replied_error error]

omit [LawfulAnyValue V] in
theorem poll_accounted {invoked : Option (Invoked V)} {request reply : V} (isPoll : IsPoll request)
    (ends : (polled reply).1 ≠ .success → ∃ output, invoked = some ⟨.ok (polled reply).1,output⟩) :
    Accounted invoked request reply := by
  refine ⟨fun other => absurd isPoll other,fun _ => ends,?_⟩
  rintro ⟨initial,_⟩
  cases isPoll.symm.trans initial

omit [LawfulAnyValue V] in
theorem getReply_accounted {invoked : Option (Invoked V)} {request reply : V}
    (asked : getAsyncInfo request = some .kGetReply)
    (ends : ∀ r, ErrorReply reply r → ∃ output, invoked = some ⟨.ok r,output⟩) :
    Accounted invoked request reply := by
  refine ⟨fun _ _ => ends,?_,?_⟩
  · intro isPoll
    cases asked.symm.trans isPoll
  · rintro ⟨initial,_⟩
    cases asked.symm.trans initial

theorem awaitReply_recorded {invocation : AsyncInvocation V} (waiting : invocation.synchronous = false)
    (supported : isSupportedPayloadEncoding invocation.encoding = true) (functor : AnyFunctor σ V)
    (config : ProtocolRPCClientConfig) (startTimestamp : UInt64) (clock : Nat → UInt64) (polls : Nat)
    (output : V) (s : σ) (log : List (V × V)) : ∃ more,
      awaitReply (recording functor) config startTimestamp clock polls invocation output (s,log) =
        ((awaitReply functor config startTimestamp clock polls invocation output s).1,
         (awaitReply functor config startTimestamp clock polls invocation output s).2,log ++ more) ∧
      ∀ exchange ∈ more, Accounted
        (awaitReply functor config startTimestamp clock polls invocation output s).1
        exchange.1 exchange.2 := by
  obtain ⟨polling,same,all⟩ := polls_recorded waiting supported functor
    (config.handler startTimestamp) clock polls 0 s log
  rw [awaitReply_concluded waiting,awaitReply_concluded waiting,same]
  rcases loop : pollUntilReady functor invocation (config.handler startTimestamp) clock polls 0 s
    with ⟨ended,t⟩
  rw [loop] at all
  cases ended with
  | unfinished =>
    refine ⟨polling,rfl,?_⟩
    intro exchange member
    obtain ⟨isPoll,ends⟩ := all exchange member
    exact poll_accounted isPoll fun failed => by cases ends failed
  | returned result =>
    refine ⟨polling,rfl,?_⟩
    intro exchange member
    obtain ⟨isPoll,ends⟩ := all exchange member
    refine poll_accounted isPoll fun failed => ⟨output,?_⟩
    cases ends failed
    rfl
  | ready =>
    obtain ⟨fetching,again,last⟩ := getReply_recorded waiting supported functor output t (log ++ polling)
    refine ⟨polling ++ fetching,?_,?_⟩
    · simp [concluded,again]
    · intro exchange member
      rcases List.mem_append.mp member with polled | fetched
      · obtain ⟨isPoll,ends⟩ := all exchange polled
        exact poll_accounted isPoll fun failed => by cases ends failed
      · obtain ⟨asked,ends⟩ := last exchange fetched
        refine getReply_accounted asked fun r error => ⟨(invocation.getReply functor output t).2.1,?_⟩
        rw [← ends r error]
        rfl

omit [LawfulAnyValue V] in
theorem plain_accounted {invoked : Option (Invoked V)} {request reply : V}
    (initial : getAsyncInfo request = some .kInitialRequest) (plain : getAsyncInfo reply = none)
    (ends : ∀ r, ErrorReply reply r → ∃ output, invoked = some ⟨.ok r,output⟩) :
    Accounted invoked request reply := by
  refine ⟨fun _ _ => ends,?_,fun accepted => absurd plain accepted.2⟩
  intro isPoll
  cases initial.symm.trans isPoll

omit [LawfulAnyValue V] in
theorem marked_accounted {invoked : Option (Invoked V)} {request reply : V}
    (initial : getAsyncInfo request = some .kInitialRequest) (marked : getAsyncInfo reply ≠ none)
    (ends : (∀ id, ¬ IdRead reply id) →
      ∃ output, invoked = some ⟨.ok .clientTransportDecodingError,output⟩) :
    Accounted invoked request reply := by
  refine ⟨fun _ unaccepted => absurd ⟨initial,marked⟩ unaccepted,?_,?_⟩
  · intro isPoll
    cases initial.symm.trans isPoll
  · intro _ invocation failed
    rcases started_code marked invocation with ⟨success,_⟩ | ⟨code,unread⟩
    · exact absurd success failed
    · rw [code]
      exact ends unread

theorem handleAsyncInvoke_recorded {input : V} (nonempty : isEmptyValue input = false)
    (config : ProtocolRPCClientConfig)
    (supported : isSupportedPayloadEncoding config.encoding = true) (functor : AnyFunctor σ V)
    (startTimestamp : UInt64) (clock : Nat → UInt64) (polls : Nat) (output : V) (s : σ)
    (log : List (V × V)) : ∃ more,
      handleAsyncInvoke (recording functor) config startTimestamp clock polls input output (s,log) =
        ((handleAsyncInvoke functor config startTimestamp clock polls input output s).1,
         (handleAsyncInvoke functor config startTimestamp clock polls input output s).2,log ++ more) ∧
      ∀ exchange ∈ more, Accounted
        (handleAsyncInvoke functor config startTimestamp clock polls input output s).1
        exchange.1 exchange.2 := by
  obtain ⟨packet,built,known⟩ := createAsyncRPCRequest_represents nonempty supported
  rcases answered : functor packet s with ⟨_ | reply,t⟩
  · rw [handleAsyncInvoke_throws startTimestamp clock polls output built answered,
      handleAsyncInvoke_throws startTimestamp clock polls output built (recording_throws answered log)]
    exact ⟨[],by simp,by simp⟩
  · have noted := recording_replies answered log
    rcases reply_cases reply with plain | ⟨marked,⟨id,read⟩ | unread⟩
    · rw [handleAsyncInvoke_plain startTimestamp clock polls output built answered plain,
        handleAsyncInvoke_plain startTimestamp clock polls output built noted plain]
      refine ⟨[(packet,reply)],rfl,?_⟩
      intro exchange member
      cases List.mem_singleton.mp member
      apply plain_accounted known.command plain
      intro r error
      rw [decodeReply_error error]
      exact ⟨output,rfl⟩
    · have waiting : (⟨config.encoding,id,false,empty⟩ : AsyncInvocation V).synchronous = false := rfl
      obtain ⟨more,again,all⟩ := awaitReply_recorded waiting supported functor config startTimestamp
        clock polls output t (log ++ [(packet,reply)])
      rw [handleAsyncInvoke_accepted startTimestamp clock polls output built answered marked read,
        handleAsyncInvoke_accepted startTimestamp clock polls output built noted marked read]
      refine ⟨(packet,reply) :: more,by simp [again],?_⟩
      intro exchange member
      rcases List.mem_cons.mp member with rfl | later
      · apply marked_accounted known.command marked
        intro unread
        exact absurd read (unread id)
      · exact all exchange later
    · rw [handleAsyncInvoke_refused startTimestamp clock polls output built answered marked unread,
        handleAsyncInvoke_refused startTimestamp clock polls output built noted marked unread]
      refine ⟨[(packet,reply)],rfl,?_⟩
      intro exchange member
      cases List.mem_singleton.mp member
      apply marked_accounted known.command marked
      exact fun _ => ⟨output,rfl⟩

theorem handleSyncInvoke_recorded {input : V} (nonempty : isEmptyValue input = false)
    (config : ProtocolRPCClientConfig)
    (supported : isSupportedPayloadEncoding config.encoding = true) (functor : AnyFunctor σ V)
    (output : V) (s : σ) (log : List (V × V)) : ∃ more,
      handleSyncInvoke (recording functor) config input output (s,log) =
        ((handleSyncInvoke functor config input output s).1,
         (handleSyncInvoke functor config input output s).2,log ++ more) ∧
      ∀ exchange ∈ more, Accounted (some (handleSyncInvoke functor config input output s).1)
        exchange.1 exchange.2 := by
  obtain ⟨packet,built,known⟩ := createRPCRequest_represents nonempty supported
  have plain : getAsyncInfo packet = none := known.command
  rcases answered : functor packet s with ⟨_ | reply,t⟩
  · have noted := recording_throws answered log
    exact ⟨[],by simp [handleSyncInvoke,exchange,send,built,answered,noted],by simp⟩
  · have noted := recording_replies answered log
    refine ⟨[(packet,reply)],by simp [handleSyncInvoke,exchange,send,built,answered,noted],?_⟩
    intro exchange member
    cases List.mem_singleton.mp member
    refine ⟨fun _ _ r error => ⟨output,?_⟩,?_,?_⟩
    · simp [handleSyncInvoke,ProtocolRPCClient.exchange,send,built,answered,decodeReply_same,
        decodeReply_error error]
    · intro isPoll
      cases plain.symm.trans isPoll
    · rintro ⟨initial,_⟩
      cases plain.symm.trans initial

theorem invoke_recorded {input : V} (nonempty : isEmptyValue input = false)
    (config : ProtocolRPCClientConfig)
    (supported : isSupportedPayloadEncoding config.encoding = true) (functor : AnyFunctor σ V)
    (startTimestamp : UInt64) (clock : Nat → UInt64) (polls : Nat) (output : V) (s : σ)
    (log : List (V × V)) : ∃ more,
      invoke (recording functor) config startTimestamp clock polls input output (s,log) =
        ((invoke functor config startTimestamp clock polls input output s).1,
         (invoke functor config startTimestamp clock polls input output s).2,log ++ more) ∧
      ∀ exchange ∈ more, Accounted
        (invoke functor config startTimestamp clock polls input output s).1 exchange.1 exchange.2 := by
  cases async : config.async with
  | true =>
    obtain ⟨more,same,all⟩ := handleAsyncInvoke_recorded nonempty config supported functor
      startTimestamp clock polls output s log
    simp only [invoke_asynchronous nonempty async]
    exact ⟨more,same,all⟩
  | false =>
    obtain ⟨more,same,all⟩ := handleSyncInvoke_recorded nonempty config supported functor output s log
    simp only [invoke_synchronous nonempty async]
    exact ⟨more,by rw [same],all⟩

end Runs

def exchanges (functor : AnyFunctor σ V) (config : ProtocolRPCClientConfig) (startTimestamp : UInt64)
    (clock : Nat → UInt64) (polls : Nat) (input output : V) (s : σ) : List (V × V) :=
  (invoke (recording functor) config startTimestamp clock polls input output (s,[])).2.2

-- However the functor behaves, error codes reach the caller exactly in the runs in
-- which none of them comes in a reply that is read for something else.
theorem errors_reported_exact [LawfulAnyValue V] (functor : AnyFunctor σ V)
    (config : ProtocolRPCClientConfig)
    (supported : isSupportedPayloadEncoding config.encoding = true) (startTimestamp : UInt64)
    (clock : Nat → UInt64) (polls : Nat) (input output : V)
    (nonempty : isEmptyValue input = false) (s : σ) :
    ErrorsReported (invoke functor config startTimestamp clock polls input output s).1
        (exchanges functor config startTimestamp clock polls input output s) ↔
      ErrorsUnmasked (exchanges functor config startTimestamp clock polls input output s) := by
  obtain ⟨more,same,all⟩ := invoke_recorded nonempty config supported functor startTimestamp clock
    polls output s []
  have log : exchanges functor config startTimestamp clock polls input output s = more := by
    simp [exchanges,same]
  rw [log]
  constructor
  · intro reported exchange member r error
    exact ((all exchange member).reported error).mp (reported exchange member r error)
  · intro unmasked exchange member r error
    exact ((all exchange member).reported error).mpr (unmasked exchange member r error)

-- A server whose first request ends and is then withdrawn by another client,
-- just before its own client polls for it.
def withdrawing : Nat → Schedule Reference.Value := fun k =>
  if k = 1 then
    ⟨[.complete 0 (.ok (.success,.string "done")),
      .handleInvoke (Reference.namedRequest 1) .kNone .kInvalidate (AsyncInvokeServer.instant 5)],
     5,AsyncInvokeServer.instant 5,[],AsyncInvokeServer.instant 6⟩
  else ⟨[],1,AsyncInvokeServer.instant 1,[],AsyncInvokeServer.instant 1⟩

def withdrawnLink : AnyFunctor (Link Reference.Value) Reference.Value :=
  Link.functor ⟨fun _ _ => .ok (.success,.string "done"),fun _ _ => .ok (.success,.empty)⟩ withdrawing

def withdrawnRun : Option (Invoked Reference.Value) × Link Reference.Value :=
  invoke withdrawnLink ⟨.kNone,true,1000,1⟩ 0 (fun _ => 0) 5 (.string "measure") .empty
    (.connect 10 ⟨0,1000⟩ [])

def withdrawnLog : List (Reference.Value × Reference.Value) :=
  exchanges withdrawnLink ⟨.kNone,true,1000,1⟩ 0 (fun _ => 0) 5 (.string "measure") .empty
    (.connect 10 ⟨0,1000⟩ [])

theorem errors_reported_withdrawn :
    ErrorsReported withdrawnRun.1 withdrawnLog ↔ ErrorsUnmasked withdrawnLog :=
  errors_reported_exact withdrawnLink ⟨.kNone,true,1000,1⟩ rfl 0 (fun _ => 0) 5
    (Reference.Value.string "measure") Reference.Value.empty rfl (.connect 10 ⟨0,1000⟩ [])

-- The poll is answered InvalidRequestIdentifierError, and both PollOnce and
-- Invoke return ClientTransportDecodingError.
def withdrawnReply : Reference.Value :=
  .withMember (.withMember (.emptyStruct replyTypeName) replyResult (.unsignedInteger32 15))
    asyncCommandFieldName (.unsignedInteger32 1)

theorem poll_error_masked :
    ErrorReply withdrawnReply .invalidRequestIdentifierError ∧
    (∃ poll, (poll,withdrawnReply) ∈ withdrawnLog ∧ IsPoll poll) ∧
    (polled withdrawnReply).1 = .clientTransportDecodingError ∧
    withdrawnRun.1 = some ⟨.ok .clientTransportDecodingError,.empty⟩ ∧
    ¬ ErrorsReported withdrawnRun.1 withdrawnLog := by
  have error : ErrorReply withdrawnReply .invalidRequestIdentifierError :=
    ⟨by decide,by decide,by decide⟩
  have polling : (Reference.Value.withMember (.withMember (.emptyStruct requestTypeName) requestPayload
      (Reference.namedRequest 1)) asyncCommandFieldName (.unsignedInteger32 1),withdrawnReply) ∈
      withdrawnLog := by decide
  have ended : withdrawnRun.1 = some ⟨.ok .clientTransportDecodingError,.empty⟩ := rfl
  refine ⟨error,⟨_,polling,rfl⟩,by decide,ended,?_⟩
  intro reported
  obtain ⟨output,same⟩ := (reported _ polling _ error).invoke
  rw [ended] at same
  cases same

end SupProtocol
