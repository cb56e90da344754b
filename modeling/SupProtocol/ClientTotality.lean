import SupProtocol.Library.Machine
import SupProtocol.PacketLayout
import SupProtocol.ReferenceValue
import SupProtocol.ReplyAccess

namespace SupProtocol
open AsyncInvocation ProtocolRPCClient Machine

variable {V : Type} [AnyValue V] [Codec V] {σ : Type}

-- A call lets no exception out, and only a success touches its output.
structure Total (invoked : Invoked V) (output : V) : Prop where
  quiet : ∃ result, invoked.result = .ok result
  atomic : invoked.result ≠ .ok .success → invoked.output = output

inductive OwnerCall (V : Type) [AnyValue V] where
  | start (input : V) (nonempty : isEmptyValue input = false)
  | pollOnce
  | getReply (output : V)
  | invalidate

inductive Ended (V : Type) where
  | started (result : Except Exception ProtocolResult)
  | polled (status : Except Exception (ProtocolResult × Bool))
  | replied (invoked : Invoked V)
  | invalidated (done : Except Exception Unit)

def owned (functor : AnyFunctor σ V) (s : AsyncInvocation V × σ) :
    OwnerCall V → Ended V × (AsyncInvocation V × σ)
  | .start input _ =>
    match s.1.start functor input s.2 with
    | (.error error,t) => (.started (.error error),s.1,t)
    | (.ok (result,invocation),t) => (.started (.ok result),invocation,t)
  | .pollOnce =>
    let (status,t) := s.1.pollOnce functor s.2
    (.polled status,s.1,t)
  | .getReply output =>
    let (result,output,t) := s.1.getReply functor output s.2
    (.replied ⟨result,output⟩,s.1,t)
  | .invalidate =>
    let (done,t) := s.1.invalidate functor s.2
    (.invalidated done,s.1,t)

def Ended.Proper : OwnerCall V → Ended V → Prop
  | .start _ _,.started result => ∃ code, result = .ok code
  | .pollOnce,.polled status => ∃ reported, status = .ok reported
  | .getReply output,.replied invoked => Total invoked output
  | .invalidate,.invalidated done => done = .ok ()
  | _,_ => False

-- An accepted synchronous reply has been checked.
def Consistent (invocation : AsyncInvocation V) : Prop :=
  invocation.isSynchronous = true → checkReplyFormat invocation.syncReply = true

structure ClientTotal (functor : AnyFunctor σ V) (config : ProtocolRPCClientConfig) : Prop where
  decoders : DecodersGuarded V
  invoke : ∀ startTimestamp clock polls input output s invoked,
    (ProtocolRPCClient.invoke functor config startTimestamp clock polls input output s).1 = some invoked →
    Total invoked output
  synchronous : config.async = false → ∀ startTimestamp clock polls input output s,
    (ProtocolRPCClient.invoke functor config startTimestamp clock polls input output s).1.isSome = true
  service : ∀ input output s, Total (ProtocolRPCClient.service functor config input output s).1 output
  owner : ∀ calls s, ∀ r ∈ history (owned functor) (AsyncInvocation.make config.encoding,s) calls,
    Ended.Proper r.event r.output ∧ Consistent r.before.1 ∧ Consistent r.after.1

section Decoding
variable (kept : ∀ target value : V, (tryAssignIfEmptyOrConvert target value).1 = false →
  (tryAssignIfEmptyOrConvert target value).2 = target)

include kept

omit [Codec V] in
theorem acceptPayload_atomic (payloadInfo : Option V) (output : V)
    (failed : (acceptPayload payloadInfo output).1 ≠ .success) :
    (acceptPayload payloadInfo output).2 = output := by
  revert failed
  unfold acceptPayload
  cases payloadInfo with
  | none => simp
  | some payload =>
    by_cases bare : isEmptyValue payload = true
    · simp [bare]
    · by_cases taken : (tryAssignIfEmptyOrConvert output payload).1 = true
      · simp [bare,taken]
      · simp [bare,taken,kept output payload (by simpa using taken)]

theorem replied_atomic (reply output : V) (failed : (replied reply output).1 ≠ .success) :
    (replied reply output).2 = output := by
  revert failed
  unfold replied
  cases tryExtractProtocolResult reply with
  | none => simp
  | some result =>
    by_cases success : result = .success
    · simpa [success] using acceptPayload_atomic kept (tryGetReplyPayload reply) output
    · simp [success]

theorem checked_atomic {decoded : ProtocolResult × V} {reply output : V} {refused : Bool}
    (guarded : (if refused then return (.clientTransportDecodingError,output)
      else Access.replied reply output) = .ok decoded)
    (failed : decoded.1 ≠ .success) : decoded.2 = output := by
  cases refused with
  | true =>
    cases guarded
    rfl
  | false =>
    have same : replied reply output = decoded :=
      Except.ok.inj ((replied_guarded reply output).symm.trans guarded)
    rw [← same] at failed ⊢
    exact replied_atomic kept reply output failed

theorem decodeReply_atomic (reply output : V) (failed : (decodeReply reply output).1 ≠ .success) :
    (decodeReply reply output).2 = output :=
  checked_atomic kept (decodeReply_guarded reply output) failed

theorem serviced_atomic (reply output : V) (failed : (serviced reply output).1 ≠ .success) :
    (serviced reply output).2 = output :=
  checked_atomic kept (serviced_guarded reply output) failed

end Decoding

omit [Codec V] in
theorem make_consistent (encoding : PayloadEncoding) :
    Consistent (AsyncInvocation.make encoding : AsyncInvocation V) := by
  intro marked
  cases marked

theorem started_encoding (invocation : AsyncInvocation V) (reply : V) :
    (invocation.started reply).2.encoding = invocation.encoding := by
  rcases started_cases invocation reply with ⟨_,⟨_,same⟩ | ⟨_,same⟩⟩ | ⟨_,⟨_,_,same⟩ | ⟨_,same⟩⟩ <;>
    rw [same]

theorem started_consistent {invocation : AsyncInvocation V} (consistent : Consistent invocation)
    (reply : V) : Consistent (invocation.started reply).2 := by
  rcases started_cases invocation reply with ⟨_,⟨checked,same⟩ | ⟨_,same⟩⟩ | ⟨_,⟨_,_,same⟩ | ⟨_,same⟩⟩
  · rw [same]
    exact fun _ => checked
  · rw [same]
    exact consistent
  · rw [same]
    exact consistent
  · rw [same]
    exact consistent

section Calls
variable [LawfulAnyValue V] {encoding : PayloadEncoding}
  (supported : isSupportedPayloadEncoding encoding = true) (functor : AnyFunctor σ V)

omit [AnyValue V] [Codec V] [LawfulAnyValue V] in
theorem exchange_total {request : Except Exception V} {packet : V} (built : request = .ok packet)
    {decode : V → V → ProtocolResult × V}
    (atomic : ∀ reply output, (decode reply output).1 ≠ .success → (decode reply output).2 = output)
    (output : V) (s : σ) : Total (exchange functor request decode output s).1 output := by
  rcases answered : functor packet s with ⟨error | reply,t⟩
  · simp only [exchange,send,built,answered]
    exact ⟨⟨_,rfl⟩,fun _ => rfl⟩
  · rw [exchange_answered built answered]
    exact ⟨⟨_,rfl⟩,fun failed => atomic reply output (fun same => failed (congrArg _ same))⟩

include supported

theorem start_quiet (invocation : AsyncInvocation V) (same : invocation.encoding = encoding) {input : V}
    (nonempty : isEmptyValue input = false) (s : σ) :
    ∃ answer, (invocation.start functor input s).1 = .ok answer ∧
      (answer.2 = invocation ∨ ∃ reply, answer = invocation.started reply) := by
  obtain ⟨packet,built,_⟩ := createAsyncRPCRequest_represents (V := V) nonempty supported
  rw [← same] at built
  rcases answered : functor packet s with ⟨error | reply,t⟩
  · exact ⟨_,congrArg Prod.fst (start_throws built answered),Or.inl rfl⟩
  · exact ⟨_,congrArg Prod.fst (start_reads built answered),Or.inr ⟨reply,rfl⟩⟩

theorem pollOnce_quiet (invocation : AsyncInvocation V) (same : invocation.encoding = encoding) (s : σ) :
    ∃ status, (invocation.pollOnce functor s).1 = .ok status := by
  obtain ⟨_,packet,_,built,_⟩ :=
    createAsyncIdRequest_represents (V := V) invocation.id .kPoll supported
  rw [← same] at built
  cases waiting : invocation.synchronous with
  | true => exact ⟨(.success,true),by simp [pollOnce,waiting]⟩
  | false =>
    rcases answered : functor packet s with ⟨error | reply,t⟩
    · exact ⟨_,congrArg Prod.fst (pollOnce_throws waiting built answered)⟩
    · exact ⟨_,congrArg Prod.fst (pollOnce_reads waiting built answered)⟩

theorem invalidate_quiet (invocation : AsyncInvocation V) (same : invocation.encoding = encoding) (s : σ) :
    (invocation.invalidate functor s).1 = .ok () := by
  obtain ⟨_,packet,_,built,_⟩ :=
    createAsyncIdRequest_represents (V := V) invocation.id .kInvalidate supported
  rw [← same] at built
  unfold invalidate createAsyncRPCInvalidate
  rw [built]
  split
  · rfl
  · rcases answered : functor packet s with ⟨error | reply,t⟩ <;> simp [send,answered]

theorem polls_quiet (invocation : AsyncInvocation V) (same : invocation.encoding = encoding)
    (handler : PollingTimeoutHandler) (clock : Nat → UInt64) (polls : Nat) :
    ∀ (k : Nat) (s : σ) (result : Except Exception ProtocolResult),
      (pollUntilReady functor invocation handler clock polls k s).1 = .returned result →
      ∃ code, result = .ok code ∧ code ≠ .success := by
  induction polls with
  | zero => exact fun _ _ _ unfinished => by cases unfinished
  | succ polls ih =>
    intro k s result returned
    obtain ⟨status,polled⟩ := pollOnce_quiet supported functor invocation same s
    rw [pollUntilReady] at returned
    rcases once : invocation.pollOnce functor s with ⟨outcome,t⟩
    rw [once] at polled returned
    dsimp only at polled
    subst outcome
    dsimp only at returned
    split at returned
    · rename_i failed
      cases returned
      exact ⟨_,rfl,failed⟩
    · split at returned
      · cases returned
      · cases slept : handler.wait (clock k) with
        | none =>
          rw [slept] at returned
          cases returned
          exact ⟨_,rfl,by decide⟩
        | some interval =>
          rw [slept] at returned
          exact ih (k+1) t result returned

variable (kept : ∀ target value : V, (tryAssignIfEmptyOrConvert target value).1 = false →
  (tryAssignIfEmptyOrConvert target value).2 = target)

include kept

theorem getReply_total (invocation : AsyncInvocation V) (same : invocation.encoding = encoding)
    (output : V) (s : σ) :
    Total ⟨(invocation.getReply functor output s).1,(invocation.getReply functor output s).2.1⟩
      output := by
  obtain ⟨_,packet,_,built,_⟩ :=
    createAsyncIdRequest_represents (V := V) invocation.id .kGetReply supported
  rw [← same] at built
  cases waiting : invocation.synchronous with
  | true =>
    simp only [getReply,waiting]
    refine ⟨⟨_,rfl⟩,?_⟩
    intro failed
    exact decodeReply_atomic kept _ _ (fun success => failed (congrArg _ success))
  | false =>
    rcases answered : functor packet s with ⟨error | reply,t⟩
    · rw [getReply_throws waiting built answered]
      exact ⟨⟨_,rfl⟩,fun _ => rfl⟩
    · rw [getReply_reads waiting built answered]
      refine ⟨⟨_,rfl⟩,?_⟩
      intro failed
      exact replied_atomic kept _ _ (fun success => failed (congrArg _ success))

theorem awaitReply_total (invocation : AsyncInvocation V) (same : invocation.encoding = encoding)
    (config : ProtocolRPCClientConfig) (startTimestamp : UInt64) (clock : Nat → UInt64) (polls : Nat)
    (output : V) (s : σ) (invoked : Invoked V)
    (ended : (awaitReply functor config startTimestamp clock polls invocation output s).1 = some invoked) :
    Total invoked output := by
  have fetched := getReply_total supported functor kept invocation same output
  cases synchronous : invocation.synchronous with
  | true =>
    have decoded := fetched s
    simp only [getReply,synchronous,if_true] at decoded
    rw [awaitReply_synchronous synchronous] at ended
    cases ended
    exact decoded
  | false =>
    have quiet := polls_quiet supported functor invocation same (config.handler startTimestamp) clock
      polls 0 s
    rw [awaitReply_concluded synchronous] at ended
    rcases looped : pollUntilReady functor invocation (config.handler startTimestamp) clock polls 0 s
      with ⟨polling,t⟩
    rw [looped] at quiet ended
    cases polling with
    | unfinished => cases ended
    | returned result =>
      obtain ⟨code,rfl,_⟩ := quiet result rfl
      cases ended
      exact ⟨⟨code,rfl⟩,fun _ => rfl⟩
    | ready =>
      cases ended
      exact fetched t

theorem handleAsyncInvoke_total (config : ProtocolRPCClientConfig) (same : config.encoding = encoding)
    (startTimestamp : UInt64) (clock : Nat → UInt64) (polls : Nat) {input : V}
    (nonempty : isEmptyValue input = false) (output : V) (s : σ) (invoked : Invoked V)
    (ended : (handleAsyncInvoke functor config startTimestamp clock polls input output s).1 =
      some invoked) : Total invoked output := by
  obtain ⟨answer,started,kinds⟩ :=
    start_quiet supported functor (.make config.encoding) same nonempty s
  unfold handleAsyncInvoke at ended
  rcases first : (AsyncInvocation.make config.encoding).start functor input s with ⟨outcome,t⟩
  rw [first] at started ended
  dsimp only at started
  subst outcome
  dsimp only at ended
  split at ended
  · cases ended
    exact ⟨⟨_,rfl⟩,fun _ => rfl⟩
  · refine awaitReply_total supported functor kept answer.2 ?_ config startTimestamp clock polls output
      t invoked ended
    rcases kinds with unchanged | ⟨reply,rfl⟩
    · rw [unchanged]
      exact same
    · rw [started_encoding]
      exact same

theorem owned_total (s : AsyncInvocation V × σ) (call : OwnerCall V) (same : s.1.encoding = encoding)
    (consistent : Consistent s.1) :
    Ended.Proper call (owned functor s call).1 ∧ (owned functor s call).2.1.encoding = encoding ∧
      Consistent (owned functor s call).2.1 := by
  cases call with
  | start input nonempty =>
    obtain ⟨answer,started,kinds⟩ := start_quiet supported functor s.1 same nonempty s.2
    rcases first : s.1.start functor input s.2 with ⟨outcome,t⟩
    rw [first] at started
    dsimp only at started
    subst outcome
    simp only [owned,first]
    rcases kinds with unchanged | ⟨reply,rfl⟩
    · rw [unchanged]
      exact ⟨⟨_,rfl⟩,same,consistent⟩
    · exact ⟨⟨_,rfl⟩,(started_encoding s.1 reply).trans same,started_consistent consistent reply⟩
  | pollOnce => exact ⟨pollOnce_quiet supported functor s.1 same s.2,same,consistent⟩
  | getReply output => exact ⟨getReply_total supported functor kept s.1 same output s.2,same,consistent⟩
  | invalidate => exact ⟨invalidate_quiet supported functor s.1 same s.2,same,consistent⟩

end Calls

theorem client_total [LawfulAnyValue V] (functor : AnyFunctor σ V) (config : ProtocolRPCClientConfig)
    (supported : isSupportedPayloadEncoding config.encoding = true)
    (kept : ∀ target value : V, (tryAssignIfEmptyOrConvert target value).1 = false →
      (tryAssignIfEmptyOrConvert target value).2 = target) : ClientTotal functor config where
  decoders := decoders_guarded
  invoke startTimestamp clock polls input output s invoked ended := by
    cases nonempty : isEmptyValue input with
    | true =>
      simp only [ProtocolRPCClient.invoke,nonempty] at ended
      cases ended
      exact ⟨⟨_,rfl⟩,fun _ => rfl⟩
    | false =>
      cases asynchronous : config.async with
      | true =>
        rw [invoke_asynchronous nonempty asynchronous] at ended
        exact handleAsyncInvoke_total supported functor kept config rfl startTimestamp clock polls
          nonempty output s invoked ended
      | false =>
        obtain ⟨packet,built,_⟩ := createRPCRequest_represents (V := V) nonempty supported
        rw [invoke_synchronous nonempty asynchronous] at ended
        cases ended
        exact exchange_total functor built (decodeReply_atomic kept) output s
  synchronous synchronous startTimestamp clock polls input output s := by
    cases nonempty : isEmptyValue input with
    | true => simp [ProtocolRPCClient.invoke,nonempty]
    | false =>
      rw [invoke_synchronous nonempty synchronous]
      rfl
  service input output s := by
    cases nonempty : isEmptyValue input with
    | true =>
      simp only [ProtocolRPCClient.service,nonempty]
      exact ⟨⟨_,rfl⟩,fun _ => rfl⟩
    | false =>
      obtain ⟨packet,built,_⟩ := createServiceRequest_represents (V := V) nonempty supported
      simp only [ProtocolRPCClient.service,nonempty]
      exact exchange_total functor built (serviced_atomic kept) output s
  owner calls s r known := by
    have once := owned_total supported functor kept
    obtain ⟨before,call,_,_,rfl⟩ := history_member known
    have reached := run_preserves
      (P := fun s : AsyncInvocation V × σ => s.1.encoding = config.encoding ∧ Consistent s.1)
      (fun s event held => (once s event held.1 held.2).2)
      (s := (.make config.encoding,s)) ⟨rfl,make_consistent config.encoding⟩ before
    obtain ⟨proper,_,after⟩ := once (run (owned functor) (.make config.encoding,s) before) call
      reached.1 reached.2
    exact ⟨proper,reached.2,after⟩

def faltering : AnyFunctor Nat Reference.Value := fun _ calls =>
  (if calls = 0 then .error (.foreign "timeout") else .ok (.string "busy"),calls+1)

theorem client_total_faltering : ClientTotal faltering ⟨.kBase64,true,100,10⟩ :=
  client_total faltering ⟨.kBase64,true,100,10⟩ rfl LawfulAssign.assign_failed

end SupProtocol
