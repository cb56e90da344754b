import SupProtocol.ClientFunctions
import SupProtocol.PacketLayout
import SupProtocol.ReferenceValue

namespace SupProtocol
open AsyncInvocation ProtocolRPCClient

variable {V : Type} [AnyValue V] [Codec V] {σ : Type}

abbrev Sent (V : Type) := V × Except Exception V

def tracing (functor : AnyFunctor σ V) : AnyFunctor (σ × List (Sent V)) V :=
  fun packet s =>
    let (answer,t) := functor packet s.1
    (answer,t,s.2 ++ [(packet,answer)])

-- What may follow an accepted request: polls, each sent after one that read "not
-- ready", and a single get-reply right after a poll that read "ready".
inductive Polls (encoding : PayloadEncoding) (id : UInt64) : List (Sent V) → Prop where
  | none : Polls encoding id []
  | last {poll : V} (asked : createAsyncRPCPoll id encoding = .ok poll) (answer : Except Exception V) :
      Polls encoding id [(poll,answer)]
  | waiting {poll reply : V} {more : List (Sent V)} (asked : createAsyncRPCPoll id encoding = .ok poll)
      (read : ReadyRead reply false) (rest : Polls encoding id more) :
      Polls encoding id ((poll,.ok reply) :: more)
  | fetched {poll reply fetch : V} (asked : createAsyncRPCPoll id encoding = .ok poll)
      (read : ReadyRead reply true) (fetching : createAsyncRPCGetReply id encoding = .ok fetch)
      (answer : Except Exception V) : Polls encoding id [(poll,.ok reply),(fetch,answer)]

inductive AsyncTrace (encoding : PayloadEncoding) (input : V) : List (Sent V) → Prop where
  | settled {initial : V} (built : createAsyncRPCRequest input encoding = .ok initial)
      (answer : Except Exception V) : AsyncTrace encoding input [(initial,answer)]
  | accepted {initial reply : V} {key : UInt64} {more : List (Sent V)}
      (built : createAsyncRPCRequest input encoding = .ok initial) (marked : getAsyncInfo reply ≠ none)
      (read : IdRead reply key) (polls : Polls encoding key more) :
      AsyncTrace encoding input ((initial,.ok reply) :: more)

structure SyncTrace (encoding : PayloadEncoding) (input : V) (log : List (Sent V)) : Prop where
  single : ∃ request answer, log = [(request,answer)] ∧ createRPCRequest input encoding = .ok request ∧
    hasField request asyncCommandFieldName = false

def conversation (initial poll get : V) (polls : Nat) : List V :=
  initial :: (List.replicate (polls+1) poll ++ [get])

omit [AnyValue V] [Codec V] in
theorem tracing_answers {functor : AnyFunctor σ V} {packet : V} {s t : σ} {answer : Except Exception V}
    (answered : functor packet s = (answer,t)) (log : List (Sent V)) :
    tracing functor packet (s,log) = (answer,t,log ++ [(packet,answer)]) := by
  simp only [tracing,answered]

theorem Polls.sequence {encoding : PayloadEncoding} {key : UInt64} {log : List (Sent V)}
    (polls : Polls encoding key log) {poll fetch : V} (asking : createAsyncRPCPoll key encoding = .ok poll)
    (fetching : createAsyncRPCGetReply key encoding = .ok fetch) :
    ∃ n, log.map Prod.fst <+: List.replicate (n+1) poll ++ [fetch] := by
  induction polls with
  | none => exact ⟨0,List.nil_prefix⟩
  | last asked answer =>
    cases asked.symm.trans asking
    exact ⟨0,[fetch],rfl⟩
  | waiting asked read rest ih =>
    cases asked.symm.trans asking
    obtain ⟨n,short⟩ := ih
    exact ⟨n+1,List.cons_prefix_cons.mpr ⟨rfl,short⟩⟩
  | fetched asked read fetched answer =>
    cases asked.symm.trans asking
    cases fetched.symm.trans fetching
    exact ⟨0,List.prefix_rfl⟩

section Traces
variable [LawfulAnyValue V] {invocation : AsyncInvocation V} (waiting : invocation.synchronous = false)
  (supported : isSupportedPayloadEncoding invocation.encoding = true) (functor : AnyFunctor σ V)

include waiting supported

-- Induction on the polls looked at. A loop that ended with a reply to fetch has
-- sent everything that may stand before the get-reply.
theorem polls_traced (handler : PollingTimeoutHandler) (clock : Nat → UInt64) (polls : Nat) :
    ∀ (k : Nat) (s : σ) (log : List (Sent V)), ∃ more,
      (pollUntilReady (tracing functor) invocation handler clock polls k (s,log)).2.2 = log ++ more ∧
      Polls invocation.encoding invocation.id more ∧
      ((pollUntilReady (tracing functor) invocation handler clock polls k (s,log)).1 = .ready →
        ∀ fetch answer, createAsyncRPCGetReply invocation.id invocation.encoding = .ok fetch →
          Polls invocation.encoding invocation.id (more ++ [(fetch,answer)])) := by
  obtain ⟨_,packet,_,built,_⟩ :=
    createAsyncIdRequest_represents (V := V) invocation.id .kPoll supported
  induction polls with
  | zero => exact fun k s log => ⟨[],by simp [pollUntilReady],.none,fun ended => by cases ended⟩
  | succ polls ih =>
    intro k s log
    rcases answered : functor packet s with ⟨error | reply,t⟩
    · rw [polls_throws handler clock polls k waiting built (tracing_answers answered log)]
      exact ⟨[(packet,.error error)],rfl,.last built _,fun ended => by cases ended⟩
    · have noted := tracing_answers answered log
      rcases polled_cases reply with ⟨_,ready,read⟩ | ⟨refused,_⟩
      · cases ready with
        | true =>
          rw [polls_ready handler clock polls k waiting built noted read]
          refine ⟨[(packet,.ok reply)],rfl,.last built _,?_⟩
          intro _ fetch answer fetching
          exact .fetched built read fetching answer
        | false =>
          rw [polls_waits handler clock polls k waiting built noted read]
          cases handler.wait (clock k) with
          | none => exact ⟨[(packet,.ok reply)],rfl,.last built _,fun ended => by cases ended⟩
          | some slept =>
            obtain ⟨more,sent,grammar,ready⟩ := ih (k+1) t (log ++ [(packet,.ok reply)])
            refine ⟨(packet,.ok reply) :: more,?_,.waiting built read grammar,?_⟩
            · rw [sent]
              simp
            · intro ended fetch answer fetching
              exact .waiting built read (ready ended fetch answer fetching)
      · have failed : (polled reply).1 ≠ .success := by rw [refused]; decide
        rw [polls_refused handler clock polls k waiting built noted failed]
        exact ⟨[(packet,.ok reply)],rfl,.last built _,fun ended => by cases ended⟩

theorem awaitReply_traced (config : ProtocolRPCClientConfig) (startTimestamp : UInt64)
    (clock : Nat → UInt64) (polls : Nat) (output : V) (s : σ) (log : List (Sent V)) :
    ∃ more, (awaitReply (tracing functor) config startTimestamp clock polls invocation output
        (s,log)).2.2 = log ++ more ∧ Polls invocation.encoding invocation.id more := by
  obtain ⟨_,packet,_,built,_⟩ :=
    createAsyncIdRequest_represents (V := V) invocation.id .kGetReply supported
  obtain ⟨more,sent,grammar,ready⟩ := polls_traced waiting supported functor
    (config.handler startTimestamp) clock polls 0 s log
  rw [awaitReply_concluded waiting]
  rcases looped : pollUntilReady (tracing functor) invocation (config.handler startTimestamp) clock
    polls 0 (s,log) with ⟨ended,t,noted⟩
  rw [looped] at sent ready
  dsimp only at sent
  subst noted
  cases ended with
  | unfinished => exact ⟨more,rfl,grammar⟩
  | returned result => exact ⟨more,rfl,grammar⟩
  | ready =>
    rcases answered : functor packet t with ⟨answer,u⟩
    have moved : (invocation.getReply (tracing functor) output (t,log ++ more)).2.2 =
        (tracing functor packet (t,log ++ more)).2 := getReply_state waiting built output _
    rw [tracing_answers answered] at moved
    refine ⟨more ++ [(packet,answer)],?_,ready rfl packet answer built⟩
    change (invocation.getReply (tracing functor) output (t,log ++ more)).2.2.2 = _
    rw [moved]
    simp

end Traces

theorem handleAsyncInvoke_traced [LawfulAnyValue V] (functor : AnyFunctor σ V)
    (config : ProtocolRPCClientConfig) (supported : isSupportedPayloadEncoding config.encoding = true)
    (startTimestamp : UInt64) (clock : Nat → UInt64) (polls : Nat) {input : V}
    (nonempty : isEmptyValue input = false) (output : V) (s : σ) :
    AsyncTrace config.encoding input (handleAsyncInvoke (tracing functor) config startTimestamp clock
      polls input output (s,[])).2.2 := by
  obtain ⟨packet,built,_⟩ := createAsyncRPCRequest_represents (V := V) nonempty supported
  rcases answered : functor packet s with ⟨error | reply,t⟩
  · rw [handleAsyncInvoke_throws startTimestamp clock polls output built (tracing_answers answered [])]
    exact .settled built _
  · have noted := tracing_answers answered []
    -- A reply that answers the call or that Start does not accept ends the trace.
    rcases reply_cases reply with plain | ⟨marked,⟨key,read⟩ | unread⟩
    · rw [handleAsyncInvoke_plain startTimestamp clock polls output built noted plain]
      exact .settled built _
    · have waiting : (⟨config.encoding,key,false,empty⟩ : AsyncInvocation V).synchronous = false := rfl
      obtain ⟨more,sent,grammar⟩ := awaitReply_traced waiting supported functor config startTimestamp
        clock polls output t ([] ++ [(packet,.ok reply)])
      rw [handleAsyncInvoke_accepted startTimestamp clock polls output built noted marked read,sent]
      exact .accepted built marked read grammar
    · rw [handleAsyncInvoke_refused startTimestamp clock polls output built noted marked unread]
      exact .settled built _

theorem handleSyncInvoke_traced [LawfulAnyValue V] (functor : AnyFunctor σ V)
    (config : ProtocolRPCClientConfig) (supported : isSupportedPayloadEncoding config.encoding = true)
    {input : V} (nonempty : isEmptyValue input = false) (output : V) (s : σ) :
    SyncTrace config.encoding input (handleSyncInvoke (tracing functor) config input output (s,[])).2.2 := by
  obtain ⟨packet,built,known⟩ := createRPCRequest_represents (V := V) nonempty supported
  have unmarked : hasField packet asyncCommandFieldName = false := by
    rw [hasField,known.at asyncCommandFieldName (by decide),lookup_command]
    rfl
  rcases answered : functor packet s with ⟨error | reply,t⟩
  · refine ⟨packet,.error error,?_,built,unmarked⟩
    simp [handleSyncInvoke,exchange,send,built,tracing_answers answered]
  · refine ⟨packet,.ok reply,?_,built,unmarked⟩
    rw [handleSyncInvoke,exchange_answered built (tracing_answers answered [])]
    rfl

-- The packets of an asynchronous call are a prefix of a whole conversation about
-- one id.
theorem AsyncTrace.sequence [LawfulAnyValue V] {encoding : PayloadEncoding} {input : V}
    {log : List (Sent V)} (supported : isSupportedPayloadEncoding encoding = true)
    (trace : AsyncTrace encoding input log) :
    ∃ key initial poll fetch n, createAsyncRPCRequest input encoding = .ok initial ∧
      createAsyncRPCPoll key encoding = .ok poll ∧ createAsyncRPCGetReply key encoding = .ok fetch ∧
      log.map Prod.fst <+: conversation initial poll fetch n := by
  have requests (key : UInt64) (command : AsyncCommand) :
      ∃ packet : V, createAsyncIdRequest key encoding command = .ok packet := by
    obtain ⟨_,packet,_,built,_⟩ := createAsyncIdRequest_represents (V := V) key command supported
    exact ⟨packet,built⟩
  cases trace with
  | @settled initial built answer =>
    obtain ⟨poll,asking⟩ := requests 0 .kPoll
    obtain ⟨fetch,fetching⟩ := requests 0 .kGetReply
    exact ⟨0,initial,poll,fetch,0,built,asking,fetching,⟨[poll,fetch],rfl⟩⟩
  | @accepted initial reply key more built marked read polls =>
    obtain ⟨poll,asking⟩ := requests key .kPoll
    obtain ⟨fetch,fetching⟩ := requests key .kGetReply
    obtain ⟨n,short⟩ := polls.sequence asking fetching
    exact ⟨key,initial,poll,fetch,n,built,asking,fetching,List.cons_prefix_cons.mpr ⟨rfl,short⟩⟩

theorem wire_trace [LawfulAnyValue V] (functor : AnyFunctor σ V) (config : ProtocolRPCClientConfig)
    (supported : isSupportedPayloadEncoding config.encoding = true) (startTimestamp : UInt64)
    (clock : Nat → UInt64) (polls : Nat) (input output : V) (nonempty : isEmptyValue input = false)
    (s : σ) :
    let log := (invoke (tracing functor) config startTimestamp clock polls input output (s,[])).2.2
    (config.async = false → SyncTrace config.encoding input log) ∧
    (config.async = true → AsyncTrace config.encoding input log ∧
      ∃ key initial poll fetch n, createAsyncRPCRequest input config.encoding = .ok initial ∧
        createAsyncRPCPoll key config.encoding = .ok poll ∧
        createAsyncRPCGetReply key config.encoding = .ok fetch ∧
        log.map Prod.fst <+: conversation initial poll fetch n) := by
  constructor
  · intro synchronous
    rw [invoke_synchronous nonempty synchronous]
    exact handleSyncInvoke_traced functor config supported nonempty output s
  · intro asynchronous
    rw [invoke_asynchronous nonempty asynchronous]
    have trace := handleAsyncInvoke_traced functor config supported startTimestamp clock polls nonempty
      output s
    exact ⟨trace,trace.sequence supported⟩

def scripted : AnyFunctor Nat Reference.Value := fun _ packets =>
  (match packets with
    | 0 => createAsyncRPCNewRequestReply 7 .kNone
    | 1 => createAsyncRPCPollReply false .kNone
    | 2 => createAsyncRPCPollReply true .kNone
    | _ => createAsyncRPCReply .success (.string "done") .kNone .kGetReply,packets+1)

def scriptedLog : List (Sent Reference.Value) :=
  (invoke (tracing scripted) ⟨.kNone,true,100,10⟩ 0 (fun _ => 5) 5 (.string "measure") .empty (0,[])).2.2

theorem wire_trace_polled :
    scriptedLog.length = 4 ∧ AsyncTrace .kNone (.string "measure") scriptedLog :=
  ⟨by decide,((wire_trace scripted ⟨.kNone,true,100,10⟩ rfl 0 (fun _ => 5) 5 (.string "measure") .empty
    rfl 0).2 rfl).1⟩

end SupProtocol
