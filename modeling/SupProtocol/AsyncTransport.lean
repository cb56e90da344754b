import SupProtocol.ServerRetention
import SupProtocol.SyncTransport

namespace SupProtocol
open AsyncInvokeServer Machine

variable {V : Type} [AnyValue V] [Codec V]

namespace Link

structure Grows (link later : Link V) : Prop where
  events : ∃ more, later.events = link.events ++ more
  packets : link.packets ≤ later.packets

omit [AnyValue V] [Codec V] in
theorem Grows.refl (link : Link V) : Grows link link := ⟨⟨[],by simp⟩,Nat.le_refl _⟩

omit [AnyValue V] [Codec V] in
theorem Grows.trans (first second third : Link V) (left : Grows first second)
    (right : Grows second third) : Grows first third := by
  obtain ⟨x,here⟩ := left.events
  obtain ⟨y,there⟩ := right.events
  exact ⟨⟨x ++ y,by rw [there,here,List.append_assoc]⟩,Nat.le_trans left.packets right.packets⟩

theorem functor_grows (protocol : Protocol V) (schedule : Nat → Schedule V) (packet : V)
    (link : Link V) : Grows link (functor protocol schedule packet link).2 :=
  ⟨⟨_,rfl⟩,Nat.le_succ _⟩

-- What the surroundings of a request keep to: fewer requests than ids, a clock
-- and a pace of polling under which it does not expire, and no foreign command
-- that takes or withdraws its reply.
structure Cooperates (expirationTimeNs key : UInt64) (schedule : Nat → Schedule V) (link : Link V) :
    Prop where
  bounded : link.events.countP Event.isInitialRequest < UInt64.size
  alive : KeptAlive expirationTimeNs key (effectsOf (handled expirationTimeNs link.events))
  foreign : ∀ k < link.packets, ∀ event ∈ (schedule k).before ++ (schedule k).between,
    event.spares key

theorem Cooperates.upTo {expirationTimeNs key : UInt64} {schedule : Nat → Schedule V} {link : Link V}
    (cooperates : link.Cooperates expirationTimeNs key schedule) {events more : List (Event V)}
    (parts : link.events = events ++ more) :
    events.countP Event.isInitialRequest < UInt64.size ∧
    KeptAlive expirationTimeNs key (effectsOf (handled expirationTimeNs events)) := by
  have bounded := cooperates.bounded
  have alive := cooperates.alive
  rw [parts,List.countP_append] at bounded
  rw [parts,handled_append] at alive
  exact ⟨by omega,alive.earlier⟩

theorem Cooperates.earlier {expirationTimeNs key : UInt64} {schedule : Nat → Schedule V}
    {link later : Link V} (cooperates : later.Cooperates expirationTimeNs key schedule)
    (grows : Grows link later) : link.Cooperates expirationTimeNs key schedule := by
  obtain ⟨more,parts⟩ := grows.events
  obtain ⟨bounded,alive⟩ := cooperates.upTo parts
  exact ⟨bounded,alive,fun k sent => cooperates.foreign k (Nat.lt_of_lt_of_le sent grows.packets)⟩

omit [Codec V] in
theorem arrivals_spared {key : UInt64} {schedule : Schedule V}
    (foreign : ∀ event ∈ schedule.before ++ schedule.between, event.spares key)
    (server : ProtocolRPCServer V) : ∀ event ∈ server.arrivals schedule, event.spares key := by
  intro event member
  simp only [ProtocolRPCServer.arrivals,List.mem_append] at member
  rcases member with early | cleanUp | late
  · exact foreign event (List.mem_append_left _ early)
  · have same : event = .cleanUpExpiredRequests schedule.cleanUp := by
      split at cleanUp
      · exact List.mem_singleton.mp cleanUp
      · cases cleanUp
    subst event
    exact ⟨fun named => named,fun named => named⟩
  · exact foreign event (List.mem_append_right _ late)

structure Issued (expirationTimeNs key : UInt64) (before : List (Event V)) (input : V) (link : Link V) :
    Prop where
  tracks : link.Tracks expirationTimeNs
  request : ∃ encoding moments rest,
    link.events = before ++ .handleInvoke input encoding .kInitialRequest moments :: rest ∧
    issued (record step (reached expirationTimeNs before)
      (.handleInvoke input encoding .kInitialRequest moments)) = some key
  once : link.launched = [input] ∧ link.made = []

structure Waiting (expirationTimeNs key : UInt64) (before : List (Event V)) (input : V) (link : Link V) :
    Prop where
  issued : link.Issued expirationTimeNs key before input
  spared : ∀ event ∈ link.events, event.spares key

theorem commanded_tracks {expirationTimeNs : UInt64} {link : Link V} (tracks : link.Tracks expirationTimeNs)
    (schedule : Nat → Schedule V) (payload : V) (encoding : PayloadEncoding) (command : AsyncCommand) :
    (link.commanded schedule payload encoding command).Tracks expirationTimeNs := by
  have found := found_reached tracks schedule
  unfold Tracks
  rw [commanded_events]
  refine Eq.trans ?_ (reached_snoc _ _ _).symm
  simp only [commanded,found]

theorem commanded_issued {expirationTimeNs key : UInt64} {before : List (Event V)} {input : V}
    {link : Link V} (issued : link.Issued expirationTimeNs key before input)
    (schedule : Nat → Schedule V) (payload : V) (encoding : PayloadEncoding) {command : AsyncCommand}
    (later : command ≠ .kInitialRequest) :
    (link.commanded schedule payload encoding command).Issued expirationTimeNs key before input := by
  obtain ⟨tracks,⟨used,moments,rest,parts,given⟩,once⟩ := issued
  refine ⟨?_,⟨used,moments,rest ++ (link.server.arrivals (schedule link.packets) ++
    [.handleInvoke payload encoding command (schedule link.packets).moments]),?_,given⟩,?_⟩
  · exact commanded_tracks tracks schedule payload encoding command
  · simp [pending,parts]
  · simpa [commanded,Event.launches,later] using once

section Steps
variable [LawfulAnyValue V] [LawfulCodec V] {expirationTimeNs key : UInt64} {before : List (Event V)}
  {input payload : V} {link : Link V} {schedule : Nat → Schedule V} {encoding : PayloadEncoding}

theorem waiting_entry (waiting : link.Waiting expirationTimeNs key before input) {command : AsyncCommand}
    (cooperates : (link.commanded schedule payload encoding command).Cooperates expirationTimeNs key
      schedule) :
    Retained expirationTimeNs key (effectsOf (handled expirationTimeNs (link.pending schedule)))
      (reached expirationTimeNs (link.pending schedule)) ∧
    ∃ invoke : AsyncInvoke,
      (reached expirationTimeNs (link.pending schedule)).invokes[key]? = some invoke ∧
      invoke.future = some (reached expirationTimeNs before).calls.length ∧
      invoke.invalidated = false := by
  obtain ⟨bounded,alive⟩ := cooperates.upTo (commanded_events link schedule payload encoding command)
  have foreign := cooperates.foreign link.packets (Nat.lt_succ_self _)
  have spared : ∀ event ∈ link.pending schedule, event.spares key := by
    intro event member
    rcases List.mem_append.mp member with earlier | arriving
    · exact waiting.spared event earlier
    · exact arrivals_spared foreign link.server event arriving
  have retained := spared_retained alive spared
  refine ⟨retained,?_⟩
  obtain ⟨used,moments,rest,parts,given⟩ := waiting.issued.request
  have split : link.pending schedule = before ++ .handleInvoke input used .kInitialRequest moments ::
      (rest ++ link.server.arrivals (schedule link.packets)) := by simp [pending,parts]
  rw [split] at retained ⊢
  exact spared_entry given (by rw [← split]; exact bounded) retained

omit [LawfulAnyValue V] [LawfulCodec V] in
theorem commanded_spared (spared : ∀ event ∈ link.events, event.spares key) {command : AsyncCommand}
    (harmless : command ≠ .kGetReply ∧ command ≠ .kInvalidate)
    (cooperates : (link.commanded schedule payload encoding command).Cooperates expirationTimeNs key
      schedule) :
    ∀ event ∈ (link.commanded schedule payload encoding command).events, event.spares key := by
  have foreign := cooperates.foreign link.packets (Nat.lt_succ_self _)
  intro event member
  rw [commanded_events] at member
  rcases List.mem_append.mp member with found | own
  · rcases List.mem_append.mp found with earlier | arriving
    · exact spared event earlier
    · exact arrivals_spared foreign link.server event arriving
  · cases List.mem_singleton.mp own
    exact ⟨fun named => harmless.1 named.1,fun named => harmless.2 named.1⟩

omit [LawfulAnyValue V] [LawfulCodec V] in
theorem commanded_waiting (waiting : link.Waiting expirationTimeNs key before input)
    {command : AsyncCommand} (later : command ≠ .kInitialRequest)
    (harmless : command ≠ .kGetReply ∧ command ≠ .kInvalidate)
    (cooperates : (link.commanded schedule payload encoding command).Cooperates expirationTimeNs key
      schedule) :
    (link.commanded schedule payload encoding command).Waiting expirationTimeNs key before input := by
  exact ⟨commanded_issued waiting.issued schedule payload encoding later,
    commanded_spared waiting.spared harmless cooperates⟩

theorem poll_waiting {invocation : AsyncInvocation V} (asynchronous : invocation.synchronous = false)
    (named : invocation.id = key)
    (supported : isSupportedPayloadEncoding invocation.encoding = true) (protocol : Protocol V)
    (waiting : link.Waiting expirationTimeNs key before input)
    (cooperates : (invocation.pollOnce (functor protocol schedule) link).2.Cooperates
      expirationTimeNs key schedule) :
    ∃ next : Link V, invocation.pollOnce (functor protocol schedule) link =
        (.ok (.success,Tasks.isReady next.server.asyncServer.calls
          (reached expirationTimeNs before).calls.length),next) ∧
      next.Waiting expirationTimeNs key before input := by
  obtain ⟨payload,packet,inner,built,known⟩ :=
    createAsyncIdRequest_represents (V := V) invocation.id .kPoll supported
  have sent := functor_command known supported protocol schedule link
  rw [pollOnce_state asynchronous built,sent] at cooperates
  obtain ⟨retained,invoke,found,held,wanted⟩ := waiting_entry waiting cooperates
  have polled := kept_polled (by rw [named_id inner,named]) found held wanted retained
    (commanded_events link schedule payload _ _ ▸ cooperates.alive)
  rw [← found_reached waiting.issued.tracks schedule] at polled
  obtain ⟨ready,reply,flag,answered,layout⟩ := createAsyncRPCPollReply_represents (V := V)
    (Tasks.isReady (link.commanded schedule payload invocation.encoding .kPoll).server.asyncServer.calls
      (reached expirationTimeNs before).calls.length) supported
  have read : ReadyRead reply (Tasks.isReady (link.commanded schedule payload invocation.encoding
      .kPoll).server.asyncServer.calls (reached expirationTimeNs before).calls.length) :=
    ⟨invocation.encoding,layout.encoding supported,
      layout.extractScalar asyncReadyFieldName (by decide) .boolean _ flag supported⟩
  have replied : ((link.found schedule).handleInvoke payload invocation.encoding .kPoll
      (schedule link.packets).moments).1.reply = .ok reply := (Option.some.inj polled).trans answered
  rw [replied] at sent
  refine ⟨_,?_,commanded_waiting waiting (by decide) (by decide) cooperates⟩
  rw [pollOnce_reads asynchronous built sent,polled_reads read]

variable (schedule) in
theorem polls_waiting {invocation : AsyncInvocation V} (asynchronous : invocation.synchronous = false)
    (named : invocation.id = key)
    (supported : isSupportedPayloadEncoding invocation.encoding = true) (protocol : Protocol V)
    (handler : PollingTimeoutHandler) (clock : Nat → UInt64) (polls : Nat) :
    ∀ (k : Nat) (link : Link V), link.Waiting expirationTimeNs key before input →
      (ProtocolRPCClient.pollUntilReady (functor protocol schedule) invocation handler clock polls k
        link).2.Cooperates expirationTimeNs key schedule →
      ∃ ended later, ProtocolRPCClient.pollUntilReady (functor protocol schedule) invocation handler clock
          polls k link = (ended,later) ∧
        later.Waiting expirationTimeNs key before input ∧
        (ended = .unfinished ∨ ended = .returned (.ok .asynchronousProtocolTimeout) ∨
          ended = .ready ∧ Tasks.isReady later.server.asyncServer.calls
            (reached expirationTimeNs before).calls.length = true) := by
  induction polls with
  | zero => exact fun k link waiting _ => ⟨_,link,rfl,waiting,Or.inl rfl⟩
  | succ polls ih =>
    intro k link waiting cooperates
    have grows := firstPoll_advance (R := Grows) Grows.refl Grows.trans
      (functor_grows protocol schedule) invocation handler clock polls k link
    obtain ⟨next,polled,still⟩ := poll_waiting asynchronous named supported protocol waiting
      (cooperates.earlier grows)
    simp only [ProtocolRPCClient.pollUntilReady,polled] at cooperates ⊢
    cases ready : Tasks.isReady next.server.asyncServer.calls
        (reached expirationTimeNs before).calls.length with
    | true => exact ⟨_,next,rfl,still,Or.inr (Or.inr ⟨rfl,ready⟩)⟩
    | false =>
      simp only [ready] at cooperates
      cases wait : handler.wait (clock k) with
      | none => exact ⟨_,next,rfl,still,Or.inr (Or.inl rfl)⟩
      | some slept =>
        rw [wait] at cooperates
        exact ih (k+1) next still cooperates

omit [LawfulAnyValue V] [LawfulCodec V] in
theorem found_extends (schedule : Nat → Schedule V) (link : Link V) :
    Tasks.Extends link.server.asyncServer.calls (link.found schedule).calls := by
  unfold found
  rw [prepared_run]
  exact path_calls (run_path _ _)

theorem getReply_waiting [LawfulAssign V] {invocation : AsyncInvocation V}
    (asynchronous : invocation.synchronous = false) (named : invocation.id = key)
    (supported : isSupportedPayloadEncoding invocation.encoding = true) (protocol : Protocol V)
    (waiting : link.Waiting expirationTimeNs key before input)
    (ready : Tasks.isReady link.server.asyncServer.calls
      (reached expirationTimeNs before).calls.length = true) (output : V)
    (cooperates : (invocation.getReply (functor protocol schedule) output link).2.2.Cooperates
      expirationTimeNs key schedule) :
    ∃ (outcome : Outcome V) (later : Link V),
      invocation.getReply (functor protocol schedule) output link =
        (.ok (callResult outcome output).1,(callResult outcome output).2,later) ∧
      later.Issued expirationTimeNs key before input ∧
      Tasks.outcomeOf later.server.asyncServer.calls (reached expirationTimeNs before).calls.length =
        some outcome := by
  obtain ⟨payload,packet,inner,built,known⟩ :=
    createAsyncIdRequest_represents (V := V) invocation.id .kGetReply supported
  have sent := functor_command known supported protocol schedule link
  rw [getReply_state asynchronous built,sent] at cooperates
  obtain ⟨_,invoke,found,held,wanted⟩ := waiting_entry waiting cooperates
  rw [← found_reached waiting.issued.tracks schedule] at found
  -- the call had ended when the poll looked, so it has ended now
  have ended := (Tasks.finishAll_extends (link.found schedule).calls
    ((schedule link.packets).moments 0).completions).isReady ((found_extends schedule link).isReady ready)
  obtain ⟨outcome,settled⟩ := Option.isSome_iff_exists.mp ended
  obtain ⟨_,after,answered⟩ := AsyncInvokeServer.getReply_delivers invocation.encoding
    (schedule link.packets).moments (by rw [named_id inner,named]) found held settled wanted
  obtain ⟨reply,replied,layout⟩ := createAsyncRPCReply_represents (AsyncInvoke.settled outcome).1
    (AsyncInvoke.settled outcome).2 .kGetReply supported
  have delivered : ((link.found schedule).handleInvoke payload invocation.encoding .kGetReply
      (schedule link.packets).moments).1.reply = .ok reply := (Option.some.inj answered).trans replied
  rw [delivered] at sent
  refine ⟨outcome,_,?_,commanded_issued waiting.issued schedule payload _ (by decide),after⟩
  rw [getReply_reads asynchronous built sent,replied_read layout supported,callResult_settled]

omit [LawfulAnyValue V] [LawfulCodec V] in
theorem nextId_nonzero (tracks : link.Tracks expirationTimeNs) (payload : V) (encoding : PayloadEncoding)
    (bounded : (link.commanded schedule payload encoding .kInitialRequest).events.countP
      Event.isInitialRequest < UInt64.size) : link.nextId schedule ≠ 0 := by
  rw [commanded_events] at bounded
  have number := reached_nextId expirationTimeNs bounded
  unfold nextId
  rw [found_reached tracks schedule]
  intro zero
  rw [zero] at number
  cases number

theorem start_waiting (nonempty : isEmptyValue input = false)
    (supported : isSupportedPayloadEncoding encoding = true) (protocol : Protocol V)
    (tracks : link.Tracks expirationTimeNs) (fresh : link.launched = [] ∧ link.made = [])
    (spared : ∀ event ∈ link.events, event.spares (link.nextId schedule))
    (cooperates : ((AsyncInvocation.make encoding).start (functor protocol schedule) input link).2.Cooperates
      expirationTimeNs (link.nextId schedule) schedule) :
    ∃ next : Link V, (AsyncInvocation.make encoding).start (functor protocol schedule) input link =
        (.ok (.success,⟨encoding,link.nextId schedule,false,empty⟩),next) ∧
      next.Waiting expirationTimeNs (link.nextId schedule) (link.pending schedule) input := by
  obtain ⟨packet,built,known⟩ := createAsyncRPCRequest_represents nonempty supported
  have request : createAsyncRPCRequest input (AsyncInvocation.make encoding : AsyncInvocation V).encoding =
    .ok packet := built
  have sent := functor_command known supported protocol schedule link
  rw [start_state request,sent] at cooperates
  obtain ⟨payload,reply,inner,answered,layout⟩ :=
    createAsyncRPCNewRequestReply_represents (V := V) (link.nextId schedule) supported
  have replied : ((link.found schedule).handleInvoke input encoding .kInitialRequest
      (schedule link.packets).moments).1.reply = .ok reply := by
    rw [handleInvoke_newRequest]
    exact answered
  rw [replied] at sent
  have nonzero := nextId_nonzero tracks input encoding cooperates.bounded
  have read : IdRead reply (link.nextId schedule) := ⟨encoding,layout.encoding supported,
    layout.extractScalar asyncIdFieldName (by decide) .unsignedInteger64 _ inner supported,nonzero⟩
  have marked : getAsyncInfo reply ≠ none := by simp [layout.command]
  refine ⟨_,?_,⟨commanded_tracks tracks schedule input encoding .kInitialRequest,?_,?_⟩,?_⟩
  · rw [start_reads request sent,started_reads marked read]
    rfl
  · refine ⟨encoding,(schedule link.packets).moments,[],rfl,?_⟩
    rw [← found_reached tracks schedule]
    exact issued_newRequest _ input _ supported
  · simp [commanded,Event.launches,fresh]
  · exact commanded_spared spared (by decide) cooperates

variable (schedule) in
theorem awaitReply_waiting [LawfulAssign V] {invocation : AsyncInvocation V}
    (asynchronous : invocation.synchronous = false) (named : invocation.id = key)
    (supported : isSupportedPayloadEncoding invocation.encoding = true) (protocol : Protocol V)
    (config : ProtocolRPCClientConfig) (startTimestamp : UInt64) (clock : Nat → UInt64) (polls : Nat)
    (waiting : link.Waiting expirationTimeNs key before input) (output : V)
    (cooperates : (ProtocolRPCClient.awaitReply (functor protocol schedule) config startTimestamp clock
      polls invocation output link).2.Cooperates expirationTimeNs key schedule) :
    ∃ answer later, ProtocolRPCClient.awaitReply (functor protocol schedule) config startTimestamp clock
        polls invocation output link = (answer,later) ∧
      later.Issued expirationTimeNs key before input ∧ ∀ invoked, answer = some invoked →
        invoked = ⟨.ok .asynchronousProtocolTimeout,output⟩ ∨
        ∃ outcome, Tasks.outcomeOf later.server.asyncServer.calls
            (reached expirationTimeNs before).calls.length = some outcome ∧
          invoked = ⟨.ok (callResult outcome output).1,(callResult outcome output).2⟩ := by
  have settles := polls_waiting schedule asynchronous named supported protocol
    (config.handler startTimestamp) clock polls 0 link waiting
  rw [awaitReply_concluded asynchronous] at cooperates ⊢
  rcases loop : ProtocolRPCClient.pollUntilReady (functor protocol schedule) invocation
    (config.handler startTimestamp) clock polls 0 link with ⟨ended,later⟩
  rw [loop] at settles cooperates
  have upToHere : later.Cooperates expirationTimeNs key schedule := by
    cases ended with
    | unfinished => exact cooperates
    | returned result => exact cooperates
    | ready =>
      exact cooperates.earlier (getReply_advance (R := Grows) Grows.refl
        (functor_grows protocol schedule) invocation output later)
  obtain ⟨_,_,same,still,outcome⟩ := settles upToHere
  cases same
  rcases outcome with rfl | rfl | ⟨rfl,ready⟩
  · exact ⟨none,later,rfl,still.issued,fun _ other => by cases other⟩
  · refine ⟨_,later,rfl,still.issued,fun invoked same => Or.inl ?_⟩
    exact (Option.some.inj same).symm
  · obtain ⟨outcome,final,fetched,issued,ended⟩ := getReply_waiting asynchronous named supported
      protocol still ready output cooperates
    refine ⟨some ⟨.ok (callResult outcome output).1,(callResult outcome output).2⟩,final,
      by simp only [concluded,fetched],issued,fun invoked same => Or.inr ⟨outcome,ended,?_⟩⟩
    exact (Option.some.inj same).symm

end Steps

-- How an asynchronous call through a link ends: one call is launched on its
-- input, and unless the client gives up waiting it sees what a synchronous
-- client of an application that behaves like this call would see.
structure AsyncCall (call : Nat) (config : ProtocolRPCClientConfig) (input out0 : V)
    (answer : Option (Invoked V)) (after : Link V) : Prop where
  once : after.launched = [input] ∧ after.made = []
  launched : (Tasks.inputs after.server.asyncServer.calls)[call]? = some input
  returned : ∀ invoked, answer = some invoked →
    invoked = ⟨.ok .asynchronousProtocolTimeout,out0⟩ ∨
    ∃ outcome, Tasks.outcomeOf after.server.asyncServer.calls call = some outcome ∧
      ∀ (protocol : Protocol V), protocol.invoke input empty = outcome →
        ∀ schedule link startTimestamp clock polls,
          (ProtocolRPCClient.invoke (functor protocol schedule) {config with async := false}
            startTimestamp clock polls input out0 link).1 = some invoked

theorem issued_input {expirationTimeNs key : UInt64} {before : List (Event V)} {input : V} {link : Link V}
    (issued : link.Issued expirationTimeNs key before input) :
    (Tasks.inputs link.server.asyncServer.calls)[(reached expirationTimeNs before).calls.length]? =
      some input := by
  obtain ⟨tracks,⟨encoding,moments,rest,parts,_⟩,_⟩ := issued
  have all := run_inputs (start expirationTimeNs) link.events
  have earlier := congrArg List.length (run_inputs (start expirationTimeNs) before)
  have here : (Tasks.inputs (start expirationTimeNs : AsyncInvokeServer V).calls).length = 0 := rfl
  rw [Tasks.length_inputs,List.length_append,here,Nat.zero_add] at earlier
  have launches : link.events.flatMap Event.launches = before.flatMap Event.launches ++
      input :: rest.flatMap Event.launches := by simp [parts,Event.launches]
  unfold Tracks at tracks
  unfold reached at tracks ⊢
  rw [tracks,all,launches,earlier]
  simp [start,Tasks.inputs]

theorem async_transparent [LawfulAnyValue V] [LawfulCodec V] [LawfulAssign V]
    (expirationTimeNs : UInt64) (handler : ExpirationTimeoutHandler) (past : List (Event V))
    (protocol : Protocol V) (schedule : Nat → Schedule V) (config : ProtocolRPCClientConfig)
    (asynchronous : config.async = true)
    (supported : isSupportedPayloadEncoding config.encoding = true) (input out0 : V)
    (nonempty : isEmptyValue input = false) (startTimestamp : UInt64) (clock : Nat → UInt64)
    (polls : Nat) (link : Link V) (connected : link = .connect expirationTimeNs handler past)
    (answer : Option (Invoked V)) (after : Link V)
    (ran : ProtocolRPCClient.invoke (functor protocol schedule) config startTimestamp clock polls
      input out0 link = (answer,after))
    (foreign : ∀ event ∈ past, event.spares (link.nextId schedule))
    (cooperates : after.Cooperates expirationTimeNs (link.nextId schedule) schedule) :
    AsyncCall (link.nextCall schedule) config input out0 answer after := by
  have tracks : link.Tracks expirationTimeNs := by rw [connected]; rfl
  have fresh : link.launched = [] ∧ link.made = [] := by rw [connected]; exact ⟨rfl,rfl⟩
  have past : link.events = past := by rw [connected]; rfl
  have call : (reached expirationTimeNs (link.pending schedule)).calls.length = link.nextCall schedule :=
    congrArg (fun server => server.calls.length) (found_reached tracks schedule).symm
  rw [invoke_asynchronous nonempty asynchronous] at ran
  have grows := started_advance (R := Grows) Grows.refl Grows.trans (functor_grows protocol schedule)
    config startTimestamp clock polls input out0 link
  rw [ran] at grows
  obtain ⟨next,started,waiting⟩ := start_waiting nonempty supported protocol tracks fresh
    (by rw [past]; exact foreign) (cooperates.earlier grows)
  simp only [ProtocolRPCClient.handleAsyncInvoke,started,ne_eq,not_true_eq_false,if_false] at ran
  have waits : (⟨config.encoding,link.nextId schedule,false,empty⟩ : AsyncInvocation V).synchronous =
    false := rfl
  have finished := awaitReply_waiting schedule waits rfl supported protocol config startTimestamp
    clock polls waiting out0
  rw [ran] at finished
  obtain ⟨_,_,same,issued,returned⟩ := finished cooperates
  cases same
  rw [call] at returned
  refine ⟨issued.once,call ▸ issued_input issued,fun invoked ended => ?_⟩
  rcases returned invoked ended with timeout | ⟨outcome,done,seen⟩
  · exact Or.inl timeout
  · refine Or.inr ⟨outcome,done,?_⟩
    rintro application rfl others otherLink time readings bound
    rw [invoke_synchronous nonempty rfl]
    have direct := handleSyncInvoke_call application others otherLink nonempty
      {config with async := false} supported out0
    rw [seen]
    exact congrArg some (Invoked.ext direct.result direct.output)

def twoPolls : Nat → Schedule Reference.Value := fun k =>
  let now := UInt64.ofNat k
  ⟨[],now,instant now,if k = 2 then [.complete 0 (.ok (.success,.string "done"))] else [],instant now⟩

def measuring : Protocol Reference.Value :=
  ⟨fun _ _ => .ok (.success,.string "done"),fun _ _ => .ok (.success,.empty)⟩

def twoPollsRun : Option (Invoked Reference.Value) × Link Reference.Value :=
  ProtocolRPCClient.invoke (functor measuring twoPolls) ⟨.kNone,true,1000,1⟩ 0 (fun _ => 0) 5
    (.string "measure") .empty (.connect 10 ⟨0,5⟩ [])

theorem async_transparent_polled : twoPollsRun.1 = some ⟨.ok .success,.string "done"⟩ ∧
    AsyncCall 0 ⟨.kNone,true,1000,1⟩ (.string "measure") .empty twoPollsRun.1 twoPollsRun.2 := by
  have cooperates : twoPollsRun.2.Cooperates 10 1 twoPolls := by
    refine ⟨by decide,by decide,?_⟩
    have sent : twoPollsRun.2.packets = 4 := by decide
    rw [sent]
    decide
  refine ⟨rfl,?_⟩
  exact async_transparent 10 ⟨0,5⟩ [] measuring twoPolls ⟨.kNone,true,1000,1⟩ rfl rfl
    (Reference.Value.string "measure") .empty rfl 0 (fun _ => 0) 5 (.connect 10 ⟨0,5⟩ []) rfl
    twoPollsRun.1 twoPollsRun.2 rfl (by simp) cooperates

end Link

end SupProtocol
