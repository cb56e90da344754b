import SupProtocol.SharedServer

namespace SupProtocol
open AsyncInvokeServer Machine

def callEnd {V : Type} [AnyValue V] (outcome : Outcome V) (output : V) : Invoked V :=
  ⟨.ok (callResult outcome output).1,(callResult outcome output).2⟩

def transportFailures (async : Bool) : List ProtocolResult :=
  .clientTransportException ::
    if async then [.clientTransportDecodingError,.asynchronousProtocolTimeout,
      .invalidRequestIdentifierError,.invalidAsynchronousOperationError] else []

def Progress.waitsFor {V : Type} : Progress V → Option UInt64
  | .polling invocation _ => some invocation.id
  | .fetching invocation => some invocation.id
  | _ => none

namespace Shared
variable {V : Type} [AnyValue V] [Codec V]

-- How a call may end: refused at once, with the outcome of a call on the
-- application that its own packet made or launched, or with one of the failures
-- that its surroundings allow and its output as it was.
inductive Ending (protocol : Protocol V) (failures : Bool → List ProtocolResult) (s : Shared V)
    (caller : Nat) (call : ClientCall V) : Invoked V → Prop where
  | refused (bare : isEmptyValue call.input = true) :
      Ending protocol failures s caller call ⟨.ok .clientTransportEncodingError,call.output⟩
  | direct (synchronous : call.config.async = false) :
      Ending protocol failures s caller call (callEnd (protocol.invoke call.input empty) call.output)
  | launched (number : Nat) (outcome : Outcome V) (own : s.launchedBy[number]? = some caller)
      (ended : Tasks.outcomeOf s.server.calls number = some outcome) :
      Ending protocol failures s caller call (callEnd outcome call.output)
  | failed (result : ProtocolResult) (listed : result ∈ failures call.config.async) :
      Ending protocol failures s caller call ⟨.ok result,call.output⟩

-- The call on the application that the request of this caller launched: its id
-- is the number of that call, counted from 1 on.
structure Owned (s : Shared V) (caller : Nat) (call : ClientCall V) (invocation : AsyncInvocation V)
    (number : Nat) : Prop where
  asynchronous : call.config.async = true
  waiting : invocation.synchronous = false
  encoding : invocation.encoding = call.config.encoding
  launched : s.launchedBy[number]? = some caller
  named : invocation.id.toNat = number + 1

inductive Standing (protocol : Protocol V) (s : Shared V) (caller : Nat) (call : ClientCall V) :
    Progress V → Prop where
  | called (nonempty : isEmptyValue call.input = false) (fresh : caller ∉ s.launchedBy) :
      Standing protocol s caller call .called
  | polling (number : Nat) (owned : s.Owned caller call invocation number) :
      Standing protocol s caller call (.polling invocation polls)
  | fetching (number : Nat) (owned : s.Owned caller call invocation number)
      (ready : Tasks.isReady s.server.calls number = true) :
      Standing protocol s caller call (.fetching invocation)
  | returned (ending : s.Ending protocol transportFailures caller call invoked) :
      Standing protocol s caller call (.returned invoked)

-- The calls on the application are launched by the callers, by each at most one,
-- on its own input.
structure Grounded (calls : Nat → ClientCall V) (expirationTimeNs : UInt64) (s : Shared V) : Prop where
  tracks : s.server = reached expirationTimeNs s.events
  counted : s.launchedBy.length = s.server.calls.length
  once : s.launchedBy.Nodup
  inputs : ∀ (number caller : Nat), s.launchedBy[number]? = some caller →
    (calls caller).config.async = true ∧
    (Tasks.inputs s.server.calls)[number]? = some (calls caller).input

structure Sound (protocol : Protocol V) (calls : Nat → ClientCall V) (expirationTimeNs : UInt64)
    (s : Shared V) : Prop where
  grounded : s.Grounded calls expirationTimeNs
  standing : ∀ caller, s.Standing protocol caller (calls caller) (s.progress caller)

-- A state in which nothing is lost of an earlier one.
structure Later (s t : Shared V) : Prop where
  launched : ∃ more, t.launchedBy = s.launchedBy ++ more
  calls : Tasks.Extends s.server.calls t.server.calls

section Later
variable {protocol : Protocol V} {s t : Shared V} {caller : Nat} {call : ClientCall V}

omit [AnyValue V] [Codec V] in
theorem Later.owner (later : Later s t) {number : Nat} (own : s.launchedBy[number]? = some caller) :
    t.launchedBy[number]? = some caller := by
  obtain ⟨more,parts⟩ := later.launched
  obtain ⟨within,_⟩ := List.getElem?_eq_some_iff.mp own
  rw [parts,List.getElem?_append_left within]
  exact own

omit [Codec V] in
theorem Ending.later (later : Later s t) {failures : Bool → List ProtocolResult} {invoked : Invoked V}
    (ending : s.Ending protocol failures caller call invoked) :
    t.Ending protocol failures caller call invoked := by
  cases ending with
  | refused bare => exact .refused bare
  | direct synchronous => exact .direct synchronous
  | launched number outcome own ended =>
    exact .launched number outcome (later.owner own) (later.calls.outcomes number outcome ended)
  | failed result listed => exact .failed result listed

omit [AnyValue V] [Codec V] in
theorem Owned.later (later : Later s t) {invocation : AsyncInvocation V} {number : Nat}
    (owned : s.Owned caller call invocation number) : t.Owned caller call invocation number :=
  {owned with launched := later.owner owned.launched}

omit [Codec V] in
theorem Standing.later (later : Later s t) (fresh : caller ∉ s.launchedBy → caller ∉ t.launchedBy)
    {progress : Progress V} (standing : s.Standing protocol caller call progress) :
    t.Standing protocol caller call progress := by
  cases standing with
  | called nonempty unlaunched => exact .called nonempty (fresh unlaunched)
  | polling number owned => exact .polling number (owned.later later)
  | fetching number owned ready => exact .fetching number (owned.later later) (later.calls.isReady ready)
  | returned ending => exact .returned (ending.later later)

omit [Codec V] in
theorem moved_standing {calls : Nat → ClientCall V} {next : Progress V} (later : Later s t)
    (kept : t.progress = Function.update s.progress caller next)
    (fresh : ∀ other, other ≠ caller → other ∉ s.launchedBy → other ∉ t.launchedBy)
    (standing : ∀ other, s.Standing protocol other (calls other) (s.progress other))
    (own : t.Standing protocol caller (calls caller) next) (other : Nat) :
    t.Standing protocol other (calls other) (t.progress other) := by
  rw [kept]
  by_cases same : other = caller
  · subst other
    rw [Function.update_self]
    exact own
  · rw [Function.update_of_ne same]
    exact (standing other).later later (fresh other same)

end Later

section Moves
variable {protocol : Protocol V} {calls : Nat → ClientCall V} {expirationTimeNs : UInt64} {s : Shared V}
  {caller : Nat} {next : Progress V} {event : Event V}

theorem reach_later (s : Shared V) (event : Event V) : Later s (s.reach event) :=
  ⟨⟨[],by simp [reach]⟩,path_calls (step_path s.server event)⟩

theorem reach_grounded (grounded : s.Grounded calls expirationTimeNs) (quiet : event.launches = []) :
    (s.reach event).Grounded calls expirationTimeNs := by
  have same := step_inputs s.server event
  rw [quiet,List.append_nil] at same
  refine ⟨?_,?_,grounded.once,?_⟩
  · change (s.server.step event).2 = reached expirationTimeNs (s.events ++ [event])
    rw [reached_snoc,← grounded.tracks]
  · have length := congrArg List.length same
    rw [Tasks.length_inputs,Tasks.length_inputs] at length
    exact grounded.counted.trans length.symm
  · intro number other own
    obtain ⟨asynchronous,input⟩ := grounded.inputs number other own
    exact ⟨asynchronous,by rw [← input]; exact congrArg (·[number]?) same⟩

theorem reach_sound (sound : s.Sound protocol calls expirationTimeNs) (quiet : event.launches = []) :
    (s.reach event).Sound protocol calls expirationTimeNs :=
  ⟨reach_grounded sound.grounded quiet,
   fun other => (sound.standing other).later (reach_later s event) id⟩

omit [AnyValue V] [Codec V] in
theorem put_later (s : Shared V) (caller : Nat) (next : Progress V) : Later s (s.put caller next) :=
  ⟨⟨[],by simp [put]⟩,.refl _⟩

theorem put_sound (sound : s.Sound protocol calls expirationTimeNs)
    (own : s.Standing protocol caller (calls caller) next) :
    (s.put caller next).Sound protocol calls expirationTimeNs := by
  refine ⟨⟨sound.grounded.tracks,sound.grounded.counted,sound.grounded.once,sound.grounded.inputs⟩,?_⟩
  exact moved_standing (put_later s caller next) rfl (fun _ _ fresh => fresh) sound.standing
    (own.later (put_later s caller next) id)

omit [Codec V] in
theorem failed_standing {call : ClientCall V} {result : ProtocolResult}
    (listed : result ∈ transportFailures call.config.async) :
    s.Standing protocol caller call (call.gaveUp result) := .returned (.failed result listed)

omit [Codec V] in
theorem exception_standing {call : ClientCall V} :
    s.Standing protocol caller call (call.gaveUp .clientTransportException) :=
  failed_standing (List.mem_cons_self ..)

theorem lost_standing (standing : s.Standing protocol caller (calls caller) (s.progress caller)) :
    s.Standing protocol caller (calls caller) ((calls caller).receive (s.progress caller) none) := by
  cases here : s.progress caller with
  | called => exact exception_standing
  | polling invocation polls => exact exception_standing
  | fetching invocation => exact exception_standing
  | returned invoked =>
    rw [here] at standing
    exact standing

omit [AnyValue V] [Codec V] in
theorem Owned.entry {call : ClientCall V} {invocation : AsyncInvocation V} {number other : Nat}
    (owned : s.Owned caller call invocation number) (numbered : Numbered s.server)
    {invoke : AsyncInvoke} (found : s.server.invokes[invocation.id]? = some invoke)
    (held : invoke.future = some other) : other = number := by
  obtain ⟨again,same,named,_⟩ := numbered.entries invocation.id invoke found
  cases held.symm.trans same
  have own := owned.named
  omega

omit [AnyValue V] [Codec V] in
theorem Owned.supported {call : ClientCall V} {invocation : AsyncInvocation V} {number : Nat}
    (owned : s.Owned caller call invocation number)
    (supported : isSupportedPayloadEncoding call.config.encoding = true) :
    isSupportedPayloadEncoding invocation.encoding = true := by
  rw [owned.encoding]
  exact supported

theorem launch_grounded (grounded : s.Grounded calls expirationTimeNs) {encoding : PayloadEncoding}
    {moments : Nat → Moment V} (asynchronous : (calls caller).config.async = true)
    (fresh : caller ∉ s.launchedBy) (next : Progress V) :
    Grounded calls expirationTimeNs
      {(s.reach (.handleInvoke (calls caller).input encoding .kInitialRequest moments)).put caller next with
        launchedBy := s.launchedBy ++ [caller]} := by
  have grown := step_inputs s.server
    (.handleInvoke (calls caller).input encoding .kInitialRequest moments)
  simp only [Event.launches,if_true] at grown
  refine ⟨?_,?_,?_,?_⟩
  · change (s.server.step _).2 = reached expirationTimeNs (s.events ++ [_])
    rw [reached_snoc,← grounded.tracks]
  · have length := congrArg List.length grown
    rw [Tasks.length_inputs,List.length_append,Tasks.length_inputs] at length
    change (s.launchedBy ++ [caller]).length = (s.server.step _).2.calls.length
    rw [length,List.length_append,grounded.counted]
    rfl
  · refine List.nodup_append.mpr ⟨grounded.once,by simp,?_⟩
    rintro other old same member rfl
    cases List.mem_singleton.mp member
    exact fresh old
  · intro number other own
    change (calls other).config.async = true ∧ (Tasks.inputs (s.server.step _).2.calls)[number]? = _
    rw [grown]
    by_cases old : number < s.launchedBy.length
    · rw [List.getElem?_append_left old] at own
      obtain ⟨also,input⟩ := grounded.inputs number other own
      have within : number < (Tasks.inputs s.server.calls).length := by
        rw [Tasks.length_inputs,← grounded.counted]
        exact old
      exact ⟨also,by rw [List.getElem?_append_left within,input]⟩
    · have last : number = s.launchedBy.length := by
        have within := (List.getElem?_eq_some_iff.mp own).1
        simp only [List.length_append,List.length_singleton] at within
        omega
      subst last
      rw [List.getElem?_append_right (Nat.le_refl _),Nat.sub_self] at own
      cases own
      refine ⟨asynchronous,?_⟩
      have number : (Tasks.inputs s.server.calls).length = s.launchedBy.length := by
        rw [Tasks.length_inputs,grounded.counted]
      rw [← number,List.getElem?_append_right (Nat.le_refl _),Nat.sub_self]
      rfl

end Moves

section Packets
variable [LawfulAnyValue V] [LawfulCodec V] [LawfulAssign V] {protocol : Protocol V}
  {calls : Nat → ClientCall V} {expirationTimeNs : UInt64} {s : Shared V} {caller : Nat} {packet : V}

theorem direct_sound (sound : s.Sound protocol calls expirationTimeNs)
    (synchronous : (calls caller).config.async = false)
    (supported : isSupportedPayloadEncoding (calls caller).config.encoding = true)
    (here : s.progress caller = .called) (nonempty : isEmptyValue (calls caller).input = false)
    (built : createRPCRequest (calls caller).input (calls caller).config.encoding = .ok packet)
    (moments : Nat → Moment V) (carriage : Carriage) :
    (s.exchange protocol calls caller packet moments carriage).Sound protocol calls
      expirationTimeNs := by
  obtain ⟨again,same,known⟩ := createRPCRequest_represents nonempty supported
  cases built.symm.trans same
  obtain ⟨reply,answered,read⟩ := invokeAnswer_read protocol (calls caller).input supported
  rw [exchange_direct supported protocol calls s caller moments carriage known,here,answered]
  apply put_sound sound
  cases carriage with
  | delivered =>
    have ends : s.Ending protocol transportFailures caller (calls caller)
        (callEnd (protocol.invoke (calls caller).input empty) (calls caller).output) :=
      .direct synchronous
    simpa [heard,ClientCall.receive,synchronous,ClientCall.decoded,read,callEnd] using
      Standing.returned ends
  | requestLost => exact exception_standing
  | replyLost => exact exception_standing

omit [LawfulAssign V] in
theorem start_sound (sound : s.Sound protocol calls expirationTimeNs)
    (asynchronous : (calls caller).config.async = true)
    (supported : isSupportedPayloadEncoding (calls caller).config.encoding = true)
    (here : s.progress caller = .called) (nonempty : isEmptyValue (calls caller).input = false)
    (fresh : caller ∉ s.launchedBy)
    (built : createAsyncRPCRequest (calls caller).input (calls caller).config.encoding = .ok packet)
    (moments : Nat → Moment V) (carriage : Carriage)
    (bounded : (s.exchange protocol calls caller packet moments carriage).events.countP
      Event.isInitialRequest < UInt64.size) :
    (s.exchange protocol calls caller packet moments carriage).Sound protocol calls
      expirationTimeNs := by
  obtain ⟨again,same,known⟩ := createAsyncRPCRequest_represents nonempty supported
  cases built.symm.trans same
  rw [exchange_command supported protocol calls s caller moments carriage known,here] at bounded ⊢
  have number := reached_nextId expirationTimeNs bounded
  rw [← sound.grounded.tracks,← sound.grounded.counted] at number
  have nonzero : s.server.lastId + 1 ≠ 0 := by
    intro zero
    rw [zero] at number
    cases number
  obtain ⟨reply,answered,read⟩ := start_answer supported s.server moments (calls caller).input nonzero
  rw [handleInvoke_newRequest,answered]
  have later : ∀ next, Later s {(s.reach (.handleInvoke (calls caller).input
      (calls caller).config.encoding .kInitialRequest moments)).put caller next with
        launchedBy := s.launchedBy ++ [caller]} :=
    fun next => ⟨⟨[caller],rfl⟩,(reach_later s _).calls⟩
  refine ⟨launch_grounded sound.grounded asynchronous fresh _,?_⟩
  refine moved_standing (later _) rfl ?_ sound.standing ?_
  · intro other apart unlaunched member
    rcases List.mem_append.mp member with old | new
    · exact unlaunched old
    · exact apart (List.mem_singleton.mp new)
  · cases carriage with
    | requestLost => exact exception_standing
    | replyLost => exact exception_standing
    | delivered =>
      simp only [heard,ClientCall.receive,asynchronous,if_true,ClientCall.accepted,read]
      refine .polling s.launchedBy.length ⟨asynchronous,rfl,rfl,?_,number⟩
      exact List.getElem?_concat_length

omit [LawfulAssign V] in
theorem named_exchange (protocol : Protocol V) {invocation : AsyncInvocation V} {number : Nat}
    (owned : s.Owned caller (calls caller) invocation number)
    (supported : isSupportedPayloadEncoding (calls caller).config.encoding = true)
    {command : AsyncCommand} (later : command ≠ .kInitialRequest)
    (built : createAsyncIdRequest invocation.id invocation.encoding command = .ok packet)
    (moments : Nat → Moment V) (carriage : Carriage) : ∃ payload,
      extractAsyncRequestId payload = some invocation.id ∧
      s.exchange protocol calls caller packet moments carriage =
        (s.reach (.handleInvoke payload invocation.encoding command moments)).put caller
          ((calls caller).receive (s.progress caller) (heard carriage
            (s.server.handleInvoke payload invocation.encoding command moments).1.reply)) := by
  have supported := owned.supported supported
  obtain ⟨payload,again,inner,same,known⟩ :=
    createAsyncIdRequest_represents (V := V) invocation.id command supported
  cases built.symm.trans same
  refine ⟨payload,named_id inner,?_⟩
  rw [exchange_command supported protocol calls s caller moments carriage known]
  simp [later,put,reach]

omit [LawfulAssign V] in
theorem poll_sound (sound : s.Sound protocol calls expirationTimeNs) (numbered : Numbered s.server)
    (supported : isSupportedPayloadEncoding (calls caller).config.encoding = true)
    {invocation : AsyncInvocation V} {polls number : Nat}
    (here : s.progress caller = .polling invocation polls)
    (owned : s.Owned caller (calls caller) invocation number)
    (built : createAsyncRPCPoll invocation.id invocation.encoding = .ok packet)
    (moments : Nat → Moment V) (carriage : Carriage) :
    (s.exchange protocol calls caller packet moments carriage).Sound protocol calls
      expirationTimeNs := by
  obtain ⟨payload,named,exchanged⟩ := named_exchange protocol owned supported
    (show AsyncCommand.kPoll ≠ .kInitialRequest by decide) built moments carriage
  obtain ⟨reply,answered,outcome⟩ := poll_answer (owned.supported supported) s.server
    invocation.id moments
  have moved := reach_later s (.handleInvoke payload invocation.encoding .kPoll moments)
  rw [exchanged,here,handleInvoke_poll named,answered]
  refine put_sound (reach_sound sound rfl) ?_
  cases carriage with
  | requestLost => exact exception_standing
  | replyLost => exact exception_standing
  | delivered =>
    change Standing protocol _ caller _ ((calls caller).awaited invocation polls (AsyncInvocation.polled reply))
    rcases outcome with refused | waits | ⟨ready,invoke,call,found,held,_,ended⟩
    · rw [refused,ClientCall.awaited_failed _ _ _ (by decide)]
      exact failed_standing (by simp [transportFailures,owned.asynchronous])
    · rw [waits]
      cases wait : ((calls caller).config.handler (calls caller).startTimestamp).wait
          ((calls caller).clock polls) with
      | none =>
        rw [ClientCall.awaited_timeout _ _ _ wait]
        exact failed_standing (by simp [transportFailures,owned.asynchronous])
      | some slept =>
        rw [ClientCall.awaited_sleeps _ _ _ wait]
        exact .polling number (owned.later moved)
    · rcases owned.entry numbered found held with rfl
      rw [ready,ClientCall.awaited_ready]
      refine .fetching call (owned.later moved) ?_
      change Tasks.isReady (s.server.handleInvoke payload invocation.encoding .kPoll moments).2.calls call = true
      rw [handleInvoke_poll named]
      exact ended

theorem fetch_sound (sound : s.Sound protocol calls expirationTimeNs) (numbered : Numbered s.server)
    (supported : isSupportedPayloadEncoding (calls caller).config.encoding = true)
    {invocation : AsyncInvocation V} {number : Nat}
    (here : s.progress caller = .fetching invocation)
    (owned : s.Owned caller (calls caller) invocation number)
    (built : createAsyncRPCGetReply invocation.id invocation.encoding = .ok packet)
    (moments : Nat → Moment V) (carriage : Carriage) :
    (s.exchange protocol calls caller packet moments carriage).Sound protocol calls
      expirationTimeNs := by
  obtain ⟨payload,named,exchanged⟩ := named_exchange protocol owned supported
    (show AsyncCommand.kGetReply ≠ .kInitialRequest by decide) built moments carriage
  obtain ⟨reply,answered,outcome⟩ := fetch_answer (owned.supported supported) s.server
    invocation.id moments (calls caller).output
  have moved := reach_later s (.handleInvoke payload invocation.encoding .kGetReply moments)
  rw [exchanged,here,handleInvoke_getReply named,answered]
  refine put_sound (reach_sound sound rfl) ?_
  cases carriage with
  | requestLost => exact exception_standing
  | replyLost => exact exception_standing
  | delivered =>
    change Standing protocol _ caller _
      (ClientCall.decoded (AsyncInvocation.replied reply (calls caller).output))
    rcases outcome with ⟨result,refused,read⟩ | ⟨invoke,call,outcome,found,held,_,ended,read,_⟩
    · rw [read]
      refine failed_standing ?_
      rcases refused with rfl | rfl <;> simp [transportFailures,owned.asynchronous]
    · rcases owned.entry numbered found held with rfl
      rw [read]
      refine .returned (.launched call outcome (owned.later moved).launched ?_)
      change Tasks.outcomeOf (s.server.handleInvoke payload invocation.encoding .kGetReply
        moments).2.calls call = some outcome
      rw [handleInvoke_getReply named]
      exact ended

end Packets

section Runs
variable [LawfulAnyValue V] [LawfulCodec V] {protocol : Protocol V} {calls : Nat → ClientCall V}
  {expirationTimeNs : UInt64} {s : Shared V} {caller : Nat}

omit [LawfulCodec V] in
theorem request_built (supported : isSupportedPayloadEncoding (calls caller).config.encoding = true)
    (standing : s.Standing protocol caller (calls caller) (s.progress caller)) {error : Exception} :
    (calls caller).request (s.progress caller) ≠ some (.error error) := by
  cases here : s.progress caller with
  | returned invoked => simp [ClientCall.request]
  | called =>
    rw [here] at standing
    obtain ⟨nonempty,_⟩ := standing
    obtain ⟨_,first,_⟩ := createAsyncRPCRequest_represents nonempty supported
    obtain ⟨_,plain,_⟩ := createRPCRequest_represents nonempty supported
    cases asynchronous : (calls caller).config.async <;>
      simp [ClientCall.request,asynchronous,first,plain]
  | polling invocation polls =>
    rw [here] at standing
    obtain ⟨⟩ | ⟨number,owned⟩ := standing
    obtain ⟨_,packet,_,built,_⟩ := createAsyncIdRequest_represents (V := V) invocation.id .kPoll
      (owned.supported supported)
    simp [ClientCall.request,createAsyncRPCPoll,built]
  | fetching invocation =>
    rw [here] at standing
    obtain ⟨⟩ | ⟨⟩ | ⟨number,owned⟩ := standing
    obtain ⟨_,packet,_,built,_⟩ := createAsyncIdRequest_represents (V := V) invocation.id .kGetReply
      (owned.supported supported)
    simp [ClientCall.request,createAsyncRPCGetReply,built]

def Within (s : Shared V) : Prop := s.events.countP Event.isInitialRequest < UInt64.size

instance (s : Shared V) : Decidable s.Within := inferInstanceAs (Decidable (_ < _))

omit [LawfulAnyValue V] [LawfulCodec V] in
theorem exchange_within {packet : V} {moments : Nat → Moment V} {carriage : Carriage}
    (within : (s.exchange protocol calls caller packet moments carriage).Within) : s.Within := by
  unfold Within at within ⊢
  change (s.events ++ packetCommands packet moments).countP _ < _ at within
  rw [List.countP_append] at within
  omega

omit [LawfulAnyValue V] [LawfulCodec V] in
theorem step_within (s : Shared V) (happening : Happening V)
    (within : (s.step protocol calls happening).2.Within) : s.Within := by
  have reached : ∀ event, (s.reach event).Within → s.Within := by
    intro event within
    unfold Within at within ⊢
    change (s.events ++ [event]).countP _ < _ at within
    rw [List.countP_append] at within
    omega
  cases happening with
  | cleanUp moments => exact reached _ within
  | complete call outcome => exact reached _ within
  | packet caller moments carriage =>
    unfold step at within
    dsimp only at within
    split at within
    · exact within
    · exact within
    · split at within
      · exact within
      · exact exchange_within within

theorem exchange_sound [LawfulAssign V] {packet : V} {moments : Nat → Moment V} {carriage : Carriage}
    (supported : isSupportedPayloadEncoding (calls caller).config.encoding = true)
    (sound : s.Sound protocol calls expirationTimeNs)
    (asked : (calls caller).request (s.progress caller) = some (.ok packet))
    (within : (s.exchange protocol calls caller packet moments carriage).Within) :
    (s.exchange protocol calls caller packet moments carriage).Sound protocol calls
      expirationTimeNs := by
  have numbered : Numbered s.server := by
    rw [sound.grounded.tracks]
    exact reached_numbered expirationTimeNs s.events (exchange_within within)
  have standing := sound.standing caller
  cases here : s.progress caller with
  | returned invoked =>
    rw [here] at asked
    cases asked
  | called =>
    rw [here] at standing asked
    obtain ⟨nonempty,fresh⟩ := standing
    cases asynchronous : (calls caller).config.async with
    | true =>
      have built : createAsyncRPCRequest (calls caller).input (calls caller).config.encoding =
          .ok packet := by simpa [ClientCall.request,asynchronous] using asked
      exact start_sound sound asynchronous supported here nonempty fresh built moments carriage within
    | false =>
      have built : createRPCRequest (calls caller).input (calls caller).config.encoding =
          .ok packet := by simpa [ClientCall.request,asynchronous] using asked
      exact direct_sound sound asynchronous supported here nonempty built moments carriage
  | polling invocation polls =>
    rw [here] at standing asked
    obtain ⟨⟩ | ⟨number,owned⟩ := standing
    exact poll_sound sound numbered supported here owned (Option.some.inj asked) moments carriage
  | fetching invocation =>
    rw [here] at standing asked
    obtain ⟨⟩ | ⟨⟩ | ⟨number,owned⟩ := standing
    exact fetch_sound sound numbered supported here owned (Option.some.inj asked) moments carriage

theorem step_sound [LawfulAssign V]
    (supported : ∀ caller, isSupportedPayloadEncoding (calls caller).config.encoding = true)
    (s : Shared V) (happening : Happening V) (sound : s.Sound protocol calls expirationTimeNs)
    (within : (s.step protocol calls happening).2.Within) :
    (s.step protocol calls happening).2.Sound protocol calls expirationTimeNs := by
  cases happening with
  | cleanUp moments => exact reach_sound sound rfl
  | complete call outcome => exact reach_sound sound rfl
  | packet caller moments carriage =>
    cases asked : (calls caller).request (s.progress caller) with
    | none => simpa only [step,asked] using sound
    | some request =>
      cases request with
      | error error => exact absurd asked (request_built (supported caller) (sound.standing caller))
      | ok packet =>
        by_cases lost : carriage = .requestLost
        · simp only [step,asked,lost,if_true]
          exact put_sound sound (lost_standing (sound.standing caller))
        · simp only [step,asked,lost,if_false] at within ⊢
          exact exchange_sound (supported caller) sound asked within

omit [LawfulAnyValue V] [LawfulCodec V] in
theorem initially_sound (protocol : Protocol V) (calls : Nat → ClientCall V) (expirationTimeNs : UInt64) :
    (start expirationTimeNs calls).Sound protocol calls expirationTimeNs := by
  refine ⟨⟨rfl,rfl,.nil,by simp [start]⟩,fun caller => ?_⟩
  change Standing protocol _ caller _ (calls caller).begin
  unfold ClientCall.begin
  split
  · rename_i bare
    exact .returned (.refused bare)
  · rename_i nonempty
    exact .called (by simpa using nonempty) (by simp [start])

theorem after_sound [LawfulAssign V] (protocol : Protocol V)
    (supported : ∀ caller, isSupportedPayloadEncoding (calls caller).config.encoding = true)
    (happenings : List (Happening V)) (within : (after protocol calls expirationTimeNs happenings).Within) :
    (after protocol calls expirationTimeNs happenings).Sound protocol calls expirationTimeNs :=
  run_bounded step_within (fun s happening _ => step_sound supported s happening)
    (initially_sound protocol calls expirationTimeNs) happenings (fun _ _ => trivial) within

omit [Codec V] [LawfulAnyValue V] [LawfulCodec V] in
theorem Standing.waits {request : UInt64}
    (standing : s.Standing protocol caller (calls caller) (s.progress caller))
    (waits : (s.progress caller).waitsFor = some request) :
    ∃ number, s.launchedBy[number]? = some caller ∧ request.toNat = number + 1 := by
  cases here : s.progress caller with
  | called => simp [here,Progress.waitsFor] at waits
  | returned invoked => simp [here,Progress.waitsFor] at waits
  | polling invocation polls =>
    rw [here] at standing waits
    cases waits
    obtain ⟨⟩ | ⟨number,owned⟩ := standing
    exact ⟨number,owned.launched,owned.named⟩
  | fetching invocation =>
    rw [here] at standing waits
    cases waits
    obtain ⟨⟩ | ⟨⟩ | ⟨number,owned⟩ := standing
    exact ⟨number,owned.launched,owned.named⟩

structure Safe (protocol : Protocol V) (calls : Nat → ClientCall V) (s : Shared V) : Prop where
  launched : ∀ number < s.server.calls.length, ∃ caller, s.launchedBy[number]? = some caller ∧
    (calls caller).config.async = true ∧
    (Tasks.inputs s.server.calls)[number]? = some (calls caller).input
  once : s.launchedBy.Nodup
  apart : ∀ caller other request, (s.progress caller).waitsFor = some request →
    (s.progress other).waitsFor = some request → caller = other
  ends : ∀ caller invoked, s.progress caller = .returned invoked →
    s.Ending protocol transportFailures caller (calls caller) invoked

omit [LawfulAnyValue V] [LawfulCodec V] in
theorem Sound.safe (sound : s.Sound protocol calls expirationTimeNs) : Safe protocol calls s := by
  refine ⟨?_,sound.grounded.once,?_,?_⟩
  · intro number launched
    rw [← sound.grounded.counted] at launched
    have own := List.getElem?_eq_getElem launched
    exact ⟨_,own,sound.grounded.inputs number _ own⟩
  · intro caller other request here there
    obtain ⟨number,own,named⟩ := (sound.standing caller).waits here
    obtain ⟨again,also,same⟩ := (sound.standing other).waits there
    have equal : again = number := by omega
    subst again
    exact Option.some.inj (own.symm.trans also)
  · intro caller invoked here
    have standing := sound.standing caller
    rw [here] at standing
    obtain ⟨⟩ | ⟨⟩ | ⟨⟩ | ⟨ending⟩ := standing
    exact ending

-- Callers that share a server are answered as if each had it for itself: every
-- one of them launches at most one call, on its own input, and is given the
-- outcome of no other.
theorem shared_safe [LawfulAssign V] (protocol : Protocol V) (calls : Nat → ClientCall V)
    (supported : ∀ caller, isSupportedPayloadEncoding (calls caller).config.encoding = true)
    (expirationTimeNs : UInt64) (happenings : List (Happening V))
    (within : (after protocol calls expirationTimeNs happenings).Within) :
    Safe protocol calls (after protocol calls expirationTimeNs happenings) :=
  (after_sound protocol supported happenings within).safe

end Runs

def threeCallers (caller : Nat) : ClientCall Reference.Value :=
  ⟨⟨.kNone,true,1000,1⟩,0,fun _ => 0,.string (if caller = 0 then "measure" else "park"),.empty⟩

def crossing : List (Happening Reference.Value) :=
  [.packet 0 (instant 0) .delivered,.packet 1 (instant 1) .delivered,
   .packet 2 (instant 1) .requestLost,.packet 0 (instant 2) .delivered,
   .complete 1 (.ok (.success,.string "parked")),.packet 1 (instant 3) .delivered,
   .complete 0 (.error (.foreign "no beam")),.packet 0 (instant 4) .delivered,
   .packet 1 (instant 5) .delivered,.packet 0 (instant 6) .delivered]

def crossed : Shared Reference.Value :=
  after ⟨fun _ _ => .ok (.success,.empty),fun _ _ => .ok (.success,.empty)⟩ threeCallers 10 crossing

theorem shared_safe_crossing : crossed.launchedBy = [0,1] ∧
    Safe ⟨fun _ _ => .ok (.success,.empty),fun _ _ => .ok (.success,.empty)⟩ threeCallers crossed :=
  ⟨by decide,shared_safe _ threeCallers (fun _ => rfl) 10 crossing (by decide)⟩

end Shared

end SupProtocol
