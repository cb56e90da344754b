import Mathlib.Data.List.Induction
import SupProtocol.SharedInvariant

namespace SupProtocol
open AsyncInvokeServer Machine

namespace AsyncInvokeServer
variable {V : Type} [AnyValue V] [Codec V]

-- Every call on the application has left the mark of its launch, under the id
-- that is its number counted from 1 on.
theorem launched_effects (expirationTimeNs : UInt64) (events : List (Event V)) :
    ∀ number < (reached expirationTimeNs events).calls.length,
      ∃ now, .launched (UInt64.ofNat (number + 1)) number now ∈
        effectsOf (handled expirationTimeNs events) := by
  induction events using List.reverseRecOn with
  | nil => exact fun number within => absurd within (Nat.not_lt_zero _)
  | append_singleton events event ih =>
    intro number within
    rw [handled_snoc,effectsOf_append,effectsOf_single]
    by_cases old : number < (reached expirationTimeNs events).calls.length
    · obtain ⟨now,launched⟩ := ih number old
      exact ⟨now,List.mem_append_left _ launched⟩
    · rw [reached_count,List.countP_append] at within
      rw [reached_count] at old
      have one : event.isInitialRequest = true ∧ number = events.countP Event.isInitialRequest := by
        cases initial : event.isInitialRequest with
        | true => simp [initial] at within; exact ⟨rfl,by omega⟩
        | false => simp [initial] at within; omega
      have counter := path_counter (reached_path expirationTimeNs events)
        (start_numbered (V := V) expirationTimeNs).counter
      cases event with
      | cleanUpExpiredRequests moments => cases one.1
      | complete call outcome => cases one.1
      | handleInvoke payload encoding command moments =>
        have initial : command = .kInitialRequest := by simpa [Event.isInitialRequest] using one.1
        subst initial
        refine ⟨(moments 0).now,List.mem_append_right _ ?_⟩
        rw [record,step_handleInvoke,handleInvoke_newRequest,output_effects,newRequest_effects,
          next_id counter,reached_count,one.2]
        exact List.mem_singleton_self _

end AsyncInvokeServer

def Happening.carries {V : Type} (caller : Nat) : Happening V → Prop
  | .packet other _ carriage => other = caller → carriage = .delivered
  | _ => True

instance {V : Type} (caller : Nat) : (happening : Happening V) → Decidable (happening.carries caller)
  | .packet other _ carriage => inferInstanceAs (Decidable (other = caller → carriage = .delivered))
  | .cleanUp _ | .complete _ _ => inferInstanceAs (Decidable True)

def Happening.isPacketOf {V : Type} (caller : Nat) : Happening V → Bool
  | .packet other _ _ => other == caller
  | _ => false

def Progress.packetsLeft {V : Type} : Progress V → Nat
  | .called => 3
  | .polling _ _ => 2
  | .fetching _ => 1
  | .returned _ => 0

theorem Progress.returned_of_packetsLeft {V : Type} {progress : Progress V}
    (none : progress.packetsLeft = 0) : ∃ invoked, progress = .returned invoked := by
  cases progress with
  | called => cases none
  | polling invocation polls => cases none
  | fetching invocation => cases none
  | returned invoked => exact ⟨invoked,rfl⟩

namespace Shared
variable {V : Type} [AnyValue V] [Codec V]

-- Only a caller takes its own reply, as the last it does, and nobody withdraws a
-- request.
def Unfetched (s : Shared V) : Prop :=
  ∀ event ∈ s.events, ∀ key, ¬ event.names .kInvalidate key ∧
    (event.names .kGetReply key → ∃ number other invoked, s.launchedBy[number]? = some other ∧
      key.toNat = number + 1 ∧ s.progress other = .returned invoked)

section Unfetched
variable {protocol : Protocol V} {calls : Nat → ClientCall V} {expirationTimeNs : UInt64}
  {s t : Shared V} {caller : Nat}

omit [Codec V] in
theorem Unfetched.later (unfetched : s.Unfetched) (later : Later s t)
    (stays : ∀ other invoked, s.progress other = .returned invoked → t.progress other = .returned invoked)
    {more : List (Event V)} (grown : t.events = s.events ++ more)
    (harmless : ∀ event ∈ more, ∀ key, ¬ event.names .kInvalidate key ∧
      (event.names .kGetReply key → ∃ number other invoked, t.launchedBy[number]? = some other ∧
        key.toNat = number + 1 ∧ t.progress other = .returned invoked)) : t.Unfetched := by
  intro event member key
  rw [grown] at member
  rcases List.mem_append.mp member with old | new
  · obtain ⟨valid,fetched⟩ := unfetched event old key
    refine ⟨valid,fun named => ?_⟩
    obtain ⟨number,other,invoked,own,same,done⟩ := fetched named
    exact ⟨number,other,invoked,later.owner own,same,stays other invoked done⟩
  · exact harmless event new key

theorem put_stays {packet : Except Exception V} {next : Progress V}
    (asked : (calls caller).request (s.progress caller) = some packet)
    (kept : t.progress = Function.update s.progress caller next) (other : Nat) (invoked : Invoked V)
    (done : s.progress other = .returned invoked) : t.progress other = .returned invoked := by
  have apart : other ≠ caller := by
    rintro rfl
    rw [done] at asked
    cases asked
  rw [kept,Function.update_of_ne apart]
  exact done

theorem exchange_later (protocol : Protocol V) (calls : Nat → ClientCall V) (s : Shared V)
    (caller : Nat) (packet : V) (moments : Nat → Moment V) (carriage : Carriage) : Later s (s.exchange protocol calls caller packet moments carriage) := by
  refine ⟨⟨_,rfl⟩,?_⟩
  change Tasks.Extends s.server.calls
    (ProtocolRPCServer.handlePacket protocol packet moments s.server).2.calls
  rw [handlePacket_run]
  exact path_calls (run_path s.server (packetCommands packet moments))

theorem step_later (protocol : Protocol V) (calls : Nat → ClientCall V) (s : Shared V)
    (happening : Happening V) :
    Later s (s.step protocol calls happening).2 := by
  cases happening with
  | cleanUp moments => exact reach_later s _
  | complete call outcome => exact reach_later s _
  | packet caller moments carriage =>
    unfold step
    dsimp only
    split
    · exact ⟨⟨[],by simp⟩,.refl _⟩
    · exact put_later s caller _
    · split
      · exact put_later s caller _
      · exact exchange_later protocol calls s caller _ moments carriage

variable [LawfulAnyValue V] [LawfulCodec V]

theorem exchange_unfetched {packet : V} {moments : Nat → Moment V} {carriage : Carriage}
    (supported : isSupportedPayloadEncoding (calls caller).config.encoding = true)
    (sound : s.Sound protocol calls expirationTimeNs) (unfetched : s.Unfetched)
    (asked : (calls caller).request (s.progress caller) = some (.ok packet)) :
    (s.exchange protocol calls caller packet moments carriage).Unfetched := by
  have later := exchange_later protocol calls s caller packet moments carriage
  have stays := put_stays asked (t := s.exchange protocol calls caller packet moments carriage) rfl
  have standing := sound.standing caller
  refine unfetched.later later stays rfl ?_
  cases here : s.progress caller with
  | returned invoked =>
    rw [here] at asked
    cases asked
  | called =>
    rw [here] at standing asked
    obtain ⟨nonempty,fresh⟩ := standing
    cases asynchronous : (calls caller).config.async with
    | false =>
      obtain ⟨again,same,known⟩ := createRPCRequest_represents nonempty supported
      have built : createRPCRequest (calls caller).input (calls caller).config.encoding =
          .ok packet := by simpa [ClientCall.request,asynchronous] using asked
      cases built.symm.trans same
      simp [packetCommands,known.encoding supported,known.command]
    | true =>
      obtain ⟨again,same,known⟩ := createAsyncRPCRequest_represents nonempty supported
      have built : createAsyncRPCRequest (calls caller).input (calls caller).config.encoding =
          .ok packet := by simpa [ClientCall.request,asynchronous] using asked
      cases built.symm.trans same
      rw [command_arrives moments known supported]
      intro event member key
      cases List.mem_singleton.mp member
      exact ⟨fun named => absurd named.1 (by decide),fun named => absurd named.1 (by decide)⟩
  | polling invocation polls =>
    rw [here] at standing asked
    obtain ⟨⟩ | ⟨number,owned⟩ := standing
    obtain ⟨payload,again,inner,same,known⟩ :=
      createAsyncIdRequest_represents (V := V) invocation.id .kPoll (owned.supported supported)
    cases (Option.some.inj asked).symm.trans same
    rw [command_arrives moments known (owned.supported supported)]
    intro event member key
    cases List.mem_singleton.mp member
    exact ⟨fun named => absurd named.1 (by decide),fun named => absurd named.1 (by decide)⟩
  | fetching invocation =>
    rw [here] at standing asked
    obtain ⟨⟩ | ⟨⟩ | ⟨number,owned⟩ := standing
    obtain ⟨payload,again,inner,same,known⟩ :=
      createAsyncIdRequest_represents (V := V) invocation.id .kGetReply (owned.supported supported)
    cases (Option.some.inj asked).symm.trans same
    rw [command_arrives moments known (owned.supported supported)]
    intro event member key
    cases List.mem_singleton.mp member
    refine ⟨fun named => absurd named.1 (by decide),fun named => ?_⟩
    cases (named_id inner).symm.trans named.2
    -- whatever it hears, this caller is done
    have done : ∀ answer, ∃ invoked,
        (calls caller).receive (.fetching invocation) answer = .returned invoked := by
      intro answer
      cases answer with
      | none => exact ⟨_,rfl⟩
      | some reply => exact ⟨_,rfl⟩
    obtain ⟨invoked,ended⟩ := done (heard carriage
      (ProtocolRPCServer.handlePacket protocol packet moments s.server).1.reply)
    refine ⟨number,caller,invoked,later.owner owned.launched,owned.named,?_⟩
    rw [← ended,← here]
    exact Function.update_self ..

end Unfetched

structure Unexpired (expirationTimeNs : UInt64) (caller : Nat) (s : Shared V) : Prop where
  within : s.Within
  alive : ∀ number, s.launchedBy[number]? = some caller →
    KeptAlive expirationTimeNs (UInt64.ofNat (number + 1)) (effectsOf (handled expirationTimeNs s.events))

section Waiting
variable {protocol : Protocol V} {calls : Nat → ClientCall V} {expirationTimeNs : UInt64}
  {s t : Shared V} {caller number : Nat} {invocation : AsyncInvocation V}

theorem Unexpired.earlier (unexpired : t.Unexpired expirationTimeNs caller) (later : Later s t)
    {more : List (Event V)} (grown : t.events = s.events ++ more) :
    s.Unexpired expirationTimeNs caller := by
  obtain ⟨within,alive⟩ := unexpired
  unfold Within at within
  rw [grown,List.countP_append] at within
  refine ⟨by unfold Within; omega,fun number own => ?_⟩
  have kept := alive number (later.owner own)
  rw [grown,handled_append] at kept
  exact kept.earlier

theorem step_unexpired (s : Shared V) (happening : Happening V)
    (unexpired : (s.step protocol calls happening).2.Unexpired expirationTimeNs caller) :
    s.Unexpired expirationTimeNs caller := by
  have later := step_later protocol calls s happening
  have grown : ∃ more, (s.step protocol calls happening).2.events = s.events ++ more := by
    cases happening with
    | cleanUp moments => exact ⟨_,rfl⟩
    | complete call outcome => exact ⟨_,rfl⟩
    | packet caller moments carriage =>
      unfold step
      dsimp only
      split
      · exact ⟨[],by simp⟩
      · exact ⟨[],by simp [put]⟩
      · split
        · exact ⟨[],by simp [put]⟩
        · exact ⟨_,rfl⟩
  obtain ⟨more,parts⟩ := grown
  exact unexpired.earlier later parts

omit [AnyValue V] [Codec V] in
theorem Owned.key {call : ClientCall V} (owned : s.Owned caller call invocation number) :
    UInt64.ofNat (number + 1) = invocation.id := by
  rw [← owned.named,UInt64.ofNat_toNat]

omit [Codec V] in
theorem waiting_spared (unfetched : s.Unfetched) {call : ClientCall V}
    (owned : s.Owned caller call invocation number)
    (waits : ∀ invoked, s.progress caller ≠ .returned invoked) :
    ∀ event ∈ s.events, event.spares invocation.id := by
  intro event member
  obtain ⟨valid,fetched⟩ := unfetched event member invocation.id
  refine ⟨fun named => ?_,valid⟩
  obtain ⟨again,other,invoked,own,same,done⟩ := fetched named
  have equal : again = number := by
    have here := owned.named
    omega
  subst again
  cases own.symm.trans owned.launched
  exact waits invoked done

theorem waiting_entry [LawfulAnyValue V] (sound : s.Sound protocol calls expirationTimeNs)
    (unfetched : s.Unfetched) (owned : s.Owned caller (calls caller) invocation number)
    (waits : ∀ invoked, s.progress caller ≠ .returned invoked)
    (unexpired : s.Unexpired expirationTimeNs caller) :
    Retained expirationTimeNs invocation.id (effectsOf (handled expirationTimeNs s.events))
      (reached expirationTimeNs s.events) ∧
    ∃ invoke : AsyncInvoke, (reached expirationTimeNs s.events).invokes[invocation.id]? = some invoke ∧
      invoke.future = some number ∧ invoke.invalidated = false := by
  have alive := unexpired.alive number owned.launched
  rw [owned.key] at alive
  have retained := spared_retained alive (waiting_spared unfetched owned waits)
  have within : number < (reached expirationTimeNs s.events).calls.length := by
    rw [← sound.grounded.tracks,← sound.grounded.counted]
    exact (List.getElem?_eq_some_iff.mp owned.launched).1
  obtain ⟨now,launched⟩ := launched_effects expirationTimeNs s.events number within
  rw [owned.key] at launched
  obtain ⟨invoke,call,found,held,wanted⟩ := retained.entry launched
  have numbered := reached_numbered expirationTimeNs s.events unexpired.within
  rw [← sound.grounded.tracks] at numbered
  rcases owned.entry numbered (sound.grounded.tracks ▸ found) held with rfl
  exact ⟨retained,invoke,found,held,wanted⟩

variable [LawfulAnyValue V] [LawfulCodec V] {packet : V} {moments : Nat → Moment V}

theorem polled_standing (sound : s.Sound protocol calls expirationTimeNs) (unfetched : s.Unfetched)
    (supported : isSupportedPayloadEncoding (calls caller).config.encoding = true) {polls : Nat}
    (here : s.progress caller = .polling invocation polls)
    (owned : s.Owned caller (calls caller) invocation number)
    (built : createAsyncRPCPoll invocation.id invocation.encoding = .ok packet)
    (unexpired : (s.exchange protocol calls caller packet moments .delivered).Unexpired
      expirationTimeNs caller) :
    (s.exchange protocol calls caller packet moments .delivered).progress caller =
      (calls caller).awaited invocation polls (.success,Tasks.isReady
        (s.exchange protocol calls caller packet moments .delivered).server.calls number) := by
  obtain ⟨payload,named,exchanged⟩ := named_exchange protocol owned supported
    (show AsyncCommand.kPoll ≠ .kInitialRequest by decide) built moments .delivered
  have before := unexpired.earlier (exchange_later protocol calls s caller packet moments .delivered) rfl
  obtain ⟨retained,invoke,found,held,wanted⟩ := waiting_entry sound unfetched owned
    (by simp [here]) before
  rw [exchanged] at unexpired ⊢
  have alive := unexpired.alive number owned.launched
  rw [owned.key] at alive
  have polled := kept_polled named found held wanted retained alive
  obtain ⟨reply,built,read⟩ := polled_flag (V := V) (owned.supported supported)
    (Tasks.isReady (s.server.step (.handleInvoke payload invocation.encoding .kPoll moments)).2.calls
      number)
  rw [← sound.grounded.tracks] at polled
  have answered : (s.server.handleInvoke payload invocation.encoding .kPoll moments).1.reply =
      .ok reply := (Option.some.inj polled).trans built
  change Function.update s.progress caller _ caller = _
  rw [Function.update_self,here,answered]
  exact congrArg ((calls caller).awaited invocation polls) read

theorem fetched_standing [LawfulAssign V] (sound : s.Sound protocol calls expirationTimeNs)
    (unfetched : s.Unfetched)
    (supported : isSupportedPayloadEncoding (calls caller).config.encoding = true)
    (here : s.progress caller = .fetching invocation)
    (owned : s.Owned caller (calls caller) invocation number)
    (ready : Tasks.isReady s.server.calls number = true)
    (built : createAsyncRPCGetReply invocation.id invocation.encoding = .ok packet)
    (unexpired : (s.exchange protocol calls caller packet moments .delivered).Unexpired
      expirationTimeNs caller) :
    ∃ outcome, Tasks.outcomeOf
        (s.exchange protocol calls caller packet moments .delivered).server.calls number = some outcome ∧
      (s.exchange protocol calls caller packet moments .delivered).progress caller =
        .returned (callEnd outcome (calls caller).output) := by
  obtain ⟨payload,named,exchanged⟩ := named_exchange protocol owned supported
    (show AsyncCommand.kGetReply ≠ .kInitialRequest by decide) built moments .delivered
  have before := unexpired.earlier (exchange_later protocol calls s caller packet moments .delivered) rfl
  obtain ⟨retained,invoke,found,held,wanted⟩ := waiting_entry sound unfetched owned
    (by simp [here]) before
  rw [← sound.grounded.tracks] at found
  have ended := (Tasks.finishAll_extends s.server.calls (moments 0).completions).isReady ready
  obtain ⟨outcome,settled⟩ := Option.isSome_iff_exists.mp ended
  obtain ⟨_,after,answered⟩ := AsyncInvokeServer.getReply_delivers invocation.encoding moments named
    found held settled wanted
  obtain ⟨reply,replied,layout⟩ := createAsyncRPCReply_represents (AsyncInvoke.settled outcome).1
    (AsyncInvoke.settled outcome).2 .kGetReply (owned.supported supported)
  have delivered : (s.server.handleInvoke payload invocation.encoding .kGetReply moments).1.reply =
      .ok reply := (Option.some.inj answered).trans replied
  refine ⟨outcome,?_,?_⟩
  · rw [exchanged]
    exact after
  · rw [exchanged]
    change Function.update s.progress caller _ caller = _
    rw [Function.update_self,here,delivered]
    have read := replied_read layout (owned.supported supported) (calls caller).output
    rw [callResult_settled] at read
    change ClientCall.decoded (AsyncInvocation.replied reply (calls caller).output) = _
    rw [read]
    rfl

end Waiting

section Requests
variable [LawfulAnyValue V] [LawfulCodec V] {protocol : Protocol V} {calls : Nat → ClientCall V}
  {expirationTimeNs : UInt64} {s : Shared V} {caller : Nat} {packet : V} {moments : Nat → Moment V}

theorem direct_progress [LawfulAssign V] (protocol : Protocol V) (synchronous : (calls caller).config.async = false)
    (supported : isSupportedPayloadEncoding (calls caller).config.encoding = true)
    (here : s.progress caller = .called) (nonempty : isEmptyValue (calls caller).input = false)
    (built : createRPCRequest (calls caller).input (calls caller).config.encoding = .ok packet)
    (moments : Nat → Moment V) :
    (s.exchange protocol calls caller packet moments .delivered).progress caller =
      .returned (callEnd (protocol.invoke (calls caller).input empty) (calls caller).output) := by
  obtain ⟨again,same,known⟩ := createRPCRequest_represents nonempty supported
  cases built.symm.trans same
  obtain ⟨reply,answered,read⟩ := invokeAnswer_read protocol (calls caller).input supported
  rw [exchange_direct supported protocol calls s caller moments .delivered known,here,answered]
  change Function.update s.progress caller _ caller = _
  rw [Function.update_self]
  simp [heard,ClientCall.receive,synchronous,ClientCall.decoded,read,callEnd]

theorem started_progress (sound : s.Sound protocol calls expirationTimeNs)
    (asynchronous : (calls caller).config.async = true)
    (supported : isSupportedPayloadEncoding (calls caller).config.encoding = true)
    (here : s.progress caller = .called) (nonempty : isEmptyValue (calls caller).input = false)
    (built : createAsyncRPCRequest (calls caller).input (calls caller).config.encoding = .ok packet)
    (within : (s.exchange protocol calls caller packet moments .delivered).Within) :
    ∃ invocation, (s.exchange protocol calls caller packet moments .delivered).progress caller =
      .polling invocation 0 := by
  obtain ⟨again,same,known⟩ := createAsyncRPCRequest_represents nonempty supported
  cases built.symm.trans same
  rw [exchange_command supported protocol calls s caller moments .delivered known,here] at within ⊢
  have number := reached_nextId expirationTimeNs within
  rw [← sound.grounded.tracks] at number
  have nonzero : s.server.lastId + 1 ≠ 0 := by
    intro zero
    rw [zero] at number
    cases number
  obtain ⟨reply,answered,read⟩ := start_answer supported s.server moments (calls caller).input nonzero
  rw [handleInvoke_newRequest,answered]
  refine ⟨{AsyncInvocation.make (calls caller).config.encoding with id := s.server.lastId + 1},?_⟩
  change Function.update s.progress caller _ caller = _
  rw [Function.update_self]
  simp only [heard,ClientCall.receive,asynchronous,if_true,ClientCall.accepted,read]
  rfl

end Requests

def patienceFailures (async : Bool) : List ProtocolResult :=
  if async then [.asynchronousProtocolTimeout] else []

structure Kept (protocol : Protocol V) (calls : Nat → ClientCall V) (expirationTimeNs : UInt64)
    (caller : Nat) (s : Shared V) : Prop where
  sound : s.Sound protocol calls expirationTimeNs
  unfetched : s.Unfetched
  answered : ∀ invoked, s.progress caller = .returned invoked →
    s.Ending protocol patienceFailures caller (calls caller) invoked

section Runs
variable [LawfulAnyValue V] [LawfulCodec V] [LawfulAssign V] {protocol : Protocol V}
  {calls : Nat → ClientCall V} {expirationTimeNs : UInt64} {s : Shared V} {caller : Nat}

omit [LawfulCodec V] [LawfulAssign V] in
theorem step_unfetched [LawfulCodec V]
    (supported : ∀ caller, isSupportedPayloadEncoding (calls caller).config.encoding = true)
    (sound : s.Sound protocol calls expirationTimeNs) (unfetched : s.Unfetched)
    (happening : Happening V) : (s.step protocol calls happening).2.Unfetched := by
  have quiet : ∀ event : Event V, (∀ command key, ¬ event.names command key) →
      (s.reach event).Unfetched := by
    intro event nameless
    refine unfetched.later (reach_later s event) (fun _ _ done => done) rfl ?_
    intro other member key
    cases List.mem_singleton.mp member
    exact ⟨nameless _ key,fun named => absurd named (nameless _ key)⟩
  cases happening with
  | cleanUp moments => exact quiet _ (fun _ _ named => named)
  | complete call outcome => exact quiet _ (fun _ _ named => named)
  | packet caller moments carriage =>
    cases asked : (calls caller).request (s.progress caller) with
    | none => simpa only [step,asked] using unfetched
    | some request =>
      have put : ∀ next, (s.put caller next).Unfetched := fun next =>
        unfetched.later (put_later s caller next) (put_stays asked rfl)
          (show (s.put caller next).events = s.events ++ [] from (List.append_nil _).symm) (by simp)
      cases request with
      | error error => exact absurd asked (request_built (supported caller) (sound.standing caller))
      | ok packet =>
        by_cases lost : carriage = .requestLost
        · simp only [step,asked,lost,if_true]
          exact put _
        · simp only [step,asked,lost,if_false]
          exact exchange_unfetched (supported caller) sound unfetched asked

theorem exchange_answered {packet : V} {moments : Nat → Moment V} (kept : s.Kept protocol calls
      expirationTimeNs caller)
    (supported : isSupportedPayloadEncoding (calls caller).config.encoding = true)
    (asked : (calls caller).request (s.progress caller) = some (.ok packet))
    (unexpired : (s.exchange protocol calls caller packet moments .delivered).Unexpired
      expirationTimeNs caller) (invoked : Invoked V)
    (done : (s.exchange protocol calls caller packet moments .delivered).progress caller =
      .returned invoked) :
    (s.exchange protocol calls caller packet moments .delivered).Ending protocol patienceFailures
      caller (calls caller) invoked := by
  have later := exchange_later protocol calls s caller packet moments .delivered
  have standing := kept.sound.standing caller
  cases here : s.progress caller with
  | returned invoked =>
    rw [here] at asked
    cases asked
  | called =>
    rw [here] at standing asked
    obtain ⟨nonempty,_⟩ := standing
    cases asynchronous : (calls caller).config.async with
    | true =>
      have built : createAsyncRPCRequest (calls caller).input (calls caller).config.encoding =
          .ok packet := by simpa [ClientCall.request,asynchronous] using asked
      obtain ⟨id,waits⟩ := started_progress kept.sound asynchronous supported here nonempty built
        unexpired.within
      cases waits.symm.trans done
    | false =>
      have built : createRPCRequest (calls caller).input (calls caller).config.encoding =
          .ok packet := by simpa [ClientCall.request,asynchronous] using asked
      have ends := direct_progress protocol asynchronous supported here nonempty built moments
      cases ends.symm.trans done
      exact .direct asynchronous
  | polling invocation polls =>
    rw [here] at standing asked
    obtain ⟨⟩ | ⟨number,owned⟩ := standing
    rw [polled_standing kept.sound kept.unfetched supported here owned (Option.some.inj asked) unexpired]
      at done
    cases ready : Tasks.isReady
        (s.exchange protocol calls caller packet moments .delivered).server.calls number with
    | true => rw [ready] at done; cases done
    | false =>
      rw [ready] at done
      cases wait : ((calls caller).config.handler (calls caller).startTimestamp).wait
          ((calls caller).clock polls) with
      | some slept => rw [ClientCall.awaited_sleeps _ _ _ wait] at done; cases done
      | none =>
        rw [ClientCall.awaited_timeout _ _ _ wait] at done
        cases done
        exact .failed _ (by simp [patienceFailures,owned.asynchronous])
  | fetching invocation =>
    rw [here] at standing asked
    obtain ⟨⟩ | ⟨⟩ | ⟨number,owned,ready⟩ := standing
    obtain ⟨outcome,ended,progress⟩ := fetched_standing kept.sound kept.unfetched supported here owned
      ready (Option.some.inj asked) unexpired
    cases progress.symm.trans done
    exact .launched number outcome (later.owner owned.launched) ended

omit [AnyValue V] [Codec V] [LawfulAnyValue V] [LawfulCodec V] [LawfulAssign V] in
theorem own_packet {happening : Happening V} (own : happening.isPacketOf caller = true)
    (carried : happening.carries caller) : ∃ moments, happening = .packet caller moments .delivered := by
  cases happening with
  | cleanUp moments => cases own
  | complete call outcome => cases own
  | packet other moments carriage =>
    obtain rfl : other = caller := beq_iff_eq.mp own
    exact ⟨moments,congrArg _ (carried rfl)⟩

omit [LawfulCodec V] [LawfulAssign V] in
theorem packet_steps (supported : isSupportedPayloadEncoding (calls caller).config.encoding = true)
    (sound : s.Sound protocol calls expirationTimeNs) (moments : Nat → Moment V) :
    ((calls caller).request (s.progress caller) = none ∧
      (s.step protocol calls (.packet caller moments .delivered)).2 = s) ∨
    ∃ packet, (calls caller).request (s.progress caller) = some (.ok packet) ∧
      (s.step protocol calls (.packet caller moments .delivered)).2 =
        s.exchange protocol calls caller packet moments .delivered := by
  cases asked : (calls caller).request (s.progress caller) with
  | none => exact Or.inl ⟨rfl,by simp only [step,asked]⟩
  | some request =>
    cases request with
    | error error => exact absurd asked (request_built supported (sound.standing caller))
    | ok packet => exact Or.inr ⟨packet,rfl,by simp only [step,asked,reduceCtorEq,if_false]⟩

omit [LawfulAnyValue V] [LawfulCodec V] [LawfulAssign V] in
theorem step_others (protocol : Protocol V) (calls : Nat → ClientCall V) (s : Shared V)
    {happening : Happening V} (spared : happening.isPacketOf caller = false) :
    (s.step protocol calls happening).2.progress caller = s.progress caller := by
  cases happening with
  | cleanUp moments => rfl
  | complete call outcome => rfl
  | packet other moments carriage =>
    have apart : caller ≠ other := Ne.symm (beq_eq_false_iff_ne.mp spared)
    unfold step
    dsimp only
    split
    · rfl
    · exact Function.update_of_ne apart _ _
    · split <;> exact Function.update_of_ne apart _ _

theorem step_kept (supported : ∀ caller, isSupportedPayloadEncoding (calls caller).config.encoding = true)
    (s : Shared V) (happening : Happening V) (carried : happening.carries caller)
    (kept : s.Kept protocol calls expirationTimeNs caller)
    (unexpired : (s.step protocol calls happening).2.Unexpired expirationTimeNs caller) :
    (s.step protocol calls happening).2.Kept protocol calls expirationTimeNs caller := by
  refine ⟨step_sound supported s happening kept.sound unexpired.within,
    step_unfetched supported kept.sound kept.unfetched happening,?_⟩
  intro invoked done
  cases own : happening.isPacketOf caller with
  | false =>
    rw [step_others protocol calls s own] at done
    exact (kept.answered invoked done).later (step_later protocol calls s happening)
  | true =>
    obtain ⟨moments,rfl⟩ := own_packet own carried
    rcases packet_steps (supported caller) kept.sound moments with
      ⟨ended,stays⟩ | ⟨packet,asked,exchanged⟩
    · rw [stays] at done ⊢
      exact kept.answered invoked done
    · rw [exchanged] at done unexpired ⊢
      exact exchange_answered kept (supported caller) asked unexpired invoked done

omit [LawfulAnyValue V] [LawfulCodec V] [LawfulAssign V] in
theorem initially_kept (protocol : Protocol V) (calls : Nat → ClientCall V) (expirationTimeNs : UInt64)
    (caller : Nat) : (start expirationTimeNs calls).Kept protocol calls expirationTimeNs caller := by
  refine ⟨initially_sound protocol calls expirationTimeNs,fun _ member => absurd member (by simp [start]),?_⟩
  intro invoked done
  change (calls caller).begin = _ at done
  unfold ClientCall.begin at done
  split at done
  · rename_i bare
    cases done
    exact .refused bare
  · cases done

theorem after_kept (supported : ∀ caller, isSupportedPayloadEncoding (calls caller).config.encoding = true)
    (happenings : List (Happening V)) (carried : ∀ happening ∈ happenings, happening.carries caller)
    (unexpired : (after protocol calls expirationTimeNs happenings).Unexpired expirationTimeNs caller) :
    (after protocol calls expirationTimeNs happenings).Kept protocol calls expirationTimeNs caller :=
  run_bounded step_unexpired (step_kept supported) (initially_kept protocol calls expirationTimeNs caller)
    happenings carried unexpired

-- A caller that loses no packet and whose request does not expire ends refused,
-- with the outcome of its own call, or because its own patience is over: nothing
-- that other callers do takes the reply away from it.
theorem shared_served (protocol : Protocol V) (calls : Nat → ClientCall V)
    (supported : ∀ caller, isSupportedPayloadEncoding (calls caller).config.encoding = true)
    (expirationTimeNs : UInt64) (caller : Nat) (happenings : List (Happening V))
    (carried : ∀ happening ∈ happenings, happening.carries caller)
    (unexpired : (after protocol calls expirationTimeNs happenings).Unexpired expirationTimeNs caller)
    (invoked : Invoked V)
    (done : (after protocol calls expirationTimeNs happenings).progress caller = .returned invoked) :
    (after protocol calls expirationTimeNs happenings).Ending protocol patienceFailures caller
      (calls caller) invoked :=
  (after_kept supported happenings carried unexpired).answered invoked done

omit [LawfulAnyValue V] [LawfulCodec V] [LawfulAssign V] in
theorem after_append (protocol : Protocol V) (calls : Nat → ClientCall V) (expirationTimeNs : UInt64)
    (earlier later : List (Happening V)) : after protocol calls expirationTimeNs (earlier ++ later) =
      run (step protocol calls) (after protocol calls expirationTimeNs earlier) later :=
  run_append _ earlier later

omit [LawfulAnyValue V] [LawfulCodec V] [LawfulAssign V] in
theorem after_earlier {earlier later : List (Happening V)}
    (unexpired : (after protocol calls expirationTimeNs (earlier ++ later)).Unexpired
      expirationTimeNs caller) :
    (after protocol calls expirationTimeNs earlier).Unexpired expirationTimeNs caller := by
  rw [after_append] at unexpired
  exact run_earlier step_unexpired later unexpired

structure Closing (s : Shared V) (caller : Nat) (call : ClientCall V) (outcome : Outcome V) : Prop where
  ended : ∃ number, s.launchedBy[number]? = some caller ∧
    Tasks.outcomeOf s.server.calls number = some outcome
  launched : s.progress caller ≠ .called
  given : ∀ invoked, s.progress caller = .returned invoked → invoked = callEnd outcome call.output

theorem step_closing (supported : ∀ caller, isSupportedPayloadEncoding (calls caller).config.encoding = true)
    (s : Shared V) (happening : Happening V) (carried : happening.carries caller)
    (kept : s.Kept protocol calls expirationTimeNs caller) {outcome : Outcome V}
    (closing : s.Closing caller (calls caller) outcome)
    (unexpired : (s.step protocol calls happening).2.Unexpired expirationTimeNs caller) :
    (s.step protocol calls happening).2.Closing caller (calls caller) outcome ∧
    ((s.step protocol calls happening).2.progress caller).packetsLeft =
      (s.progress caller).packetsLeft - if happening.isPacketOf caller then 1 else 0 := by
  obtain ⟨⟨number,own,ended⟩,launched,given⟩ := closing
  have later := step_later protocol calls s happening
  have after : ∃ number, (s.step protocol calls happening).2.launchedBy[number]? = some caller ∧
      Tasks.outcomeOf (s.step protocol calls happening).2.server.calls number = some outcome :=
    ⟨number,later.owner own,later.calls.outcomes number outcome ended⟩
  have standing := kept.sound.standing caller
  have first : ∀ {invocation : AsyncInvocation V} {again : Nat},
      s.Owned caller (calls caller) invocation again → again = number := by
    intro invocation again owned
    exact (List.getElem?_inj (List.getElem?_eq_some_iff.mp owned.launched).1
      kept.sound.grounded.once).mp (owned.launched.trans own.symm)
  cases mine : happening.isPacketOf caller with
  | false =>
    have still := step_others protocol calls s mine
    exact ⟨⟨after,by rwa [still],by rwa [still]⟩,by rw [still]; rfl⟩
  | true =>
    obtain ⟨moments,rfl⟩ := own_packet mine carried
    rcases packet_steps (supported caller) kept.sound moments with
      ⟨asked,stays⟩ | ⟨packet,asked,exchanged⟩
    · rw [stays]
      cases here : s.progress caller with
      | returned invoked => exact ⟨⟨⟨number,own,ended⟩,launched,given⟩,rfl⟩
      | called => exact absurd here launched
      | polling invocation polls => rw [here] at asked; cases asked
      | fetching invocation => rw [here] at asked; cases asked
    · rw [exchanged] at unexpired later after ⊢
      cases here : s.progress caller with
      | returned invoked => rw [here] at asked; cases asked
      | called => exact absurd here launched
      | polling invocation polls =>
        rw [here] at standing asked
        obtain ⟨⟩ | ⟨again,owned⟩ := standing
        cases first owned
        have moved := polled_standing kept.sound kept.unfetched (supported caller) here owned
          (Option.some.inj asked) unexpired
        have ready : Tasks.isReady (s.exchange protocol calls caller packet moments .delivered).server.calls
            number = true := later.calls.isReady (Option.isSome_iff_exists.mpr ⟨outcome,ended⟩)
        rw [ready,ClientCall.awaited_ready] at moved
        exact ⟨⟨after,by rw [moved]; simp,by rw [moved]; simp⟩,by rw [moved]; rfl⟩
      | fetching invocation =>
        rw [here] at standing asked
        obtain ⟨⟩ | ⟨⟩ | ⟨again,owned,ready⟩ := standing
        cases first owned
        obtain ⟨found,fetched,moved⟩ := fetched_standing kept.sound kept.unfetched (supported caller)
          here owned ready (Option.some.inj asked) unexpired
        cases fetched.symm.trans (later.calls.outcomes number outcome ended)
        refine ⟨⟨after,by rw [moved]; simp,fun invoked done => ?_⟩,by rw [moved]; rfl⟩
        cases moved.symm.trans done
        rfl

theorem run_closing (supported : ∀ caller, isSupportedPayloadEncoding (calls caller).config.encoding = true)
    {outcome : Outcome V} (happenings : List (Happening V))
    (carried : ∀ happening ∈ happenings, happening.carries caller)
    (kept : s.Kept protocol calls expirationTimeNs caller)
    (closing : s.Closing caller (calls caller) outcome)
    (unexpired : (run (step protocol calls) s happenings).Unexpired expirationTimeNs caller) :
    (run (step protocol calls) s happenings).Closing caller (calls caller) outcome ∧
    ((run (step protocol calls) s happenings).progress caller).packetsLeft =
      (s.progress caller).packetsLeft - happenings.countP (Happening.isPacketOf caller) := by
  induction happenings generalizing s with
  | nil => exact ⟨closing,rfl⟩
  | cons happening happenings ih =>
    have next := run_earlier step_unexpired happenings unexpired
    have here := carried happening (List.mem_cons_self ..)
    obtain ⟨closes,left⟩ := step_closing supported s happening here kept closing next
    obtain ⟨closed,packets⟩ := ih (fun other member => carried other (List.mem_cons_of_mem _ member))
      (step_kept supported s happening here kept next) closes unexpired
    refine ⟨closed,packets.trans ?_⟩
    rw [left,List.countP_cons]
    omega

-- A call that has ended is handed out by the next two packets of its caller,
-- whatever others do before, between and after them.
theorem shared_completes (protocol : Protocol V) (calls : Nat → ClientCall V)
    (supported : ∀ caller, isSupportedPayloadEncoding (calls caller).config.encoding = true)
    (expirationTimeNs : UInt64) (caller : Nat) (earlier later : List (Happening V))
    (carried : ∀ happening ∈ earlier ++ later, happening.carries caller)
    (unexpired : (after protocol calls expirationTimeNs (earlier ++ later)).Unexpired
      expirationTimeNs caller) (number : Nat) (outcome : Outcome V)
    (own : (after protocol calls expirationTimeNs earlier).launchedBy[number]? = some caller)
    (ended : Tasks.outcomeOf (after protocol calls expirationTimeNs earlier).server.calls number =
      some outcome)
    (waits : ((after protocol calls expirationTimeNs earlier).progress caller).waitsFor ≠ none)
    (packets : 2 ≤ later.countP (Happening.isPacketOf caller)) :
    (after protocol calls expirationTimeNs (earlier ++ later)).progress caller =
      .returned (callEnd outcome (calls caller).output) := by
  have kept := after_kept supported earlier
    (fun happening member => carried happening (List.mem_append_left _ member)) (after_earlier unexpired)
  have closing : (after protocol calls expirationTimeNs earlier).Closing caller (calls caller) outcome :=
    ⟨⟨number,own,ended⟩,fun here => by simp [here,Progress.waitsFor] at waits,
     fun invoked here => by simp [here,Progress.waitsFor] at waits⟩
  rw [after_append] at unexpired ⊢
  obtain ⟨closed,left⟩ := run_closing supported later
    (fun happening member => carried happening (List.mem_append_right _ member)) kept closing unexpired
  have most : ((after protocol calls expirationTimeNs earlier).progress caller).packetsLeft ≤ 2 := by
    cases here : (after protocol calls expirationTimeNs earlier).progress caller with
    | called => simp [here,Progress.waitsFor] at waits
    | polling invocation polls => exact Nat.le_refl _
    | fetching invocation => exact Nat.le_succ _
    | returned invoked => exact Nat.zero_le _
  rw [Nat.sub_eq_zero_of_le (Nat.le_trans most packets)] at left
  obtain ⟨invoked,done⟩ := Progress.returned_of_packetsLeft left
  rw [done,closed.given invoked done]

end Runs

theorem crossing_unexpired : crossed.Unexpired 10 0 := by
  refine ⟨by decide,fun number own => ?_⟩
  have owners : crossed.launchedBy = [0,1] := by decide
  rw [owners] at own
  match number with
  | 0 => exact of_decide_eq_true rfl
  | 1 => cases own
  | n+2 => cases own

theorem shared_served_crossing : crossed.Ending
    ⟨fun _ _ => .ok (.success,.empty),fun _ _ => .ok (.success,.empty)⟩ patienceFailures 0 (threeCallers 0)
    (callEnd (.error (.foreign "no beam")) .empty) :=
  shared_served _ threeCallers (fun _ => rfl) 10 0 crossing (by decide) crossing_unexpired _ rfl

theorem shared_completes_crossing : crossed.progress 0 =
    .returned (callEnd (.error (.foreign "no beam")) .empty) :=
  shared_completes _ threeCallers (fun _ => rfl) 10 0 (crossing.take 7) (crossing.drop 7) (by decide)
    crossing_unexpired 0 _ rfl rfl (by decide) (by decide)

end Shared

end SupProtocol
