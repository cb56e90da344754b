import SupProtocol.ClientFunctions
import SupProtocol.ServerClosure
import SupProtocol.ServerRetention

namespace SupProtocol
open Machine AsyncInvokeServer

def Passed (last now limit : UInt64) : Prop := last ≤ now ∧ limit.toNat < now.toNat - last.toNat

-- A reading from before the stamp it is compared with, not so long before that the
-- difference, which wraps, comes down to the limit again.
def Misleading (last now limit : UInt64) : Prop :=
  now < last ∧ limit.toNat + last.toNat < now.toNat + UInt64.size

theorem exceeds_exact (last now limit : UInt64) :
    now - last > limit ↔ Passed last now limit ∨ Misleading last now limit := by
  have small := now.toNat_lt
  have bounded := last.toNat_lt
  have size : UInt64.size = 18446744073709551616 := rfl
  rw [gt_iff_lt,UInt64.lt_iff_toNat_lt]
  by_cases ordered : last ≤ now
  · have later : last.toNat ≤ now.toNat := UInt64.le_iff_toNat_le.mp ordered
    rw [UInt64.toNat_sub_of_le _ _ ordered]
    constructor
    · intro exceeds
      exact Or.inl ⟨ordered,exceeds⟩
    · intro either
      rcases either with passed | ⟨back,_⟩
      · exact passed.2
      · have before := UInt64.lt_iff_toNat_lt.mp back
        omega
  · have back : now.toNat < last.toNat := by
      have less := mt UInt64.le_iff_toNat_le.mpr ordered
      omega
    rw [UInt64.toNat_sub,Nat.mod_eq_of_lt (by omega)]
    constructor
    · intro exceeds
      refine Or.inr ⟨UInt64.lt_iff_toNat_lt.mpr back,?_⟩
      omega
    · intro either
      rcases either with passed | ⟨_,bound⟩
      · exact absurd passed.1 ordered
      · omega

theorem exceeds_passed (last now limit : UInt64) :
    (now - last > limit → Passed last now limit) ↔ ¬ Misleading last now limit := by
  rw [exceeds_exact]
  constructor
  · intro right misleading
    have passed := right (Or.inr misleading)
    have ordered := UInt64.le_iff_toNat_le.mp passed.1
    have back := UInt64.lt_iff_toNat_lt.mp misleading.1
    omega
  · intro fair either
    rcases either with passed | misleading
    · exact passed
    · exact absurd misleading fair

variable {V : Type}

-- What the server may conclude from the clock: a request counts as expired, and
-- without having been invalidated it is removed or refused, only when more than
-- the expiration time has really passed.
structure ExpiresInTime [AnyValue V] [Codec V] (expirationTimeNs : UInt64) (records : List (Handled V)) :
    Prop where
  counted : ∀ key call last now, .on key (.examined call last now) ∈ effectsOf records →
    ∀ invoke : AsyncInvoke, invoke.lastAccess = last → invoke.expirationTimeNs = expirationTimeNs →
    invoke.isExpired now = true → Passed last now expirationTimeNs
  removed : ∀ r ∈ records, ∀ (key : UInt64) (invoke : AsyncInvoke), r.before.invokes[key]? = some invoke →
    invoke.invalidated = false → ¬ r.event.names .kInvalidate key → delivers key r = false →
    r.after.invokes[key]? = none →
    ∃ call last now, .on key (.examined call last now) ∈ r.output.effects ∧
      Passed last now expirationTimeNs
  refused : ∀ r ∈ records, ∀ (key : UInt64) (invoke : AsyncInvoke), r.before.invokes[key]? = some invoke →
    invoke.invalidated = false → r.event.names .kPoll key →
    AnsweredWith r .invalidAsynchronousOperationError →
    ∃ call last now, .on key (.examined call last now) ∈ r.output.effects ∧
      Passed last now expirationTimeNs

def ClockFair (expirationTimeNs : UInt64) (log : List Effect) : Prop :=
  ∀ key call last now, .on key (.examined call last now) ∈ log → ¬ Misleading last now expirationTimeNs

section Entries
variable {s t : AsyncInvokeServer V} {labels : List Effect} {expirationTimeNs key : UInt64}

theorem transition_wanted (step : Transition s labels t) (alive : .on key .invalidated ∉ labels)
    (wanted : s.Entries fun k invoke => k = key → invoke.invalidated = false) :
    t.Entries fun k invoke => k = key → invoke.invalidated = false := by
  refine transition_entries step wanted (fun _ _ known => known) ?_ ?_ ?_
  · exact fun _ _ _ _ => rfl
  · exact fun _ _ _ _ known => known
  · intro k invoke invalidated _ same
    subst same
    exact absurd invalidated alive

theorem path_expired (path : Path Transition s labels t) (stocked : Stocked s)
    (timed : Timed expirationTimeNs s)
    (wanted : s.Entries fun k invoke => k = key → invoke.invalidated = false)
    (alive : .on key .invalidated ∉ labels) (untaken : ∀ call, .on key (.retrieved call) ∉ labels)
    (erased : .erased key ∈ labels) :
    ∃ call last now, .on key (.examined call last now) ∈ labels ∧ now - last > expirationTimeNs := by
  induction path with
  | nil => cases erased
  | @cons s labels middle more t first rest ih =>
    rcases List.mem_append.mp erased with here | later
    · rcases transition_erased first here with ⟨call,taken⟩ | ⟨invoke,found,spent | ⟨call,now,seen,why⟩⟩
      · exact absurd (List.mem_append_left _ taken) (untaken call)
      · obtain ⟨call,held,_⟩ := stocked key invoke found
        cases held.symm.trans spent
      · refine ⟨call,invoke.lastAccess,now,List.mem_append_left _ seen,?_⟩
        rcases why with invalidated | expired
        · cases invalidated.symm.trans (wanted key invoke found rfl)
        · rw [← timed.entries key invoke found]
          simpa [AsyncInvoke.isExpired] using expired
    · have still := transition_wanted first (fun member => alive (List.mem_append_left _ member)) wanted
      obtain ⟨call,last,now,seen,exceeds⟩ := ih (transition_stocked _ _ _ stocked first)
        (transition_timed expirationTimeNs _ _ _ timed first) still
        (fun member => alive (List.mem_append_right _ member))
        (fun call member => untaken call (List.mem_append_right _ member)) later
      exact ⟨call,last,now,List.mem_append_right _ seen,exceeds⟩

theorem path_present (path : Path Transition s labels t) {invoke : AsyncInvoke}
    (here : s.invokes[key]? = some invoke) :
    (∃ kept : AsyncInvoke, t.invokes[key]? = some kept) ∨ .erased key ∈ labels := by
  induction path generalizing invoke with
  | nil => exact Or.inl ⟨invoke,here⟩
  | cons first rest ih =>
    rcases transition_present first here with ⟨kept,found⟩ | erased
    · rcases ih found with present | erased
      · exact Or.inl present
      · exact Or.inr (List.mem_append_right _ erased)
    · exact Or.inr (List.mem_append_left _ erased)

end Entries

section Server
variable [AnyValue V] [Codec V] {s : AsyncInvokeServer V} {event : Event V}
  {expirationTimeNs key : UInt64} {invoke : AsyncInvoke}

theorem removed_expired (stocked : Stocked s) (timed : Timed expirationTimeNs s)
    (found : s.invokes[key]? = some invoke) (wanted : invoke.invalidated = false)
    (unasked : ¬ event.names .kInvalidate key) (undelivered : delivers key (record step s event) = false)
    (gone : (s.step event).2.invokes[key]? = none) :
    ∃ call last now, .on key (.examined call last now) ∈ (s.step event).1.effects ∧
      now - last > expirationTimeNs := by
  refine path_expired (step_path s event) stocked timed ?_ ?_ ?_ ?_
  · intro k entry here same
    subst same
    cases found.symm.trans here
    exact wanted
  · intro invalidated
    exact unasked (step_source s event _ invalidated)
  · intro call taken
    have delivered : delivers key (record step s event) = true :=
      List.any_eq_true.mpr ⟨_,taken,by simp [Effect.retrieves]⟩
    cases delivered.symm.trans undelivered
  · rcases path_present (step_path s event) found with ⟨kept,here⟩ | erased
    · cases gone.symm.trans here
    · exact erased

theorem refused_expired [LawfulAnyValue V] (stocked : Stocked s) (timed : Timed expirationTimeNs s)
    (found : s.invokes[key]? = some invoke) (wanted : invoke.invalidated = false)
    (named : event.names .kPoll key)
    (answered : AnsweredWith (record step s event) .invalidAsynchronousOperationError) :
    ∃ call last now, .on key (.examined call last now) ∈ (s.step event).1.effects ∧
      now - last > expirationTimeNs := by
  cases event with
  | complete call outcome => cases named
  | cleanUpExpiredRequests moments => cases named
  | handleInvoke payload encoding command moments =>
    obtain ⟨same,named⟩ := named
    subst same
    obtain ⟨call,held,_⟩ := stocked key invoke found
    have seen := AsyncInvoke.removable_held held (s.observe (moments 0)).calls (moments 0).now
    refine ⟨call,invoke.lastAccess,(moments 0).now,?_,?_⟩
    · rw [step_handleInvoke,handleInvoke_poll named,output_effects]
      exact poll_examines encoding moments found held
    · cases removable : (invoke.isReadyForRemoval (s.observe (moments 0)).calls (moments 0).now).1 with
      | true =>
        rw [seen,wanted] at removable
        have expired : invoke.isExpired (moments 0).now = true := by
          simpa using (Bool.and_eq_true_iff.mp removable).2
        rw [← timed.entries key invoke found]
        simpa [AsyncInvoke.isExpired] using expired
      | false =>
        have replied : (record step s (.handleInvoke payload encoding .kPoll moments)).output.reply =
            some (createAsyncRPCPollReply (invoke.isReady ((s.observe (moments 0)).observe
              (moments 1)).calls (moments 1).now).1 encoding) := by
          simp only [record,step_handleInvoke,handleInvoke_poll named,output_reply,
            poll_answers encoding moments found removable]
        have failed : ProtocolResult.invalidAsynchronousOperationError ≠ .success := by decide
        exact absurd (pollReply_answered replied answered) failed

theorem expires_in_time_exact [LawfulAnyValue V] (expirationTimeNs : UInt64) (events : List (Event V)) :
    ExpiresInTime expirationTimeNs (handled expirationTimeNs events) ↔
      ClockFair expirationTimeNs (effectsOf (handled expirationTimeNs events)) := by
  constructor
  · intro timely key call last now seen
    refine (exceeds_passed last now expirationTimeNs).mp ?_
    intro exceeds
    exact timely.counted key call last now seen ⟨some call,false,last,expirationTimeNs⟩ rfl rfl
      (by simpa [AsyncInvoke.isExpired] using exceeds)
  · intro fair
    have passed {key : UInt64} {call : Nat} {last now : UInt64}
        (seen : .on key (.examined call last now) ∈ effectsOf (handled expirationTimeNs events)) :
        now - last > expirationTimeNs → Passed last now expirationTimeNs :=
      (exceeds_passed last now expirationTimeNs).mpr (fair key call last now seen)
    refine ⟨?_,?_,?_⟩
    · intro key call last now seen invoke stamp limit expired
      subst stamp
      apply passed seen
      simpa [AsyncInvoke.isExpired,limit] using expired
    · intro r known key invoke found wanted unasked undelivered gone
      obtain ⟨before,event,_,_,rfl⟩ := history_member known
      have path := reached_path expirationTimeNs before
      obtain ⟨call,last,now,seen,exceeds⟩ := removed_expired (path_stocked path (start_stocked _))
        (path_timed path (start_timed _)) found wanted unasked undelivered gone
      exact ⟨call,last,now,seen,passed (List.mem_flatMap.mpr ⟨_,known,seen⟩) exceeds⟩
    · intro r known key invoke found wanted named answered
      obtain ⟨before,event,_,_,rfl⟩ := history_member known
      have path := reached_path expirationTimeNs before
      obtain ⟨call,last,now,seen,exceeds⟩ := refused_expired (path_stocked path (start_stocked _))
        (path_timed path (start_timed _)) found wanted named answered
      exact ⟨call,last,now,seen,passed (List.mem_flatMap.mpr ⟨_,known,seen⟩) exceeds⟩

end Server

section Client
open AsyncInvocation ProtocolRPCClient
variable [AnyValue V] [Codec V] {σ : Type}

def waitReadings (functor : AnyFunctor σ V) (invocation : AsyncInvocation V)
    (handler : PollingTimeoutHandler) (clock : Nat → UInt64) : Nat → Nat → σ → List UInt64
  | 0,_,_ => []
  | polls+1,k,s =>
    match invocation.pollOnce functor s with
    | (.error _,_) => []
    | (.ok (result,ready),s) =>
      if result ≠ .success || ready then []
      else
        match handler.wait (clock k) with
        | none => [clock k]
        | some _ => clock k :: waitReadings functor invocation handler clock polls (k+1) s

def callReadings (functor : AnyFunctor σ V) (config : ProtocolRPCClientConfig)
    (startTimestamp : UInt64) (clock : Nat → UInt64) (polls : Nat) (input : V) (s : σ) : List UInt64 :=
  match (AsyncInvocation.make config.encoding).start functor input s with
  | (.error _,_) => []
  | (.ok (startResult,invocation),s) =>
    if startResult ≠ .success || invocation.isSynchronous then []
    else waitReadings functor invocation
      ⟨startTimestamp,config.timeoutNs,config.pollingIntervalNs⟩ clock polls 0 s

-- A reply that carries the code of a timeout is passed on like any other.
def TimesOut (functor : AnyFunctor σ V) : Prop :=
  ∃ packet s reply t, functor packet s = (.ok reply,t) ∧
    tryExtractProtocolResult reply = some .asynchronousProtocolTimeout

-- What the client may conclude from the clock: Wait gives up, and a call returns
-- AsynchronousProtocolTimeout of its own, only when the timeout has really passed.
structure WaitsInTime (functor : AnyFunctor σ V) (config : ProtocolRPCClientConfig)
    (startTimestamp : UInt64) (clock : Nat → UInt64) (polls : Nat) (input output : V) (s : σ) : Prop where
  waited : ∀ now ∈ callReadings functor config startTimestamp clock polls input s,
    PollingTimeoutHandler.wait ⟨startTimestamp,config.timeoutNs,config.pollingIntervalNs⟩ now = none →
    Passed startTimestamp now config.timeoutNs
  timeout : ¬ TimesOut functor → config.async = true → ∀ out,
    (ProtocolRPCClient.invoke functor config startTimestamp clock polls input output s).1 =
      some ⟨.ok .asynchronousProtocolTimeout,out⟩ →
    ∃ now ∈ callReadings functor config startTimestamp clock polls input s,
      Passed startTimestamp now config.timeoutNs

section Codes
variable {functor : AnyFunctor σ V} {invocation : AsyncInvocation V} {s t : σ}

theorem success_timely : ProtocolResult.success ≠ .asynchronousProtocolTimeout := by decide

theorem decoding_timely :
    ProtocolResult.clientTransportDecodingError ≠ .asynchronousProtocolTimeout := by decide

theorem polled_code (reply : V) : (polled reply).1 ≠ .asynchronousProtocolTimeout := by
  rcases polled_cases reply with ⟨code,_⟩ | ⟨code,_⟩ <;> (rw [code]; decide)

theorem pollOnce_code {result : ProtocolResult} {ready : Bool}
    (once : invocation.pollOnce functor s = (.ok (result,ready),t)) :
    result ≠ .asynchronousProtocolTimeout := by
  unfold pollOnce at once
  split at once
  · cases once
    decide
  · split at once
    · cases once
    · cases once
      decide
    · rename_i reply _ _
      have code := polled_code reply
      rw [Except.ok.inj (congrArg Prod.fst once)] at code
      exact code

theorem started_timeout (invocation : AsyncInvocation V) (reply : V) :
    (invocation.started reply).1 ≠ .asynchronousProtocolTimeout := by
  rcases started_cases invocation reply with ⟨_,⟨_,same⟩ | ⟨_,same⟩⟩ | ⟨_,⟨_,_,same⟩ | ⟨_,same⟩⟩
  · rw [same]
    exact success_timely
  · rw [same]
    exact decoding_timely
  · rw [same]
    exact success_timely
  · rw [same]
    exact decoding_timely

omit [Codec V] in
theorem acceptPayload_timeout (payloadInfo : Option V) (output : V) :
    (acceptPayload payloadInfo output).1 ≠ .asynchronousProtocolTimeout := by
  unfold acceptPayload
  cases payloadInfo with
  | none => exact decoding_timely
  | some payload =>
    dsimp only
    split
    · exact success_timely
    · split
      · exact success_timely
      · exact decoding_timely

theorem replied_timeout {reply output : V}
    (code : (replied reply output).1 = .asynchronousProtocolTimeout) :
    tryExtractProtocolResult reply = some .asynchronousProtocolTimeout := by
  unfold replied at code
  cases extracted : tryExtractProtocolResult reply with
  | none =>
    rw [extracted] at code
    cases code
  | some result =>
    rw [extracted] at code
    dsimp only at code
    split at code
    · exact congrArg some code
    · exact absurd code (acceptPayload_timeout _ _)

theorem decodeReply_timeout {reply output : V}
    (code : (decodeReply reply output).1 = .asynchronousProtocolTimeout) :
    tryExtractProtocolResult reply = some .asynchronousProtocolTimeout := by
  unfold decodeReply at code
  split at code
  · cases code
  · cases extracted : tryExtractProtocolResult reply with
    | none =>
      rw [extracted] at code
      cases code
    | some result =>
      rw [extracted] at code
      dsimp only at code
      split at code
      · exact absurd code (acceptPayload_timeout _ _)
      · exact congrArg some code

end Codes

theorem polls_timeout {functor : AnyFunctor σ V} {invocation : AsyncInvocation V}
    {handler : PollingTimeoutHandler} {clock : Nat → UInt64} (polls : Nat) :
    ∀ (k : Nat) (s : σ), (pollUntilReady functor invocation handler clock polls k s).1 =
        .returned (.ok .asynchronousProtocolTimeout) →
      ∃ now ∈ waitReadings functor invocation handler clock polls k s, handler.wait now = none := by
  induction polls with
  | zero => exact fun _ _ ended => by cases ended
  | succ polls ih =>
    intro k s ended
    rw [pollUntilReady] at ended
    rw [waitReadings]
    rcases once : invocation.pollOnce functor s with ⟨_ | ⟨result,ready⟩,t⟩
    · rw [once] at ended
      cases ended
    · have code := pollOnce_code once
      rw [once] at ended
      dsimp only at ended ⊢
      by_cases success : result = .success
      · subst result
        cases ready with
        | true => cases ended
        | false =>
          cases slept : handler.wait (clock k) with
          | none => exact ⟨clock k,by simp,slept⟩
          | some interval =>
            rw [slept] at ended
            obtain ⟨now,known,gaveUp⟩ := ih (k+1) t ended
            exact ⟨now,by simp [known],gaveUp⟩
      · rw [if_pos success] at ended
        cases ended
        exact absurd rfl code

theorem start_code {functor : AnyFunctor σ V} {encoding : PayloadEncoding} {input : V} {s t : σ}
    {result : ProtocolResult} {invocation : AsyncInvocation V}
    (started : (AsyncInvocation.make encoding).start functor input s = (.ok (result,invocation),t)) :
    result ≠ .asynchronousProtocolTimeout ∧ (invocation.synchronous = true →
      ∃ packet, functor packet s = (.ok invocation.syncReply,t)) := by
  unfold AsyncInvocation.start send at started
  cases built : createAsyncRPCRequest input (AsyncInvocation.make (V := V) encoding).encoding with
  | error error =>
    rw [built] at started
    cases started
  | ok packet =>
    rw [built] at started
    rcases answered : functor packet s with ⟨error | reply,u⟩
    · simp only [answered] at started
      cases started
      exact ⟨by decide,fun marked => by cases marked⟩
    · simp only [answered] at started
      have code := started_timeout (.make encoding) reply
      obtain ⟨same,rfl⟩ := Prod.mk.inj started
      rw [Except.ok.inj same] at code
      refine ⟨code,?_⟩
      intro synchronous
      have kept : invocation.syncReply = reply := by
        have parts := congrArg Prod.snd (Except.ok.inj same)
        rcases started_cases (.make encoding) reply with
          ⟨_,⟨_,made⟩ | ⟨_,made⟩⟩ | ⟨_,⟨_,_,made⟩ | ⟨_,made⟩⟩ <;> rw [made] at parts <;>
          dsimp only at parts <;> subst parts <;> first | rfl | cases synchronous
      exact ⟨packet,by rw [kept]; exact answered⟩

theorem getReply_code {functor : AnyFunctor σ V} {invocation : AsyncInvocation V} {output : V} {s : σ}
    (code : (invocation.getReply functor output s).1 = .ok .asynchronousProtocolTimeout) :
    (invocation.synchronous = true ∧
      tryExtractProtocolResult invocation.syncReply = some .asynchronousProtocolTimeout) ∨
    TimesOut functor := by
  cases synchronous : invocation.synchronous with
  | true =>
    simp only [AsyncInvocation.getReply,synchronous,if_true] at code
    exact Or.inl ⟨rfl,decodeReply_timeout (Except.ok.inj code)⟩
  | false =>
    right
    simp only [AsyncInvocation.getReply,synchronous,send] at code
    cases built : createAsyncRPCGetReply (V := V) invocation.id invocation.encoding with
    | error error => simp [built] at code
    | ok packet =>
      rcases answered : functor packet s with ⟨error | reply,t⟩
      · simp only [built,answered] at code
        cases code
      · simp only [built,answered] at code
        exact ⟨packet,s,reply,t,answered,replied_timeout (Except.ok.inj code)⟩

theorem call_timeout {functor : AnyFunctor σ V} {config : ProtocolRPCClientConfig}
    {startTimestamp : UInt64} {clock : Nat → UInt64} {polls : Nat} {input output out : V} {s : σ}
    (own : ¬ TimesOut functor)
    (ended : (handleAsyncInvoke functor config startTimestamp clock polls input output s).1 =
      some ⟨.ok .asynchronousProtocolTimeout,out⟩) :
    ∃ now ∈ callReadings functor config startTimestamp clock polls input s,
      PollingTimeoutHandler.wait ⟨startTimestamp,config.timeoutNs,config.pollingIntervalNs⟩ now = none := by
  unfold handleAsyncInvoke at ended
  unfold callReadings
  rcases first : (AsyncInvocation.make config.encoding).start functor input s with
    ⟨_ | ⟨startResult,invocation⟩,t⟩
  · rw [first] at ended
    cases ended
  · obtain ⟨code,kept⟩ := start_code first
    rw [first] at ended
    dsimp only at ended ⊢
    by_cases success : startResult = .success
    · rw [if_neg (by simp [success])] at ended
      cases synchronous : invocation.synchronous with
      | true =>
        rw [awaitReply_synchronous synchronous] at ended
        simp only [Option.some.injEq,Invoked.mk.injEq,Except.ok.injEq] at ended
        obtain ⟨packet,answered⟩ := kept synchronous
        exact absurd ⟨packet,s,_,t,answered,decodeReply_timeout ended.1⟩ own
      | false =>
        rw [if_neg (by simp [success,isSynchronous,synchronous])]
        rw [awaitReply_concluded synchronous] at ended
        rcases looped : pollUntilReady functor invocation (config.handler startTimestamp) clock polls 0 t
          with ⟨polling,u⟩
        rw [looped] at ended
        cases polling with
        | unfinished => cases ended
        | returned result =>
          cases ended
          exact polls_timeout polls 0 t (congrArg Prod.fst looped)
        | ready =>
          simp only [concluded,Option.some.injEq,Invoked.mk.injEq] at ended
          rcases getReply_code ended.1 with ⟨marked,_⟩ | timesOut
          · cases synchronous.symm.trans marked
          · exact absurd timesOut own
    · rw [if_pos success] at ended
      cases ended
      exact absurd rfl code

theorem waits_in_time_exact (functor : AnyFunctor σ V) (config : ProtocolRPCClientConfig)
    (startTimestamp : UInt64) (clock : Nat → UInt64) (polls : Nat) (input output : V) (s : σ) :
    WaitsInTime functor config startTimestamp clock polls input output s ↔
      ∀ now ∈ callReadings functor config startTimestamp clock polls input s,
        ¬ Misleading startTimestamp now config.timeoutNs := by
  have gives (now : UInt64) := wait_ends ⟨startTimestamp,config.timeoutNs,config.pollingIntervalNs⟩ now
  constructor
  · intro timely now known
    refine (exceeds_passed startTimestamp now config.timeoutNs).mp ?_
    intro exceeds
    exact timely.waited now known ((gives now).mpr exceeds)
  · intro fair
    have waited : ∀ now ∈ callReadings functor config startTimestamp clock polls input s,
        PollingTimeoutHandler.wait ⟨startTimestamp,config.timeoutNs,config.pollingIntervalNs⟩ now = none →
        Passed startTimestamp now config.timeoutNs := by
      intro now known gaveUp
      exact (exceeds_passed startTimestamp now config.timeoutNs).mpr (fair now known)
        ((gives now).mp gaveUp)
    refine ⟨waited,?_⟩
    intro own asynchronous out ended
    cases nonempty : isEmptyValue input with
    | true =>
      simp only [ProtocolRPCClient.invoke,nonempty] at ended
      cases ended
    | false =>
      rw [invoke_asynchronous nonempty asynchronous] at ended
      obtain ⟨now,known,gaveUp⟩ := call_timeout own ended
      exact ⟨now,known,waited now known gaveUp⟩

end Client

theorem wall_clock_exact [AnyValue V] [Codec V] [LawfulAnyValue V] {σ : Type}
    (expirationTimeNs : UInt64) (events : List (Event V)) (functor : AnyFunctor σ V)
    (config : ProtocolRPCClientConfig) (startTimestamp : UInt64) (clock : Nat → UInt64) (polls : Nat)
    (input output : V) (s : σ) :
    (ExpiresInTime expirationTimeNs (handled expirationTimeNs events) ∧
      WaitsInTime functor config startTimestamp clock polls input output s) ↔
    (ClockFair expirationTimeNs (effectsOf (handled expirationTimeNs events)) ∧
      ∀ now ∈ callReadings functor config startTimestamp clock polls input s,
        ¬ Misleading startTimestamp now config.timeoutNs) :=
  and_congr (expires_in_time_exact expirationTimeNs events)
    (waits_in_time_exact functor config startTimestamp clock polls input output s)

-- A request that ended within an expiration time of 100 ns, cleaned up when the
-- clock has just been set back by a nanosecond.
def setBackRun : List (Event Reference.Value) :=
  [.handleInvoke (.string "measure") .kNone .kInitialRequest (instant 10),
   .complete 0 (.ok (.success,.string "done")),
   .cleanUpExpiredRequests (instant 9)]

def pendingServer : AnyFunctor Nat Reference.Value := fun _ packets =>
  (if packets = 0 then createAsyncRPCNewRequestReply 7 .kNone else createAsyncRPCPollReply false .kNone,
   packets+1)

theorem wall_clock_steady :
    (ExpiresInTime 100 (handled 100 (setBackRun.take 2)) ∧
      WaitsInTime pendingServer ⟨.kNone,true,100,10⟩ 10 (fun k => 10 + 20 * k.toUInt64) 9
        (.string "measure") .empty 0) ↔
    (ClockFair 100 (effectsOf (handled 100 (setBackRun.take 2))) ∧
      ∀ now ∈ callReadings pendingServer ⟨.kNone,true,100,10⟩ 10 (fun k => 10 + 20 * k.toUInt64) 9
        (.string "measure") 0, ¬ Misleading 10 now 100) :=
  wall_clock_exact 100 (setBackRun.take 2) pendingServer ⟨.kNone,true,100,10⟩ 10
    (fun k => 10 + 20 * k.toUInt64) 9 (.string "measure") .empty 0

theorem clock_set_back :
    (reached 100 setBackRun).invokes[(1 : UInt64)]? = none ∧
    ¬ ExpiresInTime 100 (handled 100 setBackRun) ∧
    (ProtocolRPCClient.invoke pendingServer ⟨.kNone,true,100,10⟩ 10 (fun _ => 9) 9 (.string "measure")
      .empty 0).1 = some ⟨.ok .asynchronousProtocolTimeout,.empty⟩ ∧
    ¬ WaitsInTime pendingServer ⟨.kNone,true,100,10⟩ 10 (fun _ => 9) 9 (.string "measure") .empty 0 := by
  refine ⟨by decide,?_,by rfl,?_⟩
  · intro timely
    have passed := timely.counted 1 0 10 9 (by decide) ⟨some 0,false,10,100⟩ rfl rfl (by decide)
    exact absurd passed.1 (by decide)
  · intro timely
    have passed := timely.waited 9 (by decide) (by decide)
    exact absurd passed.1 (by decide)

end SupProtocol
