import Mathlib.Data.Nat.Find
import SupProtocol.WireTrace

namespace SupProtocol
open AsyncInvocation ProtocolRPCClient

variable {V : Type} {σ : Type}

section Pace

-- What has passed at each look grows by the pause until the next one and by at
-- least one more; the last pause may be cut short at the limit. Within the limit
-- there is no room for more than that many full pauses.
theorem paced_bound {passed : Nat → Nat} {limit pause n : Nat} (positive : 1 ≤ pause)
    (within : ∀ j ≤ n, passed j ≤ limit)
    (paced : ∀ j < n, passed j + min pause (limit - passed j) + 1 ≤ passed (j+1)) :
    n ≤ limit / pause := by
  have grown : ∀ j ≤ n, j * pause ≤ passed j := by
    intro j
    induction j with
    | zero => exact fun _ => by omega
    | succ j ih =>
      intro bound
      have before := ih (by omega)
      have step := paced j (by omega)
      have inside := within (j+1) bound
      -- a pause that was cut short would have ended beyond the limit
      have full : min pause (limit - passed j) = pause := by omega
      rw [Nat.succ_mul]
      omega
  rw [Nat.le_div_iff_mul_le positive]
  exact Nat.le_trans (grown n (Nat.le_refl n)) (within n (Nat.le_refl n))

end Pace

-- Between two calls of Wait the clock moves on by what the first one slept and at
-- least one nanosecond more.
def Advances (handler : PollingTimeoutHandler) (clock : Nat → UInt64) : Prop :=
  ∀ k slept, (∀ j < k, handler.wait (clock j) ≠ none) → handler.wait (clock k) = some slept →
    (clock k).toNat + slept.toNat + 1 ≤ (clock (k+1)).toNat

section Waits
variable {handler : PollingTimeoutHandler} {clock : Nat → UInt64}

def passedNs (handler : PollingTimeoutHandler) (now : UInt64) : Nat :=
  (now - handler.startTimestamp).toNat

theorem wait_none {now : UInt64} :
    handler.wait now = none ↔ handler.timeoutDurationNs.toNat < passedNs handler now := by
  rw [wait_ends]
  exact UInt64.lt_iff_toNat_lt

theorem wait_some {now slept : UInt64} (sleeps : handler.wait now = some slept) :
    passedNs handler now ≤ handler.timeoutDurationNs.toNat ∧
    (handler.timeoutDurationNs - (now - handler.startTimestamp)).toNat =
      handler.timeoutDurationNs.toNat - passedNs handler now ∧
    slept.toNat = min handler.pollingIntervalNs.toNat
      (handler.timeoutDurationNs.toNat - passedNs handler now) := by
  obtain ⟨within,same⟩ := (wait_sleeps handler now slept).mp sleeps
  have ordered : now - handler.startTimestamp ≤ handler.timeoutDurationNs := UInt64.not_lt.mp within
  have exact_difference := UInt64.toNat_sub_of_le _ _ ordered
  refine ⟨UInt64.le_iff_toNat_le.mp ordered,exact_difference,?_⟩
  rw [same,UInt64.toNat_min,exact_difference]
  rfl

theorem passed_after {now : UInt64} (later : handler.startTimestamp ≤ now) :
    passedNs handler now + handler.startTimestamp.toNat = now.toNat := by
  have ordered := UInt64.le_iff_toNat_le.mp later
  rw [passedNs,UInt64.toNat_sub_of_le _ _ later]
  omega

theorem passed_before {now : UInt64} (earlier : now < handler.startTimestamp) :
    passedNs handler now + handler.startTimestamp.toNat = now.toNat + UInt64.size := by
  have ordered := UInt64.lt_iff_toNat_lt.mp earlier
  have small := handler.startTimestamp.toNat_lt
  have size : UInt64.size = 18446744073709551616 := rfl
  rw [passedNs,UInt64.toNat_sub,Nat.mod_eq_of_lt (by omega)]
  omega

theorem sleep_ends {now slept : UInt64} (sleeps : handler.wait now = some slept) :
    now.toNat + slept.toNat ≤ handler.startTimestamp.toNat + handler.timeoutDurationNs.toNat := by
  obtain ⟨within,_,same⟩ := wait_some sleeps
  by_cases later : handler.startTimestamp ≤ now
  · have passed := passed_after later
    omega
  · have earlier := UInt64.lt_iff_toNat_lt.mp (UInt64.not_le.mp later)
    omega

section Clock
variable (advances : Advances handler clock)

include advances

theorem clock_moves {k : Nat} (waits : ∀ j ≤ k, handler.wait (clock j) ≠ none) :
    (clock k).toNat < (clock (k+1)).toNat := by
  obtain ⟨slept,sleeps⟩ := Option.ne_none_iff_exists'.mp (waits k (Nat.le_refl k))
  have moved := advances k slept (fun j below => waits j (by omega)) sleeps
  omega

theorem clock_ordered {k : Nat} (waits : ∀ j < k, handler.wait (clock j) ≠ none) :
    ∀ j ≤ k, (clock j).toNat ≤ (clock k).toNat := by
  induction k with
  | zero =>
    intro j bound
    cases Nat.le_zero.mp bound
    exact Nat.le_refl _
  | succ k ih =>
    intro j bound
    have moved := clock_moves advances (k := k) (fun i within => waits i (by omega))
    rcases Nat.lt_or_eq_of_le bound with below | same
    · have before := ih (fun i within => waits i (by omega)) j (by omega)
      omega
    · rw [same]

-- The clock has only so many readings left.
theorem wait_fails : ∃ m, (∀ j < m, handler.wait (clock j) ≠ none) ∧ handler.wait (clock m) = none := by
  suffices fails : ∃ k, handler.wait (clock k) = none from
    ⟨Nat.find fails,fun _ below => Nat.find_min fails below,Nat.find_spec fails⟩
  by_contra never
  have waits : ∀ k, handler.wait (clock k) ≠ none := fun k ended => never ⟨k,ended⟩
  have grown : ∀ k, k ≤ (clock k).toNat := by
    intro k
    induction k with
    | zero => exact Nat.zero_le _
    | succ k ih =>
      have moved := clock_moves advances (k := k) (fun j _ => waits j)
      omega
  have reached := grown UInt64.size
  have small : (clock UInt64.size).toNat < UInt64.size := (clock UInt64.size).toNat_lt
  omega

-- Up to the reading that Wait gives up at, the clock is on one side of the start:
-- what passes between two readings is what the clock shows.
theorem passed_tracks {m : Nat} (waits : ∀ j < m, handler.wait (clock j) ≠ none)
    (ended : handler.wait (clock m) = none) :
    ∃ offset, ∀ j ≤ m, passedNs handler (clock j) + handler.startTimestamp.toNat =
      (clock j).toNat + offset := by
  have ordered := clock_ordered advances waits
  by_cases later : handler.startTimestamp ≤ clock 0
  · refine ⟨0,?_⟩
    intro j bound
    have first := clock_ordered advances (k := j) (fun i within => waits i (by omega)) 0 (by omega)
    have after : handler.startTimestamp ≤ clock j := by
      have start := UInt64.le_iff_toNat_le.mp later
      exact UInt64.le_iff_toNat_le.mpr (by omega)
    exact passed_after after
  · refine ⟨UInt64.size,?_⟩
    have earlier := UInt64.not_le.mp later
    -- Such a start leaves room for no difference beyond the timeout behind it.
    have last : clock m < handler.startTimestamp := by
      by_contra crossed
      have beyond := wait_none.mp ended
      have passed := passed_after (UInt64.not_lt.mp crossed)
      have small : (clock m).toNat < UInt64.size := (clock m).toNat_lt
      cases m with
      | zero => exact crossed earlier
      | succ m =>
        obtain ⟨slept,sleeps⟩ := Option.ne_none_iff_exists'.mp (waits 0 (by omega))
        have within := (wait_some sleeps).1
        have wrapped := passed_before earlier
        omega
    intro j bound
    have before : clock j < handler.startTimestamp := by
      have start := UInt64.lt_iff_toNat_lt.mp last
      have below := ordered j bound
      exact UInt64.lt_iff_toNat_lt.mpr (by omega)
    exact passed_before before

theorem wait_bounded (positive : 1 ≤ handler.pollingIntervalNs.toNat) :
    ∃ m, m ≤ handler.timeoutDurationNs.toNat / handler.pollingIntervalNs.toNat + 1 ∧
      handler.wait (clock m) = none := by
  obtain ⟨m,waits,ended⟩ := wait_fails advances
  obtain ⟨offset,tracks⟩ := passed_tracks advances waits ended
  refine ⟨m,?_,ended⟩
  cases m with
  | zero => exact Nat.zero_le _
  | succ n =>
    have within : ∀ j ≤ n, passedNs handler (clock j) ≤ handler.timeoutDurationNs.toNat := by
      intro j inside
      obtain ⟨slept,sleeps⟩ := Option.ne_none_iff_exists'.mp (waits j (by omega))
      exact (wait_some sleeps).1
    refine Nat.succ_le_succ (paced_bound positive within ?_)
    intro j inside
    obtain ⟨slept,sleeps⟩ := Option.ne_none_iff_exists'.mp (waits j (by omega))
    have moved := advances j slept (fun i below => waits i (by omega)) sleeps
    have here := tracks j (by omega)
    have next := tracks (j+1) (by omega)
    obtain ⟨_,_,same⟩ := wait_some sleeps
    omega

end Clock

end Waits

variable [AnyValue V] [Codec V]

def pollsSent (log : List (Sent V)) : Nat :=
  log.countP fun sent => decide (getAsyncInfo sent.1 = some .kPoll)

structure NeverReady (functor : AnyFunctor σ V) (encoding : PayloadEncoding) (input : V) : Prop where
  accepts : ∀ packet s, createAsyncRPCRequest input encoding = .ok packet →
    ∃ reply key t, functor packet s = (.ok reply,t) ∧ getAsyncInfo reply ≠ none ∧ IdRead reply key
  waits : ∀ key packet s, createAsyncRPCPoll key encoding = .ok packet →
    ∃ reply t, functor packet s = (.ok reply,t) ∧ ReadyRead reply false

def ProtocolRPCClientConfig.mostPolls (config : ProtocolRPCClientConfig) : Nat :=
  config.timeoutNs.toNat / config.pollingIntervalNs.toNat + 2

-- An asynchronous call in bounded time. The loop of the model is run for a number
-- of polls; from the bound on, every number gives the same end.
structure PollingBounded (functor : AnyFunctor σ V) (config : ProtocolRPCClientConfig)
    (startTimestamp : UInt64) (clock : Nat → UInt64) (input output : V) (s : σ) : Prop where
  sent : ∀ polls, pollsSent (invoke (tracing functor) config startTimestamp clock polls input output
    (s,[])).2.2 ≤ config.mostPolls
  ends : ∀ polls, config.mostPolls ≤ polls → ∃ invoked,
    (invoke functor config startTimestamp clock polls input output s).1 = some invoked ∧
    invoke functor config startTimestamp clock polls input output s =
      invoke functor config startTimestamp clock config.mostPolls input output s
  timeout : isSupportedPayloadEncoding config.encoding = true → isEmptyValue input = false →
    NeverReady functor config.encoding input → ∀ polls, config.mostPolls ≤ polls →
    (invoke functor config startTimestamp clock polls input output s).1 =
      some ⟨.ok .asynchronousProtocolTimeout,output⟩

-- The sleeps of such a call: both subtractions of Wait are those of the integers
-- (the first one if the clock has not been set back before it), and no sleep ends
-- beyond the timeout.
structure SleepsInTime (handler : PollingTimeoutHandler) (clock : Nat → UInt64) : Prop where
  remaining : ∀ k slept, handler.wait (clock k) = some slept →
    passedNs handler (clock k) ≤ handler.timeoutDurationNs.toNat ∧
    (handler.timeoutDurationNs - (clock k - handler.startTimestamp)).toNat =
      handler.timeoutDurationNs.toNat - passedNs handler (clock k) ∧
    slept.toNat = min handler.pollingIntervalNs.toNat
      (handler.timeoutDurationNs.toNat - passedNs handler (clock k))
  ended : ∀ k slept, handler.wait (clock k) = some slept →
    (clock k).toNat + slept.toNat ≤ handler.startTimestamp.toNat + handler.timeoutDurationNs.toNat
  passed : handler.startTimestamp ≤ clock 0 → ∀ k, (∀ j < k, handler.wait (clock j) ≠ none) →
    handler.startTimestamp ≤ clock k ∧
    passedNs handler (clock k) = (clock k).toNat - handler.startTimestamp.toNat

section Loop
variable (functor : AnyFunctor σ V) (handler : PollingTimeoutHandler) (clock : Nat → UInt64)
  {invocation : AsyncInvocation V}

theorem polls_stop (invocation : AsyncInvocation V) (m : Nat) :
    ∀ (polls k : Nat) (s : σ), handler.wait (clock (k+m)) = none → m < polls →
      pollUntilReady functor invocation handler clock polls k s =
        pollUntilReady functor invocation handler clock (m+1) k s ∧
      (pollUntilReady functor invocation handler clock (m+1) k s).1 ≠ .unfinished := by
  induction m with
  | zero =>
    intro polls k s gaveUp more
    obtain ⟨polls,rfl⟩ := Nat.exists_eq_succ_of_ne_zero (by omega : polls ≠ 0)
    rw [pollUntilReady,pollUntilReady]
    rcases invocation.pollOnce functor s with ⟨_ | ⟨result,ready⟩,t⟩
    · exact ⟨rfl,fun other => by cases other⟩
    · dsimp only
      rw [Nat.add_zero] at gaveUp
      rw [gaveUp]
      refine ⟨rfl,?_⟩
      split
      · exact fun other => by cases other
      · split <;> exact fun other => by cases other
  | succ m ih =>
    intro polls k s gaveUp more
    obtain ⟨polls,rfl⟩ := Nat.exists_eq_succ_of_ne_zero (by omega : polls ≠ 0)
    rw [pollUntilReady.eq_2,pollUntilReady.eq_2]
    rcases invocation.pollOnce functor s with ⟨_ | ⟨result,ready⟩,t⟩
    · exact ⟨rfl,fun other => by cases other⟩
    · dsimp only
      split
      · exact ⟨rfl,fun other => by cases other⟩
      · split
        · exact ⟨rfl,fun other => by cases other⟩
        · cases handler.wait (clock k) with
          | none => exact ⟨rfl,fun other => by cases other⟩
          | some slept =>
            refine ih polls (k+1) t ?_ (by omega)
            rw [← gaveUp]
            congr 2
            omega

theorem polls_sent [LawfulAnyValue V] (waiting : invocation.synchronous = false)
    (supported : isSupportedPayloadEncoding invocation.encoding = true) (polls : Nat) :
    ∀ (k : Nat) (s : σ) (log : List (Sent V)), ∃ more,
      (pollUntilReady (tracing functor) invocation handler clock polls k (s,log)).2.2 = log ++ more ∧
      more.length ≤ polls := by
  obtain ⟨_,packet,_,built,_⟩ :=
    createAsyncIdRequest_represents (V := V) invocation.id .kPoll supported
  induction polls with
  | zero => exact fun k s log => ⟨[],by simp [pollUntilReady],Nat.le_refl _⟩
  | succ polls ih =>
    intro k s log
    rcases answered : functor packet s with ⟨answer,t⟩
    have noted : (invocation.pollOnce (tracing functor) (s,log)).2 = (t,log ++ [(packet,answer)]) := by
      rw [pollOnce_state waiting built,tracing_answers answered]
    rcases polls_cases (tracing functor) invocation handler clock polls k (s,log) with ended | goesOn
    · exact ⟨[(packet,answer)],by rw [ended,noted],by simp⟩
    · obtain ⟨more,sent,bound⟩ := ih (k+1) t (log ++ [(packet,answer)])
      refine ⟨(packet,answer) :: more,?_,Nat.succ_le_succ bound⟩
      rw [goesOn,noted,sent]
      simp

theorem polls_time_out [LawfulAnyValue V] (waiting : invocation.synchronous = false)
    (supported : isSupportedPayloadEncoding invocation.encoding = true)
    (waits : ∀ key packet s, createAsyncRPCPoll key invocation.encoding = .ok packet →
      ∃ reply t, functor packet s = (.ok reply,t) ∧ ReadyRead reply false) (m : Nat) :
    ∀ (k : Nat) (s : σ), handler.wait (clock (k+m)) = none →
      (pollUntilReady functor invocation handler clock (m+1) k s).1 =
        .returned (.ok .asynchronousProtocolTimeout) := by
  obtain ⟨_,packet,_,built,_⟩ :=
    createAsyncIdRequest_represents (V := V) invocation.id .kPoll supported
  induction m with
  | zero =>
    intro k s gaveUp
    obtain ⟨reply,t,answered,read⟩ := waits invocation.id packet s built
    rw [Nat.add_zero] at gaveUp
    rw [polls_waits handler clock _ k waiting built answered read,gaveUp]
  | succ m ih =>
    intro k s gaveUp
    obtain ⟨reply,t,answered,read⟩ := waits invocation.id packet s built
    rw [polls_waits handler clock _ k waiting built answered read]
    cases handler.wait (clock k) with
    | none => rfl
    | some slept =>
      refine ih (k+1) t ?_
      rw [← gaveUp]
      congr 2
      omega

end Loop

section Calls
variable (functor : AnyFunctor σ V) {config : ProtocolRPCClientConfig} {startTimestamp : UInt64}
  {clock : Nat → UInt64} {m : Nat}

theorem awaitReply_stops (gaveUp : (config.handler startTimestamp).wait (clock m) = none)
    (invocation : AsyncInvocation V) (output : V) (s : σ) {polls : Nat} (more : m < polls) :
    ∃ invoked, (awaitReply functor config startTimestamp clock polls invocation output s).1 =
        some invoked ∧
      awaitReply functor config startTimestamp clock polls invocation output s =
        awaitReply functor config startTimestamp clock (m+1) invocation output s := by
  cases synchronous : invocation.synchronous with
  | true =>
    rw [awaitReply_synchronous synchronous,awaitReply_synchronous synchronous]
    exact ⟨_,rfl,rfl⟩
  | false =>
    obtain ⟨same,ended⟩ := polls_stop functor (config.handler startTimestamp) clock invocation m polls
      0 s (by rw [Nat.zero_add]; exact gaveUp) more
    rw [awaitReply_concluded synchronous,awaitReply_concluded synchronous,same]
    rcases looped : pollUntilReady functor invocation (config.handler startTimestamp) clock (m+1) 0 s
      with ⟨polling,t⟩
    rw [looped] at ended
    cases polling with
    | unfinished => exact absurd rfl ended
    | returned result => exact ⟨_,rfl,rfl⟩
    | ready => exact ⟨_,rfl,rfl⟩

theorem invoke_stops (gaveUp : (config.handler startTimestamp).wait (clock m) = none)
    (input output : V) (s : σ) {polls : Nat} (more : m < polls) :
    ∃ invoked, (invoke functor config startTimestamp clock polls input output s).1 = some invoked ∧
      invoke functor config startTimestamp clock polls input output s =
        invoke functor config startTimestamp clock (m+1) input output s := by
  unfold invoke handleAsyncInvoke
  split
  · exact ⟨_,rfl,rfl⟩
  · split
    · rcases (make config.encoding).start functor input s with ⟨_ | ⟨startResult,invocation⟩,t⟩
      · exact ⟨_,rfl,rfl⟩
      · dsimp only
        split
        · exact ⟨_,rfl,rfl⟩
        · exact awaitReply_stops functor gaveUp invocation output t more
    · exact ⟨_,rfl,rfl⟩

theorem createAsyncRPCRequest_supported {input packet : V} {encoding : PayloadEncoding}
    (built : createAsyncRPCRequest input encoding = .ok packet) :
    isEmptyValue input = false ∧ isSupportedPayloadEncoding encoding = true := by
  unfold createAsyncRPCRequest addRPCPayload Encoding.encode at built
  by_cases hollow : isEmptyValue input = true
  · rw [if_pos hollow] at built
    cases built
  · rw [if_neg hollow] at built
    refine ⟨Bool.not_eq_true _ ▸ hollow,?_⟩
    by_cases plain : encoding = .kNone
    · rw [plain]
      rfl
    · by_cases coded : encoding = .kBase64
      · rw [coded]
        rfl
      · rw [if_neg plain,if_neg plain,if_neg coded] at built
        cases built

theorem awaitReply_sent [LawfulAnyValue V] {invocation : AsyncInvocation V}
    (waiting : invocation.synchronous = false)
    (supported : isSupportedPayloadEncoding invocation.encoding = true) (polls : Nat) (output : V)
    (s : σ) (log : List (Sent V)) : ∃ more,
      (awaitReply (tracing functor) config startTimestamp clock polls invocation output
        (s,log)).2.2 = log ++ more ∧ pollsSent more ≤ polls := by
  obtain ⟨_,packet,_,built,known⟩ :=
    createAsyncIdRequest_represents (V := V) invocation.id .kGetReply supported
  obtain ⟨more,sent,bound⟩ :=
    polls_sent functor (config.handler startTimestamp) clock waiting supported polls 0 s log
  have counted : pollsSent more ≤ polls := Nat.le_trans List.countP_le_length bound
  rw [awaitReply_concluded waiting]
  rcases looped : pollUntilReady (tracing functor) invocation (config.handler startTimestamp) clock
    polls 0 (s,log) with ⟨polling,t,noted⟩
  rw [looped] at sent
  dsimp only at sent
  subst noted
  cases polling with
  | unfinished => exact ⟨more,rfl,counted⟩
  | returned result => exact ⟨more,rfl,counted⟩
  | ready =>
    rcases answered : functor packet t with ⟨answer,u⟩
    have moved : (invocation.getReply (tracing functor) output (t,log ++ more)).2.2 =
        (u,log ++ more ++ [(packet,answer)]) := by
      rw [getReply_state waiting built,tracing_answers answered]
    have command : getAsyncInfo packet = some .kGetReply := known.command
    have other : getAsyncInfo packet ≠ some .kPoll := by rw [command]; decide
    refine ⟨more ++ [(packet,answer)],?_,?_⟩
    · change (invocation.getReply (tracing functor) output (t,log ++ more)).2.2.2 = _
      rw [moved,List.append_assoc]
    · simpa [pollsSent,List.countP_append,other] using counted

theorem handleAsyncInvoke_sent [LawfulAnyValue V] (polls : Nat) (input output : V) (s : σ) :
    pollsSent (handleAsyncInvoke (tracing functor) config startTimestamp clock polls input output
      (s,[])).2.2 ≤ polls := by
  cases built : createAsyncRPCRequest input config.encoding with
  | error error =>
    simp only [handleAsyncInvoke,start,send,make,built]
    exact Nat.zero_le _
  | ok packet =>
    obtain ⟨nonempty,supported⟩ := createAsyncRPCRequest_supported built
    obtain ⟨_,same,known⟩ := createAsyncRPCRequest_represents (V := V) nonempty supported
    cases same.symm.trans built
    have command : getAsyncInfo packet = some .kInitialRequest := known.command
    have other : getAsyncInfo packet ≠ some .kPoll := by rw [command]; decide
    have alone (answer : Except Exception V) : pollsSent [(packet,answer)] ≤ polls := by
      simp [pollsSent,other]
    rcases answered : functor packet s with ⟨error | reply,t⟩
    · rw [handleAsyncInvoke_throws startTimestamp clock polls output built (tracing_answers answered [])]
      exact alone _
    · have noted := tracing_answers answered []
      rcases reply_cases reply with plain | ⟨marked,⟨key,read⟩ | unread⟩
      · rw [handleAsyncInvoke_plain startTimestamp clock polls output built noted plain]
        exact alone _
      · have waiting : (⟨config.encoding,key,false,empty⟩ : AsyncInvocation V).synchronous = false := rfl
        obtain ⟨more,sent,bound⟩ := awaitReply_sent functor waiting supported polls
          output t ([] ++ [(packet,.ok reply)])
        rw [handleAsyncInvoke_accepted startTimestamp clock polls output built noted marked read,sent]
        simpa [pollsSent,other] using bound
      · rw [handleAsyncInvoke_refused startTimestamp clock polls output built noted marked unread]
        exact alone _

theorem invoke_sent [LawfulAnyValue V] (asynchronous : config.async = true) (polls : Nat)
    (input output : V) (s : σ) :
    pollsSent (invoke (tracing functor) config startTimestamp clock polls input output
      (s,[])).2.2 ≤ polls := by
  cases hollow : isEmptyValue input with
  | true =>
    simp only [invoke,hollow]
    exact Nat.zero_le _
  | false =>
    rw [invoke_asynchronous hollow asynchronous]
    exact handleAsyncInvoke_sent functor polls input output s

theorem invoke_times_out [LawfulAnyValue V] (asynchronous : config.async = true)
    (supported : isSupportedPayloadEncoding config.encoding = true)
    {input : V} (nonempty : isEmptyValue input = false)
    (never : NeverReady functor config.encoding input)
    (gaveUp : (config.handler startTimestamp).wait (clock m) = none) (output : V) (s : σ) :
    (invoke functor config startTimestamp clock (m+1) input output s).1 =
      some ⟨.ok .asynchronousProtocolTimeout,output⟩ := by
  obtain ⟨packet,built,_⟩ := createAsyncRPCRequest_represents (V := V) nonempty supported
  obtain ⟨reply,key,t,answered,marked,read⟩ := never.accepts packet s built
  have waiting : (⟨config.encoding,key,false,empty⟩ : AsyncInvocation V).synchronous = false := rfl
  have late := polls_time_out functor (config.handler startTimestamp) clock waiting supported
    never.waits m 0 t (by rw [Nat.zero_add]; exact gaveUp)
  rw [invoke_asynchronous nonempty asynchronous,
    handleAsyncInvoke_accepted startTimestamp clock (m+1) output built answered marked read,
    awaitReply_concluded waiting]
  rcases looped : pollUntilReady functor ⟨config.encoding,key,false,empty⟩
    (config.handler startTimestamp) clock (m+1) 0 t with ⟨polling,u⟩
  rw [looped] at late
  dsimp only at late
  rw [late]
  rfl

end Calls

theorem sleeps_in_time {handler : PollingTimeoutHandler} {clock : Nat → UInt64}
    (advances : Advances handler clock) : SleepsInTime handler clock := by
  refine ⟨fun _ _ sleeps => wait_some sleeps,fun _ _ sleeps => sleep_ends sleeps,?_⟩
  intro later k waits
  have start := UInt64.le_iff_toNat_le.mp later
  have first := clock_ordered advances waits 0 (Nat.zero_le k)
  have after : handler.startTimestamp ≤ clock k := UInt64.le_iff_toNat_le.mpr (by omega)
  have passed := passed_after after
  exact ⟨after,by omega⟩

theorem polling_bounded [LawfulAnyValue V] (functor : AnyFunctor σ V) (config : ProtocolRPCClientConfig)
    (asynchronous : config.async = true) (interval : 1 ≤ config.pollingIntervalNs)
    (startTimestamp : UInt64) (clock : Nat → UInt64)
    (advances : Advances (config.handler startTimestamp) clock) (input output : V) (s : σ) :
    PollingBounded functor config startTimestamp clock input output s ∧
    SleepsInTime (config.handler startTimestamp) clock := by
  obtain ⟨m,bound,gaveUp⟩ := wait_bounded advances (UInt64.le_iff_toNat_le.mp interval)
  have enough : m+1 ≤ config.mostPolls := Nat.succ_le_succ bound
  refine ⟨⟨?_,?_,?_⟩,sleeps_in_time advances⟩
  · intro polls
    by_cases few : polls ≤ m
    · refine Nat.le_trans (invoke_sent functor asynchronous polls input output s) ?_
      omega
    · obtain ⟨_,_,same⟩ := invoke_stops (tracing functor) gaveUp input output (s,[])
        (Nat.lt_of_not_le few)
      rw [same]
      exact Nat.le_trans (invoke_sent functor asynchronous (m+1) input output s) enough
  · intro polls more
    obtain ⟨invoked,ended,same⟩ :=
      invoke_stops functor gaveUp input output s (Nat.lt_of_lt_of_le enough more)
    obtain ⟨_,_,least⟩ := invoke_stops functor gaveUp input output s enough
    exact ⟨invoked,ended,same.trans least.symm⟩
  · intro supported nonempty never polls more
    obtain ⟨_,_,same⟩ :=
      invoke_stops functor gaveUp input output s (Nat.lt_of_lt_of_le enough more)
    rw [same]
    exact invoke_times_out functor asynchronous supported nonempty never gaveUp output s

def unhurried : AnyFunctor Unit Reference.Value := fun packet s =>
  (if getAsyncInfo packet = some .kInitialRequest then createAsyncRPCNewRequestReply 7 .kNone
    else createAsyncRPCPollReply false .kNone,s)

def glances (k : Nat) : UInt64 := if k = 0 then 10 else 200

theorem unhurried_never (input : Reference.Value) : NeverReady unhurried .kNone input := by
  constructor
  · intro packet s built
    obtain ⟨nonempty,supported⟩ := createAsyncRPCRequest_supported built
    obtain ⟨_,same,known⟩ := createAsyncRPCRequest_represents nonempty supported
    cases same.symm.trans built
    have command : getAsyncInfo packet = some .kInitialRequest := known.command
    obtain ⟨reply,replied,marked,read⟩ : ∃ reply : Reference.Value,
        createAsyncRPCNewRequestReply 7 .kNone = .ok reply ∧ getAsyncInfo reply ≠ none ∧ IdRead reply 7 :=
      ⟨_,rfl,by decide,.kNone,rfl,rfl,by decide⟩
    exact ⟨reply,7,s,by rw [unhurried,if_pos command,replied],marked,read⟩
  · intro key packet s built
    obtain ⟨_,_,_,same,known⟩ := createAsyncIdRequest_represents (V := Reference.Value) key .kPoll
      (rfl : isSupportedPayloadEncoding .kNone = true)
    cases same.symm.trans built
    have command : getAsyncInfo packet = some .kPoll := known.command
    obtain ⟨reply,replied,read⟩ : ∃ reply : Reference.Value,
        createAsyncRPCPollReply false .kNone = .ok reply ∧ ReadyRead reply false := ⟨_,rfl,.kNone,rfl,rfl⟩
    exact ⟨reply,s,by rw [unhurried,command,if_neg (by decide),replied],read⟩

theorem polling_bounded_unhurried :
    (invoke unhurried ⟨.kNone,true,100,10⟩ 10 glances 12 (.string "measure") .empty ()).1 =
      some ⟨.ok .asynchronousProtocolTimeout,.empty⟩ := by
  have advances : Advances (ProtocolRPCClientConfig.handler ⟨.kNone,true,100,10⟩ 10) glances := by
    intro k slept waits sleeps
    cases k with
    | zero =>
      cases sleeps
      decide
    | succ k =>
      have ended : (ProtocolRPCClientConfig.handler ⟨.kNone,true,100,10⟩ 10).wait 200 = none := rfl
      cases sleeps.symm.trans ended
  obtain ⟨bounded,_⟩ := polling_bounded unhurried ⟨.kNone,true,100,10⟩ rfl (by decide) 10 glances
    advances (.string "measure") .empty ()
  exact bounded.timeout rfl rfl (unhurried_never _) 12 (by decide)

end SupProtocol
