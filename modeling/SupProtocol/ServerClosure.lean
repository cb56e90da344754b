import SupProtocol.ServerAgreement

namespace SupProtocol
open Machine

variable {V : Type}

def Event.concerns [AnyValue V] (key : UInt64) (event : Event V) : Prop :=
  event.names .kPoll key ∨ event.names .kGetReply key ∨ event.names .kInvalidate key

instance [AnyValue V] (key : UInt64) (event : Event V) : Decidable (event.concerns key) :=
  inferInstanceAs (Decidable (_ ∨ _))

theorem Event.concerns_cases [AnyValue V] {key : UInt64} {event : Event V} (concerns : event.concerns key) :
    ∃ payload encoding moments, extractAsyncRequestId payload = some key ∧
      (event = .handleInvoke payload encoding .kPoll moments ∨
       event = .handleInvoke payload encoding .kGetReply moments ∨
       event = .handleInvoke payload encoding .kInvalidate moments) := by
  cases event with
  | complete call outcome => rcases concerns with named | named | named <;> cases named
  | cleanUpExpiredRequests moments => rcases concerns with named | named | named <;> cases named
  | handleInvoke payload encoding command moments =>
    rcases concerns with ⟨same,named⟩ | ⟨same,named⟩ | ⟨same,named⟩ <;> subst same
    · exact ⟨payload,encoding,moments,named,Or.inl rfl⟩
    · exact ⟨payload,encoding,moments,named,Or.inr (Or.inl rfl)⟩
    · exact ⟨payload,encoding,moments,named,Or.inr (Or.inr rfl)⟩

namespace AsyncInvokeServer

def AnsweredWith [AnyValue V] (r : Handled V) (result : ProtocolResult) : Prop :=
  ∃ reply, r.output.reply = some (.ok reply) ∧ tryExtractProtocolResult reply = some result

def Announces [AnyValue V] [Codec V] (key : UInt64) (r : Handled V) : Prop :=
  ∃ payload encoding moments reply, r.event = .handleInvoke payload encoding .kPoll moments ∧
    extractAsyncRequestId payload = some key ∧ r.output.reply = some (.ok reply) ∧
    tryExtractReadyStatus reply encoding = some true

def Closes [AnyValue V] (key : UInt64) (r : Handled V) : Prop :=
  (r.event.names .kInvalidate key ∧ AnsweredWith r .success) ∨ delivers key r = true

-- Later records are those of later steps of the run.
structure Closure [AnyValue V] [Codec V] (records : List (Handled V)) (key : UInt64) : Prop where
  silent : ∀ earlier closing between last later,
    records = earlier ++ closing :: (between ++ last :: later) → Closes key closing →
    ¬ Announces key last ∧ delivers key last = false
  bare : ∀ earlier closing between last later,
    records = earlier ++ closing :: (between ++ last :: later) → Closes key closing →
    last.event.names .kGetReply key → AnsweredWith last .invalidRequestIdentifierError ∨
      AnsweredWith last .invalidAsynchronousOperationError
  gone : ∀ earlier first before lost between last later,
    records = earlier ++ first :: (before ++ lost :: (between ++ last :: later)) →
    issued first = some key → lost.event.concerns key →
    AnsweredWith lost .invalidRequestIdentifierError → last.event.concerns key →
    AnsweredWith last .invalidRequestIdentifierError

section Invariant
variable {s t : AsyncInvokeServer V} {labels : List Effect} {key : UInt64} {P : AsyncInvoke → Prop}

-- An id that was handed out before and what is known of the entry still under it.
structure Settled (key : UInt64) (P : AsyncInvoke → Prop) (s : AsyncInvokeServer V) : Prop where
  old : key.toNat ≤ s.calls.length
  entry : s.Entries fun k invoke => k = key → P invoke

-- No new entry comes under an old id, so what later accesses and invalidations
-- keep is kept for good.
theorem transition_settled (accessed : ∀ invoke now, P invoke → P {invoke with lastAccess := now})
    (invalidated : ∀ invoke, P invoke → P invoke.invalidate)
    (counter : s.lastId = UInt64.ofNat s.calls.length) (below : t.calls.length < UInt64.size)
    (settled : Settled key P s) (step : Transition s labels t) : Settled key P t := by
  have longer := calls_grow s labels t step
  refine ⟨Nat.le_trans settled.old longer,?_⟩
  refine transition_entries step settled.entry (fun _ _ known => known) ?_ ?_ ?_
  · intro now _ grown same
    have number := next_toNat counter (by omega)
    have old := settled.old
    rw [← same] at old
    omega
  · intro k invoke now _ known same
    exact accessed invoke now (known same)
  · intro k invoke _ known same
    exact invalidated invoke (known same)

theorem path_settled (accessed : ∀ invoke now, P invoke → P {invoke with lastAccess := now})
    (invalidated : ∀ invoke, P invoke → P invoke.invalidate) (numbered : Numbered s)
    (path : Path Transition s labels t) (below : t.calls.length < UInt64.size)
    (settled : Settled key P s) : Settled key P t := by
  have kept := (path.restrict calls_grow below).preserves
    (P := fun s => Numbered s ∧ Settled key P s)
    (fun s labels t held step => ⟨transition_numbered s labels t held.1 step,
      transition_settled accessed invalidated held.1.counter step.2 held.2 step.1⟩) ⟨numbered,settled⟩
  exact kept.2

theorem Settled.weaken {Q : AsyncInvoke → Prop} (settled : Settled key P s)
    (weaker : ∀ invoke, P invoke → Q invoke) : Settled key Q s :=
  ⟨settled.old,fun k invoke here same => weaker invoke (settled.entry k invoke here same)⟩

theorem Settled.absent (settled : Settled key (fun _ => False) s) : s.invokes[key]? = none := by
  cases found : s.invokes[key]? with
  | none => rfl
  | some invoke => exact (settled.entry key invoke found rfl).elim

theorem absent_settled (old : key.toNat ≤ s.calls.length) (absent : s.invokes[key]? = none) :
    Settled key (fun _ => False) s := by
  refine ⟨old,?_⟩
  intro k invoke here same
  subst k
  cases absent.symm.trans here

end Invariant

section Replies
variable [AnyValue V] [Codec V] [LawfulAnyValue V] {r : Handled V} {encoding : PayloadEncoding}

theorem statusReply_answered {error : ProtocolResult} {command : AsyncCommand}
    (replied : r.output.reply = some (createAsyncRPCStatusReply error command)) (result : ProtocolResult) :
    AnsweredWith r result ↔ result = error := by
  obtain ⟨w,built,known⟩ := createAsyncRPCStatusReply_represents (V := V) error command
  rw [built] at replied
  constructor
  · intro ⟨reply,same,found⟩
    cases replied.symm.trans same
    exact Option.some.inj (found.symm.trans known.result)
  · intro same
    exact ⟨w,replied,by rw [same]; exact known.result⟩

theorem pollReply_unsupported (isReady : Bool) (unsupported : isSupportedPayloadEncoding encoding = false) :
    ∃ error, createAsyncRPCPollReply (V := V) isReady encoding = .error error := by
  have known : encoding ≠ .kNone ∧ encoding ≠ .kBase64 := by
    refine ⟨?_,?_⟩ <;> (intro same; subst same; cases unsupported)
  obtain ⟨payload,made,inner⟩ := singleton_members (V := V) asyncReadyFieldName (by decide) .boolean isReady
  obtain ⟨reply,added,_⟩ := addMember_members (emptyStruct_members (V := V) replyTypeName)
    (LawfulAnyValue.packet_names replyResult (by decide)) rfl
    (LawfulAnyValue.scalar_nonempty .unsignedInteger32 ProtocolResult.success.value)
  obtain ⟨error,failed⟩ : ∃ error, Encoding.encode payload encoding = .error error :=
    ⟨_,by rw [Encoding.encode,if_neg known.1,if_neg known.2]⟩
  refine ⟨error,?_⟩
  simp only [createAsyncRPCPollReply,made,createAsyncRPCReply,createRPCReply,createReply,added,
    inner.nonempty,addRPCPayload,failed,known.1,if_false,Bool.false_eq_true,ok_then]
  rfl

theorem pollReply_answered {isReady : Bool} {result : ProtocolResult}
    (replied : r.output.reply = some (createAsyncRPCPollReply isReady encoding))
    (answered : AnsweredWith r result) : result = .success := by
  obtain ⟨reply,same,found⟩ := answered
  have built := Option.some.inj (replied.symm.trans same)
  cases supported : isSupportedPayloadEncoding encoding with
  | false =>
    obtain ⟨error,failed⟩ := pollReply_unsupported (V := V) isReady supported
    cases failed.symm.trans built
  | true =>
    obtain ⟨_,w,_,made,known⟩ := createAsyncRPCPollReply_represents (V := V) isReady supported
    cases made.symm.trans built
    exact Option.some.inj (found.symm.trans known.result)

end Replies

section Steps
variable [AnyValue V] [Codec V] [LawfulAnyValue V] {s : AsyncInvokeServer V} {event : Event V}
  {key : UInt64}

omit [AnyValue V] [Codec V] [LawfulAnyValue V] in
theorem removeIfReady_lookup (s : AsyncInvokeServer V) (id : UInt64) (invoke : AsyncInvoke)
    (moment : Moment V) :
    (s.removeIfReady id invoke moment).1.invokes[id]? = s.invokes[id]? ∨
    (s.removeIfReady id invoke moment).1.invokes[id]? = none := by
  unfold removeIfReady
  dsimp only
  split
  · right
    rw [erase_lookup,if_pos rfl]
  · exact Or.inl rfl

omit [AnyValue V] [Codec V] [LawfulAnyValue V] in
theorem found_old (numbered : Numbered s) {invoke : AsyncInvoke} (found : s.invokes[key]? = some invoke) :
    key.toNat ≤ s.calls.length := by
  obtain ⟨call,_,same,bounded⟩ := numbered.entries key invoke found
  omega

section Named
variable {payload : V} (s : AsyncInvokeServer V) (encoding : PayloadEncoding) (moments : Nat → Moment V)
  (named : extractAsyncRequestId payload = some key)
include named

omit [LawfulAnyValue V] in
theorem poll_reply : (record step s (.handleInvoke payload encoding .kPoll moments)).output.reply =
    some (s.poll key encoding moments).1.reply := by
  simp only [record,step_handleInvoke,handleInvoke_poll named,output_reply]

omit [LawfulAnyValue V] in
theorem getReply_reply : (record step s (.handleInvoke payload encoding .kGetReply moments)).output.reply =
    some (s.getReply key encoding moments).1.reply := by
  simp only [record,step_handleInvoke,handleInvoke_getReply named,output_reply]

omit [LawfulAnyValue V] in
theorem invalidate_reply : (record step s (.handleInvoke payload encoding .kInvalidate moments)).output.reply =
    some (s.invalidate key moments).1.reply := by
  simp only [record,step_handleInvoke,handleInvoke_invalidate named,output_reply]

end Named

theorem absent_answered (absent : s.invokes[key]? = none) (concerns : event.concerns key) :
    AnsweredWith (record step s event) .invalidRequestIdentifierError := by
  obtain ⟨payload,encoding,moments,named,polls | gets | invalidates⟩ := Event.concerns_cases concerns
  · subst polls
    have replied := poll_reply s encoding moments named
    rw [poll_absent encoding moments absent] at replied
    exact (statusReply_answered replied _).mpr rfl
  · subst gets
    have replied := getReply_reply s encoding moments named
    rw [getReply_absent encoding moments absent] at replied
    exact (statusReply_answered replied _).mpr rfl
  · subst invalidates
    have replied := invalidate_reply s encoding moments named
    simp only [invalidate,absent] at replied
    exact (statusReply_answered replied _).mpr rfl

theorem delivers_absent (delivered : delivers key (record step s event) = true) :
    (s.step event).2.invokes[key]? = none ∧ ∃ invoke : AsyncInvoke, s.invokes[key]? = some invoke := by
  obtain ⟨payload,encoding,moments,invoke,call,outcome,same,named,found,held,ended,wanted⟩ :=
    delivers_step delivered
  subst same
  refine ⟨?_,invoke,found⟩
  rw [step_handleInvoke,handleInvoke_getReply named,
    getReply_delivered encoding moments found held ended wanted]
  rw [erase_lookup,if_pos rfl]

theorem invalidated_entry (named : event.names .kInvalidate key)
    (answered : AnsweredWith (record step s event) .success) :
    (∃ invoke : AsyncInvoke, s.invokes[key]? = some invoke) ∧
    ∀ invoke : AsyncInvoke, (s.step event).2.invokes[key]? = some invoke → invoke.invalidated = true := by
  cases event with
  | complete call outcome => cases named
  | cleanUpExpiredRequests moments => cases named
  | handleInvoke payload encoding command moments =>
    obtain ⟨same,named⟩ := named
    subst same
    cases found : s.invokes[key]? with
    | none =>
      have concerns : (Event.handleInvoke payload encoding .kInvalidate moments).concerns key :=
        Or.inr (Or.inr ⟨rfl,named⟩)
      have refused := absent_answered found concerns
      obtain ⟨reply,sent,read⟩ := answered
      obtain ⟨other,again,code⟩ := refused
      cases sent.symm.trans again
      cases read.symm.trans code
    | some entry =>
      refine ⟨⟨entry,rfl⟩,?_⟩
      intro invoke here
      rw [step_handleInvoke,handleInvoke_invalidate named] at here
      simp only [invalidate,found] at here
      rcases removeIfReady_lookup (s.store key entry.invalidate) key entry.invalidate (moments 0) with
        kept | gone
      · rw [kept,store_lookup,if_pos rfl] at here
        cases here
        rfl
      · cases gone.symm.trans here

theorem closes_settled (numbered : Numbered s) (closes : Closes key (record step s event)) :
    Settled key (fun invoke => invoke.invalidated = true) (s.step event).2 := by
  have longer := (step_path s event).grows calls_grow
  rcases closes with ⟨named,answered⟩ | delivered
  · obtain ⟨⟨entry,found⟩,marked⟩ := invalidated_entry named answered
    refine ⟨Nat.le_trans (found_old numbered found) longer,?_⟩
    intro k invoke here same
    subst same
    exact marked invoke here
  · obtain ⟨absent,entry,found⟩ := delivers_absent delivered
    have settled := absent_settled (Nat.le_trans (found_old numbered found) longer) absent
    exact settled.weaken (fun _ nothing => nothing.elim)

omit [LawfulAnyValue V] in
theorem poll_cases (s : AsyncInvokeServer V) (key : UInt64) (encoding : PayloadEncoding)
    (moments : Nat → Moment V) :
    (s.invokes[key]? = none ∧ s.poll key encoding moments =
      (⟨createAsyncRPCStatusReply .invalidRequestIdentifierError .kPoll,[]⟩,s)) ∨
    ∃ invoke : AsyncInvoke, s.invokes[key]? = some invoke ∧
      ((s.poll key encoding moments).1.reply =
          createAsyncRPCStatusReply .invalidAsynchronousOperationError .kPoll ∨
        ∃ isReady, (s.poll key encoding moments).1.reply = createAsyncRPCPollReply isReady encoding ∧
          (isReady = true → invoke.invalidated = false)) := by
  cases found : s.invokes[key]? with
  | none => exact Or.inl ⟨rfl,poll_absent encoding moments found⟩
  | some invoke =>
    refine Or.inr ⟨invoke,rfl,?_⟩
    cases removable : (invoke.isReadyForRemoval (s.observe (moments 0)).calls (moments 0).now).1 with
    | true =>
      left
      rw [poll_removable encoding moments found removable]
    | false =>
      right
      rw [poll_answers encoding moments found removable]
      refine ⟨_,rfl,?_⟩
      intro ready
      rcases AsyncInvoke.isReady_cases invoke ((s.observe (moments 0)).observe (moments 1)).calls
        (moments 1).now with refused | ⟨call,_,wanted,_⟩
      · rw [refused] at ready
        cases ready
      · exact wanted

theorem pollReply_announced {isReady : Bool} {encoding : PayloadEncoding} {reply : V}
    [LawfulCodec V] (built : createAsyncRPCPollReply isReady encoding = .ok reply)
    (read : tryExtractReadyStatus reply encoding = some true) : isReady = true := by
  cases supported : isSupportedPayloadEncoding encoding with
  | false =>
    obtain ⟨error,failed⟩ := pollReply_unsupported (V := V) isReady supported
    cases failed.symm.trans built
  | true =>
    obtain ⟨inner,w,members,made,known⟩ := createAsyncRPCPollReply_represents (V := V) isReady supported
    cases made.symm.trans built
    have flag : tryExtractReadyStatus reply encoding = some isReady :=
      known.extractScalar asyncReadyFieldName (by decide) .boolean isReady members supported
    exact Option.some.inj (flag.symm.trans read)

theorem statusReply_silent {error : ProtocolResult} {command : AsyncCommand} {encoding : PayloadEncoding}
    {reply : V} (built : createAsyncRPCStatusReply error command = .ok reply) :
    tryExtractReadyStatus reply encoding = none := by
  obtain ⟨w,made,known⟩ := createAsyncRPCStatusReply_represents (V := V) error command
  cases made.symm.trans built
  exact known.noScalar .reply asyncReadyFieldName .boolean encoding

theorem invalidated_silent [LawfulCodec V]
    (settled : Settled key (fun invoke => invoke.invalidated = true) s) :
    ¬ Announces key (record step s event) := by
  intro ⟨payload,encoding,moments,reply,same,named,sent,read⟩
  change event = _ at same
  subst same
  rw [poll_reply s encoding moments named] at sent
  have sent := Option.some.inj sent
  rcases poll_cases s key encoding moments with
    ⟨_,answer⟩ | ⟨invoke,found,answer | ⟨isReady,answer,wanted⟩⟩
  · rw [answer] at sent
    cases read.symm.trans (statusReply_silent sent)
  · cases read.symm.trans (statusReply_silent (answer.symm.trans sent))
  · have ready := pollReply_announced (answer.symm.trans sent) read
    cases (wanted ready).symm.trans (settled.entry key invoke found rfl)

theorem invalidated_undelivered
    (settled : Settled key (fun invoke => invoke.invalidated = true) s) :
    delivers key (record step s event) = false := by
  by_contra delivered
  obtain ⟨_,_,_,invoke,_,_,_,_,found,_,_,wanted⟩ := delivers_step (by simpa using delivered)
  cases wanted.symm.trans (settled.entry key invoke found rfl)

-- No command with an entry to work on is answered InvalidRequestIdentifierError,
-- unless that is the outcome it hands out.
theorem lost_absent (concerns : event.concerns key)
    (lost : AnsweredWith (record step s event) .invalidRequestIdentifierError) :
    (s.step event).2.invokes[key]? = none := by
  have other : ProtocolResult.invalidRequestIdentifierError ≠ .invalidAsynchronousOperationError := by decide
  have failed : ProtocolResult.invalidRequestIdentifierError ≠ .success := by decide
  obtain ⟨payload,encoding,moments,named,polls | gets | invalidates⟩ := Event.concerns_cases concerns
  · subst polls
    have replied := poll_reply s encoding moments named
    rcases poll_cases s key encoding moments with
      ⟨absent,answer⟩ | ⟨invoke,found,answer | ⟨isReady,answer,_⟩⟩
    · rw [step_handleInvoke,handleInvoke_poll named,answer]
      exact absent
    · rw [answer] at replied
      exact absurd ((statusReply_answered replied _).mp lost) other
    · rw [answer] at replied
      exact absurd (pollReply_answered replied lost) failed
  · subst gets
    rcases getReply_cases moments s key with
      absent | ⟨invoke,found,refused | ⟨call,outcome,held,ended,wanted⟩⟩
    · rw [step_handleInvoke,handleInvoke_getReply named,getReply_absent encoding moments absent]
      exact absent
    · have replied := getReply_reply s encoding moments named
      rw [getReply_refused encoding moments found refused] at replied
      exact absurd ((statusReply_answered replied _).mp lost) other
    · exact (delivers_absent (getReply_delivers encoding moments named found held ended wanted).1).1
  · subst invalidates
    have replied := invalidate_reply s encoding moments named
    cases found : s.invokes[key]? with
    | none =>
      rw [step_handleInvoke,handleInvoke_invalidate named]
      simp only [invalidate,found]
    | some invoke =>
      simp only [invalidate,found] at replied
      exact absurd ((statusReply_answered replied _).mp lost) failed

end Steps

section Runs
variable [AnyValue V] [Codec V]

theorem split_path {s : AsyncInvokeServer V} {events : List (Event V)} {earlier later : List (Handled V)}
    {r : Handled V} (split : history step s events = earlier ++ r :: later) :
    ∃ event rest labels, r = record step r.before event ∧ Path Transition s labels r.before ∧
      later = history step r.after rest ∧ run step r.after rest = run step s events := by
  obtain ⟨before,_,_,_,_,found,_⟩ := history_split split
  obtain ⟨rest,remaining,same,here⟩ := run_resumes split
  refine ⟨r.event,rest,effectsOf (history step s before),here,?_,remaining,same.symm⟩
  rw [found]
  exact run_path s before

theorem split_below {s : AsyncInvokeServer V} {events : List (Event V)} {earlier later : List (Handled V)}
    {r : Handled V} (split : history step s events = earlier ++ r :: later) (numbered : Numbered s)
    (below : (run step s events).calls.length < UInt64.size) :
    r.before.calls.length < UInt64.size ∧ r.after.calls.length < UInt64.size ∧ Numbered r.before ∧
      Numbered r.after := by
  obtain ⟨event,rest,labels,here,path,_,same⟩ := split_path split
  have stepped : Path Transition r.before (r.before.step event).1.effects r.after := by
    have moved := step_path r.before event
    rw [here]
    exact moved
  have final := (run_path r.after rest).grows calls_grow
  rw [same] at final
  have after : r.after.calls.length < UInt64.size := Nat.lt_of_le_of_lt final below
  have before := Nat.lt_of_le_of_lt (stepped.grows calls_grow) after
  have reached := path_numbered path before numbered
  exact ⟨before,after,reached,path_numbered stepped after reached⟩

variable [LawfulAnyValue V] [LawfulCodec V]

theorem issued_old {s : AsyncInvokeServer V} {event : Event V} {key : UInt64} (numbered : Numbered s)
    (given : issued (record step s event) = some key)
    (below : (s.step event).2.calls.length < UInt64.size) :
    key.toNat ≤ (s.step event).2.calls.length := by
  obtain ⟨payload,encoding,moments,initial,number⟩ := issued_step given
  have launched := congrArg List.length (step_inputs s event)
  have one : event.launches.length = 1 := by rw [initial]; rfl
  rw [Tasks.length_inputs,List.length_append,Tasks.length_inputs,one] at launched
  have within := next_toNat numbered.counter (by omega)
  rw [← number] at within
  omega

-- What closed a request is still so at every later record.
omit [LawfulCodec V] in
theorem closed_later {s : AsyncInvokeServer V} {events : List (Event V)}
    {earlier between later : List (Handled V)} {closing last : Handled V} {key : UInt64}
    (split : history step s events = earlier ++ closing :: (between ++ last :: later))
    (numbered : Numbered s) (below : (run step s events).calls.length < UInt64.size)
    (closes : Closes key closing) :
    Settled key (fun invoke => invoke.invalidated = true) last.before := by
  obtain ⟨event,rest,_,here,_,remaining,same⟩ := split_path split
  obtain ⟨_,_,started,ended⟩ := split_below split numbered below
  rw [← same] at below
  obtain ⟨_,_,_,_,path,_,_⟩ := split_path remaining.symm
  have bounded := (split_below remaining.symm ended below).1
  have settled : Settled key (fun invoke => invoke.invalidated = true) closing.after := by
    rw [here] at closes
    have closed := closes_settled started closes
    rw [here]
    exact closed
  exact path_settled (fun _ _ known => known) (fun _ _ => rfl) ended path bounded settled

theorem lost_later {s : AsyncInvokeServer V} {events : List (Event V)}
    {earlier before between later : List (Handled V)} {first lost last : Handled V} {key : UInt64}
    (split : history step s events =
      earlier ++ first :: (before ++ lost :: (between ++ last :: later)))
    (numbered : Numbered s) (below : (run step s events).calls.length < UInt64.size)
    (given : issued first = some key) (concerns : lost.event.concerns key)
    (answered : AnsweredWith lost .invalidRequestIdentifierError) : last.before.invokes[key]? = none := by
  obtain ⟨issuing,rest,_,firstHere,_,remaining,same⟩ := split_path split
  obtain ⟨_,bounded,started,ended⟩ := split_below split numbered below
  rw [← same] at below
  obtain ⟨event,later',_,lostHere,toLost,remaining',same'⟩ := split_path remaining.symm
  obtain ⟨_,_,lostStarted,lostEnded⟩ := split_below remaining.symm ended below
  rw [← same'] at below
  obtain ⟨_,_,_,_,toLast,_,_⟩ := split_path remaining'.symm
  have lastBelow := (split_below remaining'.symm lostEnded below).1
  have old : key.toNat ≤ first.after.calls.length := by
    rw [firstHere] at given bounded
    have number := issued_old started given bounded
    rw [firstHere]
    exact number
  have longer := Nat.le_trans (toLost.grows calls_grow) ((step_path lost.before event).grows calls_grow)
  have absent : lost.after.invokes[key]? = none := by
    rw [lostHere] at answered concerns
    have gone := lost_absent concerns answered
    rw [lostHere]
    exact gone
  have stepped : lost.after = (lost.before.step event).2 := by
    rw [lostHere]
    rfl
  have settled := absent_settled (Nat.le_trans old (by rw [stepped]; exact longer)) absent
  exact (path_settled (fun _ _ nothing => nothing) (fun _ nothing => nothing) lostEnded toLast lastBelow
    settled).absent

theorem closure (expirationTimeNs : UInt64) (events : List (Event V))
    (bounded : events.countP Event.isInitialRequest < UInt64.size) (key : UInt64) :
    Closure (handled expirationTimeNs events) key := by
  have numbered : Numbered (start expirationTimeNs : AsyncInvokeServer V) := start_numbered _
  have below : (run step (start expirationTimeNs) events).calls.length < UInt64.size := by
    have count := reached_count expirationTimeNs events
    unfold reached at count
    rw [count]
    exact bounded
  have recorded {r : Handled V} (known : r ∈ handled expirationTimeNs events) :
      r = record step r.before r.event := by
    obtain ⟨_,_,_,_,here⟩ := history_member known
    rw [here]
    rfl
  refine ⟨?_,?_,?_⟩
  · intro earlier closing between last later split closes
    have settled := closed_later split numbered below closes
    rw [recorded (by rw [split]; simp : last ∈ _)]
    exact ⟨invalidated_silent settled,invalidated_undelivered settled⟩
  · intro earlier closing between last later split closes named
    have settled := closed_later split numbered below closes
    rw [recorded (by rw [split]; simp : last ∈ _)]
    rcases undelivered_bare last.before last.event key named (invalidated_undelivered settled) with
      replied | replied
    · exact Or.inl ((statusReply_answered replied _).mpr rfl)
    · exact Or.inr ((statusReply_answered replied _).mpr rfl)
  · intro earlier first before lost between last later split given concerns answered again
    have absent := lost_later split numbered below given concerns answered
    rw [recorded (by rw [split]; simp : last ∈ _)]
    exact absent_answered absent again

def givenUpRun : List (Event Reference.Value) :=
  [.handleInvoke (.string "measure") .kNone .kInitialRequest (instant 0),
   .handleInvoke (Reference.namedRequest 1) .kNone .kInvalidate (instant 1),
   .handleInvoke (Reference.namedRequest 1) .kNone .kPoll (instant 2),
   .complete 0 (.ok (.success,.string "done")),
   .handleInvoke (Reference.namedRequest 1) .kNone .kPoll (instant 3),
   .handleInvoke (Reference.namedRequest 1) .kNone .kGetReply (instant 4)]

theorem closure_given_up : Closure (handled 10 givenUpRun) 1 ∧
    ∃ earlier closing later, handled 10 givenUpRun = earlier ++ closing :: later ∧
      Closes 1 closing ∧ later.length = 4 := by
  refine ⟨closure 10 givenUpRun (by decide) 1,
    [record step (start 10) (.handleInvoke (.string "measure") .kNone .kInitialRequest (instant 0))],
    _,_,rfl,Or.inl ⟨⟨rfl,rfl⟩,_,rfl,rfl⟩,rfl⟩

end Runs

end AsyncInvokeServer

end SupProtocol
