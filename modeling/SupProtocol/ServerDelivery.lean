import SupProtocol.ServerFunctions
import SupProtocol.ServerMailbox
import SupProtocol.ReferenceValue

namespace SupProtocol

variable {V : Type}

def Event.launches : Event V → List V
  | .handleInvoke payload _ command _ => if command = .kInitialRequest then [payload] else []
  | _ => []

namespace AsyncInvokeServer
open Machine

def issued [AnyValue V] [Codec V] (r : Handled V) : Option UInt64 :=
  match r.event,r.output.reply with
  | .handleInvoke _ encoding command _,some (.ok reply) =>
    if command = .kInitialRequest then tryExtractReplyId reply encoding else none
  | _,_ => none

def Effect.retrieves (key : UInt64) : Effect → Bool
  | .on k (.retrieved _) => k == key
  | _ => false

theorem Effect.retrieves_exact {key : UInt64} {effect : Effect}
    (retrieves : Effect.retrieves key effect = true) : ∃ call, effect = .on key (.retrieved call) := by
  unfold Effect.retrieves at retrieves
  split at retrieves
  · rename_i k call
    have same : k = key := by simpa using retrieves
    exact ⟨call,by rw [same]⟩
  · cases retrieves

def delivers (key : UInt64) (r : Handled V) : Bool := r.output.effects.any (Effect.retrieves key)

structure Delivery [AnyValue V] [Codec V] (records : List (Handled V)) : Prop where
  distinct : (records.filterMap issued).Nodup
  nonzero : 0 ∉ records.filterMap issued
  answered : ∀ r ∈ records, ∀ payload encoding moments,
    r.event = .handleInvoke payload encoding .kInitialRequest moments →
    isSupportedPayloadEncoding encoding = true → ∃ key, issued r = some key
  launched : ∀ r ∈ records,
    Tasks.inputs r.after.calls = Tasks.inputs r.before.calls ++ r.event.launches
  once : ∀ key, records.countP (delivers key) ≤ 1
  -- the call that `first` launched is the one after those before it
  authentic : ∀ first ∈ records, ∀ r ∈ records, ∀ key, issued first = some key →
    delivers key r = true → ∃ payload encoding moments outcome,
      r.event = .handleInvoke payload encoding .kGetReply moments ∧
      extractAsyncRequestId payload = some key ∧
      Tasks.outcomeOf r.after.calls first.before.calls.length = some outcome ∧
      r.output.reply = some (createAsyncRPCReply (AsyncInvoke.settled outcome).1
        (AsyncInvoke.settled outcome).2 encoding .kGetReply)
  bare : ∀ r ∈ records, ∀ key, r.event.names .kGetReply key → delivers key r = false →
    r.output.reply = some (createAsyncRPCStatusReply .invalidRequestIdentifierError .kGetReply) ∨
    r.output.reply = some (createAsyncRPCStatusReply .invalidAsynchronousOperationError .kGetReply)

section Launches

theorem cleanUpFrom_inputs (moments : Nat → Moment V) (ids : List UInt64) :
    ∀ (k : Nat) (s : AsyncInvokeServer V),
      Tasks.inputs (cleanUpFrom moments k ids s).1.calls = Tasks.inputs s.calls := by
  induction ids with
  | nil => intro k s; rfl
  | cons id ids ih =>
    intro k s
    unfold cleanUpFrom
    cases s.invokes[id]? with
    | none => exact ih k s
    | some invoke => exact (ih (k+1) _).trans (by simp [removeIfReady_calls])

variable [AnyValue V] [Codec V]

theorem poll_inputs (s : AsyncInvokeServer V) (id : UInt64) (encoding : PayloadEncoding)
    (moments : Nat → Moment V) :
    Tasks.inputs (s.poll id encoding moments).2.calls = Tasks.inputs s.calls := by
  unfold poll
  cases s.invokes[id]? with
  | none => rfl
  | some invoke =>
    dsimp only
    split <;> simp

theorem getReply_inputs (s : AsyncInvokeServer V) (id : UInt64) (encoding : PayloadEncoding)
    (moments : Nat → Moment V) :
    Tasks.inputs (s.getReply id encoding moments).2.calls = Tasks.inputs s.calls := by
  unfold getReply
  cases s.invokes[id]? with
  | none => rfl
  | some invoke => simp [removeIfReady_calls]

theorem invalidate_inputs (s : AsyncInvokeServer V) (id : UInt64) (moments : Nat → Moment V) :
    Tasks.inputs (s.invalidate id moments).2.calls = Tasks.inputs s.calls := by
  unfold invalidate
  cases s.invokes[id]? with
  | none => rfl
  | some invoke => simp [removeIfReady_calls]

-- One call for an initial request, on its own payload, and none otherwise.
theorem step_inputs (s : AsyncInvokeServer V) (event : Event V) :
    Tasks.inputs (s.step event).2.calls = Tasks.inputs s.calls ++ event.launches := by
  cases event with
  | complete call outcome => simp [step,Event.launches]
  | cleanUpExpiredRequests moments =>
    exact (cleanUpFrom_inputs moments s.invokes.keys 0 s).trans (List.append_nil _).symm
  | handleInvoke payload encoding command moments =>
    rw [step_handleInvoke]
    rcases handleInvoke_cases s payload encoding command moments with ⟨initial,taken⟩ |
      ⟨later,_,taken⟩ | ⟨id,_,⟨same,taken⟩ | ⟨same,taken⟩ | ⟨same,taken⟩⟩
    · rw [taken,newRequest]
      simp [emplace,Event.launches,initial]
    · rw [taken]
      simp [Event.launches,later]
    · rw [taken,poll_inputs]
      simp +decide [Event.launches,same]
    · rw [taken,getReply_inputs]
      simp +decide [Event.launches,same]
    · rw [taken,invalidate_inputs]
      simp +decide [Event.launches,same]

theorem run_inputs (s : AsyncInvokeServer V) (events : List (Event V)) :
    Tasks.inputs (run step s events).calls = Tasks.inputs s.calls ++ events.flatMap Event.launches := by
  induction events generalizing s with
  | nil => simp [run]
  | cons event events ih =>
    rw [run,ih,step_inputs,List.flatMap_cons,List.append_assoc]

omit [AnyValue V] [Codec V] in
theorem launches_count (events : List (Event V)) :
    (events.flatMap Event.launches).length = events.countP Event.isInitialRequest := by
  induction events with
  | nil => rfl
  | cons event events ih =>
    rw [List.flatMap_cons,List.length_append,ih,List.countP_cons,Nat.add_comm]
    congr 1
    cases event with
    | handleInvoke payload encoding command moments =>
      by_cases initial : command = .kInitialRequest <;>
        simp [Event.launches,Event.isInitialRequest,initial]
    | _ => rfl

theorem reached_count (expirationTimeNs : UInt64) (events : List (Event V)) :
    (reached expirationTimeNs events).calls.length = events.countP Event.isInitialRequest := by
  have launched := congrArg List.length (run_inputs (start expirationTimeNs) events)
  rw [Tasks.length_inputs,List.length_append,launches_count] at launched
  exact launched.trans (Nat.zero_add _)

end Launches

section Issued
variable [AnyValue V] [Codec V] [LawfulAnyValue V] [LawfulCodec V]

theorem newRequest_reply (s : AsyncInvokeServer V) (payload : V) (moments : Nat → Moment V)
    {encoding : PayloadEncoding} (supported : isSupportedPayloadEncoding encoding = true) :
    ∃ reply, (s.newRequest payload encoding moments).1.reply = .ok reply ∧
      tryExtractReplyId reply encoding = some (s.lastId + 1) := by
  obtain ⟨inner,reply,members,built,known⟩ :=
    createAsyncRPCNewRequestReply_represents (V := V) (s.lastId + 1) supported
  refine ⟨reply,built,?_⟩
  exact known.extractScalar asyncIdFieldName (by decide) .unsignedInteger64 _ members supported

theorem issued_newRequest (s : AsyncInvokeServer V) (payload : V) (moments : Nat → Moment V)
    {encoding : PayloadEncoding} (supported : isSupportedPayloadEncoding encoding = true) :
    issued (record step s (.handleInvoke payload encoding .kInitialRequest moments)) =
      some (s.lastId + 1) := by
  obtain ⟨reply,answered,read⟩ := newRequest_reply s payload moments supported
  simp only [issued,record,step_handleInvoke,handleInvoke_newRequest,output_reply,answered,read,if_true]

theorem issued_step {s : AsyncInvokeServer V} {event : Event V} {key : UInt64}
    (given : issued (record step s event) = some key) :
    ∃ payload encoding moments, event = .handleInvoke payload encoding .kInitialRequest moments ∧
      key = s.lastId + 1 := by
  cases event with
  | complete call outcome => simp [issued,record] at given
  | cleanUpExpiredRequests moments => simp [issued,record] at given
  | handleInvoke payload encoding command moments =>
    by_cases initial : command = .kInitialRequest
    · subst command
      refine ⟨payload,encoding,moments,rfl,?_⟩
      cases supported : isSupportedPayloadEncoding encoding with
      | true => exact Option.some.inj (given.symm.trans (issued_newRequest s payload moments supported))
      | false =>
        simp only [issued,record] at given
        split at given
        · rename_i parts _
          cases parts
          simp [tryExtractReplyId,extractScalar_unsupported _ _ _ _ supported] at given
        · cases given
    · simp only [issued,record] at given
      split at given
      · rename_i parts _
        cases parts
        simp [initial] at given
      · cases given

theorem issued_increasing {s : AsyncInvokeServer V} (events : List (Event V))
    (counter : s.lastId = UInt64.ofNat s.calls.length)
    (below : (run step s events).calls.length < UInt64.size) :
    (∀ key ∈ (history step s events).filterMap issued, s.calls.length < key.toNat) ∧
    ((history step s events).filterMap issued).Pairwise fun key later => key.toNat < later.toNat := by
  induction events generalizing s with
  | nil => exact ⟨by simp [history],.nil⟩
  | cons event events ih =>
    have path := step_path s event
    have longer := path.grows calls_grow
    have final := (run_path (s.step event).2 events).grows calls_grow
    have later := path.preserves (fun _ _ _ held step => transition_counter step held) counter
    obtain ⟨above,ordered⟩ := ih later below
    rw [history,List.filterMap_cons]
    cases given : issued (record step s event) with
    | none =>
      refine ⟨?_,ordered⟩
      intro key member
      exact Nat.lt_of_le_of_lt longer (above key member)
    | some key =>
      obtain ⟨payload,encoding,moments,rfl,rfl⟩ := issued_step given
      have launched := congrArg List.length
        (step_inputs s (.handleInvoke payload encoding .kInitialRequest moments))
      have number : (s.step (.handleInvoke payload encoding .kInitialRequest moments)).2.calls.length =
          s.calls.length + 1 := by simpa [Event.launches] using launched
      have within : s.calls.length + 1 < UInt64.size := by
        have total : (run step s (.handleInvoke payload encoding .kInitialRequest moments ::
          events)).calls.length < UInt64.size := below
        simp only [run] at total
        omega
      have read := next_toNat counter within
      refine ⟨?_,List.pairwise_cons.mpr ⟨?_,ordered⟩⟩
      · intro key member
        rcases List.mem_cons.mp member with rfl | later
        · omega
        · have after := above key later
          omega
      · intro later member
        have after := above later member
        omega

end Issued

section Delivered
variable [AnyValue V] [Codec V]

-- Only kGetReply delivers, for the id it names, from the entry found there.
theorem delivers_step [LawfulAnyValue V] {s : AsyncInvokeServer V} {event : Event V} {key : UInt64}
    (delivered : delivers key (record step s event) = true) :
    ∃ payload encoding moments invoke call outcome,
      event = .handleInvoke payload encoding .kGetReply moments ∧
      extractAsyncRequestId payload = some key ∧ s.invokes[key]? = some invoke ∧
      invoke.future = some call ∧
      Tasks.outcomeOf (s.observe (moments 0)).calls call = some outcome ∧
      invoke.invalidated = false := by
  obtain ⟨effect,member,retrieves⟩ := List.any_eq_true.mp delivered
  obtain ⟨call,rfl⟩ := Effect.retrieves_exact retrieves
  have named := step_source s event _ member
  cases event with
  | complete call outcome => cases named
  | cleanUpExpiredRequests moments => cases named
  | handleInvoke payload encoding command moments =>
    obtain ⟨rfl,named⟩ := named
    simp only [record,step_handleInvoke,handleInvoke_getReply named,output_effects] at member
    rcases getReply_cases moments s key with
      absent | ⟨invoke,found,refused | ⟨call,outcome,held,ended,wanted⟩⟩
    · rw [getReply_absent encoding moments absent] at member
      cases member
    · rw [getReply_refused encoding moments found refused] at member
      rcases removeIfReady_effects member with ⟨_,other⟩ | other <;> cases other
    · exact ⟨payload,encoding,moments,invoke,call,outcome,rfl,named,found,held,ended,wanted⟩

theorem getReply_delivers {s : AsyncInvokeServer V} {payload : V} (encoding : PayloadEncoding)
    (moments : Nat → Moment V) {key : UInt64} {invoke : AsyncInvoke} {call : Nat}
    {outcome : Outcome V} (named : extractAsyncRequestId payload = some key)
    (found : s.invokes[key]? = some invoke) (held : invoke.future = some call)
    (ended : Tasks.outcomeOf (s.observe (moments 0)).calls call = some outcome)
    (wanted : invoke.invalidated = false) :
    let r := record step s (.handleInvoke payload encoding .kGetReply moments)
    delivers key r = true ∧ Tasks.outcomeOf r.after.calls call = some outcome ∧
      r.output.reply = some (createAsyncRPCReply (AsyncInvoke.settled outcome).1
        (AsyncInvoke.settled outcome).2 encoding .kGetReply) := by
  have answer := getReply_delivered encoding moments found held ended wanted
  simp only [delivers,record,step_handleInvoke,handleInvoke_getReply named,output_reply,output_effects,
    answer]
  refine ⟨by simp [Effect.retrieves],?_,trivial⟩
  exact (Tasks.finishAll_extends _ (moments 1).completions).outcomes call outcome ended

omit [AnyValue V] [Codec V] in
theorem takes_counts (key : UInt64) (records : List (Handled V)) :
    records.countP (delivers key) ≤
      Mailbox.takes key ((effectsOf records).filterMap Effect.action) := by
  induction records with
  | nil => exact Nat.le_refl _
  | cons r records ih =>
    have parts : effectsOf (r :: records) = r.output.effects ++ effectsOf records := rfl
    rw [parts,List.filterMap_append,Mailbox.takes_append,List.countP_cons]
    split
    · rename_i delivered
      obtain ⟨effect,member,retrieves⟩ := List.any_eq_true.mp delivered
      have taken : 0 < Mailbox.takes key (r.output.effects.filterMap Effect.action) := by
        apply List.countP_pos_iff.mpr
        obtain ⟨call,rfl⟩ := Effect.retrieves_exact retrieves
        exact ⟨.take key call,List.mem_filterMap.mpr ⟨_,member,rfl⟩,by simp⟩
      omega
    · omega

end Delivered

section Main
variable [AnyValue V] [Codec V]

theorem reached_numbered (expirationTimeNs : UInt64) (events : List (Event V))
    (bounded : events.countP Event.isInitialRequest < UInt64.size) :
    Numbered (reached expirationTimeNs events) := by
  refine path_numbered (reached_path expirationTimeNs events) ?_ (start_numbered expirationTimeNs)
  rw [reached_count]
  exact bounded

-- An initial request is given the number of its call, counted from 1 on.
theorem reached_nextId (expirationTimeNs : UInt64) {before : List (Event V)} {payload : V}
    {encoding : PayloadEncoding} {moments : Nat → Moment V}
    (bounded : (before ++ [Event.handleInvoke payload encoding .kInitialRequest moments]).countP
      Event.isInitialRequest < UInt64.size) :
    ((reached expirationTimeNs before).lastId + 1).toNat =
      (reached expirationTimeNs before).calls.length + 1 := by
  have one : (before ++ [Event.handleInvoke payload encoding .kInitialRequest moments]).countP
      Event.isInitialRequest = before.countP Event.isInitialRequest + 1 := by
    simp [List.countP_append,Event.isInitialRequest]
  have count := reached_count expirationTimeNs before
  have counter := (reached_numbered expirationTimeNs before (by omega)).counter
  exact next_toNat counter (by omega)

variable [LawfulAnyValue V] [LawfulCodec V]

-- The entry that a reply is taken from belongs to the call that the request of
-- this id launched.
theorem delivered_call {expirationTimeNs : UInt64} {before earlier : List (Event V)}
    {first : Event V} {key : UInt64} {invoke : AsyncInvoke} {call : Nat}
    (issuing : (before ++ [first]).countP Event.isInitialRequest < UInt64.size)
    (delivering : earlier.countP Event.isInitialRequest < UInt64.size)
    (given : issued (record step (reached expirationTimeNs before) first) = some key)
    (found : (reached expirationTimeNs earlier).invokes[key]? = some invoke)
    (held : invoke.future = some call) :
    call = (reached expirationTimeNs before).calls.length := by
  obtain ⟨payload,encoding,moments,rfl,rfl⟩ := issued_step given
  have number := reached_nextId expirationTimeNs issuing
  obtain ⟨k,same,numbered,_⟩ := (reached_numbered expirationTimeNs earlier delivering).entries _ _ found
  cases held.symm.trans same
  omega

omit [AnyValue V] [Codec V] [LawfulAnyValue V] [LawfulCodec V] in
theorem countP_upTo {events before after : List (Event V)} {event : Event V}
    (parts : events = before ++ event :: after) :
    (before ++ [event]).countP Event.isInitialRequest ≤ events.countP Event.isInitialRequest := by
  have split : events = (before ++ [event]) ++ after := by simp [parts]
  have whole : events.countP Event.isInitialRequest = (before ++ [event]).countP Event.isInitialRequest +
      after.countP Event.isInitialRequest := by rw [split,List.countP_append]
  omega

omit [LawfulCodec V] in
theorem undelivered_bare (s : AsyncInvokeServer V) (event : Event V) (key : UInt64)
    (named : event.names .kGetReply key) (undelivered : delivers key (record step s event) = false) :
    (s.step event).1.reply =
      some (createAsyncRPCStatusReply .invalidRequestIdentifierError .kGetReply) ∨
    (s.step event).1.reply =
      some (createAsyncRPCStatusReply .invalidAsynchronousOperationError .kGetReply) := by
  cases event with
  | complete call outcome => cases named
  | cleanUpExpiredRequests moments => cases named
  | handleInvoke payload encoding command moments =>
    obtain ⟨rfl,named⟩ := named
    rcases getReply_cases moments s key with
      absent | ⟨invoke,found,refused | ⟨call,outcome,held,ended,wanted⟩⟩
    · apply Or.inl
      rw [step_handleInvoke,handleInvoke_getReply named,output_reply,
        getReply_absent encoding moments absent]
    · exact Or.inr (by rw [step_handleInvoke,handleInvoke_getReply named,output_reply,
        getReply_refused encoding moments found refused])
    · have delivered := (getReply_delivers encoding moments named found held ended wanted).1
      cases delivered.symm.trans undelivered

theorem delivery (expirationTimeNs : UInt64) (events : List (Event V))
    (bounded : events.countP Event.isInitialRequest < UInt64.size) :
    Delivery (handled expirationTimeNs events) := by
  have below : (reached expirationTimeNs events).calls.length < UInt64.size := by
    rw [reached_count]
    exact bounded
  have counted := (start_numbered (V := V) expirationTimeNs).counter
  obtain ⟨above,ordered⟩ := issued_increasing events counted below
  obtain ⟨box,actions,_⟩ := path_mirrored (reached_path expirationTimeNs events) below
  refine ⟨?_,?_,?_,?_,?_,?_,?_⟩
  · exact ordered.imp fun smaller same => by rw [same] at smaller; omega
  · intro member
    have positive := above 0 member
    simp at positive
  · intro r member payload encoding moments sent supported
    obtain ⟨before,event,_,_,rfl⟩ := history_member member
    cases sent
    exact ⟨_,issued_newRequest _ payload moments supported⟩
  · intro r member
    obtain ⟨before,event,_,_,rfl⟩ := history_member member
    exact step_inputs _ event
  · intro key
    exact Nat.le_trans (takes_counts key _) (Mailbox.taken_once actions key)
  · intro first issuing r member key given delivered
    obtain ⟨before,event,after,parts,rfl⟩ := history_member issuing
    obtain ⟨earlier,command,later,split,rfl⟩ := history_member member
    obtain ⟨payload,encoding,moments,invoke,call,outcome,rfl,named,found,held,ended,wanted⟩ :=
      delivers_step delivered
    have issuing : (before ++ [event]).countP Event.isInitialRequest < UInt64.size :=
      Nat.lt_of_le_of_lt (countP_upTo parts) bounded
    have delivering : earlier.countP Event.isInitialRequest < UInt64.size := by
      have prior := countP_upTo split
      rw [List.countP_append] at prior
      omega
    have same := delivered_call issuing delivering given found held
    obtain ⟨_,stored,reply⟩ := getReply_delivers encoding moments named found held ended wanted
    exact ⟨payload,encoding,moments,outcome,rfl,named,same ▸ stored,reply⟩
  · intro r member key named undelivered
    obtain ⟨before,event,_,_,rfl⟩ := history_member member
    exact undelivered_bare _ event key named undelivered

def twoRequests : List (Event Reference.Value) :=
  [.handleInvoke (.string "measure") .kNone .kInitialRequest (instant 0),
   .handleInvoke (.string "park") .kNone .kInitialRequest (instant 1),
   .complete 1 (.error (.foreign "park failed")),
   .handleInvoke (Reference.namedRequest 2) .kNone .kGetReply (instant 2),
   .complete 0 (.ok (.success,.string "done")),
   .handleInvoke (Reference.namedRequest 1) .kNone .kGetReply (instant 3),
   .handleInvoke (Reference.namedRequest 1) .kNone .kGetReply (instant 4)]

theorem delivery_two : Delivery (handled 10 twoRequests) ∧
    (handled 10 twoRequests).filterMap issued = [1,2] ∧
    (handled 10 twoRequests).countP (delivers 1) = 1 ∧
    (handled 10 twoRequests).countP (delivers 2) = 1 :=
  ⟨delivery 10 twoRequests (by decide),by decide,by decide,by decide⟩

end Main

end AsyncInvokeServer
end SupProtocol
