import SupProtocol.ServerDelivery
import SupProtocol.ReferenceValue

namespace SupProtocol.AsyncInvokeServer
open Machine

variable {V : Type} [AnyValue V] [Codec V]

def asked (s : AsyncInvokeServer V) (payload : V) (encoding : PayloadEncoding)
    (command : AsyncCommand) (now : UInt64) : Handled V :=
  record step s (.handleInvoke payload encoding command (instant now))

def Answers (r : Handled V) (encoding : PayloadEncoding) (result : ProtocolResult)
    (ready : Option Bool) : Prop :=
  ∃ reply, r.output.reply = some (.ok reply) ∧ tryExtractProtocolResult reply = some result ∧
    tryExtractReadyStatus reply encoding = ready

-- Poll and GetReply agree at an instant: what one announces the other hands out,
-- and a poll is refused only because the request was invalidated.
structure Agreement (s : AsyncInvokeServer V) (key now : UInt64) (payload : V)
    (encoding : PayloadEncoding) : Prop where
  deliverable : delivers key (asked s payload encoding .kGetReply now) = true ↔
    Answers (asked s payload encoding .kPoll now) encoding .success (some true)
  refused : ∀ ready, Answers (asked s payload encoding .kPoll now) encoding
      .invalidAsynchronousOperationError ready →
    ∃ invoke : AsyncInvoke, s.invokes[key]? = some invoke ∧ invoke.invalidated = true

-- A finished request that nobody invalidated, past its time but still stored.
def Overdue (s : AsyncInvokeServer V) (key now : UInt64) : Prop :=
  ∃ (invoke : AsyncInvoke) (call : Nat), s.invokes[key]? = some invoke ∧ invoke.future = some call ∧
    Tasks.isReady s.calls call = true ∧ invoke.invalidated = false ∧ invoke.isExpired now = true

section Replies
variable [LawfulAnyValue V]

theorem statusReply_answers {r : Handled V} {encoding : PayloadEncoding} {error : ProtocolResult}
    {command : AsyncCommand} (replied : r.output.reply = some (createAsyncRPCStatusReply error command))
    (result : ProtocolResult) (ready : Option Bool) :
    Answers r encoding result ready ↔ result = error ∧ ready = none := by
  obtain ⟨w,built,known⟩ := createAsyncRPCStatusReply_represents (V := V) error command
  have resultRead := known.result
  have readyRead := known.noScalar .reply asyncReadyFieldName .boolean encoding
  rw [built] at replied
  constructor
  · rintro ⟨reply,same,found,flag⟩
    cases replied.symm.trans same
    exact ⟨Option.some.inj (found.symm.trans resultRead),flag.symm.trans readyRead⟩
  · rintro ⟨rfl,rfl⟩
    exact ⟨w,replied,resultRead,readyRead⟩

theorem pollReply_answers [LawfulCodec V] {r : Handled V} {encoding : PayloadEncoding} {isReady : Bool}
    (supported : isSupportedPayloadEncoding encoding = true)
    (replied : r.output.reply = some (createAsyncRPCPollReply isReady encoding))
    (result : ProtocolResult) (ready : Option Bool) :
    Answers r encoding result ready ↔ result = .success ∧ ready = some isReady := by
  obtain ⟨inner,w,members,built,known⟩ :=
    createAsyncRPCPollReply_represents (V := V) isReady supported
  have resultRead := known.result
  have readyRead := known.extractScalar asyncReadyFieldName (by decide) .boolean isReady members
    supported
  rw [built] at replied
  constructor
  · rintro ⟨reply,same,found,flag⟩
    cases replied.symm.trans same
    exact ⟨Option.some.inj (found.symm.trans resultRead),flag.symm.trans readyRead⟩
  · rintro ⟨rfl,rfl⟩
    exact ⟨w,replied,resultRead,readyRead⟩

end Replies

theorem reached_stocked (expirationTimeNs : UInt64) (events : List (Event V)) :
    Stocked (reached expirationTimeNs events) :=
  path_stocked (reached_path expirationTimeNs events) (start_stocked expirationTimeNs)

section Instants
variable [LawfulAnyValue V] {s : AsyncInvokeServer V} {key now : UInt64} {payload : V}
  {encoding : PayloadEncoding} {invoke : AsyncInvoke} {call : Nat}

-- kGetReply looks at the call and at the mark of invalidation only.
theorem asked_delivers (named : extractAsyncRequestId payload = some key)
    (found : s.invokes[key]? = some invoke) (held : invoke.future = some call) :
    delivers key (asked s payload encoding .kGetReply now) = true ↔
      Tasks.isReady s.calls call = true ∧ invoke.invalidated = false := by
  constructor
  · intro delivered
    obtain ⟨_,_,_,entry,k,outcome,sent,_,here,same,ended,wanted⟩ := delivers_step delivered
    cases sent
    cases found.symm.trans here
    cases held.symm.trans same
    refine ⟨?_,wanted⟩
    rw [Tasks.isReady]
    exact Option.isSome_iff_exists.mpr ⟨outcome,ended⟩
  · rintro ⟨ready,wanted⟩
    obtain ⟨outcome,ended⟩ := Option.isSome_iff_exists.mp ready
    exact (getReply_delivers encoding (instant now) named found held ended wanted).1

omit [LawfulAnyValue V] in
theorem asked_absent (absent : s.invokes[key]? = none)
    (named : extractAsyncRequestId payload = some key) :
    delivers key (asked s payload encoding .kGetReply now) = false := by
  simp [asked,delivers,record,step_handleInvoke,handleInvoke_getReply named,output_effects,
    getReply_absent encoding (instant now) absent]

variable [LawfulCodec V]

-- kPoll looks at the clock as well.
theorem asked_polls (now : UInt64) (named : extractAsyncRequestId payload = some key)
    (found : s.invokes[key]? = some invoke) (held : invoke.future = some call)
    (supported : isSupportedPayloadEncoding encoding = true) (result : ProtocolResult)
    (ready : Option Bool) :
    Answers (asked s payload encoding .kPoll now) encoding result ready ↔
      if Tasks.isReady s.calls call && (invoke.invalidated || invoke.isExpired now) then
        result = .invalidAsynchronousOperationError ∧ ready = none
      else result = .success ∧ ready = some (Tasks.isReady s.calls call && !invoke.invalidated) := by
  have examined := AsyncInvoke.removable_held held (s.observe (instant now 0)).calls now
  have unchanged : (s.observe (instant now 0)).calls = s.calls := rfl
  rw [unchanged] at examined
  split
  · rename_i removable
    have answer := poll_removable encoding (instant now) found
      (by rw [unchanged]; exact (congrArg Prod.fst examined).trans removable)
    have replied : (asked s payload encoding .kPoll now).output.reply =
        some (createAsyncRPCStatusReply .invalidAsynchronousOperationError .kPoll) := by
      simp only [asked,record,step_handleInvoke,handleInvoke_poll named,output_reply,answer]
    exact statusReply_answers replied result ready
  · rename_i kept
    refine pollReply_answers supported ?_ result ready
    have answer := poll_answers encoding (instant now) found
      (by rw [unchanged]; exact (congrArg Prod.fst examined).trans (by simpa using kept))
    have shown := AsyncInvoke.isReady_result held s.calls now
    simp only [asked,record,step_handleInvoke,handleInvoke_poll named,output_reply,answer,← shown]
    rfl

theorem entry_agreement (named : extractAsyncRequestId payload = some key)
    (found : s.invokes[key]? = some invoke) (held : invoke.future = some call)
    (supported : isSupportedPayloadEncoding encoding = true) :
    Agreement s key now payload encoding ↔
      ¬ (Tasks.isReady s.calls call = true ∧ invoke.invalidated = false ∧
        invoke.isExpired now = true) := by
  have delivered : delivers key (asked s payload encoding .kGetReply now) = true ↔
      Tasks.isReady s.calls call = true ∧ invoke.invalidated = false := asked_delivers named found held
  have polled := asked_polls now named found held supported
  have marked : (∃ entry : AsyncInvoke, s.invokes[key]? = some entry ∧ entry.invalidated = true) ↔
      invoke.invalidated = true := by simp [found]
  constructor
  · rintro agreement ⟨ready,wanted,expired⟩
    have announced := agreement.deliverable.mp (delivered.mpr ⟨ready,wanted⟩)
    rw [polled] at announced
    simp +decide [ready,wanted,expired] at announced
  · intro timely
    -- in time, an entry is removable only when it was invalidated
    have unwanted : (Tasks.isReady s.calls call && (invoke.invalidated || invoke.isExpired now)) = true →
        invoke.invalidated = true := by
      intro removable
      obtain ⟨ready,why⟩ := Bool.and_eq_true_iff.mp removable
      rcases Bool.or_eq_true_iff.mp why with invalidated | expired
      · exact invalidated
      · by_contra wanted
        exact timely ⟨ready,by simpa using wanted,expired⟩
    refine ⟨?_,?_⟩
    · rw [delivered,polled]
      split
      · rename_i removable
        simp [unwanted removable]
      · constructor
        · rintro ⟨ready,wanted⟩
          simp [ready,wanted]
        · intro announced
          simpa using (Option.some.inj announced.2).symm
    · intro flag refused
      rw [polled] at refused
      rw [marked]
      split at refused
      · rename_i removable
        exact unwanted removable
      · have other : ProtocolResult.invalidAsynchronousOperationError ≠ .success := by decide
        exact absurd refused.1 other

omit [LawfulCodec V] in
theorem absent_agreement (named : extractAsyncRequestId payload = some key)
    (absent : s.invokes[key]? = none) : Agreement s key now payload encoding := by
  have polled : (asked s payload encoding .kPoll now).output.reply =
      some (createAsyncRPCStatusReply .invalidRequestIdentifierError .kPoll) := by
    simp only [asked,record,step_handleInvoke,handleInvoke_poll named,output_reply,
      poll_absent encoding (instant now) absent]
  refine ⟨?_,?_⟩
  · rw [asked_absent absent named,statusReply_answers polled]
    simp
  · intro ready refused
    rw [statusReply_answers polled] at refused
    simp +decide at refused

end Instants

variable [LawfulAnyValue V] [LawfulCodec V]

-- In every state that a run reaches, an overdue request is the only thing that
-- Poll and GetReply disagree about.
theorem agreement_exact (expirationTimeNs : UInt64) (events : List (Event V)) (key now : UInt64)
    (payload : V) (encoding : PayloadEncoding) (named : extractAsyncRequestId payload = some key)
    (supported : isSupportedPayloadEncoding encoding = true) :
    Agreement (reached expirationTimeNs events) key now payload encoding ↔
      ¬ Overdue (reached expirationTimeNs events) key now := by
  cases found : (reached expirationTimeNs events).invokes[key]? with
  | none =>
    refine iff_of_true (absent_agreement named found) ?_
    rintro ⟨invoke,_,here,_⟩
    cases found.symm.trans here
  | some invoke =>
    obtain ⟨call,held,_⟩ := reached_stocked expirationTimeNs events key invoke found
    rw [entry_agreement named found held supported,not_iff_not]
    constructor
    · exact fun overdue => ⟨invoke,call,found,held,overdue⟩
    · rintro ⟨entry,k,here,same,overdue⟩
      cases found.symm.trans here
      cases held.symm.trans same
      exact overdue

theorem agreement_exact_running :
    Agreement (reached 10 [.handleInvoke (Reference.Value.string "measure") .kNone .kInitialRequest
      (instant 0)]) 1 11 (Reference.namedRequest 1) .kNone ↔
    ¬ Overdue (reached 10 [.handleInvoke (Reference.Value.string "measure") .kNone .kInitialRequest
      (instant 0)]) 1 11 :=
  agreement_exact 10 _ 1 11 (Reference.namedRequest 1) .kNone (by decide) (by decide)

def expiredRun : List (Event Reference.Value) :=
  [.handleInvoke (.string "measure") .kNone .kInitialRequest (instant 0),
   .complete 0 (.ok (.success,.string "done"))]

theorem overdue_disagreement :
    delivers 1 (asked (reached 10 expiredRun) (Reference.namedRequest 1) .kNone .kGetReply 11) = true ∧
    Answers (asked (reached 10 expiredRun) (Reference.namedRequest 1) .kNone .kPoll 11) .kNone
      .invalidAsynchronousOperationError none ∧
    ¬ Agreement (reached 10 expiredRun) 1 11 (Reference.namedRequest 1) .kNone := by
  have delivered : delivers 1 (asked (reached 10 expiredRun) (Reference.namedRequest 1) .kNone
      .kGetReply 11) = true := by decide
  have refused : (asked (reached 10 expiredRun) (Reference.namedRequest 1) .kNone .kPoll 11).output.reply =
      some (createAsyncRPCStatusReply .invalidAsynchronousOperationError .kPoll) := rfl
  refine ⟨delivered,(statusReply_answers refused _ _).mpr ⟨rfl,rfl⟩,?_⟩
  intro agreement
  have announced := (statusReply_answers refused _ _).mp (agreement.deliverable.mp delivered)
  cases announced.2

end SupProtocol.AsyncInvokeServer
