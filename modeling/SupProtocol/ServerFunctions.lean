import SupProtocol.AsyncInvokeServer
import SupProtocol.PacketLayout

namespace SupProtocol

theorem createRPCReply_empty {V : Type} [AnyValue V] [Codec V] [LawfulAnyValue V]
    (result : ProtocolResult) (encoding : PayloadEncoding) :
    createRPCReply result (empty : V) encoding = createRPCStatusReply result := by
  simp [createRPCStatusReply,createRPCReply,createReply]

theorem createAsyncRPCReply_empty {V : Type} [AnyValue V] [Codec V] [LawfulAnyValue V]
    (result : ProtocolResult) (encoding : PayloadEncoding) (command : AsyncCommand) :
    createAsyncRPCReply result (empty : V) encoding command =
      createAsyncRPCStatusReply result command := by
  simp only [createAsyncRPCStatusReply,createAsyncRPCReply,createRPCReply_empty]

namespace AsyncInvokeServer
variable {V : Type} {s : AsyncInvokeServer V} {id : UInt64} {invoke : AsyncInvoke} {call : Nat}

theorem removeIfReady_removes {moment : Moment V}
    (removable : (invoke.isReadyForRemoval (s.observe moment).calls moment.now).1 = true) :
    s.removeIfReady id invoke moment = ((s.observe moment).erase id,
      (invoke.isReadyForRemoval (s.observe moment).calls moment.now).2.map (.on id) ++ [.erased id]) := by
  simp only [removeIfReady,removable,if_true]

theorem removeIfReady_keeps {moment : Moment V}
    (kept : (invoke.isReadyForRemoval (s.observe moment).calls moment.now).1 = false) :
    s.removeIfReady id invoke moment = (s.observe moment,
      (invoke.isReadyForRemoval (s.observe moment).calls moment.now).2.map (.on id)) := by
  simp only [removeIfReady,kept,Bool.false_eq_true,if_false]

theorem removeIfReady_examines (held : invoke.future = some call) (moment : Moment V) :
    .on id (.examined call invoke.lastAccess moment.now) ∈ (s.removeIfReady id invoke moment).2 := by
  have seen := AsyncInvoke.removable_held held (s.observe moment).calls moment.now
  cases removable : (invoke.isReadyForRemoval (s.observe moment).calls moment.now).1 with
  | true =>
    rw [removeIfReady_removes removable,seen]
    simp
  | false =>
    rw [removeIfReady_keeps removable,seen]
    simp

theorem removeIfReady_wanted (held : invoke.future = some call) (wanted : invoke.invalidated = false)
    {moment : Moment V} (fresh : invoke.isExpired moment.now = false) :
    (s.removeIfReady id invoke moment).1 = s.observe moment := by
  have kept : (invoke.isReadyForRemoval (s.observe moment).calls moment.now).1 = false := by
    rw [AsyncInvoke.removable_held held,wanted,fresh]
    simp
  rw [removeIfReady_keeps kept]

theorem removeIfReady_calls (moment : Moment V) :
    (s.removeIfReady id invoke moment).1.calls = (s.observe moment).calls := by
  unfold removeIfReady
  dsimp only
  split <;> rfl

theorem examined_effects (calls : Calls V) (now : UInt64) {effect : Effect}
    (member : effect ∈ (invoke.isReadyForRemoval calls now).2.map (Effect.on id)) :
    ∃ call, effect = .on id (.examined call invoke.lastAccess now) := by
  rcases Option.eq_none_or_eq_some invoke.future with spent | ⟨call,held⟩
  · simp [AsyncInvoke.removable_spent spent] at member
  · simp only [AsyncInvoke.removable_held held,List.map_cons,List.map_nil,List.mem_singleton] at member
    exact ⟨call,member⟩

theorem removeIfReady_effects {moment : Moment V} {effect : Effect}
    (member : effect ∈ (s.removeIfReady id invoke moment).2) :
    (∃ call, effect = .on id (.examined call invoke.lastAccess moment.now)) ∨ effect = .erased id := by
  unfold removeIfReady at member
  dsimp only at member
  split at member
  · rcases List.mem_append.mp member with seen | gone
    · exact Or.inl (examined_effects _ _ seen)
    · exact Or.inr (List.mem_singleton.mp gone)
  · exact Or.inl (examined_effects _ _ member)

variable [AnyValue V] [Codec V] (encoding : PayloadEncoding) (moments : Nat → Moment V)

theorem newRequest_effects (s : AsyncInvokeServer V) (payload : V) :
    (s.newRequest payload encoding moments).1.effects =
      [.launched (s.lastId + 1) s.calls.length (moments 0).now] := by
  have unchanged := Tasks.length_finishAll s.calls (moments 0).completions
  simp [newRequest,emplace,Tasks.launch,observe,unchanged]

section Poll

theorem poll_absent (absent : s.invokes[id]? = none) : s.poll id encoding moments =
    (⟨createAsyncRPCStatusReply .invalidRequestIdentifierError .kPoll,[]⟩,s) := by
  simp [poll,absent]

theorem poll_removable (found : s.invokes[id]? = some invoke)
    (removable : (invoke.isReadyForRemoval (s.observe (moments 0)).calls (moments 0).now).1 = true) :
    s.poll id encoding moments =
      (⟨createAsyncRPCStatusReply .invalidAsynchronousOperationError .kPoll,
        (invoke.isReadyForRemoval (s.observe (moments 0)).calls (moments 0).now).2.map (.on id)⟩,
       s.observe (moments 0)) := by
  simp only [poll,found,removable,if_true]

theorem poll_answers (found : s.invokes[id]? = some invoke)
    (kept : (invoke.isReadyForRemoval (s.observe (moments 0)).calls (moments 0).now).1 = false) :
    s.poll id encoding moments =
      (let again := (s.observe (moments 0)).observe (moments 1)
       let (isReady,accessed,access) := invoke.isReady again.calls (moments 1).now
       (⟨createAsyncRPCPollReply isReady encoding,
         (invoke.isReadyForRemoval (s.observe (moments 0)).calls (moments 0).now).2.map (.on id) ++
           access.map (.on id)⟩,
        again.store id accessed)) := by
  simp only [poll,found,kept,Bool.false_eq_true,if_false]

theorem poll_examines (found : s.invokes[id]? = some invoke) (held : invoke.future = some call) :
    .on id (.examined call invoke.lastAccess (moments 0).now) ∈
      (s.poll id encoding moments).1.effects := by
  have seen := AsyncInvoke.removable_held held (s.observe (moments 0)).calls (moments 0).now
  cases removable : (invoke.isReadyForRemoval (s.observe (moments 0)).calls (moments 0).now).1 with
  | true =>
    rw [poll_removable encoding moments found removable,seen]
    simp
  | false =>
    rw [poll_answers encoding moments found removable,seen]
    simp

theorem poll_reads (found : s.invokes[id]? = some invoke) (held : invoke.future = some call)
    (wanted : invoke.invalidated = false) (fresh : invoke.isExpired (moments 0).now = false) :
    (s.poll id encoding moments).1.reply =
      createAsyncRPCPollReply (Tasks.isReady (s.poll id encoding moments).2.calls call) encoding := by
  have kept : (invoke.isReadyForRemoval (s.observe (moments 0)).calls (moments 0).now).1 = false := by
    rw [AsyncInvoke.removable_held held,wanted,fresh]
    simp
  rw [poll_answers encoding moments found kept]
  simp only [AsyncInvoke.isReady_reads held wanted]
  rfl

end Poll

section GetReply

theorem getReply_absent (absent : s.invokes[id]? = none) : s.getReply id encoding moments =
    (⟨createAsyncRPCStatusReply .invalidRequestIdentifierError .kGetReply,[]⟩,s) := by
  simp [getReply,absent]

-- The future is gone after that, so the removal needs no look at the clock.
theorem getReply_delivered {outcome : Outcome V} (found : s.invokes[id]? = some invoke)
    (held : invoke.future = some call)
    (ended : Tasks.outcomeOf (s.observe (moments 0)).calls call = some outcome)
    (wanted : invoke.invalidated = false) : s.getReply id encoding moments =
      (⟨createAsyncRPCReply (AsyncInvoke.settled outcome).1 (AsyncInvoke.settled outcome).2
          encoding .kGetReply,[.on id (.retrieved call),.erased id]⟩,
       (((s.observe (moments 0)).store id {invoke with future := none}).observe (moments 1)).erase id) := by
  simp only [getReply,found,AsyncInvoke.getReply_delivers held ended wanted]
  rfl

theorem getReply_refused [LawfulAnyValue V] (found : s.invokes[id]? = some invoke)
    (refused : ∀ call, invoke.future = some call →
      Tasks.isReady (s.observe (moments 0)).calls call = false ∨ invoke.invalidated = true) :
    s.getReply id encoding moments =
      (let removal := ((s.observe (moments 0)).store id invoke).removeIfReady id invoke (moments 1)
       (⟨createAsyncRPCStatusReply .invalidAsynchronousOperationError .kGetReply,removal.2⟩,
        removal.1)) := by
  simp only [getReply,found,AsyncInvoke.getReply_refuses refused,createAsyncRPCReply_empty,
    List.map_nil,List.nil_append]

omit [AnyValue V] [Codec V] in
theorem getReply_cases (s : AsyncInvokeServer V) (id : UInt64) :
    s.invokes[id]? = none ∨ ∃ invoke : AsyncInvoke, s.invokes[id]? = some invoke ∧
      ((∀ call, invoke.future = some call →
          Tasks.isReady (s.observe (moments 0)).calls call = false ∨ invoke.invalidated = true) ∨
        ∃ call outcome, invoke.future = some call ∧
          Tasks.outcomeOf (s.observe (moments 0)).calls call = some outcome ∧
          invoke.invalidated = false) := by
  cases found : s.invokes[id]? with
  | none => exact Or.inl rfl
  | some invoke =>
    refine Or.inr ⟨invoke,rfl,?_⟩
    by_cases refused : ∀ call, invoke.future = some call →
        Tasks.isReady (s.observe (moments 0)).calls call = false ∨ invoke.invalidated = true
    · exact Or.inl refused
    · right
      push Not at refused
      obtain ⟨call,held,ready,wanted⟩ := refused
      have ready : Tasks.isReady (s.observe (moments 0)).calls call = true := by simpa using ready
      obtain ⟨outcome,ended⟩ := Option.isSome_iff_exists.mp ready
      exact ⟨call,outcome,held,ended,by simpa using wanted⟩

end GetReply

section Dispatch
variable {payload : V} {encoding moments}

omit [Codec V] in
theorem named_id [LawfulAnyValue V]
    (inner : HasMembers payload [(asyncIdFieldName,scalar .unsignedInteger64 id)]) :
    extractAsyncRequestId payload = some id := by
  unfold extractAsyncRequestId
  rw [inner.at asyncIdFieldName (by decide),lookup_entry]
  simp

theorem handleInvoke_newRequest : s.handleInvoke payload encoding .kInitialRequest moments =
    s.newRequest payload encoding moments := by
  simp [handleInvoke]

theorem handleInvoke_poll (named : extractAsyncRequestId payload = some id) :
    s.handleInvoke payload encoding .kPoll moments = s.poll id encoding moments := by
  simp +decide [handleInvoke,named]

theorem handleInvoke_getReply (named : extractAsyncRequestId payload = some id) :
    s.handleInvoke payload encoding .kGetReply moments = s.getReply id encoding moments := by
  simp +decide [handleInvoke,named]

theorem handleInvoke_invalidate (named : extractAsyncRequestId payload = some id) :
    s.handleInvoke payload encoding .kInvalidate moments = s.invalidate id moments := by
  simp +decide [handleInvoke,named]

theorem handleInvoke_unnamed {command : AsyncCommand} (later : command ≠ .kInitialRequest)
    (unnamed : extractAsyncRequestId payload = none) :
    s.handleInvoke payload encoding command moments =
      (⟨createAsyncRPCStatusReply .serverTransportDecodingError command,[]⟩,s) := by
  simp [handleInvoke,later,unnamed]

theorem handleInvoke_unknown {command : AsyncCommand}
    (unknown : command ≠ .kInitialRequest ∧ command ≠ .kPoll ∧ command ≠ .kGetReply ∧
      command ≠ .kInvalidate) (named : extractAsyncRequestId payload = some id) :
    s.handleInvoke payload encoding command moments =
      (⟨createAsyncRPCStatusReply .invalidAsynchronousOperationError command,[]⟩,s) := by
  simp [handleInvoke,unknown,named]

-- Every command is an initial request, names no id, is unknown, or is one of three.
theorem handleInvoke_cases (s : AsyncInvokeServer V) (payload : V) (encoding : PayloadEncoding)
    (command : AsyncCommand) (moments : Nat → Moment V) :
    (command = .kInitialRequest ∧ s.handleInvoke payload encoding command moments =
      s.newRequest payload encoding moments) ∨
    (command ≠ .kInitialRequest ∧ ∃ error, s.handleInvoke payload encoding command moments =
      (⟨createAsyncRPCStatusReply error command,[]⟩,s)) ∨
    ∃ id, extractAsyncRequestId payload = some id ∧
      ((command = .kPoll ∧ s.handleInvoke payload encoding command moments =
          s.poll id encoding moments) ∨
       (command = .kGetReply ∧ s.handleInvoke payload encoding command moments =
          s.getReply id encoding moments) ∨
       (command = .kInvalidate ∧ s.handleInvoke payload encoding command moments =
          s.invalidate id moments)) := by
  by_cases initial : command = .kInitialRequest
  · subst command
    exact Or.inl ⟨rfl,handleInvoke_newRequest⟩
  · right
    cases named : extractAsyncRequestId payload with
    | none => exact Or.inl ⟨initial,_,handleInvoke_unnamed initial named⟩
    | some id =>
      by_cases polls : command = .kPoll
      · subst command
        exact Or.inr ⟨id,rfl,Or.inl ⟨rfl,handleInvoke_poll named⟩⟩
      by_cases gets : command = .kGetReply
      · subst command
        exact Or.inr ⟨id,rfl,Or.inr (Or.inl ⟨rfl,handleInvoke_getReply named⟩)⟩
      by_cases invalidates : command = .kInvalidate
      · subst command
        exact Or.inr ⟨id,rfl,Or.inr (Or.inr ⟨rfl,handleInvoke_invalidate named⟩)⟩
      · exact Or.inl ⟨initial,_,handleInvoke_unknown ⟨initial,polls,gets,invalidates⟩ named⟩

@[simp] theorem step_handleInvoke (command : AsyncCommand) :
    s.step (.handleInvoke payload encoding command moments) =
      ((s.handleInvoke payload encoding command moments).1.output,
       (s.handleInvoke payload encoding command moments).2) := rfl

omit [AnyValue V] [Codec V] in
@[simp] theorem output_reply (answer : Answer V) : answer.output.reply = some answer.reply := rfl
omit [AnyValue V] [Codec V] in
@[simp] theorem output_effects (answer : Answer V) : answer.output.effects = answer.effects := rfl

end Dispatch

end AsyncInvokeServer

section Events
variable {V : Type}

def Event.isInitialRequest : Event V → Bool
  | .handleInvoke _ _ command _ => command = .kInitialRequest
  | _ => false

def Event.isCompletion : Event V → Bool
  | .complete _ _ => true
  | _ => false

def Event.names [AnyValue V] (command : AsyncCommand) (key : UInt64) : Event V → Prop
  | .handleInvoke payload _ c _ => c = command ∧ extractAsyncRequestId payload = some key
  | _ => False

instance [AnyValue V] (command : AsyncCommand) (key : UInt64) :
    (event : Event V) → Decidable (event.names command key)
  | .handleInvoke payload _ c _ =>
    inferInstanceAs (Decidable (c = command ∧ extractAsyncRequestId payload = some key))
  | .cleanUpExpiredRequests _ | .complete _ _ => inferInstanceAs (Decidable False)

def Effect.source [AnyValue V] (event : Event V) : Effect → Prop
  | .launched .. => event.isInitialRequest = true
  | .on key (.accessed _) => event.names .kPoll key
  | .on key (.retrieved _) => event.names .kGetReply key
  | .on key .invalidated => event.names .kInvalidate key
  | .on _ (.examined ..) | .erased _ => True

end Events

namespace AsyncInvokeServer
variable {V : Type} [AnyValue V]

theorem examined_source (invoke : AsyncInvoke) (calls : Calls V) (id now : UInt64)
    (event : Event V) {effect : Effect}
    (member : effect ∈ (invoke.isReadyForRemoval calls now).2.map (Effect.on id)) :
    effect.source event := by
  obtain ⟨call,rfl⟩ := examined_effects calls now member
  trivial

theorem removeIfReady_source {s : AsyncInvokeServer V} {id : UInt64} {invoke : AsyncInvoke}
    {moment : Moment V} (event : Event V) {effect : Effect}
    (member : effect ∈ (s.removeIfReady id invoke moment).2) : effect.source event := by
  rcases removeIfReady_effects member with ⟨call,rfl⟩ | rfl <;> trivial

theorem cleanUpFrom_source (moments : Nat → Moment V) (event : Event V) (ids : List UInt64) :
    ∀ (k : Nat) (s : AsyncInvokeServer V), ∀ effect ∈ (cleanUpFrom moments k ids s).2,
      effect.source event := by
  induction ids with
  | nil => intro k s effect member; cases member
  | cons id ids ih =>
    intro k s effect member
    unfold cleanUpFrom at member
    cases found : s.invokes[id]? with
    | none => exact ih k s effect (by simpa only [found] using member)
    | some invoke =>
      simp only [found] at member
      rcases List.mem_append.mp member with here | later
      · exact removeIfReady_source event here
      · exact ih (k+1) _ effect later

variable [Codec V]

theorem poll_source {s : AsyncInvokeServer V} (id : UInt64) {encoding : PayloadEncoding}
    {moments : Nat → Moment V} {event : Event V} (named : event.names .kPoll id) {effect : Effect}
    (member : effect ∈ (s.poll id encoding moments).1.effects) : effect.source event := by
  unfold poll at member
  cases found : s.invokes[id]? with
  | none => simp [found] at member
  | some invoke =>
    simp only [found] at member
    split at member
    · exact examined_source _ _ _ _ event member
    · rcases List.mem_append.mp member with seen | access
      · exact examined_source _ _ _ _ event seen
      · rcases AsyncInvoke.isReady_cases invoke ((s.observe (moments 0)).observe (moments 1)).calls
          (moments 1).now with refused | ⟨call,_,_,read⟩
        · rw [refused] at access
          cases access
        · rw [read] at access
          cases List.mem_singleton.mp access
          exact named

theorem getReply_source {s : AsyncInvokeServer V} (id : UInt64) {encoding : PayloadEncoding}
    {moments : Nat → Moment V} {event : Event V} (named : event.names .kGetReply id)
    {effect : Effect} (member : effect ∈ (s.getReply id encoding moments).1.effects) :
    effect.source event := by
  unfold getReply at member
  cases found : s.invokes[id]? with
  | none => simp [found] at member
  | some invoke =>
    simp only [found] at member
    rcases List.mem_append.mp member with access | removal
    · rcases AsyncInvoke.getReply_cases invoke (s.observe (moments 0)).calls with
        refused | ⟨call,outcome,_,_,_,delivered⟩
      · rw [refused] at access
        cases access
      · rw [delivered] at access
        cases List.mem_singleton.mp access
        exact named
    · exact removeIfReady_source event removal

theorem invalidate_source {s : AsyncInvokeServer V} (id : UInt64) {moments : Nat → Moment V}
    {event : Event V} (named : event.names .kInvalidate id) {effect : Effect}
    (member : effect ∈ (s.invalidate id moments).1.effects) : effect.source event := by
  unfold invalidate at member
  cases found : s.invokes[id]? with
  | none => simp [found] at member
  | some invoke =>
    simp only [found] at member
    rcases List.mem_cons.mp member with rfl | removal
    · exact named
    · exact removeIfReady_source event removal

theorem step_source (s : AsyncInvokeServer V) (event : Event V) (effect : Effect)
    (member : effect ∈ (s.step event).1.effects) : effect.source event := by
  cases event with
  | complete call outcome => cases member
  | cleanUpExpiredRequests moments => exact cleanUpFrom_source moments _ _ 0 s effect member
  | handleInvoke payload encoding command moments =>
    rw [step_handleInvoke,output_effects] at member
    rcases handleInvoke_cases s payload encoding command moments with ⟨initial,taken⟩ |
      ⟨_,_,taken⟩ | ⟨id,named,⟨same,taken⟩ | ⟨same,taken⟩ | ⟨same,taken⟩⟩
    · rw [taken] at member
      cases List.mem_singleton.mp member
      simp [Effect.source,Event.isInitialRequest,initial]
    · rw [taken] at member
      cases member
    · rw [taken] at member
      refine poll_source id ?_ member
      exact ⟨same,named⟩
    · rw [taken] at member
      refine getReply_source id ?_ member
      exact ⟨same,named⟩
    · rw [taken] at member
      refine invalidate_source id ?_ member
      exact ⟨same,named⟩

end AsyncInvokeServer

end SupProtocol
