import SupProtocol.OwnerSafety
import SupProtocol.ReadyWaits

namespace SupProtocol
open AsyncInvokeServer Machine

def Wire.Calm {V : Type} [AnyValue V] [Codec V] (key : UInt64) (w v : Wire V) : Prop :=
  ∃ more, v.server = run AsyncInvokeServer.step w.server more ∧ v.events = w.events ++ more ∧
    Undisturbed key (effectsOf (history AsyncInvokeServer.step w.server more))

namespace Wire
variable {V : Type} [AnyValue V] [Codec V] {key : UInt64} {w : Wire V} {event : Event V}

theorem Calm.refl (key : UInt64) (w : Wire V) : Calm key w w := ⟨[],rfl,by simp,nofun,nofun⟩

theorem reach_calm (harmless : Undisturbed key (w.server.step event).1.effects) :
    Calm key w (w.reach event) := by
  refine ⟨[event],rfl,rfl,?_⟩
  rw [history,history,effectsOf_single]
  exact harmless

theorem carried_calm {carriage : Carriage}
    (harmless : carriage ≠ .requestLost → Undisturbed key (w.server.step event).1.effects) :
    Calm key w (w.carried carriage event) := by
  unfold carried
  split
  · exact .refl key w
  · rename_i arrived
    exact reach_calm (harmless arrived)

end Wire

namespace Owners
variable {V : Type} [AnyValue V] [Codec V]

def log (expirationTimeNs : UInt64) (s : Owners V) : List Effect :=
  effectsOf (handled expirationTimeNs s.wire.events)

-- What an owner may do about its request so that it stays where it is: poll, send
-- what gets lost on its way, and ask for the reply before the call has ended.
def Patient (owner : Nat) (r : Records V) : Prop :=
  ∀ call moments carriage, r.event = .operate owner call moments carriage → carriage ≠ .requestLost →
    call = .pollOnce ∨ ∃ output, call = .getReply output ∧ ∀ number, r.before.Owns owner number →
      Tasks.isReady (r.before.wire.server.observe (moments 0)).calls number = false

structure Held (expirationTimeNs : UInt64) (owner : Nat) (key : UInt64) (number : Nat) (input : V)
    (s : Owners V) : Prop where
  sound : s.Sound expirationTimeNs
  named : (s.invocations owner).id = key
  owns : s.Owns owner number
  launched : (Tasks.inputs s.wire.server.calls)[number]? = some input
  fresh : ∃ invoke, Fresh expirationTimeNs key number (s.log expirationTimeNs) s.wire.server invoke

def fetchedReply (outcome : Option (Outcome V)) (output : V) : Invoked V :=
  match outcome with
  | some outcome => ⟨.ok (callResult outcome output).1,(callResult outcome output).2⟩
  | none => ⟨.ok .invalidAsynchronousOperationError,output⟩

section Turns
variable {expirationTimeNs key : UInt64} {s : Owners V} {owner number : Nat} {input : V}

theorem Sound.path (sound : s.Sound expirationTimeNs) :
    Path Transition (start expirationTimeNs) (s.log expirationTimeNs) s.wire.server := by
  rw [sound.tracks]
  exact reached_path expirationTimeNs s.wire.events

theorem log_append (sound : s.Sound expirationTimeNs) {t : Owners V} (more : List (Event V))
    (parts : t.wire.events = s.wire.events ++ more) : t.log expirationTimeNs =
      s.log expirationTimeNs ++ effectsOf (history AsyncInvokeServer.step s.wire.server more) := by
  rw [log,parts,handled_append,← sound.tracks]
  rfl

theorem log_earlier (protocol : Protocol V) (s : Owners V) (turn : Turn V)
    (alive : KeptAlive expirationTimeNs key ((s.step protocol turn).2.log expirationTimeNs)) :
    KeptAlive expirationTimeNs key (s.log expirationTimeNs) := by
  obtain ⟨more,_,parts⟩ := step_reaches (s := s) protocol turn
  rw [log,parts,handled_append] at alive
  exact alive.earlier

theorem Owns.later (protocol : Protocol V) (turn : Turn V) (owns : s.Owns owner number)
    (same : (s.step protocol turn).2.invocations owner = s.invocations owner) :
    (s.step protocol turn).2.Owns owner number := by
  refine ⟨by rw [same]; exact owns.1,?_⟩
  cases turn with
  | operate other call moments carriage =>
    have within := (List.getElem?_eq_some_iff.mp owns.2).1
    exact (List.getElem?_append_left within).trans owns.2
  | cleanUp moments => exact owns.2
  | complete call outcome => exact owns.2

end Turns

section Keeping
variable [LawfulAnyValue V] [LawfulCodec V] {expirationTimeNs key : UInt64} {s : Owners V}
  {owner number : Nat} {input : V}

omit [AnyValue V] [Codec V] [LawfulAnyValue V] [LawfulCodec V] in
theorem running_refuses {calls : Calls V} {invoke : AsyncInvoke} (held : invoke.future = some number)
    (running : Tasks.isReady calls number = false) : ∀ call, invoke.future = some call →
      Tasks.isReady calls call = false ∨ invoke.invalidated = true := by
  intro call same
  cases held.symm.trans same
  exact Or.inl running

omit [LawfulCodec V] in
theorem premature_undisturbed {server : AsyncInvokeServer V} {payload : V} {encoding : PayloadEncoding}
    {moments : Nat → Moment V} {invoke : AsyncInvoke} (named : extractAsyncRequestId payload = some key)
    (found : server.invokes[key]? = some invoke) (held : invoke.future = some number)
    (running : Tasks.isReady (server.observe (moments 0)).calls number = false) :
    Undisturbed key (server.step (.handleInvoke payload encoding .kGetReply moments)).1.effects := by
  rw [step_handleInvoke,handleInvoke_getReply named,
    getReply_refused encoding moments found (running_refuses held running)]
  constructor
  · intro member
    rcases removeIfReady_effects member with ⟨_,same⟩ | same <;> cases same
  · intro call member
    rcases removeIfReady_effects member with ⟨_,same⟩ | same <;> cases same

omit [Codec V] [LawfulAnyValue V] [LawfulCodec V] in
theorem quiet_spared (payload : V) (encoding : PayloadEncoding) {command : AsyncCommand}
    (moments : Nat → Moment V) (quiet : command ≠ .kGetReply ∧ command ≠ .kInvalidate) :
    (Event.handleInvoke payload encoding command moments).spares key :=
  ⟨fun ⟨same,_⟩ => quiet.1 same,fun ⟨same,_⟩ => quiet.2 same⟩

omit [Codec V] [LawfulAnyValue V] [LawfulCodec V] in
theorem other_spared {payload : V} (encoding : PayloadEncoding) (command : AsyncCommand)
    (moments : Nat → Moment V) {id : UInt64} (named : extractAsyncRequestId payload = some id)
    (other : id ≠ key) : (Event.handleInvoke payload encoding command moments).spares key :=
  ⟨fun ⟨_,same⟩ => other (Option.some.inj (named.symm.trans same)),
   fun ⟨_,same⟩ => other (Option.some.inj (named.symm.trans same))⟩

theorem others_calm [LawfulAssign V] (protocol : Protocol V) (sound : s.Sound expirationTimeNs)
    (started : (s.invocations owner).id ≠ 0) {other : Nat} (apart : other ≠ owner) (call : OwnerCall V)
    (moments : Nat → Moment V) (carriage : Carriage) :
    Wire.Calm (s.invocations owner).id s.wire
      (s.step protocol (.operate other call moments carriage)).2.wire := by
  have differ : (s.invocations other).id ≠ (s.invocations owner).id :=
    fun same => apart (sound.apart started same)
  cases call with
  | start input nonempty =>
    rw [start_wire protocol other moments carriage sound nonempty]
    exact Wire.carried_calm fun _ => spared_undisturbed _ (quiet_spared input _ moments (by decide))
  | pollOnce =>
    obtain ⟨payload,_,named,stepped,_⟩ := poll_step protocol other moments carriage sound
    rw [stepped]
    exact Wire.carried_calm fun _ => spared_undisturbed _ (other_spared _ _ moments named differ)
  | getReply output =>
    obtain ⟨payload,_,named,stepped,_⟩ := getReply_step protocol other moments carriage sound output
    rw [stepped]
    exact Wire.carried_calm fun _ => spared_undisturbed _ (other_spared _ _ moments named differ)
  | invalidate =>
    obtain ⟨payload,named,stepped⟩ := invalidate_step protocol other moments carriage sound
    rw [stepped]
    dsimp only
    split
    · exact .refl _ _
    · exact Wire.carried_calm fun _ => spared_undisturbed _ (other_spared _ _ moments named differ)

theorem own_calm [LawfulAssign V] (protocol : Protocol V) (held : s.Held expirationTimeNs owner key number input)
    {call : OwnerCall V} {moments : Nat → Moment V} {carriage : Carriage}
    (patient : Patient owner (record (step protocol) s (.operate owner call moments carriage))) :
    Wire.Calm key s.wire (s.step protocol (.operate owner call moments carriage)).2.wire ∧
    (s.step protocol (.operate owner call moments carriage)).2.invocations owner = s.invocations owner := by
  have kept := patient call moments carriage rfl
  obtain ⟨invoke,fresh⟩ := held.fresh
  -- any other call is a patient one only if it never arrives
  have lost (polls : call ≠ .pollOnce) (fetches : ∀ output, call ≠ .getReply output) :
      carriage = .requestLost := by
    by_contra arrived
    rcases kept arrived with poll | ⟨output,fetch,_⟩
    · exact polls poll
    · exact fetches output fetch
  cases call with
  | start input nonempty =>
    have sent := lost (by simp) (by simp)
    subst sent
    have called := owned_start protocol moments .requestLost s.wire (held.sound.supported owner) nonempty
    simp only [step,called,Shared.heard,Wire.carried,if_true,put_kept]
    exact ⟨.refl key _,trivial⟩
  | pollOnce =>
    obtain ⟨payload,_,named,stepped,_⟩ := poll_step protocol owner moments carriage held.sound
    rw [stepped]
    refine ⟨Wire.carried_calm fun _ => ?_,rfl⟩
    exact spared_undisturbed _ (quiet_spared payload _ moments (by decide))
  | getReply output =>
    obtain ⟨payload,_,named,stepped,_⟩ := getReply_step protocol owner moments carriage held.sound output
    rw [stepped]
    refine ⟨Wire.carried_calm fun arrived => ?_,rfl⟩
    rcases kept arrived with polls | ⟨_,_,early⟩
    · cases polls
    · rw [held.named] at named
      exact premature_undisturbed named fresh.found fresh.held (early number held.owns)
  | invalidate =>
    have sent := lost (by simp) (by simp)
    subst sent
    obtain ⟨payload,_,stepped⟩ := invalidate_step protocol owner moments .requestLost held.sound
    rw [stepped]
    simp only [Wire.carried,if_true,ite_self]
    exact ⟨.refl key _,trivial⟩

omit [LawfulAnyValue V] [LawfulCodec V] in
theorem Held.started (held : s.Held expirationTimeNs owner key number input) :
    (s.invocations owner).id ≠ 0 := by
  intro unstarted
  have named := held.owns.1
  rw [unstarted] at named
  cases named

theorem turn_calm [LawfulAssign V] (protocol : Protocol V) (held : s.Held expirationTimeNs owner key number input)
    (turn : Turn V) (patient : Patient owner (record (step protocol) s turn)) :
    Wire.Calm key s.wire (s.step protocol turn).2.wire ∧
    (s.step protocol turn).2.invocations owner = s.invocations owner := by
  cases turn with
  | operate other call moments carriage =>
    by_cases same : other = owner
    · subst same
      exact own_calm protocol held patient
    · refine ⟨?_,Function.update_of_ne (Ne.symm same) ..⟩
      exact held.named ▸ others_calm protocol held.sound held.started same call moments carriage
  | cleanUp moments => exact ⟨Wire.reach_calm (spared_undisturbed _ ⟨nofun,nofun⟩),rfl⟩
  | complete call outcome => exact ⟨Wire.reach_calm (spared_undisturbed _ ⟨nofun,nofun⟩),rfl⟩

theorem step_held [LawfulAssign V] (protocol : Protocol V) (turn : Turn V)
    (held : s.Held expirationTimeNs owner key number input)
    (patient : Patient owner (record (step protocol) s turn)) (within : (s.step protocol turn).2.Within)
    (alive : KeptAlive expirationTimeNs key ((s.step protocol turn).2.log expirationTimeNs)) :
    (s.step protocol turn).2.Held expirationTimeNs owner key number input := by
  obtain ⟨⟨more,moved,parts,undisturbed⟩,same⟩ := turn_calm protocol held turn patient
  obtain ⟨invoke,fresh⟩ := held.fresh
  have path := run_path s.wire.server more
  have logged := log_append held.sound more parts
  rw [logged] at alive
  refine ⟨step_sound protocol s turn held.sound within,by rw [same,held.named],
    held.owns.later protocol turn same,?_,?_⟩
  · have inputs := run_inputs s.wire.server more
    rw [← moved] at inputs
    rw [inputs]
    exact (List.getElem?_append_left (List.getElem?_eq_some_iff.mp held.launched).1).trans held.launched
  · rw [logged,moved]
    exact path_fresh path alive undisturbed fresh

omit [LawfulAnyValue V] [LawfulCodec V] in
theorem newRequest_fresh {server : AsyncInvokeServer V} (numbered : Numbered server)
    (timed : Timed expirationTimeNs server) (payload : V) (encoding : PayloadEncoding)
    (moments : Nat → Moment V) (number : (server.lastId + 1).toNat = server.calls.length + 1)
    (log : List Effect) : ∃ invoke, Fresh expirationTimeNs (server.lastId + 1) server.calls.length
      (log ++ (server.step (.handleInvoke payload encoding .kInitialRequest moments)).1.effects)
      (server.step (.handleInvoke payload encoding .kInitialRequest moments)).2 invoke := by
  have absent : server.invokes[server.lastId + 1]? = none := by
    cases found : server.invokes[server.lastId + 1]? with
    | none => rfl
    | some invoke =>
      have old := found_old numbered found
      omega
  have unchanged := Tasks.length_finishAll server.calls (moments 0).completions
  rw [step_handleInvoke,handleInvoke_newRequest,output_effects]
  refine ⟨⟨some server.calls.length,false,(moments 0).now,server.expirationTimeNs⟩,?_,rfl,rfl,
    timed.server,?_⟩
  · simp only [newRequest]
    rw [emplace_lookup,if_pos ⟨rfl,absent⟩]
    simp only [observe,unchanged]
  · rw [newRequest_effects]
    exact reading_member (List.mem_append_right _ (List.mem_singleton_self _)) rfl

theorem start_held (protocol : Protocol V) (sound : s.Sound expirationTimeNs)
    (nonempty : isEmptyValue input = false) {moments : Nat → Moment V} {carriage : Carriage}
    (within : (s.step protocol (.operate owner (.start input nonempty) moments carriage)).2.Within)
    (accepted : (s.step protocol (.operate owner (.start input nonempty) moments carriage)).1 =
      some (.started (.ok .success))) :
    (s.step protocol (.operate owner (.start input nonempty) moments carriage)).2.Held expirationTimeNs owner
      (s.wire.server.lastId + 1) s.wire.server.calls.length input := by
  have supported := sound.supported owner
  have called := owned_start protocol moments carriage s.wire supported nonempty
  cases carriage with
  | requestLost => simp +decide [step,called,Shared.heard] at accepted
  | replyLost => simp +decide [step,called,Shared.heard] at accepted
  | delivered =>
    have safe := (start_fair protocol owner moments .delivered sound nonempty within).sound
    have numbered := sound.numbered (step_within protocol s _ within)
    rw [Within,start_wire protocol owner moments .delivered sound nonempty] at within
    have number := sound.nextId within
    have nonzero : s.wire.server.lastId + 1 ≠ 0 := by
      intro zero
      rw [zero] at number
      cases number
    obtain ⟨reply,answered,read⟩ := start_answer supported s.wire.server moments input nonzero
    rw [answered] at called
    have stepped : s.step protocol (.operate owner (.start input nonempty) moments .delivered) =
        (some (.started (.ok .success)),s.put owner {s.invocations owner with id := s.wire.server.lastId + 1}
          (s.wire.reach (.handleInvoke input (s.invocations owner).encoding .kInitialRequest moments))) := by
      simp only [step,called,Shared.heard,read]
      rfl
    rw [stepped] at safe ⊢
    have named : ((s.put owner {s.invocations owner with id := s.wire.server.lastId + 1} (s.wire.reach
        (.handleInvoke input (s.invocations owner).encoding .kInitialRequest moments))).invocations owner).id =
        s.wire.server.lastId + 1 := by simp [put]
    refine ⟨safe,named,⟨?_,?_⟩,?_,?_⟩
    · rw [named,number]
    · rw [launch_put,← sound.counted]
      exact List.getElem?_concat_length
    · have inputs : Tasks.inputs (s.wire.server.step (.handleInvoke input (s.invocations owner).encoding
          .kInitialRequest moments)).2.calls = Tasks.inputs s.wire.server.calls ++ [input] := step_inputs ..
      change (Tasks.inputs (s.wire.server.step _).2.calls)[_]? = _
      rw [inputs,← Tasks.length_inputs]
      exact List.getElem?_concat_length
    · rw [log_append sound [.handleInvoke input (s.invocations owner).encoding .kInitialRequest moments] rfl]
      have timed := path_timed sound.path (start_timed expirationTimeNs)
      rw [history,history,effectsOf_single]
      exact newRequest_fresh numbered timed input (s.invocations owner).encoding moments number
        (s.log expirationTimeNs)

section Questions
variable (protocol : Protocol V) (moments : Nat → Moment V)

theorem held_polled (held : s.Held expirationTimeNs owner key number input)
    (alive : KeptAlive expirationTimeNs key
      ((s.step protocol (.operate owner .pollOnce moments .delivered)).2.log expirationTimeNs)) :
    (s.step protocol (.operate owner .pollOnce moments .delivered)).1 =
      some (.polled (.ok (.success,Tasks.isReady
        (s.step protocol (.operate owner .pollOnce moments .delivered)).2.wire.server.calls number))) := by
  have supported := held.sound.supported owner
  obtain ⟨invoke,fresh⟩ := held.fresh
  obtain ⟨payload,named,called⟩ := owned_poll protocol moments .delivered s.wire supported
    (held.sound.asynchronous owner)
  rw [held.named] at named called
  have stepped := quiet_step protocol owner rfl called
  rw [stepped] at alive ⊢
  rw [log_append held.sound [.handleInvoke payload (s.invocations owner).encoding .kPoll moments] rfl,
    history,history,effectsOf_single] at alive
  have moved : (s.wire.carried .delivered (.handleInvoke payload (s.invocations owner).encoding .kPoll
      moments)).server = (s.wire.server.poll key (s.invocations owner).encoding moments).2 := by
    change (s.wire.server.handleInvoke payload _ .kPoll moments).2 = _
    rw [handleInvoke_poll named]
  have unexpired : invoke.isExpired (moments 0).now = false := by
    refine fresh.unexpired alive (k := number) ?_
    simp only [record,step_handleInvoke,handleInvoke_poll named,output_effects]
    exact poll_examines _ moments fresh.found fresh.held
  have answer := poll_reads (s.invocations owner).encoding moments fresh.found fresh.held fresh.wanted unexpired
  obtain ⟨reply,built,read⟩ := polled_flag (V := V) supported (Tasks.isReady
    (s.wire.server.poll key (s.invocations owner).encoding moments).2.calls number)
  rw [moved,answer,built]
  simp [Shared.heard,read]

theorem held_fetched [LawfulAssign V] (held : s.Held expirationTimeNs owner key number input) (output : V) :
    (s.step protocol (.operate owner (.getReply output) moments .delivered)).1 = some (.replied
      (fetchedReply (Tasks.outcomeOf (s.wire.server.observe (moments 0)).calls number) output)) := by
  have supported := held.sound.supported owner
  obtain ⟨invoke,fresh⟩ := held.fresh
  obtain ⟨payload,named,called⟩ := owned_getReply protocol moments .delivered s.wire supported
    (held.sound.asynchronous owner) output
  rw [held.named] at named called
  rw [quiet_step protocol owner rfl called]
  cases ended : Tasks.outcomeOf (s.wire.server.observe (moments 0)).calls number with
  | none =>
    have running : Tasks.isReady (s.wire.server.observe (moments 0)).calls number = false := by
      rw [Tasks.isReady,ended]
      rfl
    have refused := running_refuses fresh.held running
    obtain ⟨reply,built,known⟩ := createAsyncRPCStatusReply_represents (V := V)
      .invalidAsynchronousOperationError .kGetReply
    rw [getReply_refused (s.invocations owner).encoding moments fresh.found refused,built]
    simp +decide [Shared.heard,fetchedReply,AsyncInvocation.replied,known.result]
  | some outcome =>
    obtain ⟨reply,built,known⟩ := createAsyncRPCReply_represents (AsyncInvoke.settled outcome).1
      (AsyncInvoke.settled outcome).2 .kGetReply supported
    have read : AsyncInvocation.replied reply output = callResult outcome output :=
      (replied_read known supported output).trans (callResult_settled outcome output)
    rw [getReply_delivered (s.invocations owner).encoding moments fresh.found fresh.held ended fresh.wanted,built]
    simp [Shared.heard,fetchedReply,read]

end Questions

end Keeping

section Service
variable [LawfulAnyValue V] [LawfulCodec V] [LawfulAssign V]

-- What the owner is told in a later turn: the call that its Start has launched is
-- its own, a poll tells whether that call has ended, and a get-reply hands out its
-- outcome as soon as there is one.
structure Attended (expirationTimeNs : UInt64) (owner number : Nat) (input : V) (r : Records V) : Prop where
  owns : r.before.Owns owner number
  launched : (Tasks.inputs r.before.wire.server.calls)[number]? = some input
  polled : ∀ moments, r.event = .operate owner .pollOnce moments .delivered →
    KeptAlive expirationTimeNs (r.before.invocations owner).id (r.after.log expirationTimeNs) →
    r.output = some (.polled (.ok (.success,Tasks.isReady r.after.wire.server.calls number)))
  fetched : ∀ output moments, r.event = .operate owner (.getReply output) moments .delivered →
    r.output = some (.replied (fetchedReply
      (Tasks.outcomeOf (r.before.wire.server.observe (moments 0)).calls number) output))

theorem Held.attended {expirationTimeNs key : UInt64} {owner number : Nat} {input : V} {r : Records V}
    (protocol : Protocol V) (held : r.before.Held expirationTimeNs owner key number input)
    (here : r = record (step protocol) r.before r.event) : Attended expirationTimeNs owner number input r := by
  refine ⟨held.owns,held.launched,?_,?_⟩
  · intro moments event alive
    rw [held.named] at alive
    rw [here,event] at alive ⊢
    exact held_polled protocol moments held alive
  · intro output moments event
    rw [here,event]
    exact held_fetched protocol moments held output

-- Once an owner's Start is accepted, nothing that the other owners do, the clean-ups
-- and the ends of calls takes its reply away, as long as the request does not expire.
theorem owners_served (protocol : Protocol V) (encodings : Nat → PayloadEncoding)
    (supported : ∀ owner, isSupportedPayloadEncoding (encodings owner) = true)
    (expirationTimeNs : UInt64) (turns : List (Turn V))
    (within : (run (step protocol) (make expirationTimeNs encodings) turns).Within)
    {earlier between later : List (Records V)} {first last : Records V} {owner : Nat} {input : V}
    {nonempty : isEmptyValue input = false} {moments : Nat → Moment V} {carriage : Carriage}
    (split : history (step protocol) (make expirationTimeNs encodings) turns =
      earlier ++ first :: (between ++ last :: later))
    (starts : first.event = .operate owner (.start input nonempty) moments carriage)
    (accepted : first.output = some (.started (.ok .success)))
    (patient : ∀ r ∈ between, Patient owner r)
    (alive : KeptAlive expirationTimeNs (first.after.invocations owner).id (last.before.log expirationTimeNs)) :
    Attended expirationTimeNs owner first.before.wire.server.calls.length input last := by
  obtain ⟨rest,remaining,same,_⟩ := run_resumes split
  obtain ⟨sound,after,here⟩ := record_bounded (step_within protocol) (step_sound protocol)
    (make_sound expirationTimeNs supported) within
    (r := first) (by rw [split]; exact List.mem_append_right _ (List.mem_cons_self ..))
  have held : first.after.Held expirationTimeNs owner (first.before.wire.server.lastId + 1)
      first.before.wire.server.calls.length input := by
    rw [here,starts] at after accepted ⊢
    exact start_held protocol sound nonempty after accepted
  rw [held.named] at alive
  rw [same] at within
  have kept := history_accumulates
    (P := fun records t => (∀ r ∈ records, Patient owner r) →
      KeptAlive expirationTimeNs (first.before.wire.server.lastId + 1) (t.log expirationTimeNs) →
      t.Held expirationTimeNs owner (first.before.wire.server.lastId + 1)
        first.before.wire.server.calls.length input)
    (fun _ _ => held) ?_ remaining.symm patient alive
  · exact kept.attended protocol (run_resumes remaining.symm).choose_spec.2.2
  · intro earlier r later parts known patient alive
    obtain ⟨more,_,goesOn,taken⟩ := run_resumes parts
    rw [goesOn] at within
    have below := run_earlier (step_within protocol) more within
    rw [taken] at below alive ⊢
    have before := known (fun other member => patient other (List.mem_append_left _ member))
      (log_earlier protocol _ _ alive)
    have own := patient r (List.mem_append_right _ (List.mem_singleton_self _))
    rw [taken] at own
    exact step_held protocol r.event before own below alive

end Service

def scanned : Outcome Reference.Value := .ok (.success,.string "scanned")

def patience : List (Turn Reference.Value) :=
  [.operate 0 (.start (.string "scan") rfl) (instant 0) .delivered,
   .operate 1 (.start (.string "drain") rfl) (instant 1) .delivered,
   .operate 0 (.getReply .empty) (instant 2) .delivered,
   .operate 1 .invalidate (instant 3) .replyLost,
   .cleanUp (instant 4),
   .complete 0 scanned,
   .operate 0 (.getReply .empty) (instant 12) .delivered]

def patientTurn (k : Nat) (turn : Turn Reference.Value) : Records Reference.Value :=
  record (step pumpRoom) (run (step pumpRoom) noOne (patience.take k)) turn

theorem owners_served_patiently :
    Attended 10 0 0 (.string "scan") (patientTurn 6 (.operate 0 (.getReply .empty) (instant 12) .delivered)) ∧
    (patientTurn 6 (.operate 0 (.getReply .empty) (instant 12) .delivered)).output =
      some (.replied ⟨.ok .success,.string "scanned"⟩) := by
  have split : history (step pumpRoom) noOne patience =
      [] ++ patientTurn 0 (.operate 0 (.start (.string "scan") rfl) (instant 0) .delivered) ::
        ([patientTurn 1 (.operate 1 (.start (.string "drain") rfl) (instant 1) .delivered),
          patientTurn 2 (.operate 0 (.getReply .empty) (instant 2) .delivered),
          patientTurn 3 (.operate 1 .invalidate (instant 3) .replyLost),
          patientTurn 4 (.cleanUp (instant 4)),patientTurn 5 (.complete 0 scanned)] ++
          patientTurn 6 (.operate 0 (.getReply .empty) (instant 12) .delivered) :: []) := rfl
  refine ⟨owners_served pumpRoom (fun _ => .kNone) (fun _ => rfl) 10 patience (by decide) split rfl rfl ?_
    (by decide),rfl⟩
  intro r member call moments carriage event arrived
  simp only [List.mem_cons,List.not_mem_nil,or_false] at member
  rcases member with rfl | rfl | rfl | rfl | rfl
  · cases event
  · cases event
    refine Or.inr ⟨_,rfl,fun number owns => ?_⟩
    have first : 1 = number + 1 := owns.1
    cases first
    rfl
  · cases event
  · cases event
  · cases event

end Owners

end SupProtocol
