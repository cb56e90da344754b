import SupProtocol.InvocationOwners

namespace SupProtocol
open AsyncInvokeServer Machine

namespace Owners
variable {V : Type} [AnyValue V] [Codec V]

section Untouched
variable [LawfulAnyValue V] [LawfulCodec V] {expirationTimeNs : UInt64} {s : Owners V}

omit [AnyValue V] [Codec V] [LawfulAnyValue V] [LawfulCodec V] in
theorem removeIfReady_untouched (server : AsyncInvokeServer V) (invoke : AsyncInvoke) (moment : Moment V)
    {id key : UInt64} (other : id ≠ key) :
    (server.removeIfReady id invoke moment).1.invokes[key]? = server.invokes[key]? := by
  unfold removeIfReady
  dsimp only
  split
  · rw [erase_lookup,if_neg other]
    rfl
  · rfl

omit [LawfulAnyValue V] [LawfulCodec V] in
theorem command_untouched (server : AsyncInvokeServer V) {payload : V} {encoding : PayloadEncoding}
    {command : AsyncCommand} {moments : Nat → Moment V} {id key : UInt64}
    (named : extractAsyncRequestId payload = some id) (later : command ≠ .kInitialRequest)
    (other : id ≠ key) :
    (server.step (.handleInvoke payload encoding command moments)).2.invokes[key]? =
      server.invokes[key]? := by
  rw [step_handleInvoke]
  rcases handleInvoke_cases server payload encoding command moments with
    ⟨initial,_⟩ | ⟨_,_,taken⟩ | ⟨again,same,⟨_,taken⟩ | ⟨_,taken⟩ | ⟨_,taken⟩⟩
  · exact absurd initial later
  · rw [taken]
  all_goals
    cases named.symm.trans same
    rw [taken]
  · unfold poll
    split
    · rfl
    · dsimp only
      split
      · rfl
      · rw [store_lookup,if_neg other]
        rfl
  · unfold getReply
    split
    · rfl
    · dsimp only
      rw [removeIfReady_untouched _ _ _ other,store_lookup,if_neg other]
      rfl
  · unfold invalidate
    split
    · rfl
    · dsimp only
      rw [removeIfReady_untouched _ _ _ other,store_lookup,if_neg other]

omit [LawfulAnyValue V] [LawfulCodec V] in
theorem launch_untouched (server : AsyncInvokeServer V) (payload : V) (encoding : PayloadEncoding)
    (moments : Nat → Moment V) {key : UInt64} (other : server.lastId + 1 ≠ key) :
    (server.step (.handleInvoke payload encoding .kInitialRequest moments)).2.invokes[key]? =
      server.invokes[key]? := by
  rw [step_handleInvoke,handleInvoke_newRequest]
  simp only [newRequest]
  rw [emplace_lookup,if_neg (fun both => other both.1)]
  rfl

omit [LawfulAnyValue V] [LawfulCodec V] in
theorem carried_untouched {w : Wire V} {carriage : Carriage} {event : Event V} {key : UInt64}
    (kept : (w.server.step event).2.invokes[key]? = w.server.invokes[key]?) :
    (w.carried carriage event).server.invokes[key]? = w.server.invokes[key]? := by
  unfold Wire.carried
  split
  · rfl
  · exact kept

theorem operate_untouched [LawfulAssign V] (protocol : Protocol V) (owner : Nat) (moments : Nat → Moment V)
    (carriage : Carriage) (sound : s.Sound expirationTimeNs) (call : OwnerCall V)
    (within : (s.step protocol (.operate owner call moments carriage)).2.Within) {other : Nat}
    (apart : other ≠ owner) (started : (s.invocations other).id ≠ 0) :
    (s.step protocol (.operate owner call moments carriage)).2.wire.server.invokes[
      (s.invocations other).id]? = s.wire.server.invokes[(s.invocations other).id]? := by
  have differ : (s.invocations owner).id ≠ (s.invocations other).id := by
    intro same
    exact apart (sound.apart started same).symm
  cases call with
  | start input nonempty =>
    rw [Within] at within
    rw [start_wire protocol owner moments carriage sound] at within ⊢
    unfold Wire.carried at within ⊢
    split
    · rfl
    · rename_i carried
      rw [if_neg carried] at within
      refine launch_untouched s.wire.server input (s.invocations owner).encoding moments ?_
      intro same
      obtain ⟨number,named,known⟩ := sound.owns other started
      have old := (List.getElem?_eq_some_iff.mp known).1
      have fresh := sound.nextId within
      rw [same,named,← sound.counted] at fresh
      omega
  | pollOnce =>
    obtain ⟨payload,_,named,stepped,_⟩ := poll_step protocol owner moments carriage sound
    rw [stepped]
    exact carried_untouched (command_untouched s.wire.server named (by decide) differ)
  | getReply output =>
    obtain ⟨payload,_,named,stepped,_⟩ := getReply_step protocol owner moments carriage sound output
    rw [stepped]
    exact carried_untouched (command_untouched s.wire.server named (by decide) differ)
  | invalidate =>
    obtain ⟨payload,named,stepped⟩ := invalidate_step protocol owner moments carriage sound
    rw [stepped]
    dsimp only
    split
    · rfl
    · exact carried_untouched (command_untouched s.wire.server named (by decide) differ)

end Untouched

section Closed
variable [LawfulAnyValue V] [LawfulCodec V] {expirationTimeNs : UInt64} {s : Owners V} {key : UInt64}

abbrev Records (V : Type) [AnyValue V] := Record (Owners V) (Turn V) (Option (Ended V))

-- The turn that ends a request: its owner's Invalidate reached the server, or its
-- GetReply came back with a result that is none of the transport.
inductive Closing (key : UInt64) (r : Records V) : Prop where
  | invalidated (event : r.event = .operate owner .invalidate moments carriage)
      (named : (r.before.invocations owner).id = key) (arrived : carriage ≠ .requestLost)
  | fetched (event : r.event = .operate owner (.getReply output) moments carriage)
      (named : (r.before.invocations owner).id = key) (answer : r.output = some (.replied invoked))
      (obtained : ∀ result ∈ refusals, invoked.result ≠ .ok result)

def Closed (key : UInt64) (s : Owners V) : Prop :=
  Settled key (fun invoke => invoke.invalidated = true) s.wire.server

omit [LawfulAnyValue V] [LawfulCodec V] in
theorem Sound.old (sound : s.Sound expirationTimeNs) {owner : Nat}
    (started : (s.invocations owner).id ≠ 0) : (s.invocations owner).id.toNat ≤ s.wire.server.calls.length := by
  obtain ⟨number,named,known⟩ := sound.owns owner started
  have within := (List.getElem?_eq_some_iff.mp known).1
  rw [sound.counted] at within
  omega

omit [LawfulAnyValue V] [LawfulCodec V] in
theorem invalidate_marks (server : AsyncInvokeServer V) (moments : Nat → Moment V) {invoke : AsyncInvoke}
    (here : (server.invalidate key moments).2.invokes[key]? = some invoke) : invoke.invalidated = true := by
  unfold invalidate at here
  cases found : server.invokes[key]? with
  | none =>
    simp only [found] at here
    cases here
  | some entry =>
    simp only [found] at here
    rcases removeIfReady_lookup (server.store key entry.invalidate) key entry.invalidate (moments 0) with
      kept | gone
    · rw [kept,store_lookup,if_pos rfl] at here
      cases here
      rfl
    · cases gone.symm.trans here

theorem invalidate_closed (protocol : Protocol V) (sound : s.Sound expirationTimeNs) {owner : Nat}
    {moments : Nat → Moment V} {carriage : Carriage} (started : (s.invocations owner).id ≠ 0)
    (arrived : carriage ≠ .requestLost) :
    Closed (s.invocations owner).id (s.step protocol (.operate owner .invalidate moments carriage)).2 := by
  obtain ⟨payload,named,stepped⟩ := invalidate_step protocol owner moments carriage sound
  rw [stepped]
  simp only [if_neg started,Wire.carried,if_neg arrived]
  refine ⟨?_,?_⟩
  · exact Nat.le_trans (sound.old started) ((step_path s.wire.server _).grows calls_grow)
  · rintro k invoke here rfl
    change (s.wire.server.step _).2.invokes[_]? = _ at here
    rw [step_handleInvoke,handleInvoke_invalidate named] at here
    exact invalidate_marks s.wire.server moments here

theorem getReply_closed [LawfulAssign V] (protocol : Protocol V) (sound : s.Sound expirationTimeNs)
    {owner : Nat} {moments : Nat → Moment V} {carriage : Carriage} {output : V} {invoked : Invoked V}
    (started : (s.invocations owner).id ≠ 0)
    (answer : (s.step protocol (.operate owner (.getReply output) moments carriage)).1 =
      some (.replied invoked))
    (obtained : ∀ result ∈ refusals, invoked.result ≠ .ok result) :
    Closed (s.invocations owner).id
      (s.step protocol (.operate owner (.getReply output) moments carriage)).2 := by
  obtain ⟨payload,⟨result,value⟩,_,stepped,outcome⟩ :=
    getReply_step protocol owner moments carriage sound output
  obtain ⟨labels,path⟩ :=
    (step_reaches (s := s) protocol (.operate owner (.getReply output) moments carriage)).path
  rw [stepped] at answer
  cases answer
  rcases outcome with ⟨listed,_⟩ | ⟨_,_,_,_,_,_,_,_,gone⟩
  · exact absurd rfl (obtained result listed)
  · refine ⟨Nat.le_trans (sound.old started) (path.grows calls_grow),?_⟩
    rintro k invoke here rfl
    cases gone.symm.trans here

omit [LawfulAnyValue V] [LawfulCodec V] in
theorem step_closed (protocol : Protocol V) (turn : Turn V) (sound : s.Sound expirationTimeNs)
    (within : (s.step protocol turn).2.Within) (later : (s.step protocol turn).2.Sound expirationTimeNs)
    (closed : Closed key s) : Closed key (s.step protocol turn).2 := by
  obtain ⟨labels,path⟩ := (step_reaches (s := s) protocol turn).path
  have below : (s.step protocol turn).2.wire.server.calls.length < UInt64.size := by
    rw [later.tracks,reached_count]
    exact within
  exact path_settled (fun _ _ known => known) (fun _ _ => rfl)
    (sound.numbered (step_within protocol s turn within)) path below closed

theorem closing_closed [LawfulAssign V] (protocol : Protocol V) {r : Records V}
    (here : r = record (step protocol) r.before r.event) (sound : r.before.Sound expirationTimeNs)
    (closing : Closing key r) (started : key ≠ 0) : Closed key r.after := by
  rw [here]
  cases closing with
  | invalidated event named arrived =>
    rw [event]
    subst named
    exact invalidate_closed protocol sound started arrived
  | fetched event named answer obtained =>
    rw [here] at answer
    rw [event] at answer ⊢
    subst named
    exact getReply_closed protocol sound started answer obtained

variable (protocol : Protocol V) {owner : Nat} (moments : Nat → Moment V) (carriage : Carriage)

theorem closed_waits (sound : s.Sound expirationTimeNs) (closed : Closed (s.invocations owner).id s) :
    ∃ result, (s.step protocol (.operate owner .pollOnce moments carriage)).1 =
      some (.polled (.ok (result,false))) := by
  obtain ⟨payload,⟨result,ready⟩,_,stepped,outcome⟩ := poll_step protocol owner moments carriage sound
  rcases outcome with ⟨waits,_⟩ | ⟨_,invoke,_,found,_,wanted,_⟩
  · cases waits
    exact ⟨result,by rw [stepped]⟩
  · cases wanted.symm.trans (closed.entry _ invoke found rfl)

theorem closed_refuses [LawfulAssign V] (sound : s.Sound expirationTimeNs)
    (closed : Closed (s.invocations owner).id s) (output : V) : ∃ result ∈ refusals,
      (s.step protocol (.operate owner (.getReply output) moments carriage)).1 =
        some (.replied ⟨.ok result,output⟩) := by
  obtain ⟨payload,⟨result,value⟩,_,stepped,outcome⟩ :=
    getReply_step protocol owner moments carriage sound output
  rcases outcome with ⟨listed,same⟩ | ⟨invoke,_,_,found,_,wanted,_⟩
  · subst same
    exact ⟨result,listed,by rw [stepped]⟩
  · cases wanted.symm.trans (closed.entry _ invoke found rfl)

end Closed

section Runs
variable [LawfulAnyValue V] [LawfulCodec V] [LawfulAssign V]

-- A call and the turn that launched it, whether or not its owner was told.
structure StartedIn (records : List (Records V)) (s : Owners V) (number owner : Nat) (input : V) : Prop where
  turn : ∃ r ∈ records, ∃ nonempty moments carriage,
    r.event = .operate owner (.start input nonempty) moments carriage ∧
    r.before.wire.server.calls.length = number ∧ r.after.wire.server.calls.length = number + 1
  own : s.startedBy[number]? = some owner
  input : (Tasks.inputs s.wire.server.calls)[number]? = some input

def AllStarted (records : List (Records V)) (s : Owners V) : Prop :=
  ∀ number < s.wire.server.calls.length, ∃ owner input, StartedIn records s number owner input

structure Safe (records : List (Records V)) (s : Owners V) : Prop where
  launched : AllStarted records s
  counted : s.startedBy.length = s.wire.server.calls.length
  apart : ∀ owner other, (s.invocations owner).id ≠ 0 →
    (s.invocations other).id = (s.invocations owner).id → other = owner
  permitted : ∀ r ∈ records, ∀ owner call moments carriage, r.event = .operate owner call moments carriage →
    ∃ ended, r.output = some ended ∧ Permitted r.before r.after owner call ended
  untouched : ∀ r ∈ records, ∀ owner call moments carriage, r.event = .operate owner call moments carriage →
    ∀ other ≠ owner, (r.before.invocations other).id ≠ 0 →
    r.after.wire.server.invokes[(r.before.invocations other).id]? =
      r.before.wire.server.invokes[(r.before.invocations other).id]?

omit [Codec V] [LawfulAnyValue V] [LawfulCodec V] [LawfulAssign V] in
theorem StartedIn.later {records more : List (Records V)} {s t : Owners V} {number owner : Nat} {input : V}
    (started : StartedIn records s number owner input) (owners : ∃ rest, t.startedBy = s.startedBy ++ rest)
    (inputs : ∃ rest, Tasks.inputs t.wire.server.calls = Tasks.inputs s.wire.server.calls ++ rest) :
    StartedIn (records ++ more) t number owner input := by
  obtain ⟨⟨r,known,turn⟩,own,input⟩ := started
  obtain ⟨others,grown⟩ := owners
  obtain ⟨news,longer⟩ := inputs
  refine ⟨⟨r,List.mem_append_left _ known,turn⟩,?_,?_⟩
  · rw [grown,List.getElem?_append_left (List.getElem?_eq_some_iff.mp own).1]
    exact own
  · rw [longer,List.getElem?_append_left (List.getElem?_eq_some_iff.mp input).1]
    exact input

-- One turn: the old calls keep their owners, and a new one has that of the turn.
theorem step_started (protocol : Protocol V) (expirationTimeNs : UInt64) (records : List (Records V))
    (s : Owners V) (turn : Turn V) (sound : s.Sound expirationTimeNs)
    (within : (s.step protocol turn).2.Within) (known : AllStarted records s) :
    AllStarted (records ++ [record (step protocol) s turn]) (s.step protocol turn).2 := by
  intro number below
  rw [← Tasks.length_inputs] at below
  rcases step_launches protocol turn sound within with ⟨inputs,owners⟩ |
    ⟨owner,input,nonempty,moments,carriage,starts,inputs,owners⟩
  · rw [inputs,Tasks.length_inputs] at below
    obtain ⟨owner,input,started⟩ := known number below
    exact ⟨owner,input,started.later ⟨[],by rw [owners,List.append_nil]⟩ ⟨[],by rw [inputs,List.append_nil]⟩⟩
  · rw [inputs,List.length_append,Tasks.length_inputs,List.length_singleton] at below
    rcases Nat.lt_succ_iff_lt_or_eq.mp below with old | new
    · obtain ⟨owner,input,started⟩ := known number old
      exact ⟨owner,input,started.later ⟨_,owners⟩ ⟨_,inputs⟩⟩
    · subst new
      refine ⟨owner,input,⟨_,List.mem_append_right _ (List.mem_singleton_self _),nonempty,moments,carriage,
        starts,rfl,?_⟩,?_,?_⟩
      · have longer := congrArg List.length inputs
        rwa [Tasks.length_inputs,List.length_append,Tasks.length_inputs] at longer
      · rw [owners,← sound.counted]
        exact List.getElem?_concat_length
      · rw [inputs,← Tasks.length_inputs]
        exact List.getElem?_concat_length

theorem run_started (protocol : Protocol V) {encodings : Nat → PayloadEncoding}
    (supported : ∀ owner, isSupportedPayloadEncoding (encodings owner) = true) (expirationTimeNs : UInt64)
    (turns : List (Turn V)) (within : (run (step protocol) (make expirationTimeNs encodings) turns).Within) :
    AllStarted (history (step protocol) (make expirationTimeNs encodings) turns)
      (run (step protocol) (make expirationTimeNs encodings) turns) := by
  have initially : AllStarted [] (make expirationTimeNs encodings : Owners V) :=
    fun _ below => absurd below (Nat.not_lt_zero _)
  have kept : ∀ records s turn, (s.Within → s.Sound expirationTimeNs ∧ AllStarted records s) →
      (s.step protocol turn).2.Within → (s.step protocol turn).2.Sound expirationTimeNs ∧
        AllStarted (records ++ [record (step protocol) s turn]) (s.step protocol turn).2 := by
    intro records s turn known within
    obtain ⟨sound,started⟩ := known (step_within protocol s turn within)
    exact ⟨step_sound protocol s turn sound within,
      step_started protocol expirationTimeNs records s turn sound within started⟩
  exact (history_collects (P := fun records s => s.Within → s.Sound expirationTimeNs ∧ AllStarted records s)
    kept (fun _ => ⟨make_sound expirationTimeNs supported,initially⟩) turns within).2

theorem owners_safe (protocol : Protocol V) (encodings : Nat → PayloadEncoding)
    (supported : ∀ owner, isSupportedPayloadEncoding (encodings owner) = true)
    (expirationTimeNs : UInt64) (turns : List (Turn V))
    (within : (run (step protocol) (make expirationTimeNs encodings) turns).Within) :
    Safe (history (step protocol) (make expirationTimeNs encodings) turns)
      (run (step protocol) (make expirationTimeNs encodings) turns) := by
  have sound : (run (step protocol) (make expirationTimeNs encodings) turns).Sound expirationTimeNs :=
    run_bounded (step_within protocol) (fun s turn (_ : True) => step_sound protocol s turn)
      (make_sound expirationTimeNs supported) turns (fun _ _ => trivial) within
  have each : ∀ r ∈ history (step protocol) (make expirationTimeNs encodings) turns,
      r.before.Sound expirationTimeNs ∧ r.after.Within ∧
        r = record (step protocol) r.before r.event := fun r member =>
    record_bounded (step_within protocol) (step_sound protocol) (make_sound expirationTimeNs supported)
      within member
  refine ⟨run_started protocol supported expirationTimeNs turns within,sound.counted,
    fun owner other => sound.apart,?_,?_⟩
  · intro r member owner call moments carriage event
    obtain ⟨before,after,here⟩ := each r member
    rw [here,event] at after ⊢
    have numbered := before.numbered (step_within protocol _ _ after)
    exact (operate_fair protocol owner moments carriage before numbered call after).permitted
  · intro r member owner call moments carriage event other apart started
    obtain ⟨before,after,here⟩ := each r member
    rw [here,event] at after ⊢
    exact operate_untouched protocol owner moments carriage before call after apart started

-- Once a request is given up or fetched, nobody is told that it is ready, and
-- nobody is given its outcome.
theorem owners_closed (protocol : Protocol V) (encodings : Nat → PayloadEncoding)
    (supported : ∀ owner, isSupportedPayloadEncoding (encodings owner) = true)
    (expirationTimeNs : UInt64) (turns : List (Turn V))
    (within : (run (step protocol) (make expirationTimeNs encodings) turns).Within)
    {earlier between later : List (Records V)} {closing last : Records V} {key : UInt64} (started : key ≠ 0)
    (split : history (step protocol) (make expirationTimeNs encodings) turns =
      earlier ++ closing :: (between ++ last :: later))
    (closes : Closing key closing) {owner : Nat} {moments : Nat → Moment V} {carriage : Carriage}
    (named : (last.before.invocations owner).id = key) :
    (last.event = .operate owner .pollOnce moments carriage →
      ∃ result, last.output = some (.polled (.ok (result,false)))) ∧
    ∀ output, last.event = .operate owner (.getReply output) moments carriage →
      ∃ result ∈ refusals, last.output = some (.replied ⟨.ok result,output⟩) := by
  have member : closing ∈ history (step protocol) (make expirationTimeNs encodings) turns := by
    rw [split]
    exact List.mem_append_right _ (List.mem_cons_self ..)
  obtain ⟨sound,after,here⟩ := record_bounded (step_within protocol) (step_sound protocol)
    (make_sound expirationTimeNs supported) within member
  have closed := closing_closed protocol here sound closes started
  have goesOn : closing.after.Sound expirationTimeNs := by
    rw [here] at after ⊢
    exact step_sound protocol _ _ sound after
  obtain ⟨rest,remaining,same,_⟩ := run_resumes split
  rw [same] at within
  have both : ∀ s turn, s.Sound expirationTimeNs ∧ Closed key s → (s.step protocol turn).2.Within →
      (s.step protocol turn).2.Sound expirationTimeNs ∧ Closed key (s.step protocol turn).2 := by
    intro s turn held within
    have later := step_sound protocol s turn held.1 within
    exact ⟨later,step_closed protocol turn held.1 within later held.2⟩
  obtain ⟨⟨lastSound,lastClosed⟩,_,there⟩ := record_bounded (step_within protocol) both ⟨goesOn,closed⟩
    within (r := last) (by rw [← remaining]; exact List.mem_append_right _ (List.mem_cons_self ..))
  subst named
  refine ⟨?_,?_⟩
  · intro event
    rw [there,event]
    exact closed_waits protocol moments carriage lastSound lastClosed
  · intro output event
    rw [there,event]
    exact closed_refuses protocol moments carriage lastSound lastClosed output

end Runs

-- The second request is done first, the first is given up and started anew.
def parked : Outcome Reference.Value := .ok (.success,.string "parked")

def changedMind : List (Turn Reference.Value) :=
  [.operate 0 (.start (.string "measure") rfl) (instant 0) .delivered,
   .operate 1 (.start (.string "park") rfl) (instant 1) .delivered,
   .operate 0 .invalidate (instant 2) .replyLost,
   .complete 1 parked,.complete 0 (.error (.foreign "no beam")),
   .operate 1 (.getReply .empty) (instant 3) .delivered,
   .operate 0 .pollOnce (instant 4) .delivered,
   .operate 0 (.start (.string "park") rfl) (instant 5) .delivered,
   .operate 1 (.getReply .empty) (instant 6) .delivered]

def pumpRoom : Protocol Reference.Value :=
  ⟨fun _ _ => .ok (.success,.empty),fun _ _ => .ok (.success,.empty)⟩

def noOne : Owners Reference.Value := make 10 fun _ => .kNone

def unheard : List (Turn Reference.Value) :=
  changedMind ++ [.operate 2 (.start (.string "measure") rfl) (instant 7) .replyLost]

theorem owners_safe_changed : (run (step pumpRoom) noOne unheard).startedBy = [0,1,0,2] ∧
    Safe (history (step pumpRoom) noOne unheard) (run (step pumpRoom) noOne unheard) :=
  ⟨by decide,owners_safe pumpRoom (fun _ => .kNone) (fun _ => rfl) 10 unheard (by decide)⟩

def fetch (second : UInt64) : Turn Reference.Value :=
  .operate 1 (.getReply .empty) (instant second) .delivered

theorem owners_closed_changed : ∃ result ∈ refusals,
    (step pumpRoom (run (step pumpRoom) noOne (changedMind.take 8)) (fetch 6)).1 =
      some (.replied ⟨.ok result,.empty⟩) := by
  have split : history (step pumpRoom) noOne changedMind =
      history (step pumpRoom) noOne (changedMind.take 5) ++
        record (step pumpRoom) (run (step pumpRoom) noOne (changedMind.take 5)) (fetch 3) ::
          (history (step pumpRoom) (run (step pumpRoom) noOne (changedMind.take 6))
              ((changedMind.drop 6).take 2) ++
            record (step pumpRoom) (run (step pumpRoom) noOne (changedMind.take 8)) (fetch 6) :: []) := rfl
  have answer : (step pumpRoom (run (step pumpRoom) noOne (changedMind.take 5)) (fetch 3)).1 =
      some (.replied ⟨.ok .success,.string "parked"⟩) := rfl
  have closes : Closing 2
      (record (step pumpRoom) (run (step pumpRoom) noOne (changedMind.take 5)) (fetch 3)) :=
    .fetched rfl rfl answer (by decide)
  exact (owners_closed pumpRoom (fun _ => .kNone) (fun _ => rfl) 10 changedMind (by decide) (by decide)
    split closes rfl).2 .empty rfl

end Owners

end SupProtocol
