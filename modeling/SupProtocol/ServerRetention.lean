import SupProtocol.ServerDelivery

namespace SupProtocol

def Effect.reading : Effect → Option UInt64
  | .launched _ _ now => some now
  | .on _ (.examined _ _ now) => some now
  | .on _ (.accessed now) => some now
  | .on _ _ => none
  | .erased _ => none

def readings (log : List Effect) : List UInt64 := log.filterMap Effect.reading

theorem readings_append (log more : List Effect) :
    readings (log ++ more) = readings log ++ readings more := List.filterMap_append

theorem reading_member {log : List Effect} {effect : Effect} {now : UInt64}
    (member : effect ∈ log) (read : effect.reading = some now) : now ∈ readings log :=
  List.mem_filterMap.mpr ⟨effect,member,read⟩

-- The clock does not go back, and whenever the entry of a request is examined at
-- most the expiration time has passed since its last access.
structure KeptAlive (expirationTimeNs key : UInt64) (log : List Effect) : Prop where
  forward : (readings log).Pairwise (· ≤ ·)
  recent : ∀ call last now, .on key (.examined call last now) ∈ log →
    now.toNat ≤ last.toNat + expirationTimeNs.toNat

def Effect.isRecent (expirationTimeNs key : UInt64) : Effect → Bool
  | .on k (.examined _ last now) => k != key || decide (now.toNat ≤ last.toNat + expirationTimeNs.toNat)
  | _ => true

theorem keptAlive_exact (expirationTimeNs key : UInt64) (log : List Effect) :
    KeptAlive expirationTimeNs key log ↔
      (readings log).Pairwise (· ≤ ·) ∧ log.all (Effect.isRecent expirationTimeNs key) = true := by
  constructor
  · intro alive
    refine ⟨alive.forward,List.all_eq_true.mpr ?_⟩
    intro effect member
    unfold Effect.isRecent
    split
    · rename_i k call last now
      by_cases own : k = key
      · subst own
        simpa using alive.recent call last now member
      · simp [own]
    · rfl
  · rintro ⟨forward,recent⟩
    refine ⟨forward,fun call last now member => ?_⟩
    simpa [Effect.isRecent] using List.all_eq_true.mp recent _ member

instance (expirationTimeNs key : UInt64) (log : List Effect) :
    Decidable (KeptAlive expirationTimeNs key log) :=
  decidable_of_iff' _ (keptAlive_exact expirationTimeNs key log)

theorem KeptAlive.earlier {expirationTimeNs key : UInt64} {log more : List Effect}
    (alive : KeptAlive expirationTimeNs key (log ++ more)) : KeptAlive expirationTimeNs key log := by
  have forward := alive.forward
  rw [readings_append] at forward
  exact ⟨(List.pairwise_append.mp forward).1,
    fun call last now member => alive.recent call last now (List.mem_append_left _ member)⟩

theorem KeptAlive.ordered {expirationTimeNs key : UInt64} {log more : List Effect}
    (alive : KeptAlive expirationTimeNs key (log ++ more)) {past now : UInt64}
    (before : past ∈ readings log) (after : now ∈ readings more) : past ≤ now := by
  have forward := alive.forward
  rw [readings_append] at forward
  exact (List.pairwise_append.mp forward).2.2 past before now after

-- On a clock that went forward the wrapping difference is the time that passed.
theorem recent_not_expired {invoke : AsyncInvoke} {now : UInt64} (ordered : invoke.lastAccess ≤ now)
    (recent : now.toNat ≤ invoke.lastAccess.toNat + invoke.expirationTimeNs.toNat) :
    invoke.isExpired now = false := by
  have passed := UInt64.toNat_sub_of_le _ _ ordered
  have bound : (now - invoke.lastAccess).toNat ≤ invoke.expirationTimeNs.toNat := by omega
  simp only [AsyncInvoke.isExpired,decide_eq_false_iff_not,gt_iff_lt,UInt64.lt_iff_toNat_lt]
  omega

def Event.spares {V : Type} [AnyValue V] (key : UInt64) (event : Event V) : Prop :=
  ¬ event.names .kGetReply key ∧ ¬ event.names .kInvalidate key

instance {V : Type} [AnyValue V] (key : UInt64) (event : Event V) : Decidable (event.spares key) :=
  inferInstanceAs (Decidable (_ ∧ _))

namespace AsyncInvokeServer
open Machine

variable {V : Type} {s t : AsyncInvokeServer V} {labels log : List Effect}

theorem transition_present (step : Transition s labels t) {key : UInt64} {invoke : AsyncInvoke}
    (here : s.invokes[key]? = some invoke) :
    (∃ kept : AsyncInvoke, t.invokes[key]? = some kept) ∨ .erased key ∈ labels := by
  cases step with
  | complete completions => exact Or.inl ⟨invoke,here⟩
  | launch payload now =>
    left
    rw [emplace_lookup]
    split
    · exact ⟨_,rfl⟩
    · exact ⟨invoke,here⟩
  | examine found now => exact Or.inl ⟨invoke,here⟩
  | erase found now removable =>
    rw [erase_lookup]
    split
    · rename_i same
      exact Or.inr (by simp [same])
    · exact Or.inl ⟨invoke,here⟩
  | retrieve found held ended wanted =>
    rw [erase_lookup]
    split
    · rename_i same
      exact Or.inr (by simp [same])
    · rename_i other
      rw [store_lookup,if_neg other]
      exact Or.inl ⟨invoke,here⟩
  | rewrite found | access found now | invalidate found =>
    left
    rw [store_lookup]
    split
    · exact ⟨_,rfl⟩
    · exact ⟨invoke,here⟩

theorem transition_launched (step : Transition s labels t) {key now : UInt64} {call : Nat}
    (launched : .launched key call now ∈ labels) :
    ∃ invoke : AsyncInvoke, t.invokes[key]? = some invoke := by
  cases step with
  | complete completions => cases launched
  | launch payload now =>
    cases List.mem_singleton.mp launched
    rw [emplace_lookup]
    cases found : s.invokes[s.lastId+1]? with
    | none => exact ⟨_,if_pos ⟨rfl,rfl⟩⟩
    | some invoke => exact ⟨invoke,by simp⟩
  | examine found now =>
    obtain ⟨_,other⟩ := examined_effects _ _ launched
    cases other
  | erase found now removable =>
    rcases List.mem_append.mp launched with seen | gone
    · obtain ⟨_,other⟩ := examined_effects _ _ seen
      cases other
    · cases List.mem_singleton.mp gone
  | rewrite found => cases launched
  | access found now => cases List.mem_singleton.mp launched
  | retrieve found held ended wanted => simp at launched
  | invalidate found => cases List.mem_singleton.mp launched

-- Why an entry can be gone after a step: its reply was taken, it had no future,
-- or it was found finished and no longer needed.
theorem transition_erased (step : Transition s labels t) {key : UInt64}
    (erased : .erased key ∈ labels) : (∃ call, .on key (.retrieved call) ∈ labels) ∨
      ∃ invoke : AsyncInvoke, s.invokes[key]? = some invoke ∧ (invoke.future = none ∨
        ∃ call now, .on key (.examined call invoke.lastAccess now) ∈ labels ∧
          (invoke.invalidated = true ∨ invoke.isExpired now = true)) := by
  cases step with
  | complete completions => cases erased
  | launch payload now => cases List.mem_singleton.mp erased
  | examine found now =>
    obtain ⟨_,other⟩ := examined_effects _ _ erased
    cases other
  | rewrite found => cases erased
  | access found now => cases List.mem_singleton.mp erased
  | invalidate found => cases List.mem_singleton.mp erased
  | retrieve found held ended wanted =>
    rename_i call k invoke
    have same : key = k := by simpa using erased
    exact Or.inl ⟨call,by simp [same]⟩
  | erase found now removable =>
    rename_i k invoke
    right
    rcases List.mem_append.mp erased with seen | gone
    · obtain ⟨_,other⟩ := examined_effects _ _ seen
      cases other
    · cases List.mem_singleton.mp gone
      refine ⟨invoke,found,?_⟩
      rcases Option.eq_none_or_eq_some invoke.future with spent | ⟨call,held⟩
      · exact Or.inl spent
      · rw [AsyncInvoke.removable_held held] at removable ⊢
        have unneeded : invoke.invalidated = true ∨ invoke.isExpired now = true := by
          simpa using (Bool.and_eq_true_iff.mp removable).2
        exact Or.inr ⟨call,now,by simp,unneeded⟩

-- What a request keeps while it is kept alive, not invalidated and not answered.
structure Retained (expirationTimeNs key : UInt64) (log : List Effect) (s : AsyncInvokeServer V) :
    Prop where
  stocked : Stocked s
  timed : Timed expirationTimeNs s
  stamped : s.Entries fun _ invoke => invoke.lastAccess ∈ readings log
  wanted : s.Entries fun k invoke => k = key → invoke.invalidated = false
  present : ∀ call now, .launched key call now ∈ log →
    ∃ invoke : AsyncInvoke, s.invokes[key]? = some invoke

structure Undisturbed (key : UInt64) (log : List Effect) : Prop where
  alive : .on key .invalidated ∉ log
  untaken : ∀ call, .on key (.retrieved call) ∉ log

theorem Retained.not_expired {expirationTimeNs key : UInt64} {more : List Effect}
    (retained : Retained expirationTimeNs key log s)
    (alive : KeptAlive expirationTimeNs key (log ++ more)) {invoke : AsyncInvoke}
    (here : s.invokes[key]? = some invoke) {call : Nat} {now : UInt64}
    (examined : .on key (.examined call invoke.lastAccess now) ∈ more) :
    invoke.isExpired now = false := by
  have bound := alive.recent call _ now (List.mem_append_right _ examined)
  rw [← retained.timed.entries key invoke here] at bound
  exact recent_not_expired (alive.ordered (retained.stamped key invoke here)
    (reading_member examined rfl)) bound

theorem transition_retained {expirationTimeNs key : UInt64}
    (retained : Retained expirationTimeNs key log s) (step : Transition s labels t)
    (alive : KeptAlive expirationTimeNs key (log ++ labels))
    (undisturbed : Undisturbed key labels) : Retained expirationTimeNs key (log ++ labels) t := by
  refine ⟨transition_stocked s labels t retained.stocked step,
    transition_timed expirationTimeNs s labels t retained.timed step,?_,?_,?_⟩
  · refine transition_entries step retained.stamped ?_ ?_ ?_ ?_ <;>
      simp only [readings_append,List.mem_append]
    · exact fun _ _ old => Or.inl old
    · exact fun now launched _ => Or.inr (reading_member launched rfl)
    · exact fun _ _ now accessed _ => Or.inr (reading_member accessed rfl)
    · exact fun _ _ _ old => Or.inl old
  · refine transition_entries step retained.wanted (fun _ _ old => old) ?_ ?_ ?_
    · exact fun _ _ _ _ => rfl
    · exact fun _ _ _ _ old => old
    · rintro k invoke invalidated _ rfl
      exact absurd invalidated undisturbed.alive
  · intro call now launched
    rcases List.mem_append.mp launched with old | new
    · obtain ⟨invoke,here⟩ := retained.present call now old
      rcases transition_present step here with kept | erased
      · exact kept
      · exfalso
        rcases transition_erased step erased with ⟨_,taken⟩ | ⟨entry,found,why⟩
        · exact undisturbed.untaken _ taken
        · obtain ⟨_,held,_⟩ := retained.stocked key entry found
          rcases why with spent | ⟨k,now,examined,unneeded⟩
          · cases held.symm.trans spent
          · have fresh := retained.not_expired alive found examined
            have live := retained.wanted key entry found rfl
            simp [fresh,live] at unneeded
    · exact transition_launched step new

theorem start_retained (expirationTimeNs key : UInt64) :
    Retained expirationTimeNs key [] (start expirationTimeNs : AsyncInvokeServer V) :=
  ⟨start_stocked _,start_timed _,start_entries _ _,start_entries _ _,
   fun _ _ launched => by cases launched⟩

theorem path_retained {expirationTimeNs key : UInt64} (path : Path Transition s labels t)
    (alive : KeptAlive expirationTimeNs key (log ++ labels)) (undisturbed : Undisturbed key labels)
    (retained : Retained expirationTimeNs key log s) :
    Retained expirationTimeNs key (log ++ labels) t := by
  induction path generalizing log with
  | nil => simpa using retained
  | cons first rest ih =>
    rw [← List.append_assoc] at alive ⊢
    refine ih alive ⟨?_,?_⟩ (transition_retained retained first alive.earlier ⟨?_,?_⟩)
    · exact fun member => undisturbed.alive (List.mem_append_right _ member)
    · exact fun call member => undisturbed.untaken call (List.mem_append_right _ member)
    · exact fun member => undisturbed.alive (List.mem_append_left _ member)
    · exact fun call member => undisturbed.untaken call (List.mem_append_left _ member)

section Served
variable [AnyValue V] [Codec V]

-- How the next command for a request is treated after a run: a poll tells
-- whether its call has ended by its readiness check, kGetReply hands out the
-- outcome of an ended call, and otherwise leaves the entry where it is.
structure Served (expirationTimeNs : UInt64) (events : List (Event V)) (key : UInt64) (call : Nat) :
    Prop where
  present : ∃ invoke : AsyncInvoke, (reached expirationTimeNs events).invokes[key]? = some invoke ∧
    invoke.future = some call ∧ invoke.invalidated = false
  polled : ∀ payload encoding moments, extractAsyncRequestId payload = some key →
    KeptAlive expirationTimeNs key (effectsOf (handled expirationTimeNs
      (events ++ [.handleInvoke payload encoding .kPoll moments]))) →
    let r := record step (reached expirationTimeNs events) (.handleInvoke payload encoding .kPoll moments)
    r.output.reply = some (createAsyncRPCPollReply (Tasks.isReady r.after.calls call) encoding)
  delivered : ∀ payload encoding moments outcome, extractAsyncRequestId payload = some key →
    Tasks.outcomeOf ((reached expirationTimeNs events).observe (moments 0)).calls call = some outcome →
    let r := record step (reached expirationTimeNs events)
      (.handleInvoke payload encoding .kGetReply moments)
    delivers key r = true ∧ r.output.reply = some (createAsyncRPCReply
      (AsyncInvoke.settled outcome).1 (AsyncInvoke.settled outcome).2 encoding .kGetReply)
  premature : ∀ payload encoding moments, extractAsyncRequestId payload = some key →
    Tasks.isReady ((reached expirationTimeNs events).observe (moments 0)).calls call = false →
    KeptAlive expirationTimeNs key (effectsOf (handled expirationTimeNs
      (events ++ [.handleInvoke payload encoding .kGetReply moments]))) →
    let r := record step (reached expirationTimeNs events)
      (.handleInvoke payload encoding .kGetReply moments)
    r.output.reply = some (createAsyncRPCStatusReply .invalidAsynchronousOperationError .kGetReply) ∧
    ∃ invoke : AsyncInvoke, r.after.invokes[key]? = some invoke ∧ invoke.future = some call

theorem effect_record {expirationTimeNs : UInt64} {events : List (Event V)} {effect : Effect}
    (member : effect ∈ effectsOf (handled expirationTimeNs events)) :
    ∃ r ∈ handled expirationTimeNs events, effect ∈ r.output.effects ∧ effect.source r.event := by
  obtain ⟨r,known,here⟩ := List.mem_flatMap.mp member
  refine ⟨r,known,here,?_⟩
  obtain ⟨before,event,_,_,rfl⟩ := history_member known
  exact step_source _ event effect here

theorem undisturbed_effects {expirationTimeNs key : UInt64} {events : List (Event V)}
    (alive : ∀ r ∈ handled expirationTimeNs events, ¬ r.event.names .kInvalidate key)
    (untaken : ∀ r ∈ handled expirationTimeNs events, delivers key r = false) :
    Undisturbed key (effectsOf (handled expirationTimeNs events)) := by
  refine ⟨?_,?_⟩
  · intro member
    obtain ⟨r,known,_,named⟩ := effect_record member
    exact alive r known named
  · intro call member
    obtain ⟨r,known,here,_⟩ := effect_record member
    have delivered : delivers key r = true := List.any_eq_true.mpr ⟨_,here,by simp [Effect.retrieves]⟩
    cases delivered.symm.trans (untaken r known)

theorem run_retained {expirationTimeNs key : UInt64} {events : List (Event V)}
    (alive : KeptAlive expirationTimeNs key (effectsOf (handled expirationTimeNs events)))
    (undisturbed : Undisturbed key (effectsOf (handled expirationTimeNs events))) :
    Retained expirationTimeNs key (effectsOf (handled expirationTimeNs events))
      (reached expirationTimeNs events) := by
  rw [← List.nil_append (effectsOf (handled expirationTimeNs events))] at alive ⊢
  exact path_retained (reached_path expirationTimeNs events) alive undisturbed
    (start_retained expirationTimeNs key)

theorem spared_retained [LawfulAnyValue V] {expirationTimeNs key : UInt64} {events : List (Event V)}
    (alive : KeptAlive expirationTimeNs key (effectsOf (handled expirationTimeNs events)))
    (spared : ∀ event ∈ events, event.spares key) :
    Retained expirationTimeNs key (effectsOf (handled expirationTimeNs events))
      (reached expirationTimeNs events) := by
  apply run_retained alive
  apply undisturbed_effects
  · intro r known
    obtain ⟨before,event,after,rfl,rfl⟩ := history_member known
    exact (spared event (by simp)).2
  · intro r known
    obtain ⟨before,event,after,rfl,rfl⟩ := history_member known
    have untouched := (spared event (by simp)).1
    by_contra taken
    obtain ⟨payload,encoding,moments,_,_,_,rfl,named,_⟩ := delivers_step (by simpa using taken)
    exact untouched ⟨rfl,named⟩

theorem issued_launched [LawfulAnyValue V] [LawfulCodec V] {expirationTimeNs key : UInt64}
    {events : List (Event V)} {first : Handled V} (known : first ∈ handled expirationTimeNs events)
    (given : issued first = some key) :
    ∃ call now, .launched key call now ∈ effectsOf (handled expirationTimeNs events) := by
  obtain ⟨before,event,_,_,rfl⟩ := history_member known
  obtain ⟨payload,encoding,moments,rfl,rfl⟩ := issued_step given
  refine ⟨(reached expirationTimeNs before).calls.length,(moments 0).now,
    List.mem_flatMap.mpr ⟨_,known,?_⟩⟩
  simp only [record,step_handleInvoke,handleInvoke_newRequest,output_effects,newRequest_effects]
  exact List.mem_singleton_self _

omit [AnyValue V] [Codec V] in
theorem Retained.entry {expirationTimeNs key : UInt64} (retained : Retained expirationTimeNs key log s)
    {call : Nat} {now : UInt64} (launched : .launched key call now ∈ log) :
    ∃ (invoke : AsyncInvoke) (call : Nat), s.invokes[key]? = some invoke ∧
      invoke.future = some call ∧ invoke.invalidated = false := by
  obtain ⟨invoke,found⟩ := retained.present call now launched
  obtain ⟨call,held,_⟩ := retained.stocked key invoke found
  exact ⟨invoke,call,found,held,retained.wanted key invoke found rfl⟩

theorem kept_polled {expirationTimeNs key : UInt64} {events : List (Event V)} {invoke : AsyncInvoke}
    {call : Nat} {payload : V} {encoding : PayloadEncoding} {moments : Nat → Moment V}
    (named : extractAsyncRequestId payload = some key)
    (found : (reached expirationTimeNs events).invokes[key]? = some invoke)
    (held : invoke.future = some call) (wanted : invoke.invalidated = false)
    (retained : Retained expirationTimeNs key (effectsOf (handled expirationTimeNs events))
      (reached expirationTimeNs events))
    (alive : KeptAlive expirationTimeNs key (effectsOf (handled expirationTimeNs
      (events ++ [.handleInvoke payload encoding .kPoll moments])))) :
    let r := record step (reached expirationTimeNs events) (.handleInvoke payload encoding .kPoll moments)
    r.output.reply = some (createAsyncRPCPollReply (Tasks.isReady r.after.calls call) encoding) := by
  rw [handled_snoc,effectsOf_append,effectsOf_single] at alive
  simp only [record,step_handleInvoke,handleInvoke_poll named,output_reply,output_effects] at alive ⊢
  have fresh := retained.not_expired alive found (poll_examines encoding moments found held)
  exact congrArg some (poll_reads encoding moments found held wanted fresh)

variable [LawfulAnyValue V] [LawfulCodec V]

theorem spared_entry {expirationTimeNs key : UInt64} {before rest : List (Event V)} {first : Event V}
    (given : issued (record step (reached expirationTimeNs before) first) = some key)
    (bounded : (before ++ first :: rest).countP Event.isInitialRequest < UInt64.size)
    (retained : Retained expirationTimeNs key
      (effectsOf (handled expirationTimeNs (before ++ first :: rest)))
      (reached expirationTimeNs (before ++ first :: rest))) :
    ∃ invoke : AsyncInvoke,
      (reached expirationTimeNs (before ++ first :: rest)).invokes[key]? = some invoke ∧
      invoke.future = some (reached expirationTimeNs before).calls.length ∧
      invoke.invalidated = false := by
  have known : record step (reached expirationTimeNs before) first ∈
      handled expirationTimeNs (before ++ first :: rest) := by
    unfold handled
    rw [history_append]
    exact List.mem_append_right _ (List.mem_cons_self ..)
  obtain ⟨launch,now,launched⟩ := issued_launched known given
  obtain ⟨invoke,call,found,held,wanted⟩ := retained.entry launched
  have total := Nat.lt_of_le_of_lt (countP_upTo rfl) bounded
  have same := delivered_call total bounded given found held
  exact ⟨invoke,found,by rw [held,same],wanted⟩

omit [LawfulCodec V] in
theorem premature_kept {expirationTimeNs key : UInt64} {events : List (Event V)} {invoke : AsyncInvoke}
    {call : Nat} {payload : V} {encoding : PayloadEncoding} {moments : Nat → Moment V}
    (named : extractAsyncRequestId payload = some key)
    (found : (reached expirationTimeNs events).invokes[key]? = some invoke)
    (held : invoke.future = some call) (wanted : invoke.invalidated = false)
    (running : Tasks.isReady ((reached expirationTimeNs events).observe (moments 0)).calls call = false)
    (retained : Retained expirationTimeNs key (effectsOf (handled expirationTimeNs events))
      (reached expirationTimeNs events))
    (alive : KeptAlive expirationTimeNs key (effectsOf (handled expirationTimeNs
      (events ++ [.handleInvoke payload encoding .kGetReply moments])))) :
    let r := record step (reached expirationTimeNs events)
      (.handleInvoke payload encoding .kGetReply moments)
    r.output.reply = some (createAsyncRPCStatusReply .invalidAsynchronousOperationError .kGetReply) ∧
    ∃ kept : AsyncInvoke, r.after.invokes[key]? = some kept ∧ kept.future = some call := by
  have refused : ∀ k, invoke.future = some k →
      Tasks.isReady ((reached expirationTimeNs events).observe (moments 0)).calls k = false ∨
        invoke.invalidated = true := by
    intro k same
    cases held.symm.trans same
    exact Or.inl running
  rw [handled_snoc,effectsOf_append,effectsOf_single] at alive
  have answer := getReply_refused encoding moments found refused
  simp only [record,step_handleInvoke,handleInvoke_getReply named,output_reply,output_effects] at alive ⊢
  refine ⟨by rw [answer],?_⟩
  rw [answer] at alive ⊢
  -- the second look at the entry is within its time as well
  have fresh := retained.not_expired alive found (removeIfReady_examines held (moments 1))
  refine ⟨invoke,?_,held⟩
  simp only [removeIfReady_wanted held wanted fresh]
  simp

theorem kept_request_served (expirationTimeNs key : UInt64) (events : List (Event V))
    (alive : KeptAlive expirationTimeNs key (effectsOf (handled expirationTimeNs events)))
    (given : ∃ first ∈ handled expirationTimeNs events, issued first = some key)
    (valid : ∀ r ∈ handled expirationTimeNs events, ¬ r.event.names .kInvalidate key)
    (undelivered : ∀ r ∈ handled expirationTimeNs events, delivers key r = false) :
    ∃ call, Served expirationTimeNs events key call ∧
      (events.countP Event.isInitialRequest < UInt64.size → ∀ first ∈ handled expirationTimeNs events,
        issued first = some key → call = first.before.calls.length) := by
  have retained := run_retained alive (undisturbed_effects valid undelivered)
  obtain ⟨first,known,numbered⟩ := given
  obtain ⟨launch,now,launched⟩ := issued_launched known numbered
  obtain ⟨invoke,call,found,held,wanted⟩ := retained.entry launched
  refine ⟨call,⟨⟨invoke,found,held,wanted⟩,?_,?_,?_⟩,?_⟩
  · intro payload encoding moments named extended
    exact kept_polled named found held wanted retained extended
  · intro payload encoding moments outcome named ended
    obtain ⟨delivered,_,reply⟩ := getReply_delivers encoding moments named found held ended wanted
    exact ⟨delivered,reply⟩
  · intro payload encoding moments named running extended
    exact premature_kept named found held wanted running retained extended
  · intro bounded request issuing same
    obtain ⟨before,event,after,parts,rfl⟩ := history_member issuing
    have total := Nat.lt_of_le_of_lt (countP_upTo parts) bounded
    exact delivered_call total bounded same found held

def polledRun : List (Event Reference.Value) :=
  [.handleInvoke (.string "measure") .kNone .kInitialRequest (instant 0),
   .handleInvoke (Reference.namedRequest 1) .kNone .kPoll (instant 7)]

theorem kept_request_polled : ∃ call, Served 10 polledRun 1 call ∧
    (polledRun.countP Event.isInitialRequest < UInt64.size → ∀ first ∈ handled 10 polledRun,
      issued first = some 1 → call = first.before.calls.length) := by
  refine kept_request_served 10 1 polledRun (by decide) (by decide) ?_ (by decide)
  intro r member
  obtain ⟨before,event,after,parts,rfl⟩ := history_member member
  have harmless : ∀ event ∈ polledRun, ¬ event.names .kInvalidate 1 := by decide
  exact harmless event (by rw [parts]; simp)

end Served

end AsyncInvokeServer

end SupProtocol
