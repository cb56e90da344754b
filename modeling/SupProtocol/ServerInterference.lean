import SupProtocol.WallClock

namespace SupProtocol
open Machine

variable {V : Type}

def Effect.gives (key : UInt64) : Effect → Bool
  | .launched k _ _ => k == key
  | _ => false

namespace AsyncInvokeServer

section Model
variable [AnyValue V]

def gives (key : UInt64) (r : Handled V) : Bool := r.output.effects.any (Effect.gives key)

def awaited (key : UInt64) (never : Bool) (records : List (Handled V)) : Bool :=
  never || records.any (gives key)

-- What stays when only one request matters: the commands that name it, the initial
-- requests up to its own and the ends of calls.
def stays (key : UInt64) (awaited : Bool) (event : Event V) : Bool :=
  event.isCompletion || decide (event.concerns key) || (event.isInitialRequest && awaited)

-- The calls that end during a step that is removed still end.
def completions (before after : AsyncInvokeServer V) : List (Event V) :=
  (Tasks.endedBetween before.calls after.calls).map fun done => .complete done.1 done.2

def restOf (key : UInt64) (awaited : Bool) (r : Handled V) : List (Event V) :=
  if stays key awaited r.event then [r.event] else completions r.before r.after

def restFrom (key : UInt64) (never : Bool) : List (Handled V) → List (Event V)
  | [] => []
  | r :: later => restOf key (awaited key never (r :: later)) r ++ restFrom key never later

def rest (key : UInt64) (records : List (Handled V)) : List (Event V) :=
  restFrom key (!records.any (gives key)) records

def dialogue (key : UInt64) (records : List (Handled V)) : List (Event V × Output V) :=
  (records.filter fun r => decide (r.event.concerns key)).map fun r => (r.event,r.output)

structure Unimpaired (expirationTimeNs key : UInt64) (log : List Effect) : Prop where
  alive : .on key .invalidated ∉ log
  unexpired : ∀ call last now, .on key (.examined call last now) ∈ log → ¬ now - last > expirationTimeNs

def Effect.impairs (expirationTimeNs key : UInt64) : Effect → Bool
  | .on k .invalidated => k == key
  | .on k (.examined _ last now) => k == key && decide (now - last > expirationTimeNs)
  | _ => false

omit [AnyValue V] in
theorem unimpaired_exact (expirationTimeNs key : UInt64) (log : List Effect) :
    Unimpaired expirationTimeNs key log ↔
      ∀ effect ∈ log, Effect.impairs expirationTimeNs key effect = false := by
  constructor
  · intro unimpaired effect member
    unfold Effect.impairs
    split
    · rename_i k
      by_cases own : k = key
      · subst own
        exact absurd member unimpaired.alive
      · simp [own]
    · rename_i k call last now
      by_cases own : k = key
      · subst own
        simpa using unimpaired.unexpired call last now member
      · simp [own]
    · rfl
  · intro fair
    refine ⟨?_,?_⟩
    · intro member
      simpa [Effect.impairs] using fair _ member
    · intro call last now member
      simpa [Effect.impairs] using fair _ member

instance (expirationTimeNs key : UInt64) (log : List Effect) :
    Decidable (Unimpaired expirationTimeNs key log) :=
  decidable_of_iff' _ (unimpaired_exact expirationTimeNs key log)

variable [Codec V]

structure Separate (expirationTimeNs key : UInt64) (records : List (Handled V)) : Prop where
  replies : dialogue key (handled expirationTimeNs (rest key records)) = dialogue key records
  untouched : ∀ earlier r later, records = earlier ++ r :: later →
    stays key (awaited key (!records.any (gives key)) (r :: later)) r.event = false →
    r.after.invokes[key]? = r.before.invokes[key]? ∧
    ∀ call outcome, Tasks.outcomeOf r.before.calls call = some outcome →
      Tasks.outcomeOf r.after.calls call = some outcome

end Model

section Views
variable {s t : AsyncInvokeServer V} {key : UInt64} {invoke : AsyncInvoke}

-- One server has of a request what another has, with only the first of its calls.
structure Shows (key : UInt64) (s t : AsyncInvokeServer V) : Prop where
  limit : t.expirationTimeNs = s.expirationTimeNs
  entry : t.invokes[key]? = s.invokes[key]?
  calls : t.calls = s.calls.take t.calls.length
  held : ∀ (invoke : AsyncInvoke) call, s.invokes[key]? = some invoke → invoke.future = some call →
    call < t.calls.length

theorem Shows.outcome (shows : Shows key s t) {call : Nat} (within : call < t.calls.length) :
    Tasks.outcomeOf t.calls call = Tasks.outcomeOf s.calls call := by
  have same := congrArg (Tasks.outcomeOf · call) shows.calls
  exact same.trans (Tasks.outcomeOf_take within)

theorem Shows.observe (shows : Shows key s t) (moment : Moment V) :
    Shows key (s.observe moment) (t.observe moment) := by
  refine ⟨shows.limit,shows.entry,?_,?_⟩
  · rw [observe_calls,observe_calls,Tasks.length_finishAll,Tasks.take_finishAll,← shows.calls]
  · intro invoke call found held
    rw [observe_calls,Tasks.length_finishAll]
    exact shows.held invoke call found held

theorem Shows.store (shows : Shows key s t)
    (within : ∀ call, invoke.future = some call → call < t.calls.length) :
    Shows key (s.store key invoke) (t.store key invoke) := by
  refine ⟨shows.limit,by simp,shows.calls,?_⟩
  intro entry call found held
  rw [store_lookup,if_pos rfl] at found
  cases found
  exact within call held

theorem Shows.erase (shows : Shows key s t) : Shows key (s.erase key) (t.erase key) := by
  refine ⟨shows.limit,by simp,shows.calls,?_⟩
  intro entry call found held
  rw [erase_lookup,if_pos rfl] at found
  cases found

-- What a look at an entry shows depends on the outcome of its own call only.
section Looks
variable {left right : Calls V}
  (same : ∀ call, invoke.future = some call → Tasks.outcomeOf right call = Tasks.outcomeOf left call)
include same

theorem isReadyForRemoval_same (now : UInt64) :
    invoke.isReadyForRemoval right now = invoke.isReadyForRemoval left now := by
  cases held : invoke.future with
  | none => rw [AsyncInvoke.removable_spent held,AsyncInvoke.removable_spent held]
  | some call =>
    rw [AsyncInvoke.removable_held held,AsyncInvoke.removable_held held,Tasks.isReady,Tasks.isReady,
      same call held]

theorem isReady_same (now : UInt64) : invoke.isReady right now = invoke.isReady left now := by
  unfold AsyncInvoke.isReady
  cases held : invoke.future with
  | none => rfl
  | some call => simp only [Tasks.isReady,same call held]

theorem getReply_same [AnyValue V] : invoke.getReply right = invoke.getReply left := by
  unfold AsyncInvoke.getReply
  cases held : invoke.future with
  | none => rfl
  | some call => simp only [same call held]

end Looks

theorem Shows.removeIfReady (shows : Shows key s t)
    (within : ∀ call, invoke.future = some call → call < t.calls.length) (moment : Moment V) :
    (t.removeIfReady key invoke moment).2 = (s.removeIfReady key invoke moment).2 ∧
    Shows key (s.removeIfReady key invoke moment).1 (t.removeIfReady key invoke moment).1 := by
  have seen := shows.observe moment
  have looked : invoke.isReadyForRemoval (t.observe moment).calls moment.now =
      invoke.isReadyForRemoval (s.observe moment).calls moment.now := by
    refine isReadyForRemoval_same ?_ moment.now
    intro call held
    apply seen.outcome
    rw [observe_calls,Tasks.length_finishAll]
    exact within call held
  cases removable : (invoke.isReadyForRemoval (s.observe moment).calls moment.now).1 with
  | true =>
    rw [removeIfReady_removes removable,removeIfReady_removes (by rw [looked]; exact removable),looked]
    exact ⟨rfl,seen.erase⟩
  | false =>
    rw [removeIfReady_keeps removable,removeIfReady_keeps (by rw [looked]; exact removable),looked]
    exact ⟨rfl,seen⟩

section Commands
variable [AnyValue V] [Codec V] (encoding : PayloadEncoding) (moments : Nat → Moment V)

theorem Shows.poll (shows : Shows key s t) :
    (t.poll key encoding moments).1 = (s.poll key encoding moments).1 ∧
    Shows key (s.poll key encoding moments).2 (t.poll key encoding moments).2 := by
  have entry := shows.entry
  cases found : s.invokes[key]? with
  | none =>
    rw [found] at entry
    rw [poll_absent encoding moments found,poll_absent encoding moments entry]
    exact ⟨rfl,shows⟩
  | some invoke =>
    rw [found] at entry
    have once := shows.observe (moments 0)
    have twice := once.observe (moments 1)
    have looked : invoke.isReadyForRemoval (t.observe (moments 0)).calls (moments 0).now =
        invoke.isReadyForRemoval (s.observe (moments 0)).calls (moments 0).now :=
      isReadyForRemoval_same (fun call held => once.outcome (once.held invoke call found held)) _
    cases removable : (invoke.isReadyForRemoval (s.observe (moments 0)).calls (moments 0).now).1 with
    | true =>
      rw [poll_removable encoding moments found removable,
        poll_removable encoding moments entry (by rw [looked]; exact removable),looked]
      exact ⟨rfl,once⟩
    | false =>
      rw [poll_answers encoding moments found removable,
        poll_answers encoding moments entry (by rw [looked]; exact removable),looked]
      have read : invoke.isReady ((t.observe (moments 0)).observe (moments 1)).calls (moments 1).now =
          invoke.isReady ((s.observe (moments 0)).observe (moments 1)).calls (moments 1).now :=
        isReady_same (fun call held => twice.outcome (twice.held invoke call found held)) _
      simp only [read]
      refine ⟨trivial,twice.store ?_⟩
      intro call held
      apply twice.held invoke call found
      rcases AsyncInvoke.isReady_cases invoke ((s.observe (moments 0)).observe (moments 1)).calls
        (moments 1).now with refused | ⟨_,_,_,accessed⟩
      · rw [refused] at held
        exact held
      · rw [accessed] at held
        exact held

theorem Shows.getReply (shows : Shows key s t) :
    (t.getReply key encoding moments).1 = (s.getReply key encoding moments).1 ∧
    Shows key (s.getReply key encoding moments).2 (t.getReply key encoding moments).2 := by
  have entry := shows.entry
  cases found : s.invokes[key]? with
  | none =>
    rw [found] at entry
    rw [getReply_absent encoding moments found,getReply_absent encoding moments entry]
    exact ⟨rfl,shows⟩
  | some invoke =>
    rw [found] at entry
    have once := shows.observe (moments 0)
    have taken : invoke.getReply (t.observe (moments 0)).calls =
        invoke.getReply (s.observe (moments 0)).calls :=
      getReply_same fun call held => once.outcome (once.held invoke call found held)
    have within : ∀ call, (invoke.getReply (s.observe (moments 0)).calls).2.1.future = some call →
        call < (t.observe (moments 0)).calls.length := by
      intro call held
      rcases AsyncInvoke.getReply_cases invoke (s.observe (moments 0)).calls with
        refused | ⟨_,_,_,_,_,delivered⟩
      · rw [refused] at held
        exact once.held invoke call found held
      · rw [delivered] at held
        cases held
    obtain ⟨removal,shown⟩ := (once.store within).removeIfReady within (moments 1)
    unfold AsyncInvokeServer.getReply
    simp only [found,entry,taken,removal]
    exact ⟨trivial,shown⟩

theorem Shows.invalidate (shows : Shows key s t) :
    (t.invalidate key moments).1 = (s.invalidate key moments).1 ∧
    Shows key (s.invalidate key moments).2 (t.invalidate key moments).2 := by
  have entry := shows.entry
  unfold AsyncInvokeServer.invalidate
  cases found : s.invokes[key]? with
  | none =>
    rw [found] at entry
    simp only [entry]
    exact ⟨trivial,shows⟩
  | some invoke =>
    rw [found] at entry
    have within : ∀ call, invoke.invalidate.future = some call → call < t.calls.length :=
      fun call held => shows.held invoke call found held
    obtain ⟨removal,shown⟩ := (shows.store within).removeIfReady within (moments 0)
    simp only [entry,removal]
    exact ⟨trivial,shown⟩

omit [AnyValue V] [Codec V] in
theorem Shows.emplace (shows : Shows key s t) (level : t.calls.length = s.calls.length)
    (id : UInt64) (payload : V) (now : UInt64) :
    Shows key (s.emplace id payload now).1 (t.emplace id payload now).1 := by
  have same : t.calls = s.calls := by
    have parts := shows.calls
    rwa [level,List.take_length] at parts
  have grown : (t.emplace id payload now).1.calls = (s.emplace id payload now).1.calls := by
    simp [AsyncInvokeServer.emplace,same]
  refine ⟨shows.limit,?_,?_,?_⟩
  · rw [emplace_lookup,emplace_lookup,level,shows.limit,shows.entry]
    by_cases own : id = key
    · rw [own,shows.entry]
    · simp [own]
  · rw [grown,List.take_length]
  · intro invoke call found held
    rw [emplace_lookup] at found
    have longer : (t.emplace id payload now).1.calls.length = t.calls.length + 1 := by
      simp [AsyncInvokeServer.emplace,Tasks.launch]
    split at found
    · cases found
      cases held
      omega
    · have bounded := shows.held invoke call found held
      omega

-- An initial request gets the same id and call from both, if none was left out before.
theorem Shows.newRequest (shows : Shows key s t) (counter : t.lastId = s.lastId)
    (level : t.calls.length = s.calls.length) (payload : V) :
    (t.newRequest payload encoding moments).1 = (s.newRequest payload encoding moments).1 ∧
    Shows key (s.newRequest payload encoding moments).2 (t.newRequest payload encoding moments).2 := by
  constructor
  · simp only [AsyncInvokeServer.newRequest,AsyncInvokeServer.emplace,Tasks.launch,
      AsyncInvokeServer.observe,Tasks.length_finishAll,counter,level]
  · have counted : Shows key {s with lastId := s.lastId+1} {t with lastId := s.lastId+1} :=
      ⟨shows.limit,shows.entry,shows.calls,shows.held⟩
    have seen := counted.observe (moments 0)
    have still : ({t with lastId := s.lastId+1}.observe (moments 0)).calls.length =
        ({s with lastId := s.lastId+1}.observe (moments 0)).calls.length := by
      simp only [observe_calls,Tasks.length_finishAll,level]
    have placed := seen.emplace still (s.lastId+1) payload (moments 0).now
    simp only [AsyncInvokeServer.newRequest,counter]
    exact placed

variable {event : Event V}

theorem Shows.concerned (shows : Shows key s t) (concerns : event.concerns key) :
    (t.step event).1 = (s.step event).1 ∧ Shows key (s.step event).2 (t.step event).2 := by
  obtain ⟨payload,encoding,moments,named,polls | gets | invalidates⟩ := Event.concerns_cases concerns
  · subst polls
    obtain ⟨answer,shown⟩ := shows.poll encoding moments
    simp only [step_handleInvoke,handleInvoke_poll named,answer]
    exact ⟨trivial,shown⟩
  · subst gets
    obtain ⟨answer,shown⟩ := shows.getReply encoding moments
    simp only [step_handleInvoke,handleInvoke_getReply named,answer]
    exact ⟨trivial,shown⟩
  · subst invalidates
    obtain ⟨answer,shown⟩ := shows.invalidate moments
    simp only [step_handleInvoke,handleInvoke_invalidate named,answer]
    exact ⟨trivial,shown⟩

theorem Shows.requested (shows : Shows key s t) (counter : t.lastId = s.lastId)
    (level : t.calls.length = s.calls.length) (initial : event.isInitialRequest = true) :
    Shows key (s.step event).2 (t.step event).2 := by
  cases event with
  | complete call outcome => cases initial
  | cleanUpExpiredRequests moments => cases initial
  | handleInvoke payload encoding command moments =>
    have same : command = .kInitialRequest := by simpa [Event.isInitialRequest] using initial
    subst same
    simp only [step_handleInvoke,handleInvoke_newRequest]
    exact (shows.newRequest encoding moments counter level payload).2

theorem Shows.completed (shows : Shows key s t) (ended : event.isCompletion = true) :
    Shows key (s.step event).2 (t.step event).2 := by
  cases event with
  | complete call outcome => exact shows.observe ⟨[(call,outcome)],0⟩
  | cleanUpExpiredRequests moments => cases ended
  | handleInvoke payload encoding command moments => cases ended

end Commands

end Views

section Removed
variable {s t : AsyncInvokeServer V} {labels : List Effect} {key expirationTimeNs : UInt64}

def Effect.touches (key : UInt64) : Effect → Bool
  | .launched k _ _ => k == key
  | .on _ (.examined ..) => false
  | .on k _ => k == key
  | .erased k => k == key

theorem Effect.touches_cases {effect : Effect} (touched : Effect.touches key effect = true) :
    Effect.gives key effect = true ∨ (∃ now, effect = .on key (.accessed now)) ∨
    (∃ call, effect = .on key (.retrieved call)) ∨ effect = .on key .invalidated ∨
    effect = .erased key := by
  unfold Effect.touches at touched
  split at touched
  · exact Or.inl touched
  · cases touched
  · rename_i k access other
    have same : k = key := by simpa using touched
    subst same
    cases access with
    | examined call last now => exact absurd rfl (other call last now)
    | accessed now => exact Or.inr (Or.inl ⟨now,rfl⟩)
    | retrieved call => exact Or.inr (Or.inr (Or.inl ⟨call,rfl⟩))
    | invalidated => exact Or.inr (Or.inr (Or.inr (Or.inl rfl)))
  · rename_i k
    have same : k = key := by simpa using touched
    subst same
    exact Or.inr (Or.inr (Or.inr (Or.inr rfl)))

theorem transition_untouched (step : Transition s labels t)
    (quiet : ∀ effect ∈ labels, Effect.touches key effect = false) :
    t.invokes[key]? = s.invokes[key]? := by
  cases step with
  | complete completions => rfl
  | launch payload now =>
    have other : s.lastId + 1 ≠ key := by simpa [Effect.touches] using quiet
    rw [emplace_lookup,if_neg (fun both => other both.1)]
  | examine found now => rfl
  | erase found now removable =>
    rename_i k invoke
    have other : k ≠ key := by
      simpa [Effect.touches] using quiet _ (List.mem_append_right _ List.mem_cons_self)
    rw [erase_lookup,if_neg other]
  | rewrite found =>
    rw [store_lookup]
    split
    · rename_i same
      rw [← same]
      exact found.symm
    · rfl
  | access found now =>
    rename_i k invoke
    have other : k ≠ key := by simpa [Effect.touches] using quiet
    rw [store_lookup,if_neg other]
  | retrieve found held ended wanted =>
    rename_i call k invoke
    have other : k ≠ key := by simpa [Effect.touches] using quiet
    rw [erase_lookup,if_neg other,store_lookup,if_neg other]
  | invalidate found =>
    rename_i k invoke
    have other : k ≠ key := by simpa [Effect.touches] using quiet
    rw [store_lookup,if_neg other]

theorem path_untouched (path : Path Transition s labels t)
    (quiet : ∀ effect ∈ labels, Effect.touches key effect = false) :
    t.invokes[key]? = s.invokes[key]? := by
  induction path with
  | nil => rfl
  | cons first rest ih =>
    have before := transition_untouched first fun effect member => quiet effect (List.mem_append_left _ member)
    exact (ih fun effect member => quiet effect (List.mem_append_right _ member)).trans before

theorem path_wanted (path : Path Transition s labels t) (alive : .on key .invalidated ∉ labels)
    (wanted : s.Entries fun k invoke => k = key → invoke.invalidated = false) :
    t.Entries fun k invoke => k = key → invoke.invalidated = false := by
  induction path with
  | nil => exact wanted
  | cons first rest ih =>
    have middle := transition_wanted first (fun member => alive (List.mem_append_left _ member)) wanted
    exact ih (fun member => alive (List.mem_append_right _ member)) middle

variable [AnyValue V] [Codec V] {event : Event V}

-- Nothing that does not name a request touches it, unless it counts as expired.
theorem foreign_untouched (stocked : Stocked s) (timed : Timed expirationTimeNs s)
    (wanted : s.Entries fun k invoke => k = key → invoke.invalidated = false)
    (unimpaired : Unimpaired expirationTimeNs key (s.step event).1.effects)
    (foreign : ¬ event.concerns key) (ungiven : gives key (record step s event) = false) :
    (s.step event).2.invokes[key]? = s.invokes[key]? := by
  have untaken : ∀ call, .on key (.retrieved call) ∉ (s.step event).1.effects :=
    fun call member => foreign (Or.inr (Or.inl (step_source s event _ member)))
  refine path_untouched (step_path s event) ?_
  intro effect member
  cases touched : Effect.touches key effect with
  | false => rfl
  | true =>
    exfalso
    rcases Effect.touches_cases touched with given | ⟨now,rfl⟩ | ⟨call,rfl⟩ | rfl | rfl
    · have gift : gives key (record step s event) = true := List.any_eq_true.mpr ⟨effect,member,given⟩
      cases gift.symm.trans ungiven
    · exact foreign (Or.inl (step_source s event _ member))
    · exact untaken call member
    · exact unimpaired.alive member
    · obtain ⟨call,last,now,seen,exceeds⟩ :=
        path_expired (step_path s event) stocked timed wanted unimpaired.alive untaken member
      exact unimpaired.unexpired call last now seen exceeds

theorem completions_run (done : List (Nat × Outcome V)) :
    ∀ t : AsyncInvokeServer V, run step t (done.map fun d => .complete d.1 d.2) =
      {t with calls := Tasks.finishAll t.calls done} := by
  induction done with
  | nil => exact fun _ => rfl
  | cons first done ih => exact fun t => ih _

theorem completions_dialogue (done : List (Nat × Outcome V)) :
    ∀ t : AsyncInvokeServer V,
      dialogue key (history step t (done.map fun d => .complete d.1 d.2)) = [] := by
  induction done with
  | nil => exact fun _ => rfl
  | cons first done ih => exact fun t => ih _

theorem Shows.removed (shows : Shows key s t)
    (untouched : (s.step event).2.invokes[key]? = s.invokes[key]?) :
    Shows key (s.step event).2 (run step t (completions s (s.step event).2)) := by
  have extended := path_calls (step_path s event)
  have short := congrArg List.length shows.calls
  rw [List.length_take] at short
  have ended : Tasks.finishAll t.calls (Tasks.endedBetween s.calls (s.step event).2.calls) =
      (s.step event).2.calls.take t.calls.length := by
    conv_lhs => rw [shows.calls]
    rw [← Tasks.take_finishAll,Tasks.finishAll_endedBetween extended,List.take_take]
    congr 1
    omega
  unfold completions
  rw [completions_run]
  have limit := path_expiration (step_path s event)
  refine ⟨shows.limit.trans limit.symm,shows.entry.trans untouched.symm,?_,?_⟩
  · dsimp only
    rw [Tasks.length_finishAll]
    exact ended
  · intro invoke call found held
    dsimp only
    rw [Tasks.length_finishAll]
    exact shows.held invoke call (untouched.symm.trans found) held

end Removed

section Runs
variable [AnyValue V] [Codec V] {s t : AsyncInvokeServer V} {event : Event V}
  {expirationTimeNs key : UInt64} {never : Bool} {later : List (Handled V)}

structure Aligned (expirationTimeNs key : UInt64) (waiting : Bool) (s t : AsyncInvokeServer V) : Prop where
  shows : Shows key s t
  stocked : Stocked s
  timed : Timed expirationTimeNs s
  wanted : s.Entries fun k invoke => k = key → invoke.invalidated = false
  counter : s.lastId = UInt64.ofNat s.calls.length
  counted : t.lastId = UInt64.ofNat t.calls.length
  -- no initial request has been left out so far
  level : waiting = true → t.calls.length = s.calls.length

theorem step_length (s : AsyncInvokeServer V) (event : Event V) :
    (s.step event).2.calls.length = s.calls.length + event.launches.length := by
  have grown := congrArg List.length (step_inputs s event)
  rwa [Tasks.length_inputs,List.length_append,Tasks.length_inputs] at grown

omit [AnyValue V] [Codec V] in
theorem launches_none (other : event.isInitialRequest = false) : event.launches = [] := by
  cases event with
  | handleInvoke payload encoding command moments => simpa [Event.isInitialRequest,Event.launches] using other
  | _ => rfl

omit [AnyValue V] [Codec V] in
theorem awaited_earlier {r : Handled V} (waiting : awaited key never later = true) :
    awaited key never (r :: later) = true := by
  simp only [awaited,List.any_cons,Bool.or_eq_true] at waiting ⊢
  exact waiting.imp_right Or.inr

-- A step that does not stay is not an initial request while the id is awaited, so
-- it does not give the id.
theorem removed_foreign (removed : stays key (awaited key never (record step s event :: later)) event = false) :
    ¬ event.concerns key ∧ gives key (record step s event) = false ∧
    (awaited key never (record step s event :: later) = true → event.isInitialRequest = false) := by
  simp only [stays,Bool.or_eq_false_iff,decide_eq_false_iff_not,Bool.and_eq_false_iff] at removed
  obtain ⟨⟨_,foreign⟩,other⟩ := removed
  have unasked : awaited key never (record step s event :: later) = true → event.isInitialRequest = false :=
    fun waiting => other.resolve_right (by simp [waiting])
  refine ⟨foreign,?_,unasked⟩
  cases given : gives key (record step s event) with
  | false => rfl
  | true =>
    obtain ⟨effect,member,gift⟩ := List.any_eq_true.mp given
    have initial := unasked (by simp [awaited,given])
    cases effect with
    | launched k call now =>
      have source : event.isInitialRequest = true := step_source s event _ member
      cases source.symm.trans initial
    | on k access => cases gift
    | erased k => cases gift

theorem dialogue_same (shows : Shows key s t) :
    dialogue key [record step t event] = dialogue key [record step s event] := by
  by_cases concerns : event.concerns key
  · have answer := (shows.concerned concerns).1
    simp [dialogue,record,concerns,answer]
  · simp [dialogue,record,concerns]

theorem aligned_step
    (aligned : Aligned expirationTimeNs key (awaited key never (record step s event :: later)) s t)
    (unimpaired : Unimpaired expirationTimeNs key (s.step event).1.effects) :
    let kept := restOf key (awaited key never (record step s event :: later)) (record step s event)
    dialogue key (history step t kept) = dialogue key [record step s event] ∧
    Aligned expirationTimeNs key (awaited key never later) (s.step event).2 (run step t kept) := by
  intro kept
  have path := step_path s event
  have counted := path_counter (run_path t kept) aligned.counted
  suffices both : dialogue key (history step t kept) = dialogue key [record step s event] ∧
      Shows key (s.step event).2 (run step t kept) ∧
      (awaited key never later = true →
        (run step t kept).calls.length = (s.step event).2.calls.length) by
    exact ⟨both.1,both.2.1,path_stocked path aligned.stocked,path_timed path aligned.timed,
      path_wanted path unimpaired.alive aligned.wanted,path_counter path aligned.counter,counted,both.2.2⟩
  cases stayed : stays key (awaited key never (record step s event :: later)) event with
  | true =>
    have same : kept = [event] := if_pos stayed
    rw [same]
    refine ⟨dialogue_same aligned.shows,?_,?_⟩
    · simp only [stays,Bool.or_eq_true,decide_eq_true_eq,Bool.and_eq_true] at stayed
      rcases stayed with (ended | concerns) | ⟨initial,waiting⟩
      · exact aligned.shows.completed ended
      · exact (aligned.shows.concerned concerns).2
      · have level := aligned.level waiting
        refine aligned.shows.requested ?_ level initial
        rw [aligned.counter,aligned.counted,level]
    · intro waiting
      have level := aligned.level (awaited_earlier waiting)
      change (t.step event).2.calls.length = _
      rw [step_length,step_length,level]
  | false =>
    have same : kept = completions s (s.step event).2 :=
      if_neg fun positive => Bool.false_ne_true (stayed.symm.trans positive)
    obtain ⟨foreign,ungiven,unasked⟩ := removed_foreign stayed
    rw [same]
    refine ⟨?_,?_,?_⟩
    · rw [completions,completions_dialogue]
      simp [dialogue,record,foreign]
    · exact aligned.shows.removed
        (foreign_untouched aligned.stocked aligned.timed aligned.wanted unimpaired foreign ungiven)
    · intro waiting
      have waited := awaited_earlier (r := record step s event) waiting
      rw [completions,completions_run,step_length,launches_none (unasked waited)]
      dsimp only
      rw [Tasks.length_finishAll]
      exact aligned.level waited

omit [AnyValue V] [Codec V] in
theorem Unimpaired.parts {first more : List Effect}
    (unimpaired : Unimpaired expirationTimeNs key (first ++ more)) :
    Unimpaired expirationTimeNs key first ∧ Unimpaired expirationTimeNs key more := by
  refine ⟨⟨?_,?_⟩,⟨?_,?_⟩⟩
  · exact fun member => unimpaired.alive (List.mem_append_left _ member)
  · exact fun call last now member => unimpaired.unexpired call last now (List.mem_append_left _ member)
  · exact fun member => unimpaired.alive (List.mem_append_right _ member)
  · exact fun call last now member => unimpaired.unexpired call last now (List.mem_append_right _ member)

omit [Codec V] in
theorem dialogue_append (key : UInt64) (earlier later : List (Handled V)) :
    dialogue key (earlier ++ later) = dialogue key earlier ++ dialogue key later := by
  simp [dialogue]

theorem aligned_run (events : List (Event V)) (never : Bool) :
    ∀ {s t : AsyncInvokeServer V},
      Aligned expirationTimeNs key (awaited key never (history step s events)) s t →
      Unimpaired expirationTimeNs key (effectsOf (history step s events)) →
      dialogue key (history step t (restFrom key never (history step s events))) =
        dialogue key (history step s events) := by
  induction events with
  | nil => exact fun _ _ => rfl
  | cons event events ih =>
    intro s t aligned unimpaired
    have whole : Unimpaired expirationTimeNs key
        ((s.step event).1.effects ++ effectsOf (history step (s.step event).2 events)) := unimpaired
    obtain ⟨here,later⟩ := whole.parts
    obtain ⟨same,next⟩ := aligned_step aligned here
    rw [history,restFrom,history_append,dialogue_append,ih next later,same]
    exact (dialogue_append key [record step s event] _).symm

omit [AnyValue V] [Codec V] in
theorem start_aligned (expirationTimeNs key : UInt64) (waiting : Bool) :
    Aligned expirationTimeNs key waiting (start expirationTimeNs : AsyncInvokeServer V)
      (start expirationTimeNs) := by
  refine ⟨⟨rfl,rfl,rfl,?_⟩,start_stocked _,start_timed _,start_entries _ _,rfl,rfl,fun _ => rfl⟩
  intro invoke call found _
  simp [start] at found

theorem separate (expirationTimeNs key : UInt64) (events : List (Event V))
    (unimpaired : Unimpaired expirationTimeNs key (effectsOf (handled expirationTimeNs events))) :
    Separate expirationTimeNs key (handled expirationTimeNs events) := by
  refine ⟨?_,?_⟩
  · exact aligned_run events _ (start_aligned expirationTimeNs key _) unimpaired
  · intro earlier r later split removed
    obtain ⟨before,event,_,_,same,here,_⟩ := history_split split
    have path := run_path (start expirationTimeNs) before
    rw [split,effectsOf_append] at unimpaired
    obtain ⟨past,following⟩ := unimpaired.parts
    have now : Unimpaired expirationTimeNs key (r.output.effects ++ effectsOf later) := following
    rw [same] at past
    rw [here] at removed now ⊢
    obtain ⟨foreign,ungiven,_⟩ := removed_foreign removed
    have wanted := path_wanted path past.alive (start_entries _ _)
    exact ⟨foreign_untouched (path_stocked path (start_stocked _)) (path_timed path (start_timed _))
        wanted now.parts.1 foreign ungiven,
      (path_calls (step_path _ event)).outcomes⟩

def sharedRun : List (Event Reference.Value) :=
  [.handleInvoke (.string "other") .kNone .kInitialRequest (instant 0),
   .handleInvoke (.string "measure") .kNone .kInitialRequest (instant 1),
   .handleInvoke (.string "late") .kNone .kInitialRequest (instant 2),
   .handleInvoke (Reference.namedRequest 2) .kNone .kPoll (instant 3),
   .handleInvoke (Reference.namedRequest 1) .kNone .kInvalidate
     (fun _ => ⟨[(1,.ok (.success,.string "done"))],4⟩),
   .cleanUpExpiredRequests (instant 5),
   .handleInvoke (Reference.namedRequest 2) .kNone .kGetReply (instant 6)]

theorem separate_shared : Separate 10 2 (handled 10 sharedRun) ∧
    (rest 2 (handled 10 sharedRun)).length = 5 := by
  exact ⟨separate 10 2 sharedRun (by decide),by decide⟩

end Runs

end AsyncInvokeServer

end SupProtocol
