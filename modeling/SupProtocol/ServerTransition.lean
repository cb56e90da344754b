import SupProtocol.AsyncInvokeServer
import SupProtocol.Library.Machine

namespace SupProtocol.AsyncInvokeServer
open Machine

variable {V : Type} [AnyValue V] [Codec V]

-- All that ever happens to the table, the counter and the calls. The functions
-- of the server are sequences of these; every invariant is proved on them once.
inductive Transition : AsyncInvokeServer V → List Effect → AsyncInvokeServer V → Prop where
  | complete (completions : List (Nat × Outcome V)) :
      Transition s [] {s with calls := Tasks.finishAll s.calls completions}
  | launch (payload : V) (now : UInt64) :
      Transition s [.launched (s.lastId+1) s.calls.length now]
        ({s with lastId := s.lastId+1}.emplace (s.lastId+1) payload now).1
  | examine {key : UInt64} {invoke : AsyncInvoke} (found : s.invokes[key]? = some invoke)
      (now : UInt64) : Transition s ((invoke.isReadyForRemoval s.calls now).2.map (.on key)) s
  | erase {key : UInt64} {invoke : AsyncInvoke} (found : s.invokes[key]? = some invoke)
      (now : UInt64) (removable : (invoke.isReadyForRemoval s.calls now).1 = true) :
      Transition s ((invoke.isReadyForRemoval s.calls now).2.map (.on key) ++ [.erased key])
        (s.erase key)
  | rewrite {key : UInt64} {invoke : AsyncInvoke} (found : s.invokes[key]? = some invoke) :
      Transition s [] (s.store key invoke)
  | access {key : UInt64} {invoke : AsyncInvoke} (found : s.invokes[key]? = some invoke)
      (now : UInt64) :
      Transition s [.on key (.accessed now)] (s.store key {invoke with lastAccess := now})
  -- an entry without its future is removed at once
  | retrieve {key : UInt64} {invoke : AsyncInvoke} (found : s.invokes[key]? = some invoke)
      (held : invoke.future = some call) (ended : Tasks.isReady s.calls call = true)
      (wanted : invoke.invalidated = false) :
      Transition s [.on key (.retrieved call),.erased key]
        ((s.store key {invoke with future := none}).erase key)
  | invalidate {key : UInt64} {invoke : AsyncInvoke} (found : s.invokes[key]? = some invoke) :
      Transition s [.on key .invalidated] (s.store key invoke.invalidate)

section Lookups
variable (s : AsyncInvokeServer V) (id k : UInt64)

omit [AnyValue V] [Codec V]

@[simp] theorem store_lookup (invoke : AsyncInvoke) :
    (s.store id invoke).invokes[k]? = if id = k then some invoke else s.invokes[k]? := by
  simp [store,Std.TreeMap.getElem?_insert]

@[simp] theorem erase_lookup :
    (s.erase id).invokes[k]? = if id = k then none else s.invokes[k]? := by
  simp [erase,Std.TreeMap.getElem?_erase]

@[simp] theorem emplace_lookup (payload : V) (now : UInt64) :
    (s.emplace id payload now).1.invokes[k]? =
      if id = k ∧ s.invokes[id]? = none then
        some ⟨some s.calls.length,false,now,s.expirationTimeNs⟩
      else s.invokes[k]? := by
  simp [emplace,Tasks.launch,Std.TreeMap.getElem?_insertIfNew]

theorem stored_entry {s : AsyncInvokeServer V} {id k : UInt64} {invoke changed : AsyncInvoke}
    (here : (s.store id changed).invokes[k]? = some invoke) :
    (id = k ∧ changed = invoke) ∨ s.invokes[k]? = some invoke := by
  rw [store_lookup] at here
  split at here
  · rename_i same
    exact Or.inl ⟨same,Option.some.inj here⟩
  · exact Or.inr here

theorem erased_entry {s : AsyncInvokeServer V} {id k : UInt64} {invoke : AsyncInvoke}
    (here : (s.erase id).invokes[k]? = some invoke) : id ≠ k ∧ s.invokes[k]? = some invoke := by
  rw [erase_lookup] at here
  split at here
  · cases here
  · rename_i other
    exact ⟨other,here⟩

@[simp] theorem store_calls (invoke : AsyncInvoke) : (s.store id invoke).calls = s.calls := rfl
@[simp] theorem observe_invokes (moment : Moment V) : (s.observe moment).invokes = s.invokes := rfl
@[simp] theorem observe_calls (moment : Moment V) :
    (s.observe moment).calls = Tasks.finishAll s.calls moment.completions := rfl

end Lookups

section Functions
variable {s : AsyncInvokeServer V} {id : UInt64} {invoke : AsyncInvoke}

omit [AnyValue V] [Codec V] in
theorem observe_path (s : AsyncInvokeServer V) (moment : Moment V) :
    Path Transition s [] (s.observe moment) := .single (.complete moment.completions)

omit [AnyValue V] [Codec V] in
theorem removeIfReady_path (found : s.invokes[id]? = some invoke) (moment : Moment V) :
    Path Transition s (s.removeIfReady id invoke moment).2 (s.removeIfReady id invoke moment).1 := by
  have seen : (s.observe moment).invokes[id]? = some invoke := found
  have observed := observe_path s moment
  unfold removeIfReady
  dsimp only
  split
  · rename_i removable
    exact observed.append (.single (.erase seen moment.now removable))
  · exact observed.append (.single (.examine seen moment.now))

omit [AnyValue V] [Codec V] in
theorem cleanUpFrom_path (moments : Nat → Moment V) (ids : List UInt64) :
    ∀ (k : Nat) (s : AsyncInvokeServer V),
      Path Transition s (cleanUpFrom moments k ids s).2 (cleanUpFrom moments k ids s).1 := by
  induction ids with
  | nil => intro k s; exact .nil
  | cons id ids ih =>
    intro k s
    unfold cleanUpFrom
    cases found : s.invokes[id]? with
    | none => exact ih k s
    | some invoke => exact (removeIfReady_path found (moments k)).append (ih (k+1) _)

theorem newRequest_path (s : AsyncInvokeServer V) (payload : V) (encoding : PayloadEncoding)
    (moments : Nat → Moment V) : Path Transition s (s.newRequest payload encoding moments).1.effects
      (s.newRequest payload encoding moments).2 := by
  have observed := observe_path s (moments 0)
  have launched := Path.single (Transition.launch (s := s.observe (moments 0)) payload (moments 0).now)
  exact observed.append launched

omit [AnyValue V] [Codec V] in
theorem poll_access (found : s.invokes[id]? = some invoke) (calls : Calls V) (now : UInt64) :
    Path Transition s ((invoke.isReady calls now).2.2.map (.on id))
      (s.store id (invoke.isReady calls now).2.1) := by
  rcases AsyncInvoke.isReady_cases invoke calls now with refused | ⟨call,_,_,read⟩
  · rw [refused]
    exact .single (.rewrite found)
  · rw [read]
    exact .single (.access found now)

theorem poll_path (s : AsyncInvokeServer V) (id : UInt64) (encoding : PayloadEncoding)
    (moments : Nat → Moment V) : Path Transition s (s.poll id encoding moments).1.effects
      (s.poll id encoding moments).2 := by
  unfold poll
  cases found : s.invokes[id]? with
  | none => exact .nil
  | some invoke =>
    have seen : (s.observe (moments 0)).invokes[id]? = some invoke := found
    have examined := (observe_path s (moments 0)).append (.single (.examine seen (moments 0).now))
    dsimp only
    split
    · exact examined
    · have again : ((s.observe (moments 0)).observe (moments 1)).invokes[id]? = some invoke := found
      exact examined.append ((observe_path _ (moments 1)).append (poll_access again _ _))

theorem getReply_path (s : AsyncInvokeServer V) (id : UInt64) (encoding : PayloadEncoding)
    (moments : Nat → Moment V) : Path Transition s (s.getReply id encoding moments).1.effects
      (s.getReply id encoding moments).2 := by
  unfold getReply
  cases found : s.invokes[id]? with
  | none => exact .nil
  | some invoke =>
    have seen : (s.observe (moments 0)).invokes[id]? = some invoke := found
    have observed := observe_path s (moments 0)
    dsimp only
    rcases AsyncInvoke.getReply_cases invoke (s.observe (moments 0)).calls with
      refused | ⟨call,outcome,held,ended,wanted,delivered⟩
    · rw [refused]
      have kept : ((s.observe (moments 0)).store id invoke).invokes[id]? = some invoke := by simp
      exact observed.append ((Path.single (.rewrite seen)).append (removeIfReady_path kept (moments 1)))
    · rw [delivered]
      -- the future is gone, so the removal that follows needs no look at the clock
      have ready : Tasks.isReady (s.observe (moments 0)).calls call = true := by
        rw [Tasks.isReady,ended]; rfl
      have taken := Transition.retrieve seen held ready wanted
      have removed := observe_path (((s.observe (moments 0)).store id
        {invoke with future := none}).erase id) (moments 1)
      exact observed.append ((Path.single taken).append removed)

theorem invalidate_path (s : AsyncInvokeServer V) (id : UInt64) (moments : Nat → Moment V) :
    Path Transition s (s.invalidate id moments).1.effects (s.invalidate id moments).2 := by
  unfold invalidate
  cases found : s.invokes[id]? with
  | none => exact .nil
  | some invoke =>
    have kept : (s.store id invoke.invalidate).invokes[id]? = some invoke.invalidate := by simp
    exact (Path.single (.invalidate found)).append (removeIfReady_path kept (moments 0))

theorem step_path (s : AsyncInvokeServer V) (event : Event V) :
    Path Transition s (s.step event).1.effects (s.step event).2 := by
  cases event with
  | complete call outcome => exact .single (.complete [(call,outcome)])
  | cleanUpExpiredRequests moments => exact cleanUpFrom_path moments _ 0 s
  | handleInvoke payload encoding command moments =>
    unfold step handleInvoke
    dsimp only
    split
    · exact newRequest_path s payload encoding moments
    · cases extractAsyncRequestId payload with
      | none => exact .nil
      | some id =>
        dsimp only
        split
        · exact poll_path s id encoding moments
        · split
          · exact getReply_path s id encoding moments
          · split
            · exact invalidate_path s id moments
            · exact .nil

end Functions

-- A single instant: no call ends inside the command, and each reading of the
-- clock gives the same time.
def instant (now : UInt64) : Nat → Moment V := fun _ => ⟨[],now⟩

abbrev Handled (V : Type) := Record (AsyncInvokeServer V) (Event V) (Output V)

def handled (expirationTimeNs : UInt64) (events : List (Event V)) : List (Handled V) :=
  history step (start expirationTimeNs) events

def reached (expirationTimeNs : UInt64) (events : List (Event V)) : AsyncInvokeServer V :=
  run step (start expirationTimeNs) events

def effectsOf (records : List (Handled V)) : List Effect := records.flatMap (·.output.effects)

omit [AnyValue V] [Codec V] in
@[simp] theorem effectsOf_append (earlier later : List (Handled V)) :
    effectsOf (earlier ++ later) = effectsOf earlier ++ effectsOf later := by
  simp [effectsOf,List.flatMap_append]

omit [AnyValue V] [Codec V] in
@[simp] theorem effectsOf_single (r : Handled V) : effectsOf [r] = r.output.effects := by
  simp [effectsOf]

theorem run_path (s : AsyncInvokeServer V) (events : List (Event V)) :
    Path Transition s (effectsOf (history step s events)) (run step s events) := by
  induction events generalizing s with
  | nil => exact .nil
  | cons event events ih => exact (step_path s event).append (ih (s.step event).2)

theorem reached_path (expirationTimeNs : UInt64) (events : List (Event V)) :
    Path Transition (start expirationTimeNs) (effectsOf (handled expirationTimeNs events))
      (reached expirationTimeNs events) := run_path _ events

theorem handled_snoc (expirationTimeNs : UInt64) (events : List (Event V)) (event : Event V) :
    handled expirationTimeNs (events ++ [event]) =
      handled expirationTimeNs events ++ [record step (reached expirationTimeNs events) event] :=
  history_append _ events [event]

theorem handled_append (expirationTimeNs : UInt64) (events more : List (Event V)) :
    effectsOf (handled expirationTimeNs (events ++ more)) =
      effectsOf (handled expirationTimeNs events) ++
        effectsOf (history step (reached expirationTimeNs events) more) := by
  unfold handled reached
  rw [history_append,effectsOf_append]

theorem reached_snoc (expirationTimeNs : UInt64) (events : List (Event V)) (event : Event V) :
    reached expirationTimeNs (events ++ [event]) = ((reached expirationTimeNs events).step event).2 :=
  run_append _ events [event]

end SupProtocol.AsyncInvokeServer
