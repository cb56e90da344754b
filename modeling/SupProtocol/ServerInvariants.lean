import SupProtocol.ServerTransition

namespace SupProtocol.AsyncInvokeServer
open Machine

variable {V : Type} {s t : AsyncInvokeServer V} {labels log : List Effect}

theorem transition_calls (step : Transition s labels t) : Tasks.Extends s.calls t.calls := by
  cases step with
  | complete completions => exact Tasks.finishAll_extends _ _
  | launch payload now => exact Tasks.launch_extends _ _
  | _ => exact .refl _

theorem transition_expiration (step : Transition s labels t) :
    t.expirationTimeNs = s.expirationTimeNs := by
  cases step <;> rfl

theorem path_calls (path : Path Transition s labels t) : Tasks.Extends s.calls t.calls := by
  induction path with
  | nil => exact .refl _
  | cons first rest ih => exact (transition_calls first).trans ih

theorem path_expiration (path : Path Transition s labels t) :
    t.expirationTimeNs = s.expirationTimeNs := by
  induction path with
  | nil => rfl
  | cons first rest ih => exact ih.trans (transition_expiration first)

theorem calls_grow (s : AsyncInvokeServer V) (labels : List Effect) (t : AsyncInvokeServer V)
    (step : Transition s labels t) : s.calls.length ≤ t.calls.length :=
  (transition_calls step).length

def Entries (s : AsyncInvokeServer V) (P : UInt64 → AsyncInvoke → Prop) : Prop :=
  ∀ (key : UInt64) (invoke : AsyncInvoke), s.invokes[key]? = some invoke → P key invoke

theorem start_entries (expirationTimeNs : UInt64) (P : UInt64 → AsyncInvoke → Prop) :
    Entries (start expirationTimeNs : AsyncInvokeServer V) P := by
  intro key invoke here
  simp [start] at here

-- What holds of every entry need only be checked where an entry is made or
-- changed; `P` and `P'` may speak of the states before and after the step.
theorem transition_entries {P P' : UInt64 → AsyncInvoke → Prop} (step : Transition s labels t)
    (before : Entries s P)
    (carried : ∀ key invoke, P key invoke → P' key invoke)
    (launched : ∀ now, .launched (s.lastId+1) s.calls.length now ∈ labels →
      t.calls.length = s.calls.length + 1 →
      P' (s.lastId+1) ⟨some s.calls.length,false,now,s.expirationTimeNs⟩)
    (accessed : ∀ key invoke now, .on key (.accessed now) ∈ labels → P key invoke →
      P' key {invoke with lastAccess := now})
    (invalidated : ∀ key invoke, .on key .invalidated ∈ labels → P key invoke →
      P' key invoke.invalidate) : Entries t P' := by
  intro key invoke here
  cases step with
  | complete completions => exact carried key invoke (before key invoke here)
  | launch payload now =>
    rw [emplace_lookup] at here
    split at here
    · rename_i fresh
      cases here
      obtain ⟨rfl,_⟩ := fresh
      exact launched now (List.mem_singleton_self _) (by simp [emplace,Tasks.launch])
    · exact carried key invoke (before key invoke here)
  | examine found now => exact carried key invoke (before key invoke here)
  | erase found now removable => exact carried key invoke (before key invoke (erased_entry here).2)
  | rewrite found =>
    rcases stored_entry here with ⟨rfl,rfl⟩ | old
    · exact carried _ _ (before _ _ found)
    · exact carried key invoke (before key invoke old)
  | access found now =>
    rcases stored_entry here with ⟨rfl,rfl⟩ | old
    · exact accessed _ _ now (List.mem_singleton_self _) (before _ _ found)
    · exact carried key invoke (before key invoke old)
  | retrieve found held ended wanted =>
    obtain ⟨other,left⟩ := erased_entry here
    rcases stored_entry left with ⟨same,_⟩ | old
    · exact absurd same other
    · exact carried key invoke (before key invoke old)
  | invalidate found =>
    rcases stored_entry here with ⟨rfl,rfl⟩ | old
    · exact invalidated _ _ (List.mem_singleton_self _) (before _ _ found)
    · exact carried key invoke (before key invoke old)

def Stocked (s : AsyncInvokeServer V) : Prop :=
  s.Entries fun _ invoke => ∃ call, invoke.future = some call ∧ call < s.calls.length

theorem transition_stocked (s : AsyncInvokeServer V) (labels : List Effect)
    (t : AsyncInvokeServer V) (stocked : Stocked s) (step : Transition s labels t) : Stocked t := by
  have longer := calls_grow s labels t step
  refine transition_entries step stocked ?_ ?_ ?_ ?_
  · intro key invoke ⟨call,held,bounded⟩
    exact ⟨call,held,Nat.lt_of_lt_of_le bounded longer⟩
  · intro now _ grown
    exact ⟨s.calls.length,rfl,by omega⟩
  · intro key invoke now _ ⟨call,held,bounded⟩
    exact ⟨call,held,Nat.lt_of_lt_of_le bounded longer⟩
  · intro key invoke _ ⟨call,held,bounded⟩
    exact ⟨call,held,Nat.lt_of_lt_of_le bounded longer⟩

structure Timed (expirationTimeNs : UInt64) (s : AsyncInvokeServer V) : Prop where
  server : s.expirationTimeNs = expirationTimeNs
  entries : s.Entries fun _ invoke => invoke.expirationTimeNs = expirationTimeNs

theorem transition_timed (expirationTimeNs : UInt64) (s : AsyncInvokeServer V)
    (labels : List Effect) (t : AsyncInvokeServer V) (timed : Timed expirationTimeNs s)
    (step : Transition s labels t) : Timed expirationTimeNs t := by
  refine ⟨(transition_expiration step).trans timed.server,?_⟩
  refine transition_entries step timed.entries (fun _ _ same => same) ?_ ?_ ?_
  · intro now _ _
    exact timed.server
  · intro key invoke now _ same
    exact same
  · intro key invoke _ same
    exact same

-- While the counter has not wrapped, the entry under an id belongs to the call
-- that was launched with it.
structure Numbered (s : AsyncInvokeServer V) : Prop where
  counter : s.lastId = UInt64.ofNat s.calls.length
  entries : s.Entries fun key invoke =>
    ∃ call, invoke.future = some call ∧ call + 1 = key.toNat ∧ call < s.calls.length

theorem start_stocked (expirationTimeNs : UInt64) :
    Stocked (start expirationTimeNs : AsyncInvokeServer V) := start_entries _ _
theorem start_timed (expirationTimeNs : UInt64) :
    Timed expirationTimeNs (start expirationTimeNs : AsyncInvokeServer V) :=
  ⟨rfl,start_entries _ _⟩
theorem start_numbered (expirationTimeNs : UInt64) :
    Numbered (start expirationTimeNs : AsyncInvokeServer V) := ⟨rfl,start_entries _ _⟩

theorem next_id {lastId : UInt64} {count : Nat} (counter : lastId = UInt64.ofNat count) :
    lastId + 1 = UInt64.ofNat (count + 1) := by
  rw [counter]
  simp

theorem next_toNat {lastId : UInt64} {count : Nat} (counter : lastId = UInt64.ofNat count)
    (below : count + 1 < UInt64.size) : (lastId + 1).toNat = count + 1 := by
  rw [next_id counter,UInt64.toNat_ofNat']
  exact Nat.mod_eq_of_lt below

theorem transition_counter (step : Transition s labels t)
    (counter : s.lastId = UInt64.ofNat s.calls.length) :
    t.lastId = UInt64.ofNat t.calls.length := by
  cases step with
  | complete completions =>
    change s.lastId = UInt64.ofNat (Tasks.finishAll s.calls completions).length
    rw [Tasks.length_finishAll]
    exact counter
  | launch payload now =>
    have grown : ({s with lastId := s.lastId+1}.emplace (s.lastId+1) payload now).1.calls.length =
      s.calls.length + 1 := by simp [emplace,Tasks.launch]
    rw [grown]
    exact next_id counter
  | _ => exact counter

theorem path_counter (path : Path Transition s labels t)
    (counter : s.lastId = UInt64.ofNat s.calls.length) : t.lastId = UInt64.ofNat t.calls.length := by
  induction path with
  | nil => exact counter
  | cons first rest ih => exact ih (transition_counter first counter)

theorem transition_numbered (s : AsyncInvokeServer V) (labels : List Effect)
    (t : AsyncInvokeServer V) (numbered : Numbered s)
    (step : Transition s labels t ∧ t.calls.length < UInt64.size) : Numbered t := by
  obtain ⟨step,below⟩ := step
  have longer := calls_grow s labels t step
  refine ⟨transition_counter step numbered.counter,?_⟩
  refine transition_entries step numbered.entries ?_ ?_ ?_ ?_
  · intro key invoke ⟨call,held,same,bounded⟩
    exact ⟨call,held,same,Nat.lt_of_lt_of_le bounded longer⟩
  · intro now _ grown
    exact ⟨s.calls.length,rfl,(next_toNat numbered.counter (by omega)).symm,by omega⟩
  · intro key invoke now _ ⟨call,held,same,bounded⟩
    exact ⟨call,held,same,Nat.lt_of_lt_of_le bounded longer⟩
  · intro key invoke _ ⟨call,held,same,bounded⟩
    exact ⟨call,held,same,Nat.lt_of_lt_of_le bounded longer⟩

theorem path_stocked (path : Path Transition s labels t) (stocked : Stocked s) : Stocked t :=
  path.preserves transition_stocked stocked

theorem path_timed {expirationTimeNs : UInt64} (path : Path Transition s labels t)
    (timed : Timed expirationTimeNs s) :
    Timed expirationTimeNs t := path.preserves (transition_timed expirationTimeNs) timed

theorem path_numbered (path : Path Transition s labels t) (below : t.calls.length < UInt64.size)
    (numbered : Numbered s) : Numbered t :=
  (path.restrict calls_grow below).preserves transition_numbered numbered

end SupProtocol.AsyncInvokeServer
