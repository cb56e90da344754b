import SupProtocol.Library.Machine
import SupProtocol.ReferenceValue

namespace SupProtocol
open Machine

-- What WaitForVariableValue is called with, whether the variable supports callbacks
-- and the operator== of its values. Times are in nanoseconds.
structure VariableWait (V : Type) where
  value : V
  timeout : Int
  callbackSupported : Bool
  equals : V → V → Bool

namespace VariableWait

-- Where the waiting thread is: in the callback path up to `reading`, then in
-- BusyWaitForValue, which holds on to the last value it fetched.
inductive Point (V : Type) where
  | called
  | guarded
  | waiting
  | reading
  | unsupported
  | fetching (endTime : Int) (current : V)
  | comparing (endTime : Int) (current : V)
  | sleeping (endTime : Int) (current : V) (wakeUp : Int)
  -- the guard is still alive
  | leaving (answer : Bool)
  | returned (answer : Bool)
  deriving DecidableEq

-- The variable with the callbacks it still has to deliver, the clock and the wait.
-- The callback looks at `connected` only, so a delivery is that flag.
structure State (V : Type) where
  current : Bool × V
  undelivered : List Bool
  delivered : Nat
  now : Int
  point : Point V
  callbackSet : Bool
  result : Bool
  finish : Option Int

inductive Event (V : Type) where
  | waiter
  | update (available : Bool) (value : V)
  | deliver
  | tick (passed : Nat)

variable {V : Type}

def begin (current : Bool × V) (undelivered : List Bool) (now : Int) : State V :=
  ⟨current,undelivered,0,now,.called,false,true,none⟩

-- wait_until with its predicate and the clearing of the flag, under one lock. The
-- predicate comes first; a thread that it blocks may look again at any time.
def look (s : State V) : State V :=
  if s.result then {s with result := false, point := .reading}
  else
    match s.finish with
    | none => s
    | some finish => if finish ≤ s.now then {s with result := false, point := .leaving false} else s

def accepts (wait : VariableWait V) (info : Bool × V) : Bool :=
  info.1 && wait.equals info.2 wait.value

def pollingIntervalNs : Int := 50000000

-- One step of the thread, with what GetValue(0.0) returned in it.
def advance [AnyValue V] (wait : VariableWait V) (s : State V) : Option (Bool × V) × State V :=
  match s.point with
  | .called =>
    (none,{s with
      result := true
      callbackSet := wait.callbackSupported
      point := if wait.callbackSupported then .guarded else .unsupported})
  | .guarded => (none,{s with finish := some (s.now + wait.timeout), point := .waiting})
  | .waiting => (none,look s)
  | .reading =>
    (some s.current,{s with point := if wait.accepts s.current then .leaving true else .waiting})
  | .unsupported => (none,{s with point := .fetching (s.now + wait.timeout) empty})
  | .fetching endTime current =>
    (some s.current,
     {s with point := .comparing endTime (if s.current.1 then s.current.2 else current)})
  | .comparing endTime current =>
    (none,{s with point :=
      if wait.equals current wait.value then .leaving true
      else if s.now > endTime then .leaving false
      else .sleeping endTime current (s.now + pollingIntervalNs)})
  | .sleeping endTime current wakeUp =>
    (none,if wakeUp ≤ s.now then {s with point := .fetching endTime current} else s)
  | .leaving answer => (none,{s with callbackSet := false, point := .returned answer})
  | .returned _ => (none,s)

def deliver (s : State V) : State V :=
  match s.undelivered with
  | [] => s
  | connected :: rest =>
    {s with
      undelivered := rest
      delivered := s.delivered + 1
      result := if s.callbackSet then connected else s.result}

def step [AnyValue V] (wait : VariableWait V) (s : State V) : Event V → Option (Bool × V) × State V
  | .waiter => wait.advance s
  | .update available value =>
    (none,{s with
      current := (available,value)
      undelivered := s.undelivered ++ [available]})
  | .deliver => (none,deliver s)
  | .tick passed => (none,{s with now := s.now + passed})

abbrev Records (V : Type) := List (Record (State V) (Event V) (Option (Bool × V)))

def Answers (s : State V) (answer : Bool) : Prop := s.point = .leaving answer ∨ s.point = .returned answer

theorem look_cases (s : State V) :
    (s.result = true ∧ look s = {s with result := false, point := .reading}) ∨
    (s.result = false ∧ (∃ finish, s.finish = some finish ∧ finish ≤ s.now) ∧
      look s = {s with result := false, point := .leaving false}) ∨
    (s.result = false ∧ (∀ finish, s.finish = some finish → s.now < finish) ∧ look s = s) := by
  unfold look
  cases up : s.result with
  | true => exact Or.inl ⟨rfl,if_pos rfl⟩
  | false =>
    right
    rw [if_neg Bool.false_ne_true]
    cases known : s.finish with
    | none => exact Or.inr ⟨rfl,(fun _ same => by cases same),rfl⟩
    | some finish =>
      dsimp only
      by_cases passed : finish ≤ s.now
      · exact Or.inl ⟨rfl,⟨finish,rfl,passed⟩,if_pos passed⟩
      · refine Or.inr ⟨rfl,?_,if_neg passed⟩
        intro other same
        cases same
        omega

theorem deliver_cases (s : State V) : (s.undelivered = [] ∧ deliver s = s) ∨
    ∃ connected rest, s.undelivered = connected :: rest ∧ deliver s =
      {s with
        undelivered := rest
        delivered := s.delivered + 1
        result := if s.callbackSet then connected else s.result} := by
  unfold deliver
  cases queue : s.undelivered with
  | nil => exact Or.inl ⟨rfl,rfl⟩
  | cons connected rest => exact Or.inr ⟨connected,rest,rfl,rfl⟩

theorem advance_variable [AnyValue V] (wait : VariableWait V) (s : State V) :
    (wait.advance s).2.current = s.current ∧ (wait.advance s).2.undelivered = s.undelivered ∧
    (wait.advance s).2.delivered = s.delivered := by
  unfold advance
  cases s.point with
  | waiting =>
    rcases look_cases s with ⟨_,next⟩ | ⟨_,_,next⟩ | ⟨_,_,next⟩
    · simp [next]
    · simp [next]
    · simp [next]
  | sleeping endTime current wakeUp =>
    dsimp only
    split <;> exact ⟨rfl,rfl,rfl⟩
  | _ => exact ⟨rfl,rfl,rfl⟩

end VariableWait

end SupProtocol
