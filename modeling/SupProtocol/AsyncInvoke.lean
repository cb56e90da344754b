import SupProtocol.ProtocolRpc
import SupProtocol.Library.Tasks

namespace SupProtocol

-- What a call to a method of Protocol ends in: its result and the value of its
-- output argument, which every caller here passes in empty, or an exception.
abbrev Outcome (V : Type) := Except Exception (ProtocolResult × V)

-- The calls of Protocol::Invoke that were handed to std::async. A future is the
-- number of its call, and is no longer valid once its value was moved out.
abbrev Calls (V : Type) := Tasks.Pool V (Outcome V)

structure AsyncInvoke where
  future : Option Nat
  invalidated : Bool
  lastAccess : UInt64
  expirationTimeNs : UInt64
  deriving DecidableEq, Repr

-- What a member function did besides returning: each reading of the clock with
-- what it was compared to or stored in, and future.get().
inductive Access where
  | examined (call : Nat) (lastAccess now : UInt64)
  | accessed (now : UInt64)
  | retrieved (call : Nat)
  | invalidated
  deriving DecidableEq, Repr

namespace AsyncInvoke
variable {V : Type} [AnyValue V]

-- The difference of the timestamps wraps, as it does on uint64.
def isExpired (invoke : AsyncInvoke) (now : UInt64) : Bool :=
  decide (now - invoke.lastAccess > invoke.expirationTimeNs)

-- WaitForReady with a timeout of zero.
def isReady (invoke : AsyncInvoke) (calls : Calls V) (now : UInt64) :
    Bool × AsyncInvoke × List Access :=
  match invoke.future with
  | none => (false,invoke,[])
  | some call =>
    if invoke.invalidated then (false,invoke,[])
    else (Tasks.isReady calls call,{invoke with lastAccess := now},[.accessed now])

def isReadyForRemoval (invoke : AsyncInvoke) (calls : Calls V) (now : UInt64) :
    Bool × List Access :=
  match invoke.future with
  | none => (true,[])
  | some call =>
    let isReady := Tasks.isReady calls call
    let isNoLongerNeeded := invoke.invalidated || invoke.isExpired now
    (isReady && isNoLongerNeeded,[.examined call invoke.lastAccess now])

def settled (outcome : Outcome V) : ProtocolResult × V :=
  match outcome with
  | .ok reply => reply
  | .error _ => (.serverProtocolException,empty)

def getReply (invoke : AsyncInvoke) (calls : Calls V) :
    (ProtocolResult × V) × AsyncInvoke × List Access :=
  let failure := ((.invalidAsynchronousOperationError,empty),invoke,[])
  match invoke.future with
  | none => failure
  | some call =>
    match Tasks.outcomeOf calls call with
    | none => failure
    | some outcome =>
      if invoke.invalidated then failure
      else (settled outcome,{invoke with future := none},[.retrieved call])

def invalidate (invoke : AsyncInvoke) : AsyncInvoke := {invoke with invalidated := true}

omit [AnyValue V] in
theorem removable_spent {invoke : AsyncInvoke} (spent : invoke.future = none) (calls : Calls V)
    (now : UInt64) : invoke.isReadyForRemoval calls now = (true,[]) := by
  simp [isReadyForRemoval,spent]

omit [AnyValue V] in
theorem removable_held {invoke : AsyncInvoke} (held : invoke.future = some call)
    (calls : Calls V) (now : UInt64) : invoke.isReadyForRemoval calls now =
      (Tasks.isReady calls call && (invoke.invalidated || invoke.isExpired now),
       [.examined call invoke.lastAccess now]) := by
  simp [isReadyForRemoval,held]

omit [AnyValue V] in
theorem isReady_reads {invoke : AsyncInvoke} (held : invoke.future = some call)
    (wanted : invoke.invalidated = false) (calls : Calls V) (now : UInt64) :
    invoke.isReady calls now =
      (Tasks.isReady calls call,{invoke with lastAccess := now},[.accessed now]) := by
  simp [isReady,held,wanted]

omit [AnyValue V] in
theorem isReady_result {invoke : AsyncInvoke} (held : invoke.future = some call)
    (calls : Calls V) (now : UInt64) :
    (invoke.isReady calls now).1 = (Tasks.isReady calls call && !invoke.invalidated) := by
  cases unwanted : invoke.invalidated <;> simp [isReady,held,unwanted]

omit [AnyValue V] in
theorem isReady_cases (invoke : AsyncInvoke) (calls : Calls V) (now : UInt64) :
    invoke.isReady calls now = (false,invoke,[]) ∨
    ∃ call, invoke.future = some call ∧ invoke.invalidated = false ∧ invoke.isReady calls now =
      (Tasks.isReady calls call,{invoke with lastAccess := now},[.accessed now]) := by
  rcases Option.eq_none_or_eq_some invoke.future with spent | ⟨call,held⟩
  · exact Or.inl (by simp [isReady,spent])
  · by_cases unwanted : invoke.invalidated = true
    · exact Or.inl (by simp [isReady,held,unwanted])
    · have wanted : invoke.invalidated = false := by simpa using unwanted
      exact Or.inr ⟨call,held,wanted,isReady_reads held wanted calls now⟩

theorem getReply_delivers {invoke : AsyncInvoke} {calls : Calls V} {outcome : Outcome V}
    (held : invoke.future = some call) (ended : Tasks.outcomeOf calls call = some outcome)
    (wanted : invoke.invalidated = false) :
    invoke.getReply calls = (settled outcome,{invoke with future := none},[.retrieved call]) := by
  simp [getReply,held,ended,wanted]

theorem getReply_refuses {invoke : AsyncInvoke} {calls : Calls V}
    (refused : ∀ call, invoke.future = some call →
      Tasks.isReady calls call = false ∨ invoke.invalidated = true) :
    invoke.getReply calls = ((.invalidAsynchronousOperationError,empty),invoke,[]) := by
  unfold getReply
  cases held : invoke.future with
  | none => rfl
  | some call =>
    cases ended : Tasks.outcomeOf calls call with
    | none => simp [ended]
    | some outcome =>
      have invalid : invoke.invalidated = true := by
        simpa [Tasks.isReady,ended] using refused call held
      simp [ended,invalid]

theorem getReply_cases (invoke : AsyncInvoke) (calls : Calls V) :
    (invoke.getReply calls = ((.invalidAsynchronousOperationError,empty),invoke,[])) ∨
    ∃ call outcome, invoke.future = some call ∧ Tasks.outcomeOf calls call = some outcome ∧
      invoke.invalidated = false ∧
      invoke.getReply calls = (settled outcome,{invoke with future := none},[.retrieved call]) := by
  cases held : invoke.future with
  | none => exact Or.inl (getReply_refuses (by simp [held]))
  | some call =>
    cases ended : Tasks.outcomeOf calls call with
    | none =>
      refine Or.inl (getReply_refuses ?_)
      intro k same
      cases held.symm.trans same
      exact Or.inl (by simp [Tasks.isReady,ended])
    | some outcome =>
      by_cases unwanted : invoke.invalidated = true
      · exact Or.inl (getReply_refuses fun _ _ => Or.inr unwanted)
      · have wanted : invoke.invalidated = false := by simpa using unwanted
        exact Or.inr ⟨call,outcome,rfl,ended,wanted,getReply_delivers held ended wanted⟩

end AsyncInvoke

end SupProtocol
