import SupProtocol.Library.Machine
import SupProtocol.ProtocolRpc
import SupProtocol.ReferenceValue

namespace SupProtocol
open Machine

-- What a call of a callback leads to: anything it does that can be observed, in
-- order, and the exception it ends in, if any.
structure Reaction (α : Type) where
  observed : List α
  thrown : Option Exception
  deriving DecidableEq

-- A std::function; `none` is the empty one, which throws when it is called.
abbrev Callback (V α : Type) := Option (V → Bool → Reaction α)

variable {V α : Type}

def Callback.call (func : Callback V α) (value : V) (available : Bool) : Reaction α :=
  match func with
  | none => ⟨[],some (.foreign "bad_function_call")⟩
  | some target => target value available

structure MonitoredVariable (V α : Type) where
  callback : Callback V α

namespace MonitoredVariable

def setMonitorCallback (underlying : MonitoredVariable V α) (func : Callback V α) :
    Bool × MonitoredVariable V α :=
  (true,{underlying with callback := func})

def update (underlying : MonitoredVariable V α) (value : V) (available : Bool) : Reaction α :=
  if underlying.callback.isSome then Callback.call underlying.callback value available else ⟨[],none⟩

end MonitoredVariable

-- The template parameter of EncodedProcessVariable.
structure VariableCodec (V : Type) where
  decode : V → Bool × V

section Base64
variable [AnyValue V] [Codec V]

def kEncodingField : String := "encoding"
def kBase64Encoding : String := "base64"
def kValueField : String := "value"

def validateBase64AnyValue (val : V) : Bool :=
  match member val kEncodingField with
  | none => false
  | some encoding =>
    if asScalar .string encoding ≠ some kBase64Encoding then false
    else validateMemberType val kValueField .string

def Base64VariableCodec.decode (val : V) : Bool × V :=
  if !validateBase64AnyValue val then (false,empty)
  else
    match (member val kValueField).bind (asScalar .string) with
    | none => (false,empty)
    | some encoded =>
      match base64Decode V encoded with
      | .error _ => (false,empty)
      | .ok binary =>
        match anyValueFromBinary binary with
        | .error _ => (false,empty)
        | .ok decoded => (true,decoded)

def base64VariableCodec : VariableCodec V := ⟨Base64VariableCodec.decode⟩

end Base64

def wrappedCb (codec : VariableCodec V) (func : Callback V α) (value : V) (available : Bool) :
    Reaction α :=
  let decoded := codec.decode value
  Callback.call func decoded.2 (available && decoded.1)

def EncodedProcessVariable.setMonitorCallback (codec : VariableCodec V)
    (underlying : MonitoredVariable V α) (func : Callback V α) : Bool × MonitoredVariable V α :=
  underlying.setMonitorCallback (some (wrappedCb codec func))

-- An encoded variable and the VariableCallbackGuard objects alive on it, each
-- with its m_cb_supported.
structure Monitored (V α : Type) where
  underlying : MonitoredVariable V α
  guards : Nat → Option Bool

inductive Action (V α : Type) where
  | setMonitorCallback (func : Callback V α)
  | construct (guard : Nat) (cb : Callback V α)
  | destroy (guard : Nat)
  | update (value : V) (available : Bool)

namespace Monitored

def start : Monitored V α := ⟨⟨none⟩,fun _ => none⟩

def step (codec : VariableCodec V) (s : Monitored V α) :
    Action V α → Option (Reaction α) × Monitored V α
  | .setMonitorCallback func =>
    (none,{s with underlying := (EncodedProcessVariable.setMonitorCallback codec s.underlying func).2})
  | .construct guard cb =>
    let (cbSupported,underlying) := EncodedProcessVariable.setMonitorCallback codec s.underlying cb
    (none,⟨underlying,Function.update s.guards guard (some cbSupported)⟩)
  | .destroy guard =>
    let underlying :=
      if s.guards guard = some true then (EncodedProcessVariable.setMonitorCallback codec s.underlying none).2
      else s.underlying
    (none,⟨underlying,Function.update s.guards guard none⟩)
  | .update value available => (some (s.underlying.update value available),s)

end Monitored

-- WaitForVariableValue registers its callback by a guard that lives as long as
-- the call; what happens meanwhile is up to everybody.
def waitForVariableValue (cbGuard : Nat) (callback : Callback V α) (meanwhile : List (Action V α)) :
    List (Action V α) :=
  .construct cbGuard callback :: (meanwhile ++ [.destroy cbGuard])

-- What the interface promises: the callback set last, if one was set at all, and
-- the guards that will clear it.
structure Intended (V α : Type) where
  latest : Option (Callback V α)
  guards : Nat → Bool

def intend (s : Intended V α) : Action V α → Intended V α
  | .setMonitorCallback func => {s with latest := some func}
  | .construct guard cb => ⟨some cb,Function.update s.guards guard true⟩
  | .destroy guard =>
    ⟨if s.guards guard then some none else s.latest,Function.update s.guards guard false⟩
  | .update _ _ => s

def intended (actions : List (Action V α)) : Intended V α :=
  actions.foldl intend ⟨none,fun _ => false⟩

def expected (codec : VariableCodec V) (latest : Option (Callback V α)) (value : V) (available : Bool) :
    Reaction α :=
  match latest with
  | some (some target) => target (codec.decode value).2 (available && (codec.decode value).1)
  | some none | none => ⟨[],none⟩

structure Related (codec : VariableCodec V) (s : Monitored V α) (i : Intended V α) : Prop where
  callback : s.underlying.callback = i.latest.map (wrappedCb codec)
  guards : ∀ guard, s.guards guard = if i.guards guard then some true else none

theorem step_related {codec : VariableCodec V} {s : Monitored V α} {i : Intended V α}
    (related : Related codec s i) (action : Action V α) :
    Related codec (Monitored.step codec s action).2 (intend i action) := by
  obtain ⟨callback,guards⟩ := related
  cases action with
  | setMonitorCallback func => exact ⟨rfl,guards⟩
  | update value available => exact ⟨callback,guards⟩
  | construct guard cb =>
    refine ⟨rfl,fun other => ?_⟩
    by_cases same : other = guard
    · subst same
      simp [Monitored.step,intend,EncodedProcessVariable.setMonitorCallback,
        MonitoredVariable.setMonitorCallback]
    · simpa [Monitored.step,intend,same] using guards other
  | destroy guard =>
    refine ⟨?_,fun other => ?_⟩
    · have here := guards guard
      cases alive : i.guards guard with
      | true =>
        simp only [alive,if_true] at here
        simp [Monitored.step,intend,alive,here,EncodedProcessVariable.setMonitorCallback,
          MonitoredVariable.setMonitorCallback]
      | false =>
        simp only [alive] at here
        simpa [Monitored.step,intend,alive,here] using callback
    · by_cases same : other = guard
      · subst same
        simp [Monitored.step,intend]
      · simpa [Monitored.step,intend,same] using guards other

theorem run_related (codec : VariableCodec V) (actions : List (Action V α)) :
    Related codec (run (Monitored.step codec) .start actions) (intended actions) := by
  apply run_simulates (R := Related codec)
  · intro s i action related
    exact step_related related action
  · exact ⟨rfl,fun guard => rfl⟩

def reaction (codec : VariableCodec V) (actions : List (Action V α)) (value : V) (available : Bool) :
    Option (Reaction α) :=
  (Monitored.step codec (run (Monitored.step codec) .start actions) (.update value available)).1

theorem reaction_exact (codec : VariableCodec V) (actions : List (Action V α)) (value : V)
    (available : Bool) :
    reaction codec actions value available =
      some (expected codec (intended actions).latest value available) ↔
      (intended actions).latest ≠ some none := by
  have related := (run_related codec actions).callback
  simp only [reaction,Monitored.step,MonitoredVariable.update,related]
  rcases (intended actions).latest with _ | _ | target
  · simp [expected]
  · simp [expected,wrappedCb,Callback.call]
  · simp [expected,wrappedCb,Callback.call]

def CallbacksReached (codec : VariableCodec V) (actions : List (Action V α)) : Prop :=
  ∀ earlier value available later, actions = earlier ++ .update value available :: later →
    reaction codec earlier value available =
      some (expected codec (intended earlier).latest value available)

def UpdatesHeard (actions : List (Action V α)) : Prop :=
  ∀ earlier value available later, actions = earlier ++ .update value available :: later →
    (intended earlier).latest ≠ some none

theorem callbacks_reached_exact (codec : VariableCodec V) (actions : List (Action V α)) :
    CallbacksReached codec actions ↔ UpdatesHeard actions := by
  constructor
  · intro reached earlier value available later parts
    exact (reaction_exact codec earlier value available).mp (reached earlier value available later parts)
  · intro heard earlier value available later parts
    exact (reaction_exact codec earlier value available).mpr (heard earlier value available later parts)

-- A Base64ProcessVariable that someone has waited for: the guard clears the
-- callback, and the next update throws.
def encodedFive : Reference.Value :=
  .withMember (.withMember (.emptyStruct "") kEncodingField (.string kBase64Encoding)) kValueField
    (Encoding.base64Encode (.unsignedInteger32 5))

def waitOver : List (Action Reference.Value (Reference.Value × Bool)) :=
  waitForVariableValue 0 (some fun value connected => ⟨[(value,connected)],none⟩)
    [.update encodedFive true]

theorem cleared_callback_throws :
    reaction base64VariableCodec waitOver encodedFive true =
      some ⟨[],some (.foreign "bad_function_call")⟩ ∧
    ¬ CallbacksReached base64VariableCodec (waitOver ++ [.update encodedFive true]) := by
  have throws : reaction base64VariableCodec waitOver encodedFive true =
    some ⟨[],some (.foreign "bad_function_call")⟩ := rfl
  refine ⟨throws,?_⟩
  intro reached
  have silent := reached waitOver encodedFive true [] rfl
  rw [throws] at silent
  cases silent

end SupProtocol
