import SupProtocol.ReplyDecoding
import SupProtocol.WireTrace

namespace SupProtocol
open AsyncInvocation ProtocolRPCClient

variable {V : Type} [AnyValue V] [Codec V] {σ : Type}

-- A server without asynchronous support: the command of a packet means nothing
-- to it, and it marks no reply.
structure Unaware (functor : AnyFunctor σ V) : Prop where
  blind : ∀ packet marked command s, addAsyncCommand packet command = .ok marked →
    (functor marked s).1 = (functor packet s).1
  unmarked : ∀ packet s reply t, functor packet s = (.ok reply,t) → getAsyncInfo reply = none

def decided (answer : Except Exception V) (output : V) : Invoked V :=
  match answer with
  | .error _ => ⟨.ok .clientTransportException,output⟩
  | .ok reply => ⟨.ok (decodeReply reply output).1,(decodeReply reply output).2⟩

theorem exchange_decided {functor : AnyFunctor σ V} {request : Except Exception V} {packet : V} {s t : σ}
    {answer : Except Exception V} (built : request = .ok packet)
    (answered : functor packet s = (answer,t)) (output : V) :
    exchange functor request handleSyncInvokeReply output s = (decided answer output,t) := by
  cases answer with
  | error error => simp only [exchange,send,built,answered,decided]
  | ok reply => exact exchange_answered built answered handleSyncInvokeReply output

-- Start checks the format of an unmarked reply and GetReply decodes it, so that
-- together they do what the synchronous decoder does in one step.
theorem fallback_decided {functor : AnyFunctor σ V} {config : ProtocolRPCClientConfig} {input marked : V}
    {s t : σ} {answer : Except Exception V}
    (built : createAsyncRPCRequest input config.encoding = .ok marked)
    (answered : functor marked s = (answer,t))
    (unmarked : ∀ reply, answer = .ok reply → getAsyncInfo reply = none)
    (startTimestamp : UInt64) (clock : Nat → UInt64) (polls : Nat) (output : V) :
    handleAsyncInvoke functor config startTimestamp clock polls input output s =
      (some (decided answer output),t) := by
  cases answer with
  | error error => exact handleAsyncInvoke_throws startTimestamp clock polls output built answered
  | ok reply =>
    exact handleAsyncInvoke_plain startTimestamp clock polls output built answered (unmarked reply rfl)

theorem fallback_synchronous [LawfulAnyValue V] {functor : AnyFunctor σ V} (unaware : Unaware functor)
    (config plain : ProtocolRPCClientConfig) (asynchronous : config.async = true)
    (synchronous : plain.async = false) (same : plain.encoding = config.encoding)
    (supported : isSupportedPayloadEncoding config.encoding = true) (startTimestamp started : UInt64)
    (clock ticks : Nat → UInt64) (polls looks : Nat) (input output : V)
    (nonempty : isEmptyValue input = false) (s : σ) :
    ∃ invoked,
      (invoke functor config startTimestamp clock polls input output s).1 = some invoked ∧
      (invoke functor plain started ticks looks input output s).1 = some invoked ∧
      ∃ t request answer, invoke (tracing functor) config startTimestamp clock polls input output (s,[]) =
        (some invoked,t,[(request,answer)]) := by
  obtain ⟨packet,built,_⟩ := createRPCRequest_represents (V := V) nonempty supported
  obtain ⟨marked,building,_⟩ := createAsyncRPCRequest_represents (V := V) nonempty supported
  have added : addAsyncCommand packet .kInitialRequest = .ok marked := by
    simp only [createRPCRequest,createAsyncRPCRequest,nonempty] at built building
    rw [if_neg (by simp)] at built building
    rwa [built] at building
  rcases answered : functor marked s with ⟨answer,t⟩
  rcases again : functor packet s with ⟨given,u⟩
  have same_answer : answer = given := by
    have blind := unaware.blind packet marked .kInitialRequest s added
    rwa [answered,again] at blind
  subst given
  have unmarked : ∀ reply, answer = .ok reply → getAsyncInfo reply = none := by
    rintro reply rfl
    exact unaware.unmarked marked s reply t answered
  refine ⟨decided answer output,?_,?_,t,marked,answer,?_⟩
  · rw [invoke_asynchronous nonempty asynchronous,fallback_decided building answered unmarked]
  · rw [invoke_synchronous nonempty synchronous,handleSyncInvoke,same,exchange_decided built again]
  · rw [invoke_asynchronous nonempty asynchronous,
      fallback_decided building (tracing_answers answered []) unmarked]
    rfl

def plainServer : AnyFunctor Nat Reference.Value := fun _ packets =>
  (if packets % 2 = 1 then .error (.foreign "timeout")
    else createRPCReply .success (.string "done") .kNone,packets+1)

theorem plainServer_unaware : Unaware plainServer where
  blind _ _ _ _ _ := rfl
  unmarked packet packets reply t answered := by
    unfold plainServer at answered
    split at answered
    · cases answered
    · cases answered
      rfl

theorem fallback_synchronous_plain :
    ∃ invoked,
      (invoke plainServer ⟨.kBase64,true,100,10⟩ 0 (fun _ => 5) 3 (.string "measure") .empty 0).1 =
        some invoked ∧
      (invoke plainServer ⟨.kBase64,false,0,0⟩ 0 (fun _ => 0) 0 (.string "measure") .empty 0).1 =
        some invoked ∧
      ∃ t request answer, invoke (tracing plainServer) ⟨.kBase64,true,100,10⟩ 0 (fun _ => 5) 3
        (.string "measure") .empty (0,[]) = (some invoked,t,[(request,answer)]) :=
  fallback_synchronous plainServer_unaware ⟨.kBase64,true,100,10⟩ ⟨.kBase64,false,0,0⟩ rfl rfl rfl rfl
    0 0 (fun _ => 5) (fun _ => 0) 3 0 (.string "measure") .empty rfl 0

end SupProtocol
