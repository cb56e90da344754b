import SupProtocol.AsyncTransport

namespace SupProtocol

variable {V : Type} [AnyValue V] [Codec V]

def Invoked.outcome {V : Type} (invoked : Invoked V) : Outcome V :=
  match invoked.result with
  | .error error => .error error
  | .ok result => .ok (result,invoked.output)

-- A synchronous client is a Protocol itself, and may be what another server
-- calls. Each of its calls finds its own server in the state of the link.
structure Hop (V : Type) where
  config : ProtocolRPCClientConfig
  synchronous : config.async = false
  schedule : Nat → Schedule V
  link : Link V

namespace Hop

-- The branch of Invoke for a synchronous configuration.
def invoke (hop : Hop V) (application : Protocol V) (input output : V) : Invoked V :=
  if isEmptyValue input then ⟨.ok .clientTransportEncodingError,output⟩
  else (ProtocolRPCClient.handleSyncInvoke (Link.functor application hop.schedule) hop.config input
    output hop.link).1

def service (hop : Hop V) (application : Protocol V) (input output : V) : Invoked V :=
  (ProtocolRPCClient.service (Link.functor application hop.schedule) hop.config input output hop.link).1

def protocol (hop : Hop V) (application : Protocol V) : Protocol V :=
  ⟨fun input output => (hop.invoke application input output).outcome,
   fun input output => (hop.service application input output).outcome⟩

theorem invoke_exact (hop : Hop V) (application : Protocol V) (startTimestamp : UInt64)
    (clock : Nat → UInt64) (polls : Nat) (input output : V) :
    (ProtocolRPCClient.invoke (Link.functor application hop.schedule) hop.config startTimestamp clock
      polls input output hop.link).1 = some (hop.invoke application input output) := by
  unfold invoke
  cases bare : isEmptyValue input with
  | true => simp [ProtocolRPCClient.invoke,bare]
  | false =>
    rw [invoke_synchronous bare hop.synchronous]
    rfl

end Hop

def chain (application : Protocol V) : List (Hop V) → Protocol V
  | [] => application
  | hop :: hops => hop.protocol (chain application hops)

def forwarded (application : Protocol V) : Protocol V :=
  let through (method : V → V → Outcome V) (input output : V) : Outcome V :=
    if isEmptyValue input then .ok (.clientTransportEncodingError,output)
    else .ok (callResult (method input empty) output)
  ⟨through application.invoke,through application.service⟩

section Chains
variable [LawfulAnyValue V] [LawfulAssign V]

omit [Codec V] in
theorem callResult_passed (outcome : Outcome V) (output : V) :
    callResult (.ok (callResult outcome empty)) output = callResult outcome output := by
  have bare := LawfulAnyValue.empty_isEmpty (V := V)
  cases outcome with
  | error error => simp [callResult]
  | ok answer =>
    obtain ⟨result,payload⟩ := answer
    by_cases success : result = .success
    · subst result
      cases hollow : isEmptyValue payload with
      | true => simp [callResult,hollow]
      | false => rw [callResult_taken hollow bare]
    · simp [callResult,success]

omit [Codec V] in
theorem forwarded_again (application : Protocol V) :
    forwarded (forwarded application) = forwarded application := by
  have passed : ∀ (method : V → V → Outcome V) (input output : V),
      (if isEmptyValue input then (.ok (.clientTransportEncodingError,output) : Outcome V)
        else .ok (callResult (if isEmptyValue input then .ok (.clientTransportEncodingError,empty)
          else .ok (callResult (method input empty) empty)) output)) =
      if isEmptyValue input then .ok (.clientTransportEncodingError,output)
        else .ok (callResult (method input empty) output) := by
    intro method input output
    cases isEmptyValue input with
    | true => rfl
    | false => simp only [Bool.false_eq_true,if_false,callResult_passed]
  exact congrArg₂ Protocol.mk (funext₂ (passed application.invoke)) (funext₂ (passed application.service))

omit [LawfulAnyValue V] [LawfulAssign V] in
theorem call_outcome {schedule : Nat → Schedule V} {link after : Link V} {made : Made V}
    {outcome : Outcome V} {output : V} {invoked : Invoked V}
    (call : SyncCall schedule link made outcome output invoked after) :
    invoked.outcome = .ok (callResult outcome output) := by
  unfold Invoked.outcome
  rw [call.result,call.output]

variable [LawfulCodec V]

theorem hop_forwards (hop : Hop V) (supported : isSupportedPayloadEncoding hop.config.encoding = true)
    (application : Protocol V) : hop.protocol application = forwarded application := by
  refine congrArg₂ Protocol.mk (funext₂ fun input output => ?_) (funext₂ fun input output => ?_)
  · cases bare : isEmptyValue input with
    | true => simp [Hop.invoke,bare,Invoked.outcome]
    | false =>
      have call : SyncCall hop.schedule hop.link (.invoked input empty) (application.invoke input empty)
          output (ProtocolRPCClient.handleSyncInvoke (Link.functor application hop.schedule) hop.config
            input output hop.link).1 _ :=
        handleSyncInvoke_call application hop.schedule hop.link bare hop.config supported output
      simpa only [Hop.invoke,bare,Bool.false_eq_true,if_false] using call_outcome call
  · cases bare : isEmptyValue input with
    | true => simp [Hop.service,ProtocolRPCClient.service,bare,Invoked.outcome]
    | false =>
      have call : SyncCall hop.schedule hop.link (.serviced input empty) (application.service input empty)
          output (hop.service application input output) _ :=
        service_call application hop.schedule hop.link bare hop.config supported output
      simpa only [bare,Bool.false_eq_true,if_false] using call_outcome call

theorem chain_forwards (application : Protocol V) (hops : List (Hop V)) (relayed : hops ≠ [])
    (supported : ∀ hop ∈ hops, isSupportedPayloadEncoding hop.config.encoding = true) :
    chain application hops = forwarded application := by
  induction hops with
  | nil => exact absurd rfl relayed
  | cons hop hops ih =>
    rw [chain,hop_forwards hop (supported hop (List.mem_cons_self ..))]
    cases hops with
    | nil => rfl
    | cons next hops =>
      rw [ih (by simp) (fun other member => supported other (List.mem_cons_of_mem _ member)),
        forwarded_again]

-- A client cannot tell how many servers its calls pass through, nor in which
-- encodings: it sees what it would see of the application's own server.
theorem relay_transparent (application : Protocol V) (hop : Hop V) (hops : List (Hop V))
    (supported : ∀ other ∈ hop :: hops, isSupportedPayloadEncoding other.config.encoding = true) :
    hop.protocol (chain application hops) = hop.protocol application := by
  have first := hop_forwards hop (supported hop (List.mem_cons_self ..)) application
  exact (chain_forwards application (hop :: hops) (by simp) supported).trans first.symm

end Chains

def idleSchedule : Nat → Schedule Reference.Value :=
  fun _ => ⟨[],0,AsyncInvokeServer.instant 0,[],AsyncInvokeServer.instant 0⟩

def plainHop : Hop Reference.Value := ⟨⟨.kNone,false,0,0⟩,rfl,idleSchedule,.connect 10 ⟨0,5⟩ []⟩
def base64Hop : Hop Reference.Value := ⟨⟨.kBase64,false,0,0⟩,rfl,idleSchedule,.connect 10 ⟨0,5⟩ []⟩

theorem relay_transparent_mixed :
    plainHop.protocol (chain Link.measuring [base64Hop,plainHop]) = plainHop.protocol Link.measuring :=
  relay_transparent Link.measuring plainHop [base64Hop,plainHop] (by
    intro hop member
    simp only [List.mem_cons,List.not_mem_nil,or_false] at member
    rcases member with rfl | rfl | rfl <;> rfl)

end SupProtocol
