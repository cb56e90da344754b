import SupProtocol.CallProgress
import SupProtocol.ClientTotality
import SupProtocol.Library.Dialogue

namespace SupProtocol
open ProtocolRPCClient Dialogue

inductive PacketType where
  | kNormal | kService
  deriving DecidableEq, Repr

section Sending
variable {V : Type} {σ τ : Type} {R : σ → τ → Prop} {f : AnyFunctor σ V} {g : AnyFunctor τ V}

theorem send_alike (alike : Alike R f g) : Alike R (send f) (send g) := by
  intro request s t related
  cases request with
  | error error => exact ⟨rfl,related⟩
  | ok packet =>
    obtain ⟨same,kept⟩ := alike packet s t related
    rcases answered : f packet s with ⟨answer,u⟩
    rcases again : g packet t with ⟨other,v⟩
    rw [answered,again] at same kept
    cases same
    cases answer <;> simpa only [send,answered,again,true_and] using kept

theorem exchange_alike (alike : Alike R f g) (request : Except Exception V)
    (decode : V → V → ProtocolResult × V) (output : V) {s : σ} {t : τ} (related : R s t) :
    (exchange f request decode output s).1 = (exchange g request decode output t).1 ∧
      R (exchange f request decode output s).2 (exchange g request decode output t).2 := by
  obtain ⟨same,kept⟩ := send_alike alike request s t related
  rcases sent : send f request s with ⟨answer,u⟩
  rcases again : send g request t with ⟨other,v⟩
  rw [sent,again] at same kept
  cases same
  rcases answer with _ | _ | reply <;> simpa only [exchange,sent,again,true_and] using kept

end Sending

namespace ClientCall
variable {V : Type} [AnyValue V] [Codec V] {σ τ : Type}

def asker (call : ClientCall V) :
    Asker (Progress V) (Except Exception V) (Except Exception (Option V)) where
  ask := call.request
  hear progress
    | .error error => .returned ⟨.error error,call.output⟩
    | .ok answer => call.receive progress answer

theorem drive_talks (functor : AnyFunctor σ V) (call : ClientCall V) (packets : Nat)
    (s : Progress V × σ) : call.drive functor packets s = talk call.asker (send functor) packets s := by
  induction packets generalizing s with
  | zero => rfl
  | succ packets ih =>
    rw [drive,talk,ih]
    congr 1
    unfold step Dialogue.step
    cases asked : call.request s.1 with
    | none => simp only [asker,asked]
    | some request =>
      rcases sent : send functor request s.2 with ⟨_ | answer,t⟩ <;> simp only [asker,asked,sent]

def method (functor : AnyFunctor σ V) (call : ClientCall V) : PacketType → Nat → σ → Option (Invoked V) × σ
  | .kNormal,polls,s => call.invoke functor polls s
  | .kService,_,s =>
    let (invoked,s) := ProtocolRPCClient.service functor call.config call.input call.output s
    (some invoked,s)

def Returns (functor : AnyFunctor σ V) (call : ClientCall V) (packetType : PacketType) (s : σ)
    (invoked : Invoked V) (t : σ) : Prop :=
  ∃ polls, call.method functor packetType polls s = (some invoked,t)

variable {R : σ → τ → Prop} {f : AnyFunctor σ V} {g : AnyFunctor τ V}

-- A call returns over one functor as over another that cannot be told from it,
-- however long it has to wait.
theorem returns_alike (alike : Alike R f g) (call : ClientCall V) (packetType : PacketType) {s s' : σ}
    {t : τ} (related : R s t) {invoked : Invoked V} (returns : call.Returns f packetType s invoked s') :
    ∃ t', R s' t' ∧ call.Returns g packetType t invoked t' := by
  cases packetType with
  | kNormal =>
    obtain ⟨packets,driven⟩ := (invoke_stepwise f call s s' invoked).mp returns
    rw [drive_talks] at driven
    obtain ⟨same,kept⟩ := talk_alike (send_alike alike) call.asker packets (p := call.begin) related
    rw [driven] at same kept
    refine ⟨_,kept,(invoke_stepwise g call t _ invoked).mpr ⟨packets,?_⟩⟩
    rw [drive_talks]
    exact Prod.ext same.symm rfl
  | kService =>
    obtain ⟨polls,returned⟩ := returns
    simp only [method,ProtocolRPCClient.service] at returned
    cases bare : isEmptyValue call.input with
    | true =>
      simp only [bare,if_true] at returned
      cases returned
      exact ⟨t,related,0,by simp [method,ProtocolRPCClient.service,bare]⟩
    | false =>
      simp only [bare] at returned
      obtain ⟨same,kept⟩ := exchange_alike alike (createServiceRequest call.input call.config.encoding)
        serviced call.output related
      cases returned
      refine ⟨_,kept,0,?_⟩
      simp [method,ProtocolRPCClient.service,bare,same]

theorem returns_quiet [LawfulAnyValue V] [LawfulAssign V] {call : ClientCall V} {packetType : PacketType}
    (supported : isSupportedPayloadEncoding call.config.encoding = true) {s s' : σ} {invoked : Invoked V}
    (returns : call.Returns f packetType s invoked s') : Total invoked call.output := by
  obtain ⟨polls,returned⟩ := returns
  cases nonempty : isEmptyValue call.input with
  | true =>
    cases packetType with
    | kNormal =>
      simp only [method,invoke,ProtocolRPCClient.invoke,nonempty,if_true] at returned
      cases returned
      exact ⟨⟨_,rfl⟩,fun _ => rfl⟩
    | kService =>
      simp only [method,ProtocolRPCClient.service,nonempty,if_true] at returned
      cases returned
      exact ⟨⟨_,rfl⟩,fun _ => rfl⟩
  | false =>
    cases packetType with
    | kService =>
      obtain ⟨packet,built,_⟩ := createServiceRequest_represents (V := V) nonempty supported
      simp only [method,ProtocolRPCClient.service,nonempty] at returned
      cases returned
      exact exchange_total f built (serviced_atomic LawfulAssign.assign_failed) call.output s
    | kNormal =>
      simp only [method,ClientCall.invoke] at returned
      cases asynchronous : call.config.async with
      | true =>
        rw [invoke_asynchronous nonempty asynchronous] at returned
        exact handleAsyncInvoke_total supported f LawfulAssign.assign_failed call.config rfl
          call.startTimestamp call.clock polls nonempty call.output s invoked
          (congrArg Prod.fst returned)
      | false =>
        obtain ⟨packet,built,_⟩ := createRPCRequest_represents (V := V) nonempty supported
        rw [invoke_synchronous nonempty asynchronous] at returned
        cases returned
        exact exchange_total f built (decodeReply_atomic LawfulAssign.assign_failed) call.output s

theorem returns_thrown [LawfulAnyValue V] {call : ClientCall V} {packetType : PacketType}
    (supported : isSupportedPayloadEncoding call.config.encoding = true)
    (nonempty : isEmptyValue call.input = false) {P : σ → Prop} {s s' : σ}
    (throws : ∀ packet, ∃ error t, f packet s = (.error error,t) ∧ P t) {invoked : Invoked V}
    (returns : call.Returns f packetType s invoked s') :
    invoked = ⟨.ok .clientTransportException,call.output⟩ ∧ P s' := by
  obtain ⟨polls,returned⟩ := returns
  cases packetType with
  | kService =>
    obtain ⟨packet,built,_⟩ := createServiceRequest_represents (V := V) nonempty supported
    obtain ⟨error,t,thrown,kept⟩ := throws packet
    simp only [method,ProtocolRPCClient.service,nonempty,exchange,send,built,thrown] at returned
    cases returned
    exact ⟨rfl,kept⟩
  | kNormal =>
    simp only [method,ClientCall.invoke] at returned
    cases asynchronous : call.config.async with
    | true =>
      obtain ⟨packet,built,_⟩ := createAsyncRPCRequest_represents (V := V) nonempty supported
      obtain ⟨error,t,thrown,kept⟩ := throws packet
      rw [invoke_asynchronous nonempty asynchronous,
        handleAsyncInvoke_throws call.startTimestamp call.clock polls call.output built thrown] at returned
      cases returned
      exact ⟨rfl,kept⟩
    | false =>
      obtain ⟨packet,built,_⟩ := createRPCRequest_represents (V := V) nonempty supported
      obtain ⟨error,t,thrown,kept⟩ := throws packet
      rw [invoke_synchronous nonempty asynchronous] at returned
      simp only [handleSyncInvoke,exchange,send,built,thrown] at returned
      cases returned
      exact ⟨rfl,kept⟩

end ClientCall

end SupProtocol
