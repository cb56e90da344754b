import Mathlib.Data.List.Nodup
import Std.Data.String.ToNat
import SupProtocol.Vocabulary

namespace SupProtocol
open ProtocolResult

def resultNames : List (ProtocolResult × String) :=
  [(success,"Success"),
   (notConnected,"NotConnected"),
   (clientNetworkEncodingError,"ClientNetworkEncodingError"),
   (serverNetworkEncodingError,"ServerNetworkEncodingError"),
   (clientNetworkDecodingError,"ClientNetworkDecodingError"),
   (serverNetworkDecodingError,"ServerNetworkDecodingError"),
   (clientTransportEncodingError,"ClientTransportEncodingError"),
   (serverTransportEncodingError,"ServerTransportEncodingError"),
   (clientTransportDecodingError,"ClientTransportDecodingError"),
   (serverTransportDecodingError,"ServerTransportDecodingError"),
   (clientProtocolEncodingError,"ClientProtocolEncodingError"),
   (serverProtocolEncodingError,"ServerProtocolEncodingError"),
   (clientProtocolDecodingError,"ClientProtocolDecodingError"),
   (serverProtocolDecodingError,"ServerProtocolDecodingError"),
   (serverUnsupportedPayloadEncodingError,"ServerUnsupportedPayloadEncodingError"),
   (invalidRequestIdentifierError,"InvalidRequestIdentifierError"),
   (invalidAsynchronousOperationError,"InvalidAsynchronousOperationError"),
   (serverProtocolException,"ServerProtocolException"),
   (clientTransportException,"ClientTransportException"),
   (asynchronousProtocolTimeout,"AsynchronousProtocolTimeout")]

def protocolResultToString (result : ProtocolResult) : String :=
  match resultNames.lookup result with
  | some name => name
  | none => "Unknown ProtocolResult: " ++ Nat.repr result.value.toNat

theorem names_apart : (resultNames.map Prod.snd).Nodup := by decide

-- No name can be mistaken for the text of an unknown result.
theorem names_start : ∀ entry ∈ resultNames, entry.2.toList.head? ≠ some 'U' := by decide

theorem named_entry {result : ProtocolResult} {name : String}
    (found : resultNames.lookup result = some name) : (result,name) ∈ resultNames := by
  obtain ⟨before,after,parts,_⟩ := List.lookup_eq_some_iff.mp found
  rw [parts]
  exact List.mem_append_right _ (List.mem_cons_self ..)

theorem unknown_start (number : Nat) :
    ("Unknown ProtocolResult: " ++ Nat.repr number).toList.head? = some 'U' := by
  rw [String.toList_append]
  rfl

-- Every result has a text of its own, whichever of the 2^32 values it has.
theorem protocolResultToString_injective : Function.Injective protocolResultToString := by
  intro left right same
  unfold protocolResultToString at same
  cases first : resultNames.lookup left with
  | some name =>
    cases second : resultNames.lookup right with
    | some other =>
      simp only [first,second] at same
      subst other
      have equal := List.inj_on_of_nodup_map names_apart (named_entry first) (named_entry second) rfl
      exact congrArg Prod.fst equal
    | none =>
      simp only [first,second] at same
      have start := names_start _ (named_entry first)
      rw [same] at start
      exact absurd (unknown_start _) start
  | none =>
    cases second : resultNames.lookup right with
    | some other =>
      simp only [first,second] at same
      have start := names_start _ (named_entry second)
      rw [← same] at start
      exact absurd (unknown_start _) start
    | none =>
      simp only [first,second] at same
      have number := Nat.repr_injective (String.append_right_inj _ |>.mp same)
      have value : left.value = right.value := UInt32.toNat_inj.mp number
      cases left
      cases right
      exact congrArg ProtocolResult.mk value

end SupProtocol
