import SupProtocol.PacketDispatch

namespace SupProtocol

variable {V : Type} [AnyValue V] [Codec V]

def Made.input : Made V → V
  | .invoked input _ => input
  | .serviced input _ => input

-- The payload of a packet, whatever else is wrong with it: the service member
-- goes before the query member.
def Carries (packet payload : V) : Prop :=
  ServiceAccepted packet payload ∨
  (member packet serviceRequestPayload = none ∧ PayloadRead packet .query payload)

-- What the interface asks for: an input is never empty, and a packet that
-- carries nothing is refused without a call.
structure NonemptyInputs (packet : V) (before : AsyncInvokeServer V) (answer : PacketAnswer V)
    (after : AsyncInvokeServer V) : Prop where
  made : ∀ made ∈ answer.made, isEmptyValue made.input = false
  launched : ∀ input ∈ launchedInputs before after, isEmptyValue input = false
  rejected : ∀ payload, Carries packet payload → isEmptyValue payload = true →
    answer.made = [] ∧ launchedInputs before after = [] ∧
    ∃ error w, error ≠ .success ∧ WellFormed answer.reply error w

def EmptyEncoded (packet : V) : Prop :=
  EncodingRead packet .kBase64 ∧ ∃ payload, isEmptyValue payload = true ∧
    (ServiceAccepted packet payload ∨ InvokeAccepted packet payload)

theorem refusedFor_error {packet : V} {server : AsyncInvokeServer V} {error : ProtocolResult}
    (refused : RefusedFor packet server error) : error ≠ .success := by
  cases refused <;> decide

section Exact
variable {packet : V}

theorem empty_encoded (solid : ∀ name field, member packet name = some field → isEmptyValue field = false)
    {payload : V} (bare : isEmptyValue payload = true)
    (accepted : ServiceAccepted packet payload ∨ InvokeAccepted packet payload) :
    EmptyEncoded packet := by
  have read : ∃ field, PayloadRead packet field payload := by
    rcases accepted with service | request | request
    · exact ⟨_,service⟩
    · exact ⟨_,request.payload⟩
    · exact ⟨_,request.payload⟩
  obtain ⟨field,encoding,content,read,here,decoded⟩ := read
  rcases supported_cases (encoding_supported read) with rfl | rfl
  · have same : content = payload := Except.ok.inj decoded
    rw [← same,solid field.name content here] at bare
    cases bare
  · exact ⟨read,payload,bare,accepted⟩

omit [AnyValue V] [Codec V] in
theorem only_member {items : List V} {item : V} (short : items.length ≤ 1) (member : item ∈ items) :
    items = [item] := by
  obtain ⟨before,after,parts⟩ := List.append_of_mem member
  rw [parts,List.length_append,List.length_cons] at short
  have nothing : before = [] ∧ after = [] := by
    constructor <;> (apply List.eq_nil_of_length_eq_zero; omega)
  rw [parts,nothing.1,nothing.2]
  rfl

theorem made_accepted {before after : AsyncInvokeServer V} {answer : PacketAnswer V}
    (law : PacketLaw packet before answer after) {made : Made V} (known : made ∈ answer.made) :
    ServiceAccepted packet made.input ∨ InvokeAccepted packet made.input := by
  cases made with
  | serviced input output =>
    have here : input ∈ servicedInputs answer := List.mem_filterMap.mpr ⟨_,known,rfl⟩
    exact Or.inl ((law.service input).mp (only_member law.serviceOnce here))
  | invoked input output =>
    have here : input ∈ invokedInputs answer := List.mem_filterMap.mpr ⟨_,known,rfl⟩
    have once := only_member law.invokeOnce (List.mem_append_left (launchedInputs before after) here)
    exact Or.inr ((law.invoke input).mp once)

theorem launched_accepted {before after : AsyncInvokeServer V} {answer : PacketAnswer V}
    (law : PacketLaw packet before answer after) {input : V}
    (known : input ∈ launchedInputs before after) : InvokeAccepted packet input :=
  (law.invoke input).mp (only_member law.invokeOnce (List.mem_append_right _ known))

theorem accepted_used {before after : AsyncInvokeServer V} {answer : PacketAnswer V}
    (law : PacketLaw packet before answer after) {payload : V}
    (accepted : ServiceAccepted packet payload ∨ InvokeAccepted packet payload) :
    (∃ made ∈ answer.made, made.input = payload) ∨ payload ∈ launchedInputs before after := by
  rcases accepted with service | request
  · have called : payload ∈ servicedInputs answer := by simp [(law.service payload).mpr service]
    obtain ⟨made,known,same⟩ := List.mem_filterMap.mp called
    cases made with
    | serviced input output => exact Or.inl ⟨_,known,Option.some.inj same⟩
    | invoked input output => cases same
  · have called : payload ∈ invokedInputs answer ++ launchedInputs before after := by
      simp [(law.invoke payload).mpr request]
    rcases List.mem_append.mp called with direct | launched
    · obtain ⟨made,known,same⟩ := List.mem_filterMap.mp direct
      cases made with
      | serviced input output => cases same
      | invoked input output => exact Or.inl ⟨_,known,Option.some.inj same⟩
    · exact Or.inr launched

theorem bare_rejected (bare : ∀ (value : V) name, isEmptyValue value = true → member value name = none)
    {payload : V} (carries : Carries packet payload) (nothing : isEmptyValue payload = true)
    (unaccepted : ¬ (ServiceAccepted packet payload ∨ InvokeAccepted packet payload))
    (server : AsyncInvokeServer V) : Rejected packet server := by
  rcases carries with service | ⟨notService,read⟩
  · exact absurd (Or.inl service) unaccepted
  · refine ⟨?_,?_,?_⟩
    · intro other ⟨_,content,_,here,_⟩
      cases here.symm.trans notService
    · intro other request
      have same : other = payload := by
        rcases request with request | request <;> exact payload_unique request.payload read
      exact unaccepted (Or.inr (same ▸ request))
    · intro ⟨other,command,key,request,named,_⟩
      cases payload_unique request.payload read
      simp only [extractAsyncRequestId,bare payload asyncIdFieldName nothing] at named
      cases named

end Exact

-- The application gets an empty input for exactly these packets.
theorem inputs_nonempty_exact [LawfulAnyValue V] (protocol : Protocol V) (server : ProtocolRPCServer V)
    (packet : V) (schedule : Schedule V)
    (solid : ∀ name field, member packet name = some field → isEmptyValue field = false)
    (bare : ∀ (value : V) name, isEmptyValue value = true → member value name = none) :
    NonemptyInputs packet (server.prepared schedule) (server.call protocol packet schedule).1
      (server.call protocol packet schedule).2.asyncServer ↔ ¬ EmptyEncoded packet := by
  have law : PacketLaw packet (server.prepared schedule) (server.call protocol packet schedule).1
      (server.call protocol packet schedule).2.asyncServer :=
    handlePacket_law protocol packet schedule.moments (server.prepared schedule)
  constructor
  · intro nonempty ⟨_,payload,nothing,accepted⟩
    rcases accepted_used law accepted with ⟨made,known,rfl⟩ | launched
    · cases nothing.symm.trans (nonempty.made made known)
    · cases nothing.symm.trans (nonempty.launched payload launched)
  · intro encoded
    have unaccepted : ∀ payload, ServiceAccepted packet payload ∨ InvokeAccepted packet payload →
        isEmptyValue payload = false := by
      intro payload accepted
      by_contra something
      exact encoded (empty_encoded solid (by simpa using something) accepted)
    refine ⟨?_,?_,?_⟩
    · intro made known
      exact unaccepted made.input (made_accepted law known)
    · intro input known
      exact unaccepted input (Or.inr (launched_accepted law known))
    · intro payload carries nothing
      have rejected := bare_rejected bare carries nothing
        (fun accepted => by cases nothing.symm.trans (unaccepted payload accepted))
        (server.prepared schedule)
      obtain ⟨calls,unchanged,error,w,why,answered⟩ := law.rejected rejected
      refine ⟨calls,?_,error,w,refusedFor_error why,answered⟩
      rw [unchanged]
      exact launched_none _

def emptyEncoded : Reference.Value :=
  .withMember (.withMember (.emptyStruct requestTypeName) encodingFieldName (.signedInteger32 1))
    requestPayload (Encoding.base64Encode .empty)

def echoing : Protocol Reference.Value :=
  ⟨fun input _ => .ok (.success,input),fun input _ => .ok (.success,input)⟩

def calm : Schedule Reference.Value :=
  ⟨[],7,AsyncInvokeServer.instant 7,[],AsyncInvokeServer.instant 8⟩

theorem reference_bare (value : Reference.Value) (name : String)
    (nothing : isEmptyValue value = true) : member value name = none := by
  have empty : value = .empty := by simpa [isEmptyValue] using nothing
  rw [empty]
  rfl

theorem inputs_nonempty_plain :
    let packet : Reference.Value :=
      .withMember (.emptyStruct requestTypeName) requestPayload (.string "measure")
    let server : ProtocolRPCServer Reference.Value := ⟨.start 10,⟨0,5⟩⟩
    NonemptyInputs packet (server.prepared calm) (server.call echoing packet calm).1
      (server.call echoing packet calm).2.asyncServer ↔ ¬ EmptyEncoded packet := by
  refine inputs_nonempty_exact echoing ⟨.start 10,⟨0,5⟩⟩ _ calm ?_ reference_bare
  intro name field here
  change (if name = requestPayload then some (Reference.Value.string "measure") else none) = _ at here
  split at here
  · cases here
    rfl
  · cases here

theorem empty_input_invoked :
    let server : ProtocolRPCServer Reference.Value := ⟨.start 10,⟨0,5⟩⟩
    (server.call echoing emptyEncoded calm).1.made = [.invoked .empty .empty] ∧
    ¬ NonemptyInputs emptyEncoded (server.prepared calm) (server.call echoing emptyEncoded calm).1
      (server.call echoing emptyEncoded calm).2.asyncServer := by
  have called : ((⟨.start 10,⟨0,5⟩⟩ : ProtocolRPCServer Reference.Value).call echoing emptyEncoded
      calm).1.made = [.invoked .empty .empty] := rfl
  refine ⟨called,?_⟩
  intro nonempty
  have input := nonempty.made _ (by rw [called]; exact List.mem_singleton_self _)
  cases input

end SupProtocol
