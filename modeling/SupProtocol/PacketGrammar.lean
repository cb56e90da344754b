import SupProtocol.ProtocolRPCServer
import SupProtocol.ServerDelivery

namespace SupProtocol

variable {V : Type} [AnyValue V] [Codec V]

-- The request grammar in terms of members, types and decoding alone.
def EncodingRead (packet : V) (encoding : PayloadEncoding) : Prop :=
  (member packet encodingFieldName = none ∧ encoding = .kNone) ∨
  ∃ field, member packet encodingFieldName = some field ∧
    asScalar .signedInteger32 field = some encoding.value ∧ (encoding = .kNone ∨ encoding = .kBase64)

def PayloadRead (packet : V) (field : PayloadField) (payload : V) : Prop :=
  ∃ encoding content, EncodingRead packet encoding ∧ member packet field.name = some content ∧
    Encoding.decode content encoding = .ok payload

def CommandRead (packet : V) (command : Option AsyncCommand) : Prop :=
  match command with
  | none => member packet asyncCommandFieldName = none
  | some command => ∃ field, member packet asyncCommandFieldName = some field ∧
      asScalar .unsignedInteger32 field = some command.value

structure RequestRead (packet payload : V) (command : Option AsyncCommand) : Prop where
  notService : member packet serviceRequestPayload = none
  payload : PayloadRead packet .query payload
  timestamp : ∀ field, member packet requestTimestamp = some field →
    ∃ stamp, asScalar .unsignedInteger64 field = some stamp
  command : CommandRead packet command

def ServiceAccepted (packet payload : V) : Prop := PayloadRead packet .service payload

def InvokeAccepted (packet payload : V) : Prop :=
  RequestRead packet payload none ∨ RequestRead packet payload (some .kInitialRequest)

def NamesStored (packet : V) (server : AsyncInvokeServer V) : Prop :=
  ∃ payload command key, RequestRead packet payload (some command) ∧
    extractAsyncRequestId payload = some key ∧
    (command = .kPoll ∨ command = .kGetReply ∨ command = .kInvalidate) ∧
    ∃ invoke : AsyncInvoke, server.invokes[key]? = some invoke

structure Rejected (packet : V) (server : AsyncInvokeServer V) : Prop where
  noService : ∀ payload, ¬ ServiceAccepted packet payload
  noInvoke : ∀ payload, ¬ InvokeAccepted packet payload
  noEntry : ¬ NamesStored packet server

omit [Codec V] in
theorem encoding_exact (packet : V) (encoding : PayloadEncoding) :
    tryGetPacketEncoding packet = some encoding ↔ EncodingRead packet encoding := by
  constructor
  · intro read
    unfold tryGetPacketEncoding at read
    cases here : member packet encodingFieldName with
    | none =>
      rw [here] at read
      exact Or.inl ⟨here,(Option.some.inj read).symm⟩
    | some field =>
      rw [here] at read
      dsimp only at read
      split at read
      · cases read
      · rename_i val typed
        split at read
        · rename_i supported
          have same := Option.some.inj read
          subst same
          exact Or.inr ⟨field,here,typed,supported_cases supported⟩
        · cases read
  · rintro (⟨absent,rfl⟩ | ⟨field,here,typed,named⟩)
    · simp only [tryGetPacketEncoding,absent]
    · have supported : isSupportedPayloadEncoding (encodingFromInteger encoding.value) = true := by
        rcases named with rfl | rfl <;> decide
      simp only [tryGetPacketEncoding,here,typed,supported,if_true]
      rfl

omit [Codec V] in
theorem encoding_supported {packet : V} {encoding : PayloadEncoding}
    (read : EncodingRead packet encoding) : isSupportedPayloadEncoding encoding = true := by
  have named : encoding = .kNone ∨ encoding = .kBase64 := by
    rcases read with ⟨_,plain⟩ | ⟨_,_,_,named⟩
    · exact Or.inl plain
    · exact named
  rcases named with rfl | rfl <;> decide

omit [Codec V] in
theorem encoding_unique {packet : V} {left right : PayloadEncoding} (first : EncodingRead packet left)
    (second : EncodingRead packet right) : left = right :=
  Option.some.inj (((encoding_exact packet left).mpr first).symm.trans
    ((encoding_exact packet right).mpr second))

-- Under the encoding that was read the extractors decide PayloadRead.
theorem extract_exact {packet : V} {encoding : PayloadEncoding} (read : EncodingRead packet encoding)
    (field : PayloadField) (payload : V) :
    tryExtractRPCPayload packet field.name encoding = some payload ↔
      PayloadRead packet field payload := by
  unfold tryExtractRPCPayload
  constructor
  · intro extracted
    cases here : member packet field.name with
    | none => simp [here] at extracted
    | some content =>
      simp only [here] at extracted
      split at extracted
      · cases extracted
      · rename_i decoded
        exact ⟨encoding,content,read,here,(Option.some.inj extracted) ▸ decoded⟩
  · rintro ⟨other,content,again,here,decoded⟩
    rw [encoding_unique read again,here]
    simp only [decoded]

theorem payload_unique {packet : V} {field : PayloadField} {left right : V}
    (first : PayloadRead packet field left) (second : PayloadRead packet field right) :
    left = right := by
  obtain ⟨encoding,content,read,here,decoded⟩ := first
  obtain ⟨other,found,again,there,result⟩ := second
  cases encoding_unique read again
  cases here.symm.trans there
  cases decoded.symm.trans result
  rfl

omit [Codec V] in
theorem command_unique {packet : V} {left right : Option AsyncCommand}
    (first : CommandRead packet left) (second : CommandRead packet right) : left = right := by
  cases left with
  | none =>
    cases right with
    | none => rfl
    | some command =>
      obtain ⟨field,here,_⟩ := second
      cases here.symm.trans first
  | some command =>
    obtain ⟨field,here,read⟩ := first
    cases right with
    | none => cases here.symm.trans second
    | some other =>
      obtain ⟨found,there,again⟩ := second
      cases here.symm.trans there
      cases command
      cases other
      cases read.symm.trans again
      rfl

theorem RequestRead.unique {packet payload other : V} {command found : Option AsyncCommand}
    (first : RequestRead packet payload command) (second : RequestRead packet other found) :
    payload = other ∧ command = found :=
  ⟨payload_unique first.payload second.payload,command_unique first.command second.command⟩

theorem service_excludes {packet payload other : V} {command : Option AsyncCommand}
    (service : ServiceAccepted packet payload) : ¬ RequestRead packet other command := by
  intro request
  obtain ⟨_,content,_,here,_⟩ := service
  cases here.symm.trans request.notService

omit [Codec V] in
theorem optional_exact (packet : V) (name : String) (t : ScalarType) :
    validateMemberTypeIfPresent packet name t = true ↔
      ∀ field, member packet name = some field → ∃ x, asScalar t field = some x := by
  unfold validateMemberTypeIfPresent hasType
  cases member packet name with
  | none => simp
  | some field => simp [Option.isSome_iff_exists]

omit [Codec V] in
theorem encoding_typed {packet : V} {encoding : PayloadEncoding} (read : EncodingRead packet encoding) :
    validateMemberTypeIfPresent packet encodingFieldName .signedInteger32 = true := by
  rw [optional_exact]
  intro field here
  rcases read with ⟨absent,_⟩ | ⟨found,there,typed,_⟩
  · cases here.symm.trans absent
  · cases here.symm.trans there
    exact ⟨_,typed⟩

omit [Codec V] in
theorem command_exact {packet : V}
    (typed : validateMemberTypeIfPresent packet asyncCommandFieldName .unsignedInteger32 = true) :
    CommandRead packet (getAsyncInfo packet) := by
  rw [optional_exact] at typed
  unfold getAsyncInfo
  cases here : member packet asyncCommandFieldName with
  | none => exact here
  | some field =>
    obtain ⟨value,read⟩ := typed field here
    simp only [read,Option.map_some]
    exact ⟨field,here,read⟩

omit [Codec V] in
theorem command_typed {packet : V} {command : Option AsyncCommand} (read : CommandRead packet command) :
    validateMemberTypeIfPresent packet asyncCommandFieldName .unsignedInteger32 = true := by
  rw [optional_exact]
  intro field here
  cases command with
  | none => cases here.symm.trans read
  | some command =>
    obtain ⟨found,there,typed⟩ := read
    cases here.symm.trans there
    exact ⟨_,typed⟩

end SupProtocol
