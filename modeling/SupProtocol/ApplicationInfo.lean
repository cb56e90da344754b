import SupProtocol.ReplyAccess
import SupProtocol.RelayedProtocol

namespace SupProtocol

def applicationProtocolInfoRequest : String := "application_protocol_info"
def applicationProtocolType : String := "application_type"
def applicationProtocolVersion : String := "application_version"

structure ApplicationProtocolInfo where
  applicationType : String
  applicationVersion : String
  deriving DecidableEq, Repr

section Info
variable {V : Type} [AnyValue V]

def createApplicationProtocolRequestPayload : V := scalar .string applicationProtocolInfoRequest

def createApplicationProtocolReplyPayload (applicationType applicationVersion : String) :
    Except Exception V := do
  let payload ← addMember (emptyStruct "") applicationProtocolType (scalar .string applicationType)
  addMember payload applicationProtocolVersion (scalar .string applicationVersion)

def isApplicationProtocolRequestPayload (payload : V) : Bool :=
  decide (asScalar .string payload = some applicationProtocolInfoRequest)

def checkApplicationProtocolReplyPayload (payload : V) : Bool :=
  if !hasField payload applicationProtocolType ||
      !((member payload applicationProtocolType).any fun field => hasType field .string) then false
  else if !hasField payload applicationProtocolVersion ||
      !((member payload applicationProtocolVersion).any fun field => hasType field .string) then false
  else true

def handleApplicationProtocolInfo (output : V) (applicationType applicationVersion : String) :
    Except Exception (ProtocolResult × V) := do
  let payload ← createApplicationProtocolReplyPayload applicationType applicationVersion
  let (assigned,output) := tryAssignIfEmptyOrConvert output payload
  if !assigned then return (.serverProtocolEncodingError,output)
  else return (.success,output)

def getApplicationProtocolInfo (protocol : Protocol V) : Except Exception ApplicationProtocolInfo := do
  let (result,reply) ← protocol.service createApplicationProtocolRequestPayload empty
  if result ≠ .success || !checkApplicationProtocolReplyPayload reply then return ⟨"",""⟩
  else
    let typeField ← memberAt reply applicationProtocolType
    let applicationType ← scalarAs .string typeField
    let versionField ← memberAt reply applicationProtocolVersion
    let applicationVersion ← scalarAs .string versionField
    return ⟨applicationType,applicationVersion⟩

def described (outcome : Outcome V) : ApplicationProtocolInfo :=
  match outcome with
  | .error _ => ⟨"",""⟩
  | .ok (result,reply) =>
    match (member reply applicationProtocolType).bind (asScalar .string),
        (member reply applicationProtocolVersion).bind (asScalar .string) with
    | some applicationType,some applicationVersion =>
      if result = .success then ⟨applicationType,applicationVersion⟩ else ⟨"",""⟩
    | _,_ => ⟨"",""⟩

theorem typed_field {value : V} {name : String} :
    (!hasField value name || !((member value name).any fun field => hasType field .string)) =
      ((member value name).bind (asScalar .string)).isNone := by
  cases here : member value name with
  | none => simp [hasField,here]
  | some field => cases typed : asScalar .string field <;> simp [hasField,here,hasType,typed]

theorem getApplicationProtocolInfo_exact (protocol : Protocol V) {answer : ProtocolResult × V}
    (answered : protocol.service createApplicationProtocolRequestPayload empty = .ok answer) :
    getApplicationProtocolInfo protocol = .ok (described (.ok answer)) := by
  obtain ⟨result,reply⟩ := answer
  unfold getApplicationProtocolInfo
  rw [answered]
  simp only [ok_then,checkApplicationProtocolReplyPayload,typed_field,described]
  cases first : member reply applicationProtocolType with
  | none => simp
  | some typeField =>
    cases named : asScalar .string typeField with
    | none => simp [named]
    | some applicationType =>
      cases second : member reply applicationProtocolVersion with
      | none => simp [named]
      | some versionField =>
        cases numbered : asScalar .string versionField with
        | none => simp [named,numbered]
        | some applicationVersion =>
          by_cases success : result = .success
          · simp [named,numbered,success,memberAt_present first,memberAt_present second,
              scalarAs_typed named,scalarAs_typed numbered]
          · simp [named,numbered,success]

theorem handleApplicationProtocolInfo_empty [LawfulAnyValue V] [LawfulAssign V]
    (typeNamed : isMemberName V applicationProtocolType = true)
    (versionNamed : isMemberName V applicationProtocolVersion = true)
    (applicationType applicationVersion : String) :
    ∃ payload : V, handleApplicationProtocolInfo empty applicationType applicationVersion =
        .ok (.success,payload) ∧
      described (.ok (.success,payload)) = ⟨applicationType,applicationVersion⟩ := by
  obtain ⟨base,first,named⟩ := addMember_members (emptyStruct_members (V := V) "") typeNamed rfl
    (LawfulAnyValue.scalar_nonempty .string applicationType)
  obtain ⟨payload,second,known⟩ := addMember_members named versionNamed rfl
    (LawfulAnyValue.scalar_nonempty .string applicationVersion)
  have taken := LawfulAssign.assign_empty (empty : V) payload LawfulAnyValue.empty_isEmpty
  have typeField : member payload applicationProtocolType = some (scalar .string applicationType) :=
    known.2 _ typeNamed
  have versionField : member payload applicationProtocolVersion =
      some (scalar .string applicationVersion) := known.2 _ versionNamed
  refine ⟨payload,?_,?_⟩
  · simp [handleApplicationProtocolInfo,createApplicationProtocolReplyPayload,first,second,taken]
  · simp [described,typeField,versionField]

section Transport
variable [LawfulAnyValue V] [LawfulAssign V]

theorem described_passed (bare : ∀ (value : V) name, isEmptyValue value = true → member value name = none)
    (outcome : Outcome V) :
    described (.ok (callResult outcome empty)) = described outcome := by
  have failed : ∀ {result : ProtocolResult} {reply : V}, result ≠ .success →
      described (.ok (result,reply)) = ⟨"",""⟩ := by
    intro result reply failure
    simp only [described,failure,if_false]
    split <;> rfl
  have hollow : ∀ {reply : V}, isEmptyValue reply = true →
      described (.ok (.success,reply)) = ⟨"",""⟩ := by
    intro reply hollow
    simp only [described,bare reply _ hollow,Option.bind_none]
  cases outcome with
  | error error => exact failed (by decide)
  | ok answer =>
    obtain ⟨result,reply⟩ := answer
    by_cases success : result = .success
    · subst result
      cases nothing : isEmptyValue reply with
      | true =>
        have passed : callResult (.ok (.success,reply)) (empty : V) = (.success,empty) := by
          simp [callResult,nothing]
        rw [passed,hollow LawfulAnyValue.empty_isEmpty,hollow nothing]
      | false => rw [callResult_taken nothing LawfulAnyValue.empty_isEmpty]
    · have passed : callResult (.ok (result,reply)) (empty : V) = (result,empty) := by
        simp [callResult,success]
      rw [passed,failed success,failed success]

variable [Codec V] [LawfulCodec V]

theorem chain_serves (application : Protocol V) (hops : List (Hop V)) (relayed : hops ≠ [])
    (supported : ∀ hop ∈ hops, isSupportedPayloadEncoding hop.config.encoding = true) :
    (chain application hops).service createApplicationProtocolRequestPayload empty =
      .ok (callResult (application.service createApplicationProtocolRequestPayload empty) empty) := by
  have nonempty : isEmptyValue (createApplicationProtocolRequestPayload : V) = false :=
    LawfulAnyValue.scalar_nonempty .string applicationProtocolInfoRequest
  rw [chain_forwards application hops relayed supported]
  simp only [forwarded,nonempty,Bool.false_eq_true,if_false]

-- However many servers stand between, a client that asks for the application is
-- told what the application's own answer tells, and is never thrown at.
theorem application_info_transported
    (bare : ∀ (value : V) name, isEmptyValue value = true → member value name = none)
    (typeNamed : isMemberName V applicationProtocolType = true)
    (versionNamed : isMemberName V applicationProtocolVersion = true)
    (application : Protocol V) (hops : List (Hop V)) (relayed : hops ≠ [])
    (supported : ∀ hop ∈ hops, isSupportedPayloadEncoding hop.config.encoding = true) :
    getApplicationProtocolInfo (chain application hops) =
      .ok (described (application.service createApplicationProtocolRequestPayload empty)) ∧
    ∀ applicationType applicationVersion,
      application.service createApplicationProtocolRequestPayload empty =
        handleApplicationProtocolInfo empty applicationType applicationVersion →
      getApplicationProtocolInfo (chain application hops) = .ok ⟨applicationType,applicationVersion⟩ := by
  have told : getApplicationProtocolInfo (chain application hops) =
      .ok (described (application.service createApplicationProtocolRequestPayload empty)) := by
    rw [getApplicationProtocolInfo_exact _ (chain_serves application hops relayed supported),
      described_passed bare]
  refine ⟨told,?_⟩
  intro applicationType applicationVersion answers
  obtain ⟨payload,handled,tells⟩ := handleApplicationProtocolInfo_empty typeNamed versionNamed
    applicationType applicationVersion
  rw [told,answers,handled,tells]

end Transport
end Info

def pumpControl : Protocol Reference.Value :=
  ⟨fun _ output => .ok (.success,output),
   fun input output => if isApplicationProtocolRequestPayload input then
      handleApplicationProtocolInfo output "pump control" "1.2"
    else .ok (.serverProtocolDecodingError,output)⟩

theorem application_info_transported_pump :
    getApplicationProtocolInfo (chain pumpControl [plainHop,base64Hop]) = .ok ⟨"pump control","1.2"⟩ :=
  (application_info_transported
    (by intro value name hollow; cases value <;> first | rfl | cases hollow)
    rfl rfl pumpControl [plainHop,base64Hop] (by simp) (by
      intro hop member
      simp only [List.mem_cons,List.not_mem_nil,or_false] at member
      rcases member with rfl | rfl <;> rfl)).2 "pump control" "1.2" rfl

end SupProtocol
