import SupProtocol.ClientFunctions
import SupProtocol.PacketLayout
import SupProtocol.ReferenceValue

namespace SupProtocol

variable {V : Type} [AnyValue V]

-- Obsolete and optional members of a reply are free to be absent, not to be of
-- another type.
def optionalTyped (reply : V) : Bool :=
  validateMemberTypeIfPresent reply replyTimestamp .unsignedInteger64 &&
  validateMemberTypeIfPresent reply encodingFieldName .signedInteger32 &&
  validateMemberTypeIfPresent reply replyReason .string &&
  validateMemberTypeIfPresent reply asyncCommandFieldName .unsignedInteger32

theorem result_typed (reply : V) : validateMemberType reply replyResult .unsignedInteger32 =
    (tryExtractProtocolResult reply).isSome := by
  unfold validateMemberType tryExtractProtocolResult
  cases member reply replyResult with
  | none => rfl
  | some field => simp [hasType]

theorem checkReplyFormat_exact (reply : V) :
    checkReplyFormat reply = ((tryExtractProtocolResult reply).isSome && optionalTyped reply) := by
  rw [← result_typed]
  simp only [checkReplyFormat,optionalTyped,Bool.and_assoc]

variable [Codec V]

theorem tryGetPayload_same (reply : V) : tryGetPayload reply = tryGetReplyPayload reply := rfl

theorem decodeReply_same (reply output : V) :
    handleSyncInvokeReply reply output = decodeReply reply output := rfl

-- Without its format check the synchronous decoder is the one of kGetReply.
theorem decodeReply_typed {reply : V} (typed : optionalTyped reply = true) (output : V) :
    decodeReply reply output = AsyncInvocation.replied reply output := by
  unfold decodeReply AsyncInvocation.replied
  rw [checkReplyFormat_exact,typed]
  cases tryExtractProtocolResult reply with
  | none => rfl
  | some result => by_cases success : result = .success <;> simp [success]

theorem decodeReply_mistyped {reply : V} (mistyped : optionalTyped reply = false) (output : V) :
    decodeReply reply output = (.clientTransportDecodingError,output) := by
  unfold decodeReply
  rw [checkReplyFormat_exact,mistyped]
  simp

def PayloadRejected (reply output : V) : Prop :=
  tryGetReplyPayload reply = none ∨ ∃ payload, tryGetReplyPayload reply = some payload ∧
    isEmptyValue payload = false ∧ tryAssignIfEmptyOrConvert output payload = (false,output)

theorem acceptPayload_rejects (reply output : V) :
    acceptPayload (tryGetReplyPayload reply) output = (.clientTransportDecodingError,output) ↔
      PayloadRejected reply output := by
  unfold PayloadRejected acceptPayload
  have different : ProtocolResult.success ≠ .clientTransportDecodingError := by decide
  cases tryGetReplyPayload reply with
  | none => simp
  | some payload =>
    cases bare : isEmptyValue payload with
    | true => simp [bare,different]
    | false =>
      rcases assigned : tryAssignIfEmptyOrConvert output payload with ⟨taken,kept⟩
      cases taken <;> simp [bare,assigned,different]

-- Every decoder answers ClientTransportDecodingError to these, whatever their
-- optional members look like.
def Undecodable (reply output : V) : Prop :=
  tryExtractProtocolResult reply = none ∨
  tryExtractProtocolResult reply = some .clientTransportDecodingError ∨
  (tryExtractProtocolResult reply = some .success ∧ PayloadRejected reply output)

theorem replied_rejects (reply output : V) :
    AsyncInvocation.replied reply output = (.clientTransportDecodingError,output) ↔
      Undecodable reply output := by
  unfold AsyncInvocation.replied Undecodable
  cases tryExtractProtocolResult reply with
  | none => simp
  | some result =>
    by_cases success : result = .success
    · subst result
      have different : ProtocolResult.success ≠ .clientTransportDecodingError := by decide
      simp [acceptPayload_rejects,different]
    · simp [success]

def answering (reply : V) : AnyFunctor Unit V := fun _ s => (.ok reply,s)

def fetched (invocation : AsyncInvocation V) (reply output : V) : Except Exception ProtocolResult × V :=
  let (result,output,_) := invocation.getReply (answering reply) output ()
  (result,output)

section Agreement
variable [LawfulAnyValue V] {invocation : AsyncInvocation V}

theorem fetched_replied (waiting : invocation.isSynchronous = false)
    (supported : isSupportedPayloadEncoding invocation.encoding = true) (reply output : V) :
    fetched invocation reply output =
      (.ok (AsyncInvocation.replied reply output).1,(AsyncInvocation.replied reply output).2) := by
  obtain ⟨_,request,_,built,_⟩ :=
    createAsyncIdRequest_represents (V := V) invocation.id .kGetReply supported
  have answered : answering reply request () = (.ok reply,()) := rfl
  unfold fetched
  rw [getReply_reads waiting built answered output]

-- The three decoders give the same result and the same output, and none of them
-- takes a reply with a member of the wrong type.
structure DecodersAgree (invocation : AsyncInvocation V) (reply output : V) : Prop where
  synchronous : fetched invocation reply output =
    (.ok (handleSyncInvokeReply reply output).1,(handleSyncInvokeReply reply output).2)
  fallback : fetched invocation reply output =
    (.ok (decodeReply reply output).1,(decodeReply reply output).2)
  strict : optionalTyped reply = false →
    (fetched invocation reply output).1 = .ok .clientTransportDecodingError

theorem decoders_agree_exact (invocation : AsyncInvocation V)
    (waiting : invocation.isSynchronous = false)
    (supported : isSupportedPayloadEncoding invocation.encoding = true) (reply output : V) :
    DecodersAgree invocation reply output ↔
      optionalTyped reply = true ∨ Undecodable reply output := by
  have answered := fetched_replied waiting supported reply output
  cases typed : optionalTyped reply with
  | true =>
    have same := decodeReply_typed typed output
    refine iff_of_true ⟨?_,?_,?_⟩ (Or.inl rfl)
    · rw [answered,decodeReply_same,same]
    · rw [answered,same]
    · intro mistyped
      cases typed.symm.trans mistyped
  | false =>
    have rejected := decodeReply_mistyped typed output
    rw [← replied_rejects]
    constructor
    · intro agree
      have both := agree.fallback
      rw [answered,rejected] at both
      have results := (Prod.mk.inj both).1
      right
      apply Prod.ext
      · exact Except.ok.inj results
      · exact (Prod.mk.inj both).2
    · rintro (wrong | same)
      · cases wrong
      · refine ⟨?_,?_,?_⟩
        · rw [answered,decodeReply_same,rejected,same]
        · rw [answered,rejected,same]
        · intro _
          rw [answered,same]

end Agreement

def mistypedReply : Reference.Value :=
  .withMember (.withMember (.withMember (.emptyStruct replyTypeName) replyResult (.unsignedInteger32 0))
    replyTimestamp (.string "noon")) replyPayload (.string "done")

theorem decoders_agree_mistyped :
    let invocation : AsyncInvocation Reference.Value := ⟨.kNone,42,false,.empty⟩
    DecodersAgree invocation mistypedReply .empty ↔
      optionalTyped mistypedReply = true ∨ Undecodable mistypedReply .empty :=
  decoders_agree_exact ⟨.kNone,42,false,.empty⟩ rfl rfl mistypedReply .empty

theorem mistyped_reply_accepted :
    let invocation : AsyncInvocation Reference.Value := ⟨.kNone,42,false,.empty⟩
    fetched invocation mistypedReply .empty = (.ok .success,.string "done") ∧
    handleSyncInvokeReply mistypedReply .empty = (.clientTransportDecodingError,.empty) ∧
    ¬ DecodersAgree invocation mistypedReply .empty := by
  have taken : fetched (⟨.kNone,42,false,.empty⟩ : AsyncInvocation Reference.Value) mistypedReply
      .empty = (.ok .success,.string "done") := rfl
  have refused : handleSyncInvokeReply mistypedReply .empty =
      (.clientTransportDecodingError,.empty) := by decide
  refine ⟨taken,refused,?_⟩
  intro agree
  have same := agree.synchronous
  rw [taken,refused] at same
  cases (Prod.mk.inj same).2

end SupProtocol
