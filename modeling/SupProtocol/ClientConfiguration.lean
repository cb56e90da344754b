import SupProtocol.ReplyAccess
import SupProtocol.RelayedProtocol

namespace SupProtocol

def kEncoding : String := "Encoding"
def kEncoding_None : String := "None"
def kEncoding_Base64 : String := "Base64"

def encodingMap : List (String × PayloadEncoding) := [(kEncoding_None,.kNone),(kEncoding_Base64,.kBase64)]

section Configuration
variable {V : Type} [AnyValue V]

def validateConfigurationField (config : V) (fieldName : String) (anytype : ScalarType) :
    Except Exception Unit :=
  if !hasField config fieldName then
    .error (.invalidOperation ("Configuration is missing the required field [" ++ fieldName ++ "]"))
  else do
    let field ← memberAt config fieldName
    if !hasType field anytype then
      .error (.invalidOperation ("Configuration with field [" ++ fieldName ++ "] has wrong type"))
    else return ()

def parsePayloadEncoding (config : V) : Except Exception PayloadEncoding :=
  if !hasField config kEncoding then return .kBase64
  else do
    validateConfigurationField config kEncoding .string
    let field ← memberAt config kEncoding
    let encodingStr ← scalarAs .string field
    match encodingMap.lookup encodingStr with
    | none => .error (.invalidOperation "Could not parse encoding field: unknow encoding")
    | some encoding => return encoding

inductive Refused (config : V) : String → Prop where
  | mistyped (here : member config kEncoding = some field) (untyped : asScalar .string field = none) :
      Refused config "Configuration with field [Encoding] has wrong type"
  | unknown (here : member config kEncoding = some field) (typed : asScalar .string field = some name)
      (other : name ≠ kEncoding_None ∧ name ≠ kEncoding_Base64) :
      Refused config "Could not parse encoding field: unknow encoding"

theorem validate_present {config field : V} {fieldName : String} {t : ScalarType}
    (here : member config fieldName = some field) : validateConfigurationField config fieldName t =
      if hasType field t then .ok ()
      else .error (.invalidOperation ("Configuration with field [" ++ fieldName ++ "] has wrong type")) := by
  cases typed : hasType field t <;>
    simp [validateConfigurationField,hasField,here,memberAt_present here,typed]

-- The encoding that a configuration names; without the field it is the default.
inductive NamesEncoding (config : V) : PayloadEncoding → Prop where
  | absent (here : member config kEncoding = none) : NamesEncoding config .kBase64
  | none (here : member config kEncoding = some field) (typed : asScalar .string field = some kEncoding_None) :
      NamesEncoding config .kNone
  | base64 (here : member config kEncoding = some field)
      (typed : asScalar .string field = some kEncoding_Base64) : NamesEncoding config .kBase64

theorem NamesEncoding.supported {config : V} {encoding : PayloadEncoding} (names : NamesEncoding config encoding) :
    isSupportedPayloadEncoding encoding = true := by
  cases names <;> rfl

theorem parse_absent {config : V} (here : member config kEncoding = none) :
    parsePayloadEncoding config = .ok .kBase64 := by
  simp [parsePayloadEncoding,hasField,here]

theorem parse_mistyped {config field : V} (here : member config kEncoding = some field)
    (untyped : asScalar .string field = none) : parsePayloadEncoding config =
      .error (.invalidOperation "Configuration with field [Encoding] has wrong type") := by
  have present : hasField config kEncoding = true := by simp [hasField,here]
  simp only [parsePayloadEncoding,present,validate_present here,hasType,untyped]
  rfl

theorem parse_named {config field : V} {name : String} (here : member config kEncoding = some field)
    (typed : asScalar .string field = some name) : parsePayloadEncoding config =
      match encodingMap.lookup name with
      | none => .error (.invalidOperation "Could not parse encoding field: unknow encoding")
      | some encoding => .ok encoding := by
  have present : hasField config kEncoding = true := by simp [hasField,here]
  have checked : hasType field .string = true := by simp [hasType,typed]
  simp only [parsePayloadEncoding,present,validate_present here,checked,if_true,ok_then,
    memberAt_present here,scalarAs_typed typed,Bool.not_true,Bool.false_eq_true,if_false]
  rfl

theorem lookup_unknown {name : String} (other : name ≠ kEncoding_None ∧ name ≠ kEncoding_Base64) :
    encodingMap.lookup name = none := by
  have first : (name == kEncoding_None) = false := by simpa using other.1
  have second : (name == kEncoding_Base64) = false := by simpa using other.2
  simp [encodingMap,List.lookup_cons,first,second]

theorem Refused.parsed {config : V} {text : String} (refused : Refused config text) :
    parsePayloadEncoding config = .error (.invalidOperation text) := by
  cases refused with
  | mistyped here untyped => exact parse_mistyped here untyped
  | unknown here typed other => rw [parse_named here typed,lookup_unknown other]

theorem NamesEncoding.parsed {config : V} {encoding : PayloadEncoding} (names : NamesEncoding config encoding) :
    parsePayloadEncoding config = .ok encoding := by
  cases names with
  | absent here => exact parse_absent here
  | none here typed =>
    rw [parse_named here typed]
    rfl
  | base64 here typed =>
    rw [parse_named here typed]
    rfl

theorem configuration_cases (config : V) :
    (∃ text, Refused config text) ∨ ∃ encoding, NamesEncoding config encoding := by
  cases here : member config kEncoding with
  | none => exact Or.inr ⟨_,.absent here⟩
  | some field =>
    cases typed : asScalar .string field with
    | none => exact Or.inl ⟨_,.mistyped here typed⟩
    | some name =>
      by_cases none : name = kEncoding_None
      · subst none
        exact Or.inr ⟨_,.none here typed⟩
      by_cases base64 : name = kEncoding_Base64
      · subst base64
        exact Or.inr ⟨_,.base64 here typed⟩
      · exact Or.inl ⟨_,.unknown here typed ⟨none,base64⟩⟩

-- A faulty configuration never makes a client, with the text for its fault; from
-- any other one the client has the encoding that it names and passes every call on.
structure Configures [Codec V] (config : V) : Prop where
  decided : (∃ text, Refused config text) ∨ ∃ encoding, NamesEncoding config encoding
  refused : ∀ error, parsePayloadEncoding config = .error error ↔
    ∃ text, error = .invalidOperation text ∧ Refused config text
  named : ∀ encoding, parsePayloadEncoding config = .ok encoding ↔ NamesEncoding config encoding
  passes : ∀ encoding, parsePayloadEncoding config = .ok encoding →
    ∀ (application : Protocol V) (hop : Hop V), hop.config.encoding = encoding →
      hop.protocol application = forwarded application

theorem configured_client [Codec V] [LawfulAnyValue V] [LawfulAssign V] [LawfulCodec V] (config : V) :
    Configures config := by
  have named : ∀ encoding, parsePayloadEncoding config = .ok encoding → NamesEncoding config encoding := by
    intro encoding taken
    rcases configuration_cases config with ⟨text,refused⟩ | ⟨other,names⟩
    · cases taken.symm.trans refused.parsed
    · cases taken.symm.trans names.parsed
      exact names
  refine ⟨configuration_cases config,fun error => ⟨fun failed => ?_,?_⟩,
    fun encoding => ⟨named encoding,NamesEncoding.parsed⟩,?_⟩
  · rcases configuration_cases config with ⟨text,refused⟩ | ⟨other,names⟩
    · cases failed.symm.trans refused.parsed
      exact ⟨text,rfl,refused⟩
    · cases failed.symm.trans names.parsed
  · rintro ⟨text,rfl,refused⟩
    exact refused.parsed
  · rintro encoding taken application hop rfl
    exact hop_forwards hop (named _ taken).supported application

end Configuration

def plainConfig : Reference.Value :=
  .withMember (.emptyStruct "MyConfig") kEncoding (.string kEncoding_None)

theorem configured_client_plain : parsePayloadEncoding plainConfig = .ok .kNone ∧
    plainHop.protocol Link.measuring = forwarded Link.measuring := by
  have configures := configured_client plainConfig
  have parsed := (configures.named .kNone).mpr (.none rfl rfl)
  exact ⟨parsed,configures.passes .kNone parsed Link.measuring plainHop rfl⟩

end SupProtocol
