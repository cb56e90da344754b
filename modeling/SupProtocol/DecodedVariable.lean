import SupProtocol.EncodedVariable
import SupProtocol.ReplyAccess

namespace SupProtocol
open Machine

variable {P V τ : Type}

-- What an encoded variable forwards to: the functions of some implementation on
-- its states, τ being its timeouts. SetAvailable is none of the class, it stands
-- for whatever makes the implementation available or not.
structure ProcessVariable (P V τ : Type) where
  getValue : P → τ → Bool × V
  setValue : P → V → τ → Bool × P
  setAvailable : P → Bool → P

structure StoresWhileAvailable (underlying : ProcessVariable P V τ) (available : P → Bool)
    (content : P → V) : Prop where
  readable : ∀ p timeout, available p = true → underlying.getValue p timeout = (true,content p)
  unreadable : ∀ p timeout, available p = false → (underlying.getValue p timeout).1 = false
  stored : ∀ p value timeout, available p = true →
    (underlying.setValue p value timeout).1 = true ∧
    available (underlying.setValue p value timeout).2 = true ∧
    content (underlying.setValue p value timeout).2 = value
  refused : ∀ p value timeout, available p = false →
    (underlying.setValue p value timeout).1 = false ∧
    available (underlying.setValue p value timeout).2 = false ∧
    content (underlying.setValue p value timeout).2 = content p
  switched : ∀ p b, available (underlying.setAvailable p b) = b ∧
    content (underlying.setAvailable p b) = content p

namespace Access

structure VariableCodec (V : Type) where
  encode : V → Except Exception (Bool × V)
  decode : V → Except Exception (Bool × V)

section Base64
variable [AnyValue V] [Codec V]

def validateBase64AnyValue (val : V) : Except Exception Bool :=
  if !hasField val kEncodingField then return false
  else do
    let encoding ← memberAt val kEncodingField
    if !hasType encoding .string then return false
    else
      let name ← scalarAs .string encoding
      if name ≠ kBase64Encoding then return false
      else if !hasField val kValueField then return false
      else
        let value ← memberAt val kValueField
        return hasType value .string

def Base64VariableCodec.encode (val : V) : Except Exception (Bool × V) := do
  let encoded ← addMember (emptyStruct "") kEncodingField (scalar .string kBase64Encoding)
  let binary := anyValueToBinary val
  let encoded ← addMember encoded kValueField (scalar .string (base64Encode V binary))
  return (true,encoded)

-- The handler is for what derives from std::exception, and only for that.
def Base64VariableCodec.decode (standard : Exception → Bool) (val : V) : Except Exception (Bool × V) := do
  let valid ← validateBase64AnyValue val
  if !valid then return (false,empty)
  else
    let field ← memberAt val kValueField
    let encoded ← scalarAs .string field
    match base64Decode V encoded >>= anyValueFromBinary with
    | .ok decoded => return (true,decoded)
    | .error error => if standard error then return (false,empty) else throw error

def base64VariableCodec (standard : Exception → Bool) : VariableCodec V :=
  ⟨Base64VariableCodec.encode,Base64VariableCodec.decode standard⟩

end Base64

end Access

inductive VariableEvent (V τ : Type) where
  | setValue (value : V) (timeout : τ)
  | write (value : V) (timeout : τ)
  | setAvailable (available : Bool)

namespace EncodedProcessVariable
variable (codec : Access.VariableCodec V) (underlying : ProcessVariable P V τ)

def getValue [AnyValue V] (p : P) (timeout : τ) : Except Exception (Bool × V) :=
  let encoded := underlying.getValue p timeout
  if !encoded.1 then return (false,empty)
  else codec.decode encoded.2

def setValue (p : P) (value : V) (timeout : τ) : Except Exception (Bool × P) := do
  let encoded ← codec.encode value
  if !encoded.1 then return (false,p)
  else return underlying.setValue p encoded.2 timeout

def waitForAvailable (p : P) (timeout : τ) : Except Exception Bool := do
  let encoded := underlying.getValue p timeout
  if !encoded.1 then return false
  else
    let decoded ← codec.decode encoded.2
    return decoded.1

def isAvailable [Zero τ] (p : P) : Except Exception Bool := waitForAvailable codec underlying p 0

def step (p : P) : VariableEvent V τ → Option (Except Exception Bool) × P
  | .setValue value timeout =>
    match setValue codec underlying p value timeout with
    | .error error => (some (.error error),p)
    | .ok (done,p) => (some (.ok done),p)
  | .write value timeout =>
    let (done,p) := underlying.setValue p value timeout
    (some (.ok done),p)
  | .setAvailable available => (none,underlying.setAvailable p available)

end EncodedProcessVariable

-- A variable without any encoding. It holds a value, or nothing that can be read.
structure PlainVariable (V : Type) where
  available : Bool
  value : Option V

namespace PlainVariable

def read [AnyValue V] : Option V → Bool × V
  | none => (false,empty)
  | some value => (true,value)

def getValue [AnyValue V] (plain : PlainVariable V) : Bool × V :=
  read (if plain.available then plain.value else none)

def isAvailable (plain : PlainVariable V) : Bool := plain.available && plain.value.isSome

def store (plain : PlainVariable V) (value : Option V) : Bool × PlainVariable V :=
  if plain.available then (true,{plain with value := value}) else (false,plain)

def step (decoded : V → Option V) (plain : PlainVariable V) :
    VariableEvent V τ → Option Bool × PlainVariable V
  | .setValue value _ => let (done,plain) := plain.store (some value); (some done,plain)
  | .write value _ => let (done,plain) := plain.store (decoded value); (some done,plain)
  | .setAvailable available => (none,{plain with available := available})

def after (decoded : V → Option V) (plain : PlainVariable V) (events : List (VariableEvent V τ)) :
    PlainVariable V :=
  events.foldl (fun plain event => (plain.step decoded event).2) plain

end PlainVariable

structure RoundTrips [AnyValue V] (codec : Access.VariableCodec V) (decoded : V → Option V) : Prop where
  decode : ∀ value, codec.decode value = .ok (PlainVariable.read (decoded value))
  encode : ∀ value, ∃ encoded, codec.encode value = .ok (true,encoded) ∧ decoded encoded = some value

structure Shows (available : P → Bool) (content : P → V) (decoded : V → Option V) (p : P)
    (plain : PlainVariable V) : Prop where
  available : available p = plain.available
  value : decoded (content p) = plain.value

section Refinement
variable [AnyValue V] {codec : Access.VariableCodec V} {underlying : ProcessVariable P V τ}
  {available : P → Bool} {content : P → V} {decoded : V → Option V} {p : P} {plain : PlainVariable V}

theorem getValue_plain (trips : RoundTrips codec decoded)
    (stores : StoresWhileAvailable underlying available content)
    (shown : Shows available content decoded p plain) (timeout : τ) :
    EncodedProcessVariable.getValue codec underlying p timeout = .ok plain.getValue := by
  unfold EncodedProcessVariable.getValue PlainVariable.getValue
  rw [← shown.available,← shown.value]
  cases reachable : available p with
  | true =>
    rw [stores.readable p timeout reachable]
    exact trips.decode (content p)
  | false =>
    simp only [stores.unreadable p timeout reachable]
    rfl

theorem waitForAvailable_reads (timeout : τ) {result : Bool × V}
    (reads : EncodedProcessVariable.getValue codec underlying p timeout = .ok result) :
    EncodedProcessVariable.waitForAvailable codec underlying p timeout = .ok result.1 := by
  unfold EncodedProcessVariable.getValue at reads
  unfold EncodedProcessVariable.waitForAvailable
  dsimp only at reads ⊢
  split at reads
  · rename_i unread
    rw [if_pos unread]
    cases reads
    rfl
  · rename_i read
    rw [if_neg read,reads]
    rfl

omit [AnyValue V] in
theorem write_plain (stores : StoresWhileAvailable underlying available content)
    (shown : Shows available content decoded p plain) (value : V) (timeout : τ) :
    (underlying.setValue p value timeout).1 = (plain.store (decoded value)).1 ∧
    Shows available content decoded (underlying.setValue p value timeout).2
      (plain.store (decoded value)).2 := by
  unfold PlainVariable.store
  cases reachable : available p with
  | true =>
    have here : plain.available = true := shown.available.symm.trans reachable
    obtain ⟨done,stays,kept⟩ := stores.stored p value timeout reachable
    rw [if_pos here]
    exact ⟨done,stays.trans here.symm,congrArg decoded kept⟩
  | false =>
    have away : plain.available = false := shown.available.symm.trans reachable
    obtain ⟨failed,stays,kept⟩ := stores.refused p value timeout reachable
    rw [if_neg (by simp [away])]
    exact ⟨failed,stays.trans away.symm,(congrArg decoded kept).trans shown.value⟩

theorem setValue_plain (trips : RoundTrips codec decoded)
    (stores : StoresWhileAvailable underlying available content)
    (shown : Shows available content decoded p plain) (value : V) (timeout : τ) :
    ∃ q, EncodedProcessVariable.setValue codec underlying p value timeout =
        .ok ((plain.store (some value)).1,q) ∧
      Shows available content decoded q (plain.store (some value)).2 := by
  obtain ⟨encoded,written,back⟩ := trips.encode value
  obtain ⟨done,shows⟩ := write_plain stores shown encoded timeout
  rw [back] at done shows
  refine ⟨(underlying.setValue p encoded timeout).2,?_,shows⟩
  rw [← done]
  simp [EncodedProcessVariable.setValue,written]

theorem step_plain (trips : RoundTrips codec decoded)
    (stores : StoresWhileAvailable underlying available content)
    (shown : Shows available content decoded p plain) (event : VariableEvent V τ) :
    (EncodedProcessVariable.step codec underlying p event).1 =
      (plain.step decoded event).1.map .ok ∧
    Shows available content decoded (EncodedProcessVariable.step codec underlying p event).2
      (plain.step decoded event).2 := by
  cases event with
  | setValue value timeout =>
    obtain ⟨q,same,shows⟩ := setValue_plain trips stores shown value timeout
    simp only [EncodedProcessVariable.step,same]
    exact ⟨rfl,shows⟩
  | write value timeout =>
    obtain ⟨done,shows⟩ := write_plain stores shown value timeout
    refine ⟨?_,shows⟩
    simp only [EncodedProcessVariable.step,PlainVariable.step,done]
    rfl
  | setAvailable b =>
    obtain ⟨switched,kept⟩ := stores.switched p b
    refine ⟨rfl,switched,?_⟩
    exact (congrArg decoded kept).trans shown.value

theorem run_plain (trips : RoundTrips codec decoded)
    (stores : StoresWhileAvailable underlying available content)
    (shown : Shows available content decoded p plain) (events : List (VariableEvent V τ)) :
    Shows available content decoded (run (EncodedProcessVariable.step codec underlying) p events)
      (plain.after decoded events) := by
  apply run_simulates (R := Shows available content decoded)
  · intro p plain event related
    exact (step_plain trips stores related event).2
  · exact shown

end Refinement

section Base64
variable [AnyValue V] [Codec V]

-- Both decoders signal malformed input by exceptions that the handler is for.
structure SignalsByException (V : Type) [Codec V] (standard : Exception → Bool) : Prop where
  text : ∀ encoded error, base64Decode V encoded = .error error → standard error = true
  binary : ∀ bytes error, (anyValueFromBinary bytes : Except Exception V) = .error error →
    standard error = true

structure Decodes (content value : V) : Prop where
  valid : validateBase64AnyValue content = true
  decoded : ∃ field encoded binary, member content kValueField = some field ∧
    asScalar .string field = some encoded ∧ base64Decode V encoded = .ok binary ∧
    anyValueFromBinary binary = .ok value

def Base64VariableCodec.decoded (content : V) : Option V :=
  if (Base64VariableCodec.decode content).1 then some (Base64VariableCodec.decode content).2 else none

omit [Codec V] in
theorem validateBase64AnyValue_guarded (val : V) :
    Access.validateBase64AnyValue val = .ok (validateBase64AnyValue val) := by
  unfold Access.validateBase64AnyValue validateBase64AnyValue
  rw [guarded_access]
  cases member val kEncodingField with
  | none => rfl
  | some encoding =>
    dsimp only
    cases asScalar .string encoding with
    | none => rfl
    | some name =>
      by_cases named : name = kBase64Encoding
      · cases here : member val kValueField with
        | none => simp [named,here,hasField,validateMemberType]
        | some field => simp [named,here,hasField,validateMemberType,memberAt_present here]
      · simp [named]

omit [Codec V] in
theorem validated_text {val : V} (valid : validateBase64AnyValue val = true) :
    ∃ field encoded, member val kValueField = some field ∧ asScalar .string field = some encoded := by
  unfold validateBase64AnyValue at valid
  cases named : member val kEncodingField with
  | none => simp [named] at valid
  | some encoding =>
    simp only [named] at valid
    split at valid
    · cases valid
    · unfold validateMemberType at valid
      cases here : member val kValueField with
      | none => simp [here] at valid
      | some field =>
        simp only [here] at valid
        obtain ⟨encoded,typed⟩ := Option.isSome_iff_exists.mp valid
        exact ⟨field,encoded,rfl,typed⟩

theorem decode_guarded {standard : Exception → Bool} (signals : SignalsByException V standard)
    (val : V) : Access.Base64VariableCodec.decode standard val = .ok (Base64VariableCodec.decode val) := by
  unfold Access.Base64VariableCodec.decode Base64VariableCodec.decode
  rw [validateBase64AnyValue_guarded,ok_then]
  cases valid : validateBase64AnyValue val with
  | false => rfl
  | true =>
    obtain ⟨field,encoded,here,typed⟩ := validated_text valid
    simp only [here,Option.bind_some,typed,memberAt_present here,scalarAs_typed typed,ok_then]
    cases text : base64Decode V encoded with
    | error error =>
      have caught := signals.text encoded error text
      change (if standard error then _ else _) = _
      rw [if_pos caught]
      rfl
    | ok binary =>
      simp only [ok_then]
      cases read : (anyValueFromBinary binary : Except Exception V) with
      | error error =>
        have caught := signals.binary binary error read
        simp [caught]
      | ok decoded => rfl

theorem decoded_exact (content value : V) :
    Base64VariableCodec.decoded content = some value ↔ Decodes content value := by
  unfold Base64VariableCodec.decoded Base64VariableCodec.decode
  cases valid : validateBase64AnyValue content with
  | false =>
    constructor
    · intro read
      cases read
    · intro decodes
      cases valid.symm.trans decodes.valid
  | true =>
    obtain ⟨field,encoded,here,typed⟩ := validated_text valid
    simp only [here,Option.bind_some,typed]
    constructor
    · intro read
      cases text : base64Decode V encoded with
      | error error => simp [text] at read
      | ok binary =>
        cases whole : (anyValueFromBinary binary : Except Exception V) with
        | error error => simp [text,whole] at read
        | ok decoded =>
          have same : decoded = value := by simpa [text,whole] using read
          exact ⟨valid,field,encoded,binary,here,typed,text,by rw [whole,same]⟩
    · intro decodes
      obtain ⟨other,string,binary,found,kind,text,whole⟩ := decodes.decoded
      cases here.symm.trans found
      cases typed.symm.trans kind
      simp [text,whole]

theorem encode_decodes [LawfulAnyValue V] [LawfulCodec V] (named : isMemberName V kValueField = true)
    (value : V) : ∃ encoded, Access.Base64VariableCodec.encode value = .ok (true,encoded) ∧
      Decodes encoded value := by
  have known : isMemberName V kEncodingField = true :=
    LawfulAnyValue.packet_names kEncodingField (by decide)
  obtain ⟨base,added,first⟩ := addMember_members (emptyStruct_members (V := V) "") known rfl
    (LawfulAnyValue.scalar_nonempty .string kBase64Encoding)
  obtain ⟨encoded,complete,members⟩ := addMember_members first named rfl
    (LawfulAnyValue.scalar_nonempty (V := V) .string (base64Encode V (anyValueToBinary value)))
  have encoding : member encoded kEncodingField = some (scalar .string kBase64Encoding) :=
    members.2 kEncodingField known
  have text : member encoded kValueField =
      some (scalar .string (base64Encode V (anyValueToBinary value))) := members.2 kValueField named
  refine ⟨encoded,?_,?_,?_⟩
  · simp [Access.Base64VariableCodec.encode,added,complete]
  · simp [validateBase64AnyValue,validateMemberType,encoding,text,hasType]
  · exact ⟨scalar .string (base64Encode V (anyValueToBinary value)),
      base64Encode V (anyValueToBinary value),anyValueToBinary value,text,
      LawfulAnyValue.asScalar_scalar .string _,LawfulCodec.base64_roundtrip _,
      LawfulCodec.binary_roundtrip value⟩

theorem decode_cases (content : V) :
    Base64VariableCodec.decode content = (false,empty) ∨
    ∃ value, Base64VariableCodec.decode content = (true,value) := by
  unfold Base64VariableCodec.decode
  split
  · exact Or.inl rfl
  · cases (member content kValueField).bind (asScalar .string) with
    | none => exact Or.inl rfl
    | some encoded =>
      dsimp only
      cases base64Decode V encoded with
      | error error => exact Or.inl rfl
      | ok binary =>
        dsimp only
        cases (anyValueFromBinary binary : Except Exception V) with
        | error error => exact Or.inl rfl
        | ok decoded => exact Or.inr ⟨decoded,rfl⟩

theorem decode_reads (content : V) :
    Base64VariableCodec.decode content = PlainVariable.read (Base64VariableCodec.decoded content) := by
  unfold Base64VariableCodec.decoded
  rcases decode_cases content with failed | ⟨value,success⟩
  · rw [failed]
    rfl
  · rw [success]
    rfl

theorem base64_roundTrips [LawfulAnyValue V] [LawfulCodec V]
    (named : isMemberName V kValueField = true) {standard : Exception → Bool}
    (signals : SignalsByException V standard) :
    RoundTrips (Access.base64VariableCodec standard) (Base64VariableCodec.decoded (V := V)) := by
  constructor
  · intro value
    rw [← decode_reads]
    exact decode_guarded signals value
  · intro value
    obtain ⟨encoded,written,decodes⟩ := encode_decodes named value
    exact ⟨encoded,written,(decoded_exact _ _).mpr decodes⟩

-- An encoded variable in some state of the one below it: as good as a plain
-- variable of decoded values, which holds what the content decodes to.
structure BehavesPlainly (standard : Exception → Bool) (underlying : ProcessVariable P V τ) [Zero τ]
    (available : P → Bool) (content : P → V) (plain : PlainVariable V) (p : P) : Prop where
  reads : ∀ timeout, EncodedProcessVariable.getValue (Access.base64VariableCodec standard) underlying
    p timeout = .ok plain.getValue
  waits : ∀ timeout, EncodedProcessVariable.waitForAvailable (Access.base64VariableCodec standard)
    underlying p timeout = .ok plain.isAvailable
  agrees : plain.isAvailable = plain.getValue.1
  ready : EncodedProcessVariable.isAvailable (Access.base64VariableCodec standard) underlying p =
    .ok plain.isAvailable
  answers : ∀ event, (EncodedProcessVariable.step (Access.base64VariableCodec standard) underlying
    p event).1 = (plain.step Base64VariableCodec.decoded event).1.map .ok
  exact : ∀ timeout value, EncodedProcessVariable.getValue (Access.base64VariableCodec standard)
    underlying p timeout = .ok (true,value) ↔ available p = true ∧ Decodes (content p) value
  otherwise : (¬ ∃ value, available p = true ∧ Decodes (content p) value) → ∀ timeout,
    EncodedProcessVariable.getValue (Access.base64VariableCodec standard) underlying p timeout =
      .ok (false,empty)
  written : ∀ value timeout q, EncodedProcessVariable.setValue (Access.base64VariableCodec standard)
    underlying p value timeout = .ok (true,q) → ∀ later, EncodedProcessVariable.getValue
      (Access.base64VariableCodec standard) underlying q later = .ok (true,value)

section Reached
variable [LawfulAnyValue V] [LawfulCodec V] [Zero τ] (named : isMemberName V kValueField = true)
  {standard : Exception → Bool} (signals : SignalsByException V standard)
  {underlying : ProcessVariable P V τ} {available : P → Bool} {content : P → V}
  (stores : StoresWhileAvailable underlying available content)

omit [Codec V] [LawfulAnyValue V] [LawfulCodec V] in
theorem read_exact (plain : PlainVariable V) (value : V) :
    plain.getValue = (true,value) ↔ plain.available = true ∧ plain.value = some value := by
  obtain ⟨available,held⟩ := plain
  cases available <;> cases held <;> simp [PlainVariable.getValue,PlainVariable.read]

omit [Codec V] [LawfulAnyValue V] [LawfulCodec V] in
theorem read_otherwise (plain : PlainVariable V)
    (unread : ¬ ∃ value, plain.available = true ∧ plain.value = some value) :
    plain.getValue = (false,empty) := by
  obtain ⟨available,held⟩ := plain
  cases available <;> cases held <;> simp_all [PlainVariable.getValue,PlainVariable.read]

omit [Codec V] [LawfulAnyValue V] [LawfulCodec V] in
theorem read_available (plain : PlainVariable V) : plain.getValue.1 = plain.isAvailable := by
  obtain ⟨available,held⟩ := plain
  cases available <;> cases held <;> rfl

include named signals stores

theorem shown_behaves {p : P} {plain : PlainVariable V}
    (shown : Shows available content Base64VariableCodec.decoded p plain) :
    BehavesPlainly standard underlying available content plain p := by
  have trips := base64_roundTrips named signals
  have reads := getValue_plain trips stores shown
  have waits (timeout : τ) : EncodedProcessVariable.waitForAvailable
      (Access.base64VariableCodec standard) underlying p timeout = .ok plain.isAvailable := by
    rw [waitForAvailable_reads timeout (reads timeout),read_available]
  have held (value : V) : (plain.available = true ∧ plain.value = some value) ↔
      (available p = true ∧ Decodes (content p) value) := by
    rw [← shown.available,← shown.value,decoded_exact]
  refine ⟨reads,waits,(read_available plain).symm,waits 0,?_,?_,?_,?_⟩
  · intro event
    exact (step_plain trips stores shown event).1
  · intro timeout value
    rw [reads timeout,← held,← read_exact,Except.ok.injEq]
  · intro unread timeout
    rw [reads timeout,read_otherwise plain]
    simpa only [held] using unread
  · intro value timeout q done later
    obtain ⟨reached,same,shows⟩ := setValue_plain trips stores shown value timeout
    have both := Prod.mk.inj (Except.ok.inj (same.symm.trans done))
    rw [← both.2,getValue_plain trips stores shows later,(read_exact _ value).mpr]
    have stored : (plain.store (some value)).1 = true := both.1
    unfold PlainVariable.store at stored ⊢
    split
    · rename_i here
      exact ⟨here,rfl⟩
    · rename_i away
      rw [if_neg away] at stored
      cases stored

theorem base64_variable_plain (p : P) (events : List (VariableEvent V τ)) :
    BehavesPlainly standard underlying available content
      (PlainVariable.after Base64VariableCodec.decoded
        ⟨available p,Base64VariableCodec.decoded (content p)⟩ events)
      (run (EncodedProcessVariable.step (Access.base64VariableCodec standard) underlying) p events) :=
  shown_behaves named signals stores
    (run_plain (base64_roundTrips named signals) stores ⟨rfl,rfl⟩ events)

end Reached

end Base64

structure Memory where
  available : Bool
  content : Reference.Value

def memory : ProcessVariable Memory Reference.Value Nat where
  getValue p _ := (p.available,p.content)
  setValue p value _ := if p.available then (true,{p with content := value}) else (false,p)
  setAvailable p available := {p with available := available}

def memoryHistory : List (VariableEvent Reference.Value Nat) :=
  [.setValue (.string "set_point") 0,.write (.string "AB") 0,.setAvailable false,
   .setValue (.boolean true) 0,.setAvailable true,.setValue .empty 0]

theorem memory_stores : StoresWhileAvailable memory Memory.available Memory.content := by
  constructor
  · intro p timeout here
    simp [memory,here]
  · intro p timeout away
    simp [memory,away]
  · intro p value timeout here
    simp [memory,here]
  · intro p value timeout away
    simp [memory,away]
  · exact fun p b => ⟨rfl,rfl⟩

theorem base64_variable_plain_memory :
    EncodedProcessVariable.getValue (Access.base64VariableCodec fun _ => true) memory
        (run (EncodedProcessVariable.step (Access.base64VariableCodec fun _ => true) memory)
          ⟨true,.empty⟩ (memoryHistory.take 2)) 0 = .ok (false,.empty) ∧
    EncodedProcessVariable.getValue (Access.base64VariableCodec fun _ => true) memory
        (run (EncodedProcessVariable.step (Access.base64VariableCodec fun _ => true) memory)
          ⟨true,.empty⟩ memoryHistory) 0 = .ok (true,.empty) := by
  have signals : SignalsByException Reference.Value fun _ => true := ⟨fun _ _ _ => rfl,fun _ _ _ => rfl⟩
  have behaves := base64_variable_plain (by decide) signals memory_stores ⟨true,.empty⟩
  constructor
  · rw [(behaves (memoryHistory.take 2)).reads]
    rfl
  · rw [(behaves memoryHistory).reads]
    rfl

end SupProtocol
