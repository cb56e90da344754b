import SupProtocol.FunctionProtocol
import SupProtocol.ReferenceValue

namespace SupProtocol.Reference

-- The types of the concrete values, with arrays of any type. Their text stands in
-- for the JSON form: one letter a type, the length of an array as a tally.
inductive Kind where
  | empty
  | scalar (t : ScalarType)
  | struct
  | array (n : Nat) (element : Kind)
  deriving DecidableEq, Repr

namespace Kind

def element? : Kind → Option Kind
  | .array _ element => some element
  | _ => none

def letter : ScalarType → Char
  | .boolean => 'b'
  | .signedInteger32 => 'i'
  | .unsignedInteger32 => 'u'
  | .unsignedInteger64 => 'l'
  | .string => 's'

def write : Kind → List Char
  | .empty => ['e']
  | .scalar t => [letter t]
  | .struct => ['t']
  | .array n element => 'a' :: (List.replicate n '1' ++ '0' :: write element)

def leaf (c : Char) : Option Kind :=
  if c = 'e' then some .empty
  else if c = 't' then some .struct
  else ([.boolean,.signedInteger32,.unsignedInteger32,.unsignedInteger64,.string].find?
    fun t => letter t = c).map .scalar

def read : Option Nat → List Char → Option Kind
  | _,[] => none
  | none,c :: rest =>
    if c = 'a' then read (some 0) rest
    else if rest = [] then leaf c
    else none
  | some n,c :: rest =>
    if c = '1' then read (some (n+1)) rest
    else if c = '0' then (read none rest).map (.array n)
    else none

theorem read_tally (n : Nat) : ∀ (m : Nat) (rest : List Char),
    read (some m) (List.replicate n '1' ++ '0' :: rest) = (read none rest).map (.array (m+n)) := by
  induction n with
  | zero => exact fun m rest => rfl
  | succ n ih =>
    intro m rest
    have counted := ih (m+1) rest
    rw [Nat.add_right_comm] at counted
    exact counted

theorem read_write (kind : Kind) : read none (write kind) = some kind := by
  induction kind with
  | empty => rfl
  | struct => rfl
  | scalar t => cases t <;> rfl
  | array n element ih =>
    have counted := read_tally n 0 (write element)
    rw [ih,Nat.zero_add] at counted
    exact counted

end Kind

inductive Parameter where
  | plain (value : Value)
  | strings (texts : List String)
  | withMember (base : Parameter) (name : String) (value : Parameter)
  deriving DecidableEq, Repr

namespace Parameter

def asScalar (t : ScalarType) : Parameter → Option t.Rep
  | .plain value => value.asScalar t
  | _ => none

def isStruct : Parameter → Bool
  | .plain value => value.isStruct
  | .strings _ => false
  | .withMember .. => true

def member : Parameter → String → Option Parameter
  | .plain value,n => (value.member n).map .plain
  | .strings _,_ => none
  | .withMember base name value,n => if n = name then some value else member base n

def addMember (base : Parameter) (name : String) (value : Parameter) : Except Exception Parameter :=
  if base.isStruct && !name.isEmpty && (base.member name).isNone && value != .plain .empty then
    .ok (.withMember base name value)
  else .error (.foreign "AddMember")

def kindOf : Value → Kind
  | .empty => .empty
  | .boolean _ => .scalar .boolean
  | .signedInteger32 _ => .scalar .signedInteger32
  | .unsignedInteger32 _ => .scalar .unsignedInteger32
  | .unsignedInteger64 _ => .scalar .unsignedInteger64
  | .string _ => .scalar .string
  | .emptyStruct _ | .withMember .. => .struct

def getType : Parameter → Kind
  | .plain value => kindOf value
  | .strings texts => .array texts.length (.scalar .string)
  | .withMember .. => .struct

def tryAssign (target value : Parameter) : Bool × Parameter :=
  if target = .plain .empty ∨ target.getType = value.getType then (true,value) else (false,target)

def element : Parameter → Nat → Option Parameter
  | .strings texts,i => texts[i]?.map fun str => .plain (.string str)
  | _,_ => none

def numberOfElements : Parameter → Nat
  | .strings texts => texts.length
  | _ => 0

def addElement : Parameter → Parameter → Except Exception Parameter
  | .strings texts,.plain (.string str) => .ok (.strings (texts ++ [str]))
  | _,_ => .error (.foreign "AddElement")

end Parameter

instance : AnyType Kind where
  scalarType := .scalar
  arrayType := .array
  elementType := Kind.element?
  anyTypeToJSONString kind := String.ofList kind.write
  parseString text := Kind.read none text.toList

instance : AnyValue Parameter where
  empty := .plain .empty
  isEmptyValue v := v == .plain .empty
  scalar t x := .plain (Value.scalar t x)
  asScalar := Parameter.asScalar
  emptyStruct name := .plain (.emptyStruct name)
  isStructValue := Parameter.isStruct
  isMemberName n := !n.isEmpty
  member := Parameter.member
  addMember := Parameter.addMember
  tryAssignIfEmptyOrConvert := Parameter.tryAssign

instance : TypedValue Parameter Kind where
  getType := Parameter.getType
  valueOf kind := if kind.element?.isSome then .strings [] else .plain .empty
  numberOfElements := Parameter.numberOfElements
  element := Parameter.element
  addElement := Parameter.addElement

instance : LawfulAnyValue Parameter where
  empty_isEmpty := rfl
  scalar_nonempty t x := by cases t <;> rfl
  struct_nonempty v struct := by
    cases v with
    | plain value => cases value <;> first | rfl | cases struct
    | strings texts => cases struct
    | withMember base name value => rfl
  asScalar_scalar t x := LawfulAnyValue.asScalar_scalar (V := Value) t x
  packet_names := LawfulAnyValue.packet_names (V := Value)
  emptyStruct_struct name := rfl
  emptyStruct_member name n _ := rfl
  addMember_adds v x n struct name fresh nonempty := by
    change v.isStruct = true at struct
    change v.member n = none at fresh
    change (x == .plain .empty) = false at nonempty
    change (!n.isEmpty) = true at name
    refine ⟨.withMember v n x,?_,rfl,?_,?_⟩
    · change Parameter.addMember v n x = _
      have present : (x != .plain .empty) = true := by simp [bne,nonempty]
      simp [Parameter.addMember,struct,fresh,name,present]
    · exact if_pos rfl
    · intro m _ different
      exact if_neg different

instance : LawfulAssign Parameter where
  assign_empty target value hollow := by
    have hollow : target = .plain .empty := by simpa [isEmptyValue] using hollow
    exact if_pos (Or.inl hollow)
  assign_failed target value failed := by
    change (Parameter.tryAssign target value).1 = false at failed
    change (Parameter.tryAssign target value).2 = target
    unfold Parameter.tryAssign at failed ⊢
    split at failed
    · cases failed
    · rename_i other
      rw [if_neg other]

instance : LawfulTypes Parameter Kind where
  empty_member v n hollow := by
    have hollow : v = .plain .empty := by simpa [isEmptyValue] using hollow
    rw [hollow]
    rfl
  scalar_typed t v := by
    change v.getType = .scalar t ↔ (v.asScalar t).isSome = true
    cases v with
    | plain value => cases value <;> cases t <;> simp [Parameter.getType,Parameter.kindOf,
        Parameter.asScalar,Value.asScalar]
    | strings texts => simp [Parameter.getType,Parameter.asScalar]
    | withMember base name value => simp [Parameter.getType,Parameter.asScalar]
  scalar_noElement t := rfl
  array_elementType n t := rfl
  array_fresh := ⟨rfl,rfl,rfl⟩
  array_elements v t i typed within := by
    cases v with
    | plain value => cases value <;> cases typed
    | withMember base name value => cases typed
    | strings texts =>
      cases typed
      have here : texts[i]? = some texts[i] := List.getElem?_eq_getElem within
      refine ⟨.plain (.string texts[i]),?_,rfl⟩
      change (texts[i]?).map _ = _
      rw [here]
      rfl
  addElement_appends v x typed _ := by
    cases v with
    | plain value => cases value <;> cases typed
    | withMember base name value => cases typed
    | strings texts =>
      have kind : x.getType = .scalar .string := (Option.some.inj typed).symm
      obtain ⟨str,rfl⟩ : ∃ str, x = .plain (.string str) := by
        cases x with
        | plain value => cases value <;> first | exact ⟨_,rfl⟩ | cases kind
        | strings other => cases kind
        | withMember base name value => cases kind
      refine ⟨.strings (texts ++ [str]),rfl,rfl,rfl,List.length_append,?_,?_⟩
      · change ((texts ++ [str])[texts.length]?).map _ = _
        rw [List.getElem?_concat_length]
        rfl
      · intro i below
        change ((texts ++ [str])[i]?).map _ = (texts[i]?).map _
        rw [List.getElem?_append_left below]
  json_roundtrip kind := by
    change Kind.read none (String.ofList kind.write).toList = some kind
    rw [String.toList_ofList]
    exact kind.read_write

def writeTexts : List String → List UInt8
  | [] => []
  | str :: texts => writeText str ++ writeTexts texts

def readTexts : Nat → List UInt8 → Option (List String × List UInt8)
  | 0,bytes => some ([],bytes)
  | n+1,bytes => do
    let (str,rest) ← readText bytes
    let (texts,tail) ← readTexts n rest
    return (str :: texts,tail)

theorem readTexts_writeTexts (texts : List String) (rest : List UInt8) :
    readTexts texts.length (writeTexts texts ++ rest) = some (texts,rest) := by
  induction texts with
  | nil => rfl
  | cons str texts ih =>
    simp only [List.length_cons,readTexts,writeTexts,List.append_assoc,readText_writeText]
    simp [ih]

namespace Parameter

def write : Parameter → List UInt8
  | .plain value => writeNat 0 ++ Reference.write value
  | .strings texts => writeNat 1 ++ (writeNat texts.length ++ writeTexts texts)
  | .withMember base name value => writeNat 2 ++ (write base ++ (writeText name ++ write value))

def depth : Parameter → Nat
  | .plain value => 1 + Reference.depth value
  | .strings _ => 1
  | .withMember base _ value => 1 + max (depth base) (depth value)

def readFrom : Nat → List UInt8 → Option (Parameter × List UInt8)
  | 0,_ => none
  | fuel+1,bytes => do
    let (tag,rest) ← readNat bytes
    match tag with
    | 0 => do let (value,tail) ← readTree fuel rest; return (.plain value,tail)
    | 1 => do
      let (count,rest) ← readNat rest
      let (texts,tail) ← readTexts count rest
      return (.strings texts,tail)
    | 2 => do
      let (base,rest) ← readFrom fuel rest
      let (name,rest) ← readText rest
      let (value,tail) ← readFrom fuel rest
      return (.withMember base name value,tail)
    | _ => none

theorem readFrom_write (parameter : Parameter) (fuel : Nat) (rest : List UInt8)
    (fits : depth parameter ≤ fuel) : readFrom fuel (write parameter ++ rest) = some (parameter,rest) := by
  induction parameter generalizing fuel rest with
  | plain value =>
    obtain _ | fuel := fuel
    · simp [depth] at fits
    · have within : Reference.depth value ≤ fuel := by simp only [depth] at fits; omega
      simp only [write,List.append_assoc,readFrom,readNat_writeNat,Option.bind_eq_bind,Option.bind_some,
        readTree_write value fuel rest within]
      rfl
  | strings texts =>
    obtain _ | fuel := fuel
    · simp [depth] at fits
    · simp only [write,List.append_assoc,readFrom,readNat_writeNat,Option.bind_eq_bind,Option.bind_some,
        readTexts_writeTexts]
      rfl
  | withMember base name value hb hv =>
    obtain _ | fuel := fuel
    · simp [depth] at fits
    · have fits : max (depth base) (depth value) ≤ fuel := by simp only [depth] at fits; omega
      have first := fun tail => hb fuel tail (by omega)
      have second := fun tail => hv fuel tail (by omega)
      simp only [write,List.append_assoc,readFrom,readNat_writeNat,Option.bind_eq_bind,
        Option.bind_some,first,readText_writeText,second]
      rfl

theorem depth_le_write (parameter : Parameter) : depth parameter ≤ (write parameter).length := by
  induction parameter with
  | plain value =>
    have within := Reference.depth_le_write value
    simp only [depth,write,List.length_append,writeNat,List.length_replicate,List.length_singleton]
    omega
  | strings texts => simp [depth,write,writeNat]
  | withMember base name value hb hv =>
    simp only [depth,write,List.length_append,writeNat,List.length_replicate,List.length_singleton]
    omega

def read (bytes : List UInt8) : Except Exception Parameter :=
  match readFrom bytes.length bytes with
  | some (parameter,[]) => .ok parameter
  | _ => .error (.foreign "AnyValueFromBinary")

theorem read_write (parameter : Parameter) : read (write parameter) = .ok parameter := by
  have parsed := readFrom_write parameter (write parameter).length [] (depth_le_write parameter)
  rw [List.append_nil] at parsed
  rw [read,parsed]

end Parameter

instance : Codec Parameter where
  anyValueToBinary := Parameter.write
  anyValueFromBinary := Parameter.read
  base64Encode := textOfBytes
  base64Decode := bytesOfText

instance : LawfulCodec Parameter where
  binary_roundtrip := Parameter.read_write
  base64_roundtrip := bytesOfText_textOfBytes

end SupProtocol.Reference
