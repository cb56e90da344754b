import SupProtocol.ReplyAccess

namespace SupProtocol

-- sup::dto::AnyType with its JSON form: `elementType t` is `t.ElementType()` of an
-- array type and `none` otherwise, `parseString s` what a JSONAnyTypeParser makes
-- of a text.
class AnyType (T : Type) where
  scalarType : ScalarType → T
  arrayType : Nat → T → T
  elementType : T → Option T
  anyTypeToJSONString : T → String
  parseString : String → Option T

-- The values and their types: `valueOf t` is the value that a type starts with,
-- `element v i` is `v[i]` within the bounds of an array and `none` otherwise.
class TypedValue (V : Type) (T : outParam Type) where
  getType : V → T
  valueOf : T → V
  numberOfElements : V → Nat
  element : V → Nat → Option V
  addElement : V → V → Except Exception V

export AnyType (scalarType arrayType elementType anyTypeToJSONString parseString)
export TypedValue (getType valueOf numberOfElements element addElement)

def STRING_ARRAY_TYPE {T : Type} [AnyType T] : T := arrayType 0 (scalarType .string)

-- What the parameter code relies on. An empty value has no fields; an array keeps
-- its elements in order, all of its element type, and AddElement appends to it.
class LawfulTypes (V T : Type) [AnyValue V] [AnyType T] [TypedValue V T] : Prop where
  empty_member (v : V) (n : String) : isEmptyValue v = true → member v n = none
  scalar_typed (t : ScalarType) (v : V) :
    getType v = (scalarType t : T) ↔ (asScalar t v).isSome = true
  scalar_noElement (t : ScalarType) : elementType (scalarType t : T) = none
  array_elementType (n : Nat) (t : T) : elementType (arrayType n t) = some t
  array_fresh : isEmptyValue (valueOf (STRING_ARRAY_TYPE : T) : V) = false ∧
    getType (valueOf (STRING_ARRAY_TYPE : T) : V) = (STRING_ARRAY_TYPE : T) ∧
    numberOfElements (valueOf (STRING_ARRAY_TYPE : T) : V) = 0
  array_elements (v : V) (t : T) (i : Nat) : elementType (getType v) = some t →
    i < numberOfElements v → ∃ x, element v i = some x ∧ getType x = t
  addElement_appends (v x : V) : elementType (getType v) = some (getType x) →
    isEmptyValue v = false → ∃ w, addElement v x = .ok w ∧ isEmptyValue w = false ∧
      elementType (getType w) = elementType (getType v) ∧
      numberOfElements w = numberOfElements v + 1 ∧ element w (numberOfElements v) = some x ∧
      ∀ i < numberOfElements v, element w i = element v i
  json_roundtrip (t : T) : parseString (anyTypeToJSONString t) = some t

attribute [simp] LawfulTypes.scalar_noElement LawfulTypes.array_elementType LawfulTypes.json_roundtrip

-- What a function with an output parameter leaves behind, whether it returns or
-- throws.
structure Packed (V : Type) where
  result : Except Exception Unit
  output : V

def Packed.andThen {V : Type} (packed : Packed V) (next : V → Packed V) : Packed V :=
  match packed.result with
  | .error _ => packed
  | .ok _ => next packed.output

section Pack
variable {V T : Type} [AnyValue V]

-- output.AddMember(fieldName,value), which changes the output or throws.
def addOutputMember (fieldName : String) (value output : V) : Packed V :=
  match addMember output fieldName value with
  | .error error => ⟨.error error,output⟩
  | .ok output => ⟨.ok (),output⟩

def functionProtocolPrepareOutput (output : V) (fieldName : String) : Packed V :=
  if isEmptyValue output then ⟨.ok (),emptyStruct ""⟩
  else if !isStructValue output then
    ⟨.error (.invalidOperation "FunctionProtocolPrepareOutput(): output is not a structure"),output⟩
  else if hasField output fieldName then
    ⟨.error (.invalidOperation
      ("FunctionProtocolPrepareOutput(): output already contains a field with name [" ++ fieldName ++
        "]")),output⟩
  else ⟨.ok (),output⟩

namespace FunctionProtocolPack

def packT (output : V) (fieldName : String) (t : ScalarType) (val : t.Rep) : Packed V :=
  (functionProtocolPrepareOutput output fieldName).andThen
    (addOutputMember fieldName (scalar t val))

def boolean (output : V) (fieldName : String) (b : Bool) : Packed V :=
  packT output fieldName .boolean b

def string (output : V) (fieldName str : String) : Packed V := packT output fieldName .string str

-- Not the overload for bool, which a pointer would convert to.
def cString (output : V) (fieldName str : String) : Packed V := string output fieldName str

def anyValue (output : V) (fieldName : String) (anyvalue : V) : Packed V :=
  if isEmptyValue anyvalue then
    ⟨.error (.invalidOperation
      "FunctionProtocolPack(): trying to pack an empty value in a structure"),output⟩
  else (functionProtocolPrepareOutput output fieldName).andThen (addOutputMember fieldName anyvalue)

variable [AnyType T]

def anyType (output : V) (fieldName : String) (anytype : T) : Packed V :=
  (functionProtocolPrepareOutput output fieldName).andThen fun output =>
    let jsonType := anyTypeToJSONString anytype
    addOutputMember fieldName (scalar .string jsonType) output

variable [TypedValue V T]

def addStrings : List String → V → Except Exception V
  | [],anyList => return anyList
  | str :: rest,anyList => do
    let anyList ← addElement anyList (scalar .string str)
    addStrings rest anyList

def stringList (output : V) (fieldName : String) (strings : List String) : Packed V :=
  (functionProtocolPrepareOutput output fieldName).andThen fun output =>
    match addStrings strings (valueOf STRING_ARRAY_TYPE) with
    | .error error => ⟨.error error,output⟩
    | .ok anyList => addOutputMember fieldName anyList output

end FunctionProtocolPack

end Pack

inductive Packable (V T : Type) where
  | boolean (b : Bool)
  | string (str : String)
  | cString (str : String)
  | stringList (strings : List String)
  | anyValue (anyvalue : V)
  | anyType (anytype : T)

section Overloads
variable {V T : Type} [AnyValue V] [AnyType T] [TypedValue V T]

def functionProtocolPack (output : V) (fieldName : String) : Packable V T → Packed V
  | .boolean b => FunctionProtocolPack.boolean output fieldName b
  | .string str => FunctionProtocolPack.string output fieldName str
  | .cString str => FunctionProtocolPack.cString output fieldName str
  | .stringList strings => FunctionProtocolPack.stringList output fieldName strings
  | .anyValue anyvalue => FunctionProtocolPack.anyValue output fieldName anyvalue
  | .anyType anytype => FunctionProtocolPack.anyType output fieldName anytype

-- The bare accesses to types and arrays, which throw as the ones to members do.
def elementTypeOf (t : T) : Except Exception T :=
  match elementType t with
  | none => .error (.foreign "ElementType(): not an array type")
  | some element => .ok element

omit [AnyValue V] [AnyType T] in
def elementAt (value : V) (i : Nat) : Except Exception V :=
  match element value i with
  | none => .error (.foreign "operator[]: no such element")
  | some element => .ok element

def isArrayType (t : T) : Bool := (elementType t).isSome
omit [AnyValue V] in
def isArrayValue (value : V) : Bool := isArrayType (getType value)

inductive ExtractTarget where
  | boolean | string | stringList | anyType
  deriving DecidableEq, Repr

def functionProtocolExpectedType : ExtractTarget → T
  | .boolean => scalarType .boolean
  | .string => scalarType .string
  | .stringList => STRING_ARRAY_TYPE
  | .anyType => scalarType .string

-- For arrays only the types of the elements are compared.
def validateFunctionProtocolInput (target : ExtractTarget) (input : V) (fieldName : String)
    [DecidableEq T] : Except Exception Bool :=
  if !hasField input fieldName then return false
  else
    let expectedType := functionProtocolExpectedType target
    if isArrayType expectedType then do
      let field ← memberAt input fieldName
      if !isArrayValue field then return false
      else
        let found ← elementTypeOf (getType field)
        let wanted ← elementTypeOf expectedType
        return decide (found = wanted)
    else do
      let field ← memberAt input fieldName
      return decide (getType field = expectedType)

namespace FunctionProtocolExtract
variable [DecidableEq T]

-- FunctionProtocolExtractT: what is returned, and the target after it.
def extractT (target : ExtractTarget) (t : ScalarType) (val : t.Rep) (input : V) (fieldName : String) :
    Except Exception (Bool × t.Rep) := do
  let valid ← validateFunctionProtocolInput target input fieldName
  if !valid then return (false,val)
  else
    let field ← memberAt input fieldName
    let val ← scalarAs t field
    return (true,val)

def boolean (b : Bool) (input : V) (fieldName : String) : Except Exception (Bool × Bool) :=
  extractT .boolean .boolean b input fieldName

def string (str : String) (input : V) (fieldName : String) : Except Exception (Bool × String) :=
  extractT .string .string str input fieldName

def readStrings (field : V) : Nat → Nat → List String → Except Exception (List String)
  | 0,_,strings => return strings
  | remaining+1,i,strings => do
    let element ← elementAt field i
    let str ← scalarAs .string element
    readStrings field remaining (i+1) (strings ++ [str])

def stringList (strings : List String) (input : V) (fieldName : String) :
    Except Exception (Bool × List String) := do
  let valid ← validateFunctionProtocolInput .stringList input fieldName
  if !valid then return (false,strings)
  else
    let field ← memberAt input fieldName
    let strings ← readStrings field (numberOfElements field) 0 []
    return (true,strings)

omit [AnyType T] [TypedValue V T] [DecidableEq T] in
def anyValue (anyvalue input : V) (fieldName : String) : Except Exception (Bool × V) :=
  if !hasField input fieldName then return (false,anyvalue)
  else do
    let field ← memberAt input fieldName
    let (assigned,anyvalue) := tryAssignIfEmptyOrConvert anyvalue field
    if !assigned then return (false,anyvalue)
    else return (true,anyvalue)

def anyType (anytype : T) (input : V) (fieldName : String) : Except Exception (Bool × T) := do
  let valid ← validateFunctionProtocolInput .anyType input fieldName
  if !valid then return (false,anytype)
  else
    let field ← memberAt input fieldName
    let jsonType ← scalarAs .string field
    match parseString jsonType with
    | none => return (false,anytype)
    | some anytype => return (true,anytype)

end FunctionProtocolExtract

end Overloads

end SupProtocol
