import SupProtocol.Vocabulary

namespace SupProtocol

inductive ScalarType where
  | boolean | signedInteger32 | unsignedInteger32 | unsignedInteger64 | string
  deriving DecidableEq, Repr

@[reducible] def ScalarType.Rep : ScalarType → Type
  | .boolean => Bool
  | .signedInteger32 => Int32
  | .unsignedInteger32 => UInt32
  | .unsignedInteger64 => UInt64
  | .string => String

-- sup::dto::AnyValue as this library uses it; its code is a package of its own.
-- `member v n` is `v[n]` when `v.HasField(n)` and `none` otherwise; `asScalar t v`
-- is `v.As<T>()` when `v.GetType()` is t and `none` otherwise. Every use in the
-- sources is guarded by that very check, so neither access can throw there.
class AnyValue (V : Type) where
  empty : V
  isEmptyValue : V → Bool
  scalar (t : ScalarType) : t.Rep → V
  asScalar (t : ScalarType) : V → Option t.Rep
  emptyStruct : String → V
  isStructValue : V → Bool
  isMemberName : String → Bool
  member : V → String → Option V
  addMember : V → String → V → Except Exception V
  tryAssignIfEmptyOrConvert : V → V → Bool × V

class Codec (V : Type) where
  anyValueToBinary : V → List UInt8
  anyValueFromBinary : List UInt8 → Except Exception V
  base64Encode : List UInt8 → String
  base64Decode : String → Except Exception (List UInt8)

export AnyValue (empty isEmptyValue scalar asScalar emptyStruct isStructValue isMemberName member
  addMember tryAssignIfEmptyOrConvert)
export Codec (anyValueToBinary anyValueFromBinary base64Encode base64Decode)

-- What the code relies on of these packages. A struct keeps what was added under
-- each name, and no other member changes; names are plain member names, without
-- the separators that address nested fields.
class LawfulAnyValue (V : Type) [AnyValue V] : Prop where
  empty_isEmpty : isEmptyValue (empty : V) = true
  scalar_nonempty (t : ScalarType) (x : t.Rep) : isEmptyValue (scalar t x : V) = false
  struct_nonempty (v : V) : isStructValue v = true → isEmptyValue v = false
  asScalar_scalar (t : ScalarType) (x : t.Rep) : asScalar t (scalar t x : V) = some x
  packet_names (n : String) : n ∈ packetFieldNames → isMemberName V n = true
  emptyStruct_struct (name : String) : isStructValue (emptyStruct name : V) = true
  emptyStruct_member (name n : String) : isMemberName V n = true →
    member (emptyStruct name : V) n = none
  addMember_adds (v x : V) (n : String) : isStructValue v = true → isMemberName V n = true →
    member v n = none → isEmptyValue x = false →
    ∃ w, addMember v n x = .ok w ∧ isStructValue w = true ∧ member w n = some x ∧
      ∀ m, isMemberName V m = true → m ≠ n → member w m = member v m

class LawfulCodec (V : Type) [Codec V] : Prop where
  binary_roundtrip (v : V) : anyValueFromBinary (anyValueToBinary v) = .ok v
  base64_roundtrip (bytes : List UInt8) : base64Decode V (base64Encode V bytes) = .ok bytes

-- Assignment takes over the value when the target is empty and reports a failed
-- conversion without touching the target.
class LawfulAssign (V : Type) [AnyValue V] : Prop where
  assign_empty (target value : V) : isEmptyValue target = true →
    tryAssignIfEmptyOrConvert target value = (true,value)
  assign_failed (target value : V) : (tryAssignIfEmptyOrConvert target value).1 = false →
    (tryAssignIfEmptyOrConvert target value).2 = target

attribute [simp] LawfulAnyValue.empty_isEmpty LawfulAnyValue.scalar_nonempty
  LawfulAnyValue.asScalar_scalar LawfulAnyValue.emptyStruct_struct
  LawfulCodec.binary_roundtrip LawfulCodec.base64_roundtrip

@[simp] theorem ok_then {α β : Type} (x : α) (next : α → Except Exception β) :
    (Except.ok x >>= next) = next x := rfl

@[simp] theorem return_ok {α : Type} (x : α) : (pure x : Except Exception α) = .ok x := rfl

variable {V : Type} [AnyValue V]

def hasField (value : V) (name : String) : Bool := (member value name).isSome
def hasType (value : V) (t : ScalarType) : Bool := (asScalar t value).isSome

def validateMemberType (value : V) (memberName : String) (memberType : ScalarType) : Bool :=
  match member value memberName with
  | none => false
  | some field => hasType field memberType

def validateMemberTypeIfPresent (value : V) (memberName : String) (memberType : ScalarType) : Bool :=
  match member value memberName with
  | none => true
  | some field => hasType field memberType

def HasMembers (value : V) (members : List (String × V)) : Prop :=
  isStructValue value = true ∧ ∀ n, isMemberName V n = true → member value n = members.lookup n

theorem HasMembers.at [LawfulAnyValue V] {value : V} (known : HasMembers value members)
    (n : String) (name : n ∈ packetFieldNames) : member value n = members.lookup n :=
  known.2 n (LawfulAnyValue.packet_names n name)

theorem HasMembers.nonempty [LawfulAnyValue V] {value : V} (known : HasMembers value members) :
    isEmptyValue value = false := LawfulAnyValue.struct_nonempty value known.1

theorem emptyStruct_members [LawfulAnyValue V] (name : String) :
    HasMembers (emptyStruct name : V) [] :=
  ⟨LawfulAnyValue.emptyStruct_struct name,
   fun n valid => by simpa using LawfulAnyValue.emptyStruct_member (V := V) name n valid⟩

theorem addMember_members [LawfulAnyValue V] {value x : V} (known : HasMembers value members)
    (name : isMemberName V n = true) (fresh : members.lookup n = none)
    (nonempty : isEmptyValue x = false) :
    ∃ w, addMember value n x = .ok w ∧ HasMembers w (members ++ [(n,x)]) := by
  obtain ⟨w,added,struct,here,other⟩ :=
    LawfulAnyValue.addMember_adds value x n known.1 name ((known.2 n name).trans fresh) nonempty
  refine ⟨w,added,struct,?_⟩
  intro m valid
  by_cases same : m = n
  · subst m
    rw [here,List.lookup_append,fresh]
    simp
  · have differ : (m == n) = false := by simpa using same
    rw [other m valid same,known.2 m valid,List.lookup_append]
    simp [List.lookup_cons,differ]

end SupProtocol
