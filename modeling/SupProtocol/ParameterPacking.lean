import SupProtocol.FunctionProtocol
import SupProtocol.Library.Machine

namespace SupProtocol
open Machine

variable {V T : Type} [AnyValue V] [AnyType T] [TypedValue V T]

structure HoldsStrings (value : V) (strings : List String) : Prop where
  typed : elementType (getType value) = some (scalarType .string)
  count : numberOfElements value = strings.length
  strings : ∀ i str, strings[i]? = some str →
    ∃ x, element value i = some x ∧ asScalar .string x = some str

def Holds (value : V) : Packable V T → Prop
  | .boolean b => asScalar .boolean value = some b
  | .string str | .cString str => asScalar .string value = some str
  | .stringList strings => HoldsStrings value strings
  | .anyValue anyvalue => value = anyvalue
  | .anyType anytype => asScalar .string value = some (anyTypeToJSONString anytype)

-- One more member, and nothing else has changed.
structure Extends (output extended : V) (name : String) (value : V) : Prop where
  struct : isStructValue extended = true
  here : member extended name = some value
  other : ∀ m, isMemberName V m = true → m ≠ name → member extended m = member output m

section Preparation
variable [LawfulAnyValue V] [LawfulTypes V T]

omit [AnyType T] [TypedValue V T] [LawfulTypes V T] in
theorem prepareOutput_struct {output : V} {name : String} (struct : isStructValue output = true)
    (fresh : member output name = none) :
    functionProtocolPrepareOutput output name = ⟨.ok (),output⟩ := by
  have full := LawfulAnyValue.struct_nonempty output struct
  simp [functionProtocolPrepareOutput,full,struct,hasField,fresh]

include T in
theorem prepareOutput_ready {output : V} {name : String}
    (ready : isEmptyValue output = true ∨ isStructValue output = true)
    (fresh : member output name = none) :
    ∃ base, functionProtocolPrepareOutput output name = ⟨.ok (),base⟩ ∧ isStructValue base = true ∧
      ∀ m, isMemberName V m = true → member base m = member output m := by
  rcases ready with hollow | struct
  · refine ⟨emptyStruct "",if_pos hollow,LawfulAnyValue.emptyStruct_struct "",?_⟩
    intro m valid
    rw [LawfulAnyValue.emptyStruct_member "" m valid,LawfulTypes.empty_member (T := T) output m hollow]
  · exact ⟨output,prepareOutput_struct struct fresh,struct,fun _ _ => rfl⟩

include T in
theorem member_added {output value : V} {name : String}
    (ready : isEmptyValue output = true ∨ isStructValue output = true)
    (valid : isMemberName V name = true) (fresh : member output name = none)
    (nonempty : isEmptyValue value = false) :
    ∃ extended, (functionProtocolPrepareOutput output name).andThen (addOutputMember name value) =
        ⟨.ok (),extended⟩ ∧ Extends output extended name value := by
  obtain ⟨base,prepared,struct,same⟩ := prepareOutput_ready (T := T) ready fresh
  obtain ⟨extended,added,whole,here,other⟩ :=
    LawfulAnyValue.addMember_adds base value name struct valid ((same name valid).trans fresh) nonempty
  refine ⟨extended,?_,whole,here,?_⟩
  · rw [prepared]
    simp only [Packed.andThen,addOutputMember,added]
  · intro m named different
    exact (other m named different).trans (same m named)

end Preparation

section Arrays
variable [LawfulAnyValue V] [LawfulTypes V T]

omit [LawfulAnyValue V] in
theorem scalar_getType {t : ScalarType} {v : V} {x : t.Rep} (typed : asScalar t v = some x) :
    getType v = (scalarType t : T) :=
  (LawfulTypes.scalar_typed t v).mpr (by rw [typed]; rfl)

omit [AnyValue V] [AnyType T] [TypedValue V T] [LawfulAnyValue V] [LawfulTypes V T] in
theorem snoc_cases {strings : List String} {str other : String} {i : Nat}
    (found : (strings ++ [str])[i]? = some other) :
    i < strings.length ∧ strings[i]? = some other ∨ i = strings.length ∧ other = str := by
  rcases Nat.lt_trichotomy i strings.length with below | same | above
  · rw [List.getElem?_append_left below] at found
    exact Or.inl ⟨below,found⟩
  · subst same
    rw [List.getElem?_concat_length] at found
    exact Or.inr ⟨rfl,(Option.some.inj found).symm⟩
  · rw [List.getElem?_eq_none (by simp; omega)] at found
    cases found

theorem addElement_holds {array : V} {strings : List String} (str : String)
    (held : HoldsStrings array strings) (nonempty : isEmptyValue array = false) :
    ∃ longer, addElement array (scalar .string str) = .ok longer ∧ isEmptyValue longer = false ∧
      HoldsStrings longer (strings ++ [str]) := by
  have kind : getType (scalar .string str : V) = scalarType .string :=
    scalar_getType (LawfulAnyValue.asScalar_scalar .string str)
  obtain ⟨longer,added,full,typed,count,last,before⟩ := LawfulTypes.addElement_appends array
    (scalar .string str) (by rw [held.typed,kind]) nonempty
  refine ⟨longer,added,full,typed.trans held.typed,?_,?_⟩
  · rw [count,held.count,List.length_append]
    rfl
  · intro i other found
    rcases snoc_cases found with ⟨below,found⟩ | ⟨rfl,rfl⟩
    · rw [before i (by rw [held.count]; exact below)]
      exact held.strings i other found
    · rw [← held.count,last]
      exact ⟨_,rfl,LawfulAnyValue.asScalar_scalar .string other⟩

theorem addStrings_holds (rest : List String) : ∀ (array : V) (strings : List String),
    HoldsStrings array strings → isEmptyValue array = false →
    ∃ whole, FunctionProtocolPack.addStrings rest array = .ok whole ∧ isEmptyValue whole = false ∧
      HoldsStrings whole (strings ++ rest) := by
  induction rest with
  | nil =>
    intro array strings held nonempty
    exact ⟨array,rfl,nonempty,by rw [List.append_nil]; exact held⟩
  | cons str rest ih =>
    intro array strings held nonempty
    obtain ⟨longer,added,full,extended⟩ := addElement_holds str held nonempty
    obtain ⟨whole,filled,final,complete⟩ := ih longer (strings ++ [str]) extended full
    refine ⟨whole,?_,final,?_⟩
    · rw [FunctionProtocolPack.addStrings,added,ok_then,filled]
    · rw [List.append_cons]
      exact complete

omit [LawfulAnyValue V] in
theorem fresh_array : HoldsStrings (valueOf (STRING_ARRAY_TYPE : T) : V) [] := by
  obtain ⟨_,typed,count⟩ := LawfulTypes.array_fresh (V := V) (T := T)
  refine ⟨?_,count,?_⟩
  · rw [typed]
    exact LawfulTypes.array_elementType (V := V) 0 _
  · intro i str found
    cases found

-- Where nothing is refused at once, each overload adds one member that holds what
-- it is given.
theorem pack_stores {x : Packable V T}
    (nonempty : ∀ v, x = .anyValue v → isEmptyValue v = false) :
    ∃ value : V, isEmptyValue value = false ∧ Holds value x ∧ ∀ (output : V) (name : String),
      functionProtocolPack output name x =
        (functionProtocolPrepareOutput output name).andThen (addOutputMember name value) := by
  cases x with
  | boolean b => exact ⟨_,LawfulAnyValue.scalar_nonempty .boolean b,
      LawfulAnyValue.asScalar_scalar .boolean b,fun _ _ => rfl⟩
  | string str | cString str => exact ⟨_,LawfulAnyValue.scalar_nonempty .string str,
      LawfulAnyValue.asScalar_scalar .string str,fun _ _ => rfl⟩
  | anyType anytype => exact ⟨_,LawfulAnyValue.scalar_nonempty .string (anyTypeToJSONString anytype),
      LawfulAnyValue.asScalar_scalar .string _,fun _ _ => rfl⟩
  | anyValue anyvalue =>
    have full := nonempty anyvalue rfl
    refine ⟨anyvalue,full,rfl,?_⟩
    intro output name
    simp [functionProtocolPack,FunctionProtocolPack.anyValue,full]
  | stringList strings =>
    obtain ⟨full,_,_⟩ := LawfulTypes.array_fresh (V := V) (T := T)
    obtain ⟨array,filled,final,held⟩ := addStrings_holds strings _ [] (fresh_array (T := T)) full
    refine ⟨array,final,held,?_⟩
    intro output name
    simp only [functionProtocolPack,FunctionProtocolPack.stringList,filled]

end Arrays

end SupProtocol
