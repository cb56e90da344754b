import SupProtocol.ParameterPacking
import SupProtocol.ReferenceParameters

namespace SupProtocol
open Machine

variable {V T : Type} [AnyValue V] [AnyType T] [TypedValue V T] [DecidableEq T]

-- A member of exactly the type that a target asks for, an array of any length for
-- a list of strings.
def HasExpectedType (target : ExtractTarget) (input : V) (name : String) : Prop :=
  ∃ field, member input name = some field ∧
    match target with
    | .boolean => getType field = scalarType .boolean
    | .string | .anyType => getType field = scalarType .string
    | .stringList => elementType (getType field) = some (scalarType .string)

-- An overload that does not throw, returns true exactly under a condition, and
-- leaves its target alone otherwise.
def Extraction {α : Type} (extracted : Except Exception (Bool × α)) (old : α) (expected : Prop) : Prop :=
  ∃ found val, extracted = .ok (found,val) ∧ (found = true ↔ expected) ∧ (found = false → val = old)

structure ExtractsExactly (input : V) (name : String) : Prop where
  boolean : ∀ old, Extraction (FunctionProtocolExtract.boolean old input name) old
    (HasExpectedType .boolean input name)
  string : ∀ old, Extraction (FunctionProtocolExtract.string old input name) old
    (HasExpectedType .string input name)
  stringList : ∀ old, Extraction (FunctionProtocolExtract.stringList old input name) old
    (HasExpectedType .stringList input name)
  anyType : ∀ old, Extraction (FunctionProtocolExtract.anyType old input name) old
    (HasExpectedType .anyType input name ∧ ∃ field text anytype, member input name = some field ∧
      asScalar .string field = some text ∧ parseString text = some (anytype : T))
  anyValue : ∀ old, Extraction (FunctionProtocolExtract.anyValue old input name) old
    (∃ field, member input name = some field ∧ (tryAssignIfEmptyOrConvert old field).1 = true)

-- The packed value comes back, whatever the target was; an AnyValue target has to
-- be empty.
def Extracts (input : V) (name : String) : Packable V T → Prop
  | .boolean b => ∀ old, FunctionProtocolExtract.boolean old input name = .ok (true,b)
  | .string str | .cString str =>
    ∀ old, FunctionProtocolExtract.string old input name = .ok (true,str)
  | .stringList strings =>
    ∀ old, FunctionProtocolExtract.stringList old input name = .ok (true,strings)
  | .anyValue anyvalue => ∀ old, isEmptyValue old = true →
    FunctionProtocolExtract.anyValue old input name = .ok (true,anyvalue)
  | .anyType anytype =>
    ∀ old, FunctionProtocolExtract.anyType old input name = .ok (true,anytype)

section Validation
variable [LawfulTypes V T] {input field : V} {name : String}

omit [TypedValue V T] [AnyValue V] [DecidableEq T] [LawfulTypes V T] in
theorem elementTypeOf_array {t element : T} (array : elementType t = some element) :
    elementTypeOf t = .ok element := by
  simp only [elementTypeOf,array]

-- Three targets stand for a scalar, and the comparison is with its type.
theorem validate_scalar (target : ExtractTarget) {t : ScalarType}
    (expected : (functionProtocolExpectedType target : T) = scalarType t)
    (here : member input name = some field) :
    validateFunctionProtocolInput target input name = .ok (asScalar t field).isSome := by
  have plain : isArrayType (scalarType t : T) = false := by
    simp [isArrayType,LawfulTypes.scalar_noElement (V := V)]
  have compared : decide (getType field = (scalarType t : T)) = (asScalar t field).isSome := by
    rw [Bool.eq_iff_iff,decide_eq_true_iff]
    exact LawfulTypes.scalar_typed t field
  simp only [validateFunctionProtocolInput,hasField,here,expected,plain,memberAt_present here]
  rw [← compared]
  rfl

theorem validate_list (here : member input name = some field) :
    validateFunctionProtocolInput .stringList input name =
      .ok (decide (elementType (getType field) = some (scalarType .string))) := by
  have wanted : elementType (STRING_ARRAY_TYPE : T) = some (scalarType .string) :=
    LawfulTypes.array_elementType (V := V) 0 _
  have array : isArrayType (STRING_ARRAY_TYPE : T) = true := by simp [isArrayType,wanted]
  simp only [validateFunctionProtocolInput,hasField,here,functionProtocolExpectedType,array,
    memberAt_present here,elementTypeOf_array wanted]
  cases found : elementType (getType field) with
  | none => simp [isArrayValue,isArrayType,found]
  | some element =>
    simp [isArrayValue,isArrayType,found,elementTypeOf_array found]

omit [LawfulTypes V T] in
theorem validate_absent (target : ExtractTarget) (absent : member input name = none) :
    validateFunctionProtocolInput target input name = .ok false := by
  simp [validateFunctionProtocolInput,hasField,absent]

end Validation

section Overloads
variable [LawfulTypes V T]

theorem extractT_exact (target : ExtractTarget) (t : ScalarType)
    (expected : (functionProtocolExpectedType target : T) = scalarType t) (val : t.Rep) (input : V)
    (name : String) :
    FunctionProtocolExtract.extractT target t val input name =
      .ok (match (member input name).bind (asScalar t) with
        | none => (false,val)
        | some x => (true,x)) := by
  unfold FunctionProtocolExtract.extractT
  cases here : member input name with
  | none =>
    rw [validate_absent target here]
    rfl
  | some field =>
    rw [validate_scalar target expected here,ok_then]
    cases typed : asScalar t field with
    | none => simp [typed]
    | some x => simp [typed,memberAt_present here,scalarAs_typed typed]

theorem extractT_extraction (target : ExtractTarget) (t : ScalarType)
    (expected : (functionProtocolExpectedType target : T) = scalarType t) (val : t.Rep) (input : V)
    (name : String) : Extraction (FunctionProtocolExtract.extractT target t val input name) val
      (∃ field, member input name = some field ∧ getType field = (scalarType t : T)) := by
  rw [extractT_exact target t expected]
  cases here : member input name with
  | none => exact ⟨false,val,rfl,by simp,fun _ => rfl⟩
  | some field =>
    have kind : getType field = (scalarType t : T) ↔ (asScalar t field).isSome = true :=
      LawfulTypes.scalar_typed t field
    cases typed : asScalar t field with
    | none => exact ⟨false,val,by simp [typed],by simp [kind,typed],fun _ => rfl⟩
    | some x => exact ⟨true,x,by simp [typed],by simp [kind,typed],fun other => by cases other⟩

omit [AnyValue V] [AnyType T] [LawfulTypes V T] [DecidableEq T] in
theorem elementAt_present {value x : V} {i : Nat} (here : element value i = some x) :
    elementAt value i = .ok x := by
  simp only [elementAt,here]

-- The strings before element i have been read.
omit [LawfulTypes V T] [DecidableEq T] in
theorem readStrings_held {field : V} {strings : List String} (held : HoldsStrings field strings)
    (remaining : Nat) : ∀ i, i + remaining = strings.length →
      FunctionProtocolExtract.readStrings field remaining i (strings.take i) = .ok strings := by
  induction remaining with
  | zero =>
    intro i whole
    rw [FunctionProtocolExtract.readStrings,List.take_of_length_le (by omega)]
    rfl
  | succ remaining ih =>
    intro i part
    have within : i < strings.length := by omega
    obtain ⟨x,here,typed⟩ := held.strings i strings[i] (List.getElem?_eq_getElem within)
    rw [FunctionProtocolExtract.readStrings,elementAt_present here,ok_then,scalarAs_typed typed,ok_then,
      List.take_append_getElem within]
    exact ih (i+1) (by omega)

omit [DecidableEq T] in
theorem array_holds {field : V} (typed : elementType (getType field) = some (scalarType .string : T)) :
    ∃ strings, HoldsStrings field strings := by
  have upTo : ∀ n ≤ numberOfElements field, ∃ strings : List String, strings.length = n ∧
      ∀ i str, strings[i]? = some str → ∃ x, element field i = some x ∧ asScalar .string x = some str := by
    intro n
    induction n with
    | zero => exact fun _ => ⟨[],rfl,fun i str found => by cases found⟩
    | succ n ih =>
      intro bound
      obtain ⟨strings,count,held⟩ := ih (by omega)
      obtain ⟨x,here,kind⟩ := LawfulTypes.array_elements field _ n typed (by omega)
      obtain ⟨last,text⟩ := Option.isSome_iff_exists.mp ((LawfulTypes.scalar_typed .string x).mp kind)
      refine ⟨strings ++ [last],by simp [count],?_⟩
      intro i str found
      rcases snoc_cases found with ⟨_,found⟩ | ⟨rfl,rfl⟩
      · exact held i str found
      · rw [count]
        exact ⟨x,here,text⟩
  obtain ⟨strings,count,held⟩ := upTo (numberOfElements field) (Nat.le_refl _)
  exact ⟨strings,typed,count.symm,held⟩

theorem stringList_held {input field : V} {name : String} {strings : List String}
    (here : member input name = some field) (held : HoldsStrings field strings) (old : List String) :
    FunctionProtocolExtract.stringList old input name = .ok (true,strings) := by
  have read := readStrings_held held strings.length 0 (Nat.zero_add _)
  unfold FunctionProtocolExtract.stringList
  rw [validate_list here,ok_then,decide_eq_true held.typed,memberAt_present here,ok_then,held.count]
  rw [List.take_zero] at read
  rw [read]
  rfl

theorem stringList_extraction (old : List String) (input : V) (name : String) :
    Extraction (FunctionProtocolExtract.stringList old input name) old
      (HasExpectedType .stringList input name) := by
  cases here : member input name with
  | none =>
    refine ⟨false,old,?_,by simp [HasExpectedType,here],fun _ => rfl⟩
    unfold FunctionProtocolExtract.stringList
    rw [validate_absent _ here]
    rfl
  | some field =>
    by_cases typed : elementType (getType field) = some (scalarType .string : T)
    · obtain ⟨strings,held⟩ := array_holds typed
      exact ⟨true,strings,stringList_held here held old,by simp [HasExpectedType,here,typed],
        fun other => by cases other⟩
    · refine ⟨false,old,?_,by simp [HasExpectedType,here,typed],fun _ => rfl⟩
      unfold FunctionProtocolExtract.stringList
      rw [validate_list here,ok_then,decide_eq_false typed]
      rfl

theorem anyType_exact (old : T) (input : V) (name : String) :
    FunctionProtocolExtract.anyType old input name =
      .ok (match ((member input name).bind (asScalar .string)).bind parseString with
        | none => (false,old)
        | some anytype => (true,anytype)) := by
  unfold FunctionProtocolExtract.anyType
  cases here : member input name with
  | none =>
    rw [validate_absent _ here]
    rfl
  | some field =>
    rw [validate_scalar (t := .string) .anyType rfl here,ok_then]
    cases typed : asScalar .string field with
    | none => simp [typed]
    | some text =>
      simp only [Option.isSome_some,memberAt_present here,scalarAs_typed typed,ok_then,Option.bind_some,
        typed]
      cases parseString (T := T) text <;> rfl

theorem anyType_extraction (old : T) (input : V) (name : String) :
    Extraction (FunctionProtocolExtract.anyType old input name) old
      (HasExpectedType .anyType input name ∧ ∃ field text anytype, member input name = some field ∧
        asScalar .string field = some text ∧ parseString text = some (anytype : T)) := by
  rw [anyType_exact]
  cases read : ((member input name).bind (asScalar .string)).bind (parseString (T := T)) with
  | none =>
    refine ⟨false,old,rfl,?_,fun _ => rfl⟩
    simp only [Bool.false_eq_true,false_iff]
    rintro ⟨_,field,text,anytype,here,typed,parsed⟩
    simp [here,typed,parsed] at read
  | some anytype =>
    refine ⟨true,anytype,rfl,?_,fun other => by cases other⟩
    simp only [true_iff]
    obtain ⟨text,found,parsed⟩ := Option.bind_eq_some_iff.mp read
    obtain ⟨field,here,typed⟩ := Option.bind_eq_some_iff.mp found
    exact ⟨⟨field,here,scalar_getType typed⟩,field,text,anytype,here,typed,parsed⟩

omit [AnyType T] [TypedValue V T] [DecidableEq T] [LawfulTypes V T] in
theorem anyValue_extraction [LawfulAssign V] (old input : V) (name : String) :
    Extraction (FunctionProtocolExtract.anyValue old input name) old
      (∃ field, member input name = some field ∧ (tryAssignIfEmptyOrConvert old field).1 = true) := by
  unfold FunctionProtocolExtract.anyValue
  cases here : member input name with
  | none => exact ⟨false,old,by simp [hasField,here],by simp,fun _ => rfl⟩
  | some field =>
    rcases assignment : tryAssignIfEmptyOrConvert old field with ⟨assigned,target⟩
    cases assigned with
    | true =>
      refine ⟨true,target,?_,by simp [assignment],fun other => by cases other⟩
      simp [hasField,here,memberAt_present here,assignment]
    | false =>
      have unchanged := LawfulAssign.assign_failed old field (by rw [assignment])
      refine ⟨false,target,?_,by simp [assignment],fun _ => ?_⟩
      · simp [hasField,here,memberAt_present here,assignment]
      · rw [assignment] at unchanged
        exact unchanged

theorem extracts_exactly [LawfulAssign V] (input : V) (name : String) :
    ExtractsExactly input name where
  boolean old := extractT_extraction .boolean .boolean rfl old input name
  string old := extractT_extraction .string .string rfl old input name
  stringList old := stringList_extraction old input name
  anyType old := anyType_extraction old input name
  anyValue old := anyValue_extraction old input name

theorem held_extracts [LawfulAssign V] {input value : V} {name : String} {x : Packable V T}
    (here : member input name = some value) (held : Holds value x) : Extracts input name x := by
  cases x with
  | boolean b =>
    intro old
    refine (extractT_exact .boolean .boolean rfl old input name).trans ?_
    rw [here,Option.bind_some,show asScalar .boolean value = some b from held]
  | string str | cString str =>
    intro old
    refine (extractT_exact .string .string rfl old input name).trans ?_
    rw [here,Option.bind_some,show asScalar .string value = some str from held]
  | stringList strings => exact stringList_held here held
  | anyValue anyvalue =>
    intro old hollow
    obtain rfl : value = anyvalue := held
    simp [FunctionProtocolExtract.anyValue,hasField,here,memberAt_present here,
      LawfulAssign.assign_empty old value hollow]
  | anyType anytype =>
    intro old
    rw [anyType_exact,here,Option.bind_some,
      show asScalar .string value = some (anyTypeToJSONString anytype) from held,Option.bind_some,
      LawfulTypes.json_roundtrip (V := V)]

end Overloads

abbrev PackCall (V T : Type) := String × Packable V T

omit [DecidableEq T] in
def packStep (output : V) (call : PackCall V T) : Except Exception Unit × V :=
  let packed := functionProtocolPack output call.1 call.2
  (packed.result,packed.output)

-- What the caller has to see to: an output to add members to, new and distinct
-- names for them, and no empty values.
structure Packing (output : V) (calls : List (PackCall V T)) : Prop where
  ready : isEmptyValue output = true ∨ isStructValue output = true
  distinct : (calls.map Prod.fst).Nodup
  named : ∀ call ∈ calls, isMemberName V call.1 = true
  fresh : ∀ call ∈ calls, member output call.1 = none
  nonempty : ∀ call ∈ calls, ∀ v, call.2 = .anyValue v → isEmptyValue v = false

structure PacksAndExtracts (output : V) (calls : List (PackCall V T)) : Prop where
  returns : ∀ r ∈ history packStep output calls, r.output = .ok ()
  kept : ∀ name field, isMemberName V name = true → member output name = some field →
    member (run packStep output calls) name = some field
  others : ∀ name, isMemberName V name = true → name ∉ calls.map Prod.fst →
    member (run packStep output calls) name = member output name
  extracted : ∀ call ∈ calls, Extracts (run packStep output calls) call.1 call.2

section Calls
variable [LawfulAnyValue V] [LawfulTypes V T]

omit [DecidableEq T] in
theorem packStep_extends {output : V} {call : PackCall V T} {calls : List (PackCall V T)}
    (packing : Packing output (call :: calls)) :
    ∃ extended value, packStep output call = (.ok (),extended) ∧ Holds value call.2 ∧
      Extends output extended call.1 value ∧ Packing extended calls := by
  have first : call ∈ call :: calls := List.mem_cons_self
  obtain ⟨value,full,held,stores⟩ := pack_stores (packing.nonempty call first)
  obtain ⟨extended,added,grown⟩ := member_added (T := T) packing.ready (packing.named call first)
    (packing.fresh call first) full
  obtain ⟨apart,distinct⟩ := List.nodup_cons.mp packing.distinct
  refine ⟨extended,value,?_,held,grown,Or.inr grown.struct,distinct,?_,?_,?_⟩
  · rw [packStep,stores,added]
  · exact fun later here => packing.named later (List.mem_cons_of_mem _ here)
  · intro later here
    have known := List.mem_cons_of_mem call here
    have different : later.1 ≠ call.1 := by
      intro same
      exact apart (by rw [← same]; exact List.mem_map_of_mem here)
    rw [grown.other later.1 (packing.named later known) different]
    exact packing.fresh later known
  · exact fun later here => packing.nonempty later (List.mem_cons_of_mem _ here)

-- Induction on the calls; a member that one of them adds is kept by the others.
omit [DecidableEq T] in
theorem pack_run (calls : List (PackCall V T)) : ∀ output : V, Packing output calls →
    (∀ r ∈ history packStep output calls, r.output = .ok ()) ∧
    (∀ name, isMemberName V name = true → name ∉ calls.map Prod.fst →
      member (run packStep output calls) name = member output name) ∧
    ∀ call ∈ calls, ∃ value, member (run packStep output calls) call.1 = some value ∧
      Holds value call.2 := by
  induction calls with
  | nil =>
    intro output _
    exact ⟨fun r known => (by cases known),fun _ _ _ => rfl,fun call known => (by cases known)⟩
  | cons call calls ih =>
    intro output packing
    obtain ⟨extended,value,stepped,held,grown,rest⟩ := packStep_extends packing
    obtain ⟨returns,others,stored⟩ := ih extended rest
    obtain ⟨apart,_⟩ := List.nodup_cons.mp packing.distinct
    have valid := packing.named call List.mem_cons_self
    rw [history,run,stepped]
    refine ⟨?_,?_,?_⟩
    · intro r known
      rcases List.mem_cons.mp known with rfl | later
      · rw [record,stepped]
      · exact returns r later
    · intro name named absent
      obtain ⟨different,absent⟩ := not_or.mp (List.mem_cons.not.mp absent)
      rw [others name named absent,grown.other name named different]
    · intro other known
      rcases List.mem_cons.mp known with rfl | later
      · exact ⟨value,(others other.1 valid apart).trans grown.here,held⟩
      · exact stored other later

theorem packs_and_extracts [LawfulAssign V] {output : V} {calls : List (PackCall V T)}
    (packing : Packing output calls) :
    PacksAndExtracts output calls ∧ ∀ (input : V) (name : String), ExtractsExactly input name := by
  obtain ⟨returns,others,stored⟩ := pack_run calls output packing
  refine ⟨⟨returns,?_,others,?_⟩,extracts_exactly⟩
  · intro name field named here
    rw [others name named,here]
    intro packed
    obtain ⟨call,known,rfl⟩ := List.mem_map.mp packed
    cases here.symm.trans (packing.fresh call known)
  · intro call known
    obtain ⟨value,here,held⟩ := stored call known
    exact held_extracts here held

end Calls

def parameters : List (PackCall Reference.Parameter Reference.Kind) :=
  [("enabled",.boolean true),("name",.string "pump"),("mode",.cString "auto"),
   ("channels",.stringList ["one","two"]),("spare",.stringList []),
   ("limit",.anyValue (.plain (.unsignedInteger32 42))),("schema",.anyType (.array 3 (.scalar .boolean)))]

theorem packs_and_extracts_request :
    FunctionProtocolExtract.stringList ["old"] (run packStep (.plain .empty) parameters) "channels" =
        .ok (true,["one","two"]) ∧
    FunctionProtocolExtract.anyType .empty (run packStep (.plain .empty) parameters) "schema" =
        .ok (true,Reference.Kind.array 3 (.scalar .boolean)) := by
  have packing : Packing (.plain .empty) parameters := by
    refine ⟨Or.inl rfl,by decide,by decide,?_,?_⟩
    · exact fun call _ => rfl
    · intro call known v same
      simp only [parameters,List.mem_cons,List.not_mem_nil,or_false] at known
      rcases known with rfl | rfl | rfl | rfl | rfl | rfl | rfl <;> cases same
      rfl
  obtain ⟨whole,_⟩ := packs_and_extracts packing
  have channels := whole.extracted ("channels",.stringList ["one","two"]) (by simp [parameters])
  have schema := whole.extracted ("schema",.anyType (.array 3 (.scalar .boolean))) (by simp [parameters])
  exact ⟨channels ["old"],schema .empty⟩

end SupProtocol
