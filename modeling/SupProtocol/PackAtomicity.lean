import SupProtocol.ParameterPacking
import SupProtocol.ReferenceParameters

namespace SupProtocol

variable {V T : Type} [AnyValue V] [AnyType T] [TypedValue V T]

def Atomic (output : V) (packed : Packed V) : Prop :=
  ∀ error, packed.result = .error error → packed.output = output

-- AddMember throws on a name that it does not accept.
def RejectsNames (V : Type) [AnyValue V] : Prop :=
  ∀ (v x : V) (n : String), isMemberName V n = false → ∃ error, addMember v n x = .error error

section Steps
variable {output value : V} {name : String}

-- Only an empty output is replaced, every other one is only looked at.
omit [AnyType T] [TypedValue V T] in
theorem prepareOutput_keeps (full : isEmptyValue output = false) (name : String) :
    (functionProtocolPrepareOutput output name).output = output := by
  unfold functionProtocolPrepareOutput
  rw [if_neg (by simp [full])]
  split
  · rfl
  · split <;> rfl

omit [AnyType T] [TypedValue V T] in
theorem addOutputMember_atomic (output : V) : Atomic output (addOutputMember name value output) := by
  unfold Atomic addOutputMember
  cases addMember output name value with
  | error error => exact fun _ _ => rfl
  | ok extended => exact fun _ thrown => (by cases thrown)

omit [AnyType T] [TypedValue V T] in
theorem stored_atomic (full : isEmptyValue output = false) :
    Atomic output ((functionProtocolPrepareOutput output name).andThen (addOutputMember name value)) := by
  have kept := prepareOutput_keeps full name
  unfold Packed.andThen
  cases prepared : (functionProtocolPrepareOutput output name).result with
  | error error => exact fun _ _ => kept
  | ok done =>
    dsimp only
    rw [kept]
    exact addOutputMember_atomic output

omit [AnyType T] [TypedValue V T] in
theorem emptied_torn [LawfulAnyValue V] (rejects : RejectsNames V)
    (hollow : isEmptyValue output = true) (invalid : isMemberName V name = false) :
    ¬ Atomic output ((functionProtocolPrepareOutput output name).andThen (addOutputMember name value)) := by
  obtain ⟨error,refused⟩ := rejects (emptyStruct "") value name invalid
  have left : (functionProtocolPrepareOutput output name).andThen (addOutputMember name value) =
      ⟨.error error,emptyStruct ""⟩ := by
    simp [functionProtocolPrepareOutput,hollow,Packed.andThen,addOutputMember,refused]
  intro atomic
  have same : emptyStruct "" = output := by
    rw [left] at atomic
    exact atomic error rfl
  have struct := LawfulAnyValue.struct_nonempty (emptyStruct "" : V)
    (LawfulAnyValue.emptyStruct_struct "")
  rw [same,hollow] at struct
  cases struct

end Steps

-- Whatever is packed under whatever name: the call is atomic unless it is the
-- first one on an empty output and fails only at the name.
theorem pack_atomic_exact [LawfulAnyValue V] [LawfulTypes V T] (rejects : RejectsNames V)
    (output : V) (name : String) (x : Packable V T) :
    Atomic output (functionProtocolPack output name x) ↔
      ¬ (isEmptyValue output = true ∧ isMemberName V name = false ∧
        ∀ v, x = .anyValue v → isEmptyValue v = false) := by
  by_cases nonempty : ∀ v, x = .anyValue v → isEmptyValue v = false
  · obtain ⟨value,full,_,stores⟩ := pack_stores nonempty
    rw [stores]
    cases hollow : isEmptyValue output with
    | false => exact ⟨fun _ torn => (by cases torn.1),fun _ => stored_atomic hollow⟩
    | true =>
      cases valid : isMemberName V name with
      | false => exact ⟨fun atomic => absurd atomic (emptied_torn rejects hollow valid),
          fun whole => absurd ⟨rfl,rfl,nonempty⟩ whole⟩
      | true =>
        refine ⟨fun _ torn => (by cases torn.2.1),fun _ error thrown => ?_⟩
        obtain ⟨extended,added,_⟩ := member_added (T := T) (Or.inl hollow) valid
          (LawfulTypes.empty_member (T := T) output name hollow) full
        rw [added] at thrown
        cases thrown
  · -- An empty value is refused before the output is looked at.
    refine ⟨fun _ torn => nonempty torn.2.2,fun _ error _ => ?_⟩
    obtain ⟨v,same,hollow⟩ : ∃ v, x = .anyValue v ∧ isEmptyValue v = true := by
      by_contra none
      apply nonempty
      intro v same
      by_contra full
      exact none ⟨v,same,by simpa using full⟩
    rw [same]
    simp [functionProtocolPack,FunctionProtocolPack.anyValue,hollow]

theorem parameter_rejects : RejectsNames Reference.Parameter := by
  intro v x n invalid
  have unnamed : n.isEmpty = true := by simpa [isMemberName] using invalid
  exact ⟨.foreign "AddMember",by simp [addMember,Reference.Parameter.addMember,unnamed]⟩

theorem pack_atomic_struct :
    Atomic (.plain (.emptyStruct "")) (functionProtocolPack (.plain (.emptyStruct "")) ""
      (.boolean true : Packable Reference.Parameter Reference.Kind)) :=
  (pack_atomic_exact parameter_rejects _ _ _).mpr fun torn => (by cases torn.1)

theorem pack_tears_empty_output :
    (functionProtocolPack (.plain .empty) ""
      (.boolean true : Packable Reference.Parameter Reference.Kind)).result =
        .error (.foreign "AddMember") ∧
    (functionProtocolPack (.plain .empty) ""
      (.boolean true : Packable Reference.Parameter Reference.Kind)).output =
        .plain (.emptyStruct "") ∧
    ¬ ∀ (output : Reference.Parameter) (name : String)
        (x : Packable Reference.Parameter Reference.Kind),
      Atomic output (functionProtocolPack output name x) := by
  refine ⟨rfl,rfl,?_⟩
  intro atomic
  have kept := atomic (.plain .empty) "" (.boolean true) (.foreign "AddMember") rfl
  cases kept

end SupProtocol
