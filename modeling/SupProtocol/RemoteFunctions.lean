import SupProtocol.ParameterExtraction
import SupProtocol.SyncTransport

namespace SupProtocol
open Machine

def FUNCTION_FIELD_NAME : String := "function"

-- The names of the functions with the functions, as the std::map holds them.
abbrev ProtocolMemberFunctionMap (V : Type) := List (String × (V → V → Outcome V))

section Dispatch
variable {V : Type} [AnyValue V]

def functionProtocolInput (funcName : String) : Except Exception V :=
  addMember (emptyStruct "") FUNCTION_FIELD_NAME (scalar .string funcName)

def callFunctionProtocol (funcMap : ProtocolMemberFunctionMap V) (input output : V)
    (notFoundResult : ProtocolResult) : Outcome V :=
  match (member input FUNCTION_FIELD_NAME).bind (asScalar .string) with
  | none => .ok (notFoundResult,output)
  | some funcName =>
    match funcMap.lookup funcName with
    | none => .ok (notFoundResult,output)
    | some memFun => memFun input output

def functionApplication (funcMap : ProtocolMemberFunctionMap V) (notFoundResult : ProtocolResult)
    (service : V → V → Outcome V) : Protocol V :=
  ⟨fun input output => callFunctionProtocol funcMap input output notFoundResult,service⟩

def requestedFunction (funcMap : ProtocolMemberFunctionMap V) (input : V) :
    Option (V → V → Outcome V) :=
  ((member input FUNCTION_FIELD_NAME).bind (asScalar .string)).bind fun funcName => funcMap.lookup funcName

theorem callFunctionProtocol_exact (funcMap : ProtocolMemberFunctionMap V) (input output : V)
    (notFoundResult : ProtocolResult) : callFunctionProtocol funcMap input output notFoundResult =
      match requestedFunction funcMap input with
      | none => .ok (notFoundResult,output)
      | some memFun => memFun input output := by
  unfold callFunctionProtocol requestedFunction
  cases (member input FUNCTION_FIELD_NAME).bind (asScalar .string) with
  | none => rfl
  | some funcName => rfl

theorem functionProtocolInput_names [LawfulAnyValue V] (valid : isMemberName V FUNCTION_FIELD_NAME = true)
    (funcName : String) : ∃ input : V, functionProtocolInput funcName = .ok input ∧
      HasMembers input [(FUNCTION_FIELD_NAME,scalar .string funcName)] :=
  addMember_members (emptyStruct_members "") valid rfl (LawfulAnyValue.scalar_nonempty .string funcName)

end Dispatch

structure FunctionParameters {V T : Type} [AnyValue V] (parameters : List (PackCall V T)) : Prop where
  distinct : (parameters.map Prod.fst).Nodup
  named : ∀ call ∈ parameters, isMemberName V call.1 = true
  apart : FUNCTION_FIELD_NAME ∉ parameters.map Prod.fst
  nonempty : ∀ call ∈ parameters, ∀ v, call.2 = .anyValue v → isEmptyValue v = false

def Computes {V T : Type} [AnyValue V] [AnyType T] [TypedValue V T] [DecidableEq T]
    (memFun : V → V → Outcome V) (parameters results : List (PackCall V T)) : Prop :=
  ∀ input, (∀ call ∈ parameters, Extracts input call.1 call.2) →
    memFun input empty = .ok (.success,run packStep empty results)

section Calls
variable {V T : Type} [AnyValue V] [AnyType T] [TypedValue V T] [DecidableEq T] [LawfulAnyValue V]
  [LawfulTypes V T] [LawfulAssign V]

omit [TypedValue V T] [AnyType T] [DecidableEq T] [LawfulAnyValue V] [LawfulTypes V T]
  [LawfulAssign V] in
theorem parameters_pack {parameters : List (PackCall V T)} (given : FunctionParameters parameters)
    {input : V} {funcName : String}
    (known : HasMembers input [(FUNCTION_FIELD_NAME,scalar .string funcName)]) :
    Packing input parameters where
  ready := Or.inr known.1
  distinct := given.distinct
  named := given.named
  fresh call member := by
    have apart : (call.1 == FUNCTION_FIELD_NAME) = false := by
      refine beq_eq_false_iff_ne.mpr fun same => given.apart ?_
      rw [← same]
      exact List.mem_map_of_mem member
    rw [known.2 call.1 (given.named call member)]
    simp [List.lookup_cons,apart]
  nonempty := given.nonempty

theorem function_input (valid : isMemberName V FUNCTION_FIELD_NAME = true) (funcName : String)
    {parameters : List (PackCall V T)} (given : FunctionParameters parameters) :
    ∃ base : V, functionProtocolInput funcName = .ok base ∧
      (∀ r ∈ history packStep base parameters, r.output = .ok ()) ∧
      isEmptyValue (run packStep base parameters) = false ∧
      (member (run packStep base parameters) FUNCTION_FIELD_NAME).bind (asScalar .string) =
        some funcName ∧
      ∀ call ∈ parameters, Extracts (run packStep base parameters) call.1 call.2 := by
  obtain ⟨base,built,known⟩ := functionProtocolInput_names valid funcName
  obtain ⟨returns,others,stored⟩ := pack_run parameters base (parameters_pack given known)
  have name : member (run packStep base parameters) FUNCTION_FIELD_NAME =
      some (scalar .string funcName) := by
    rw [others _ valid given.apart,known.2 _ valid]
    simp
  refine ⟨base,built,returns,?_,?_,?_⟩
  · cases hollow : isEmptyValue (run packStep base parameters) with
    | false => rfl
    | true =>
      rw [LawfulTypes.empty_member (T := T) _ _ hollow] at name
      cases name
  · rw [name,Option.bind_some,LawfulAnyValue.asScalar_scalar]
  · intro call member
    obtain ⟨value,here,held⟩ := stored call member
    exact held_extracts here held

theorem results_arrive {results : List (PackCall V T)} (packing : Packing (empty : V) results)
    {output : V} (bare : isEmptyValue output = true) :
    (callResult (.ok (.success,run packStep empty results)) output).1 = .success ∧
    ∀ call ∈ results,
      Extracts (callResult (.ok (.success,run packStep empty results)) output).2 call.1 call.2 := by
  obtain ⟨_,_,stored⟩ := pack_run results (empty : V) packing
  cases hollow : isEmptyValue (run packStep (empty : V) results) with
  | true =>
    have none : ∀ call ∈ results, False := by
      intro call member
      obtain ⟨value,here,_⟩ := stored call member
      rw [LawfulTypes.empty_member (T := T) _ _ hollow] at here
      cases here
    simp only [callResult,hollow,or_true,if_true]
    exact ⟨trivial,fun call member => (none call member).elim⟩
  | false =>
    rw [callResult_taken hollow bare]
    refine ⟨rfl,fun call member => ?_⟩
    obtain ⟨value,here,held⟩ := stored call member
    exact held_extracts here held

variable [Codec V] [LawfulCodec V]

omit [TypedValue V T] [AnyType T] [DecidableEq T] [LawfulTypes V T] in
theorem sync_returns (application : Protocol V) (schedule : Nat → Schedule V) (link : Link V)
    {config : ProtocolRPCClientConfig} (supported : isSupportedPayloadEncoding config.encoding = true)
    (synchronous : config.async = false) {input : V} (nonempty : isEmptyValue input = false)
    (startTimestamp : UInt64) (clock : Nat → UInt64) (polls : Nat) (output : V) :
    ∃ invoked after, ProtocolRPCClient.invoke (Link.functor application schedule) config startTimestamp
        clock polls input output link = (some invoked,after) ∧
      SyncCall schedule link (.invoked input empty) (application.invoke input empty) output invoked after :=
  ⟨_,_,invoke_synchronous nonempty synchronous _ startTimestamp clock polls output link,
    handleSyncInvoke_call application schedule link nonempty config supported output⟩

-- A function is called over the network as it is called at home: it reads every
-- parameter as it was packed, it is called once, and every result is read as it
-- was packed.
theorem remote_function_called (funcMap : ProtocolMemberFunctionMap V) (notFoundResult : ProtocolResult)
    (service : V → V → Outcome V) (funcName : String) (memFun : V → V → Outcome V)
    (found : funcMap.lookup funcName = some memFun) (valid : isMemberName V FUNCTION_FIELD_NAME = true)
    (parameters results : List (PackCall V T)) (given : FunctionParameters parameters)
    (packing : Packing (empty : V) results) (computes : Computes memFun parameters results) :
    ∃ base : V, functionProtocolInput funcName = .ok base ∧
      (∀ r ∈ history packStep base parameters, r.output = .ok ()) ∧
      ∀ (schedule : Nat → Schedule V) (link : Link V) (config : ProtocolRPCClientConfig) startTimestamp
        clock polls output, isSupportedPayloadEncoding config.encoding = true → config.async = false →
        isEmptyValue output = true →
        ∃ invoked after, ProtocolRPCClient.invoke
            (Link.functor (functionApplication funcMap notFoundResult service) schedule) config
            startTimestamp clock polls (run packStep base parameters) output link = (some invoked,after) ∧
          invoked.result = .ok .success ∧
          (∀ call ∈ results, Extracts invoked.output call.1 call.2) ∧
          after.made = link.made ++ [.invoked (run packStep base parameters) empty] := by
  obtain ⟨base,built,returns,nonempty,name,held⟩ := function_input valid funcName given
  refine ⟨base,built,returns,?_⟩
  intro schedule link config startTimestamp clock polls output supported synchronous bare
  have called : (functionApplication funcMap notFoundResult service).invoke (run packStep base parameters)
      empty = .ok (.success,run packStep empty results) := by
    have requested : requestedFunction funcMap (run packStep base parameters) = some memFun := by
      rw [requestedFunction,name,Option.bind_some,found]
    simp only [functionApplication,callFunctionProtocol_exact,requested]
    exact computes _ held
  obtain ⟨invoked,after,returned,call⟩ := sync_returns (functionApplication funcMap notFoundResult service)
    schedule link supported synchronous nonempty startTimestamp clock polls output
  rw [called] at call
  obtain ⟨success,arrive⟩ := results_arrive packing bare
  refine ⟨invoked,after,returned,?_,?_,call.once⟩
  · exact call.result.trans (congrArg Except.ok success)
  · intro other member
    rw [call.output]
    exact arrive other member

def echo (input output : Reference.Parameter) : Outcome Reference.Parameter :=
  match FunctionProtocolExtract.string "" input "name" with
  | .ok (true,name) => .ok (.success,run packStep output [("echo",.string name)])
  | _ => .ok (.serverProtocolDecodingError,output)

def idleLink : Link Reference.Parameter := .connect 10 ⟨0,5⟩ []
def idleServer : Nat → Schedule Reference.Parameter :=
  fun _ => ⟨[],0,AsyncInvokeServer.instant 0,[],AsyncInvokeServer.instant 0⟩

def echoApplication : Protocol Reference.Parameter :=
  functionApplication [("echo",echo)] .serverProtocolDecodingError (fun _ _ => .ok (.success,.plain .empty))

theorem remote_function_called_echo : ∃ base invoked after,
    functionProtocolInput "echo" = .ok base ∧
    ProtocolRPCClient.invoke (Link.functor echoApplication idleServer) ⟨.kBase64,false,0,0⟩ 0 (fun _ => 0) 0
      (run packStep base [("name",.string "pump"),("spare",.stringList [])]) (.plain .empty) idleLink =
        (some invoked,after) ∧
    FunctionProtocolExtract.string "" invoked.output "echo" = .ok (true,"pump") := by
  obtain ⟨base,built,_,calls⟩ := remote_function_called [("echo",echo)] .serverProtocolDecodingError
    (fun _ _ => .ok (.success,.plain .empty)) "echo" echo rfl rfl
    [("name",.string "pump"),("spare",.stringList [])] [("echo",.string "pump")]
    ⟨by decide,by decide,by decide,by simp⟩ ⟨Or.inl rfl,by decide,by decide,fun _ _ => rfl,by simp⟩
    (fun input held => by
      have name := held ("name",.string "pump") (List.mem_cons_self ..) ""
      simp only [echo,name])
  obtain ⟨invoked,after,returned,_,arrived,_⟩ := calls idleServer idleLink ⟨.kBase64,false,0,0⟩ 0
    (fun _ => 0) 0 (.plain .empty) rfl rfl rfl
  exact ⟨base,invoked,after,built,returned,arrived ("echo",.string "pump") (List.mem_singleton_self _) ""⟩

omit [TypedValue V T] [AnyType T] [DecidableEq T] [LawfulTypes V T] in
-- An input that asks for no function of the application calls none, whatever it
-- is asked for with.
theorem remote_function_unknown (funcMap : ProtocolMemberFunctionMap V) (notFoundResult : ProtocolResult)
    (service : V → V → Outcome V) (input : V) (nonempty : isEmptyValue input = false)
    (unknown : requestedFunction funcMap input = none) (schedule : Nat → Schedule V) (link : Link V)
    (config : ProtocolRPCClientConfig) (supported : isSupportedPayloadEncoding config.encoding = true)
    (synchronous : config.async = false) (startTimestamp : UInt64) (clock : Nat → UInt64) (polls : Nat)
    (output : V) :
    (ProtocolRPCClient.invoke (Link.functor (functionApplication funcMap notFoundResult service) schedule)
      config startTimestamp clock polls input output link).1 = some ⟨.ok notFoundResult,output⟩ := by
  obtain ⟨invoked,after,returned,call⟩ := sync_returns (functionApplication funcMap notFoundResult service)
    schedule link supported synchronous nonempty startTimestamp clock polls output
  have refused : (functionApplication funcMap notFoundResult service).invoke input empty =
      .ok (notFoundResult,empty) := by
    simp only [functionApplication,callFunctionProtocol_exact,unknown]
  have passed : callResult (.ok (notFoundResult,empty)) output = (notFoundResult,output) := by
    simp [callResult]
  rw [refused] at call
  have result := call.result
  have kept := call.output
  rw [passed] at result kept
  rw [returned]
  exact congrArg some (Invoked.ext result kept)

example :
    (ProtocolRPCClient.invoke (Link.functor echoApplication idleServer) ⟨.kNone,false,0,0⟩ 0 (fun _ => 0) 0
      (.withMember (.plain (.emptyStruct "")) "function" (.plain (.string "reset"))) (.strings ["kept"])
      idleLink).1 = some ⟨.ok .serverProtocolDecodingError,.strings ["kept"]⟩ :=
  remote_function_unknown [("echo",echo)] .serverProtocolDecodingError
    (fun _ _ => .ok (.success,.plain .empty)) _ rfl rfl idleServer idleLink ⟨.kNone,false,0,0⟩ rfl rfl 0
    (fun _ => 0) 0 _

end Calls

end SupProtocol
