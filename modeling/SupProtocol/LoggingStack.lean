import SupProtocol.AsyncTransport
import SupProtocol.FunctorSimulation
import SupProtocol.WireTrace

namespace SupProtocol
open Dialogue

inductive PacketDirection where
  | kInput | kOutput
  deriving DecidableEq, Repr

-- The functions of a logger act on a state of their own, and may throw.
abbrev LogFunction (τ V : Type) := V → PacketDirection → τ → Except Exception Unit × τ
abbrev LogInputFunction (τ V : Type) := V → PacketType → τ → Except Exception Unit × τ
abbrev LogOutputFunction (τ V : Type) :=
  ProtocolResult → V → PacketType → τ → Except Exception Unit × τ

-- A std::function that holds nothing is `none`.
structure LoggingFunctions (τ V : Type) where
  networkLogger : Option (LogFunction τ V)
  protocolInputLogger : Option (LogInputFunction τ V)
  protocolOutputLogger : Option (LogOutputFunction τ V)

section Decorators
variable {σ τ V : Type}

def LogAnyFunctorDecorator.call (functor : AnyFunctor (σ × τ) V) (logFunction : LogFunction τ V) :
    AnyFunctor (σ × τ) V := fun input s =>
  match logFunction input .kInput s.2 with
  | (.error error,t) => (.error error,s.1,t)
  | (.ok _,t) =>
    match functor input (s.1,t) with
    | (.error error,s) => (.error error,s)
    | (.ok reply,s) =>
      match logFunction reply .kOutput s.2 with
      | (.error error,t) => (.error error,s.1,t)
      | (.ok _,t) => (.ok reply,s.1,t)

def decorateFunctorWithLogger (functor : AnyFunctor (σ × τ) V) :
    Option (LogFunction τ V) → AnyFunctor (σ × τ) V
  | some logFunction => LogAnyFunctorDecorator.call functor logFunction
  | none => functor

def beside (functor : AnyFunctor σ V) : AnyFunctor (σ × τ) V := fun input s =>
  let (reply,u) := functor input s.1
  (reply,u,s.2)

namespace LogProtocolDecorator

def logInput (logs : LoggingFunctions τ V) (input : V) (packetType : PacketType) (t : τ) :
    Except Exception Unit × τ :=
  match logs.protocolInputLogger with
  | none => (.ok (),t)
  | some log => log input packetType t

def logOutput (logs : LoggingFunctions τ V) (result : ProtocolResult) (output : V)
    (packetType : PacketType) (t : τ) : Except Exception Unit × τ :=
  match logs.protocolOutputLogger with
  | none => (.ok (),t)
  | some log => log result output packetType t

-- Invoke and Service differ in the method that they forward and in its name in
-- the log. A method that does not return is `none`.
def call (logs : LoggingFunctions τ V) (packetType : PacketType)
    (method : V → V → σ × τ → Option (Invoked V) × σ × τ) (input output : V) (s : σ × τ) :
    Option (Invoked V) × σ × τ :=
  match logInput logs input packetType s.2 with
  | (.error error,t) => (some ⟨.error error,output⟩,s.1,t)
  | (.ok _,t) =>
    match method input output (s.1,t) with
    | (none,s) => (none,s)
    | (some ⟨.error error,output⟩,s) => (some ⟨.error error,output⟩,s)
    | (some ⟨.ok result,output⟩,s) =>
      match logOutput logs result output packetType s.2 with
      | (.error error,t) => (some ⟨.error error,output⟩,s.1,t)
      | (.ok _,t) => (some ⟨.ok result,output⟩,s.1,t)

end LogProtocolDecorator

def decorateProtocolWithLogger (logs : LoggingFunctions τ V) (packetType : PacketType)
    (method : V → V → σ × τ → Option (Invoked V) × σ × τ) :
    V → V → σ × τ → Option (Invoked V) × σ × τ :=
  if logs.protocolInputLogger.isSome || logs.protocolOutputLogger.isSome then
    LogProtocolDecorator.call logs packetType method
  else method

end Decorators

section Stacks
variable {σ τ V : Type} [AnyValue V] [Codec V]

def RPCLoggingClientStack.call (functor : AnyFunctor σ V) (logs : LoggingFunctions τ V)
    (call : ClientCall V) (packetType : PacketType) (polls : Nat) (s : σ × τ) :
    Option (Invoked V) × σ × τ :=
  decorateProtocolWithLogger logs packetType (fun input output =>
    ClientCall.method (decorateFunctorWithLogger (beside functor) logs.networkLogger)
      {call with input := input, output := output} packetType polls) call.input call.output s

def RPCLoggingClientStack.Returns (functor : AnyFunctor σ V) (logs : LoggingFunctions τ V)
    (call : ClientCall V) (packetType : PacketType) (s : σ × τ) (invoked : Invoked V) (t : σ × τ) :
    Prop := ∃ polls, RPCLoggingClientStack.call functor logs call packetType polls s = (some invoked,t)

end Stacks

structure LoggingFunctions.Quiet {τ V : Type} (logs : LoggingFunctions τ V) : Prop where
  network : ∀ log ∈ logs.networkLogger, ∀ packet direction t, (log packet direction t).1 = .ok ()
  input : ∀ log ∈ logs.protocolInputLogger, ∀ input packetType t, (log input packetType t).1 = .ok ()
  output : ∀ log ∈ logs.protocolOutputLogger, ∀ result output packetType t,
    (log result output packetType t).1 = .ok ()

namespace LoggingFunctions
variable {σ τ V : Type} (logs : LoggingFunctions τ V)

def notePacket (packet : V) (answer : Except Exception V) (t : τ) : τ :=
  match logs.networkLogger,answer with
  | none,_ => t
  | some log,.error _ => (log packet .kInput t).2
  | some log,.ok reply => (log reply .kOutput (log packet .kInput t).2).2

def noteNetwork (packet : V) (direction : PacketDirection) (t : τ) : τ :=
  match logs.networkLogger with
  | none => t
  | some log => (log packet direction t).2

def noteReply (answer : Except Exception V) (t : τ) : τ :=
  match answer with
  | .error _ => t
  | .ok reply => logs.noteNetwork reply .kOutput t

def notePackets (sent : List (Sent V)) (t : τ) : τ :=
  sent.foldl (fun seen exchanged => logs.notePacket exchanged.1 exchanged.2 seen) t

def noteEnd (packetType : PacketType) (invoked : Invoked V) (t : τ) : τ :=
  match invoked.result with
  | .error _ => t
  | .ok result => (LogProtocolDecorator.logOutput logs result invoked.output packetType t).2

def noteCall (packetType : PacketType) (input : V) (sent : List (Sent V)) (invoked : Invoked V) (t : τ) :
    τ :=
  logs.noteEnd packetType invoked
    (logs.notePackets sent (LogProtocolDecorator.logInput logs input packetType t).2)

def Closes (packetType : PacketType) (ended : Invoked V) (t : τ) (invoked : Invoked V) (t' : τ) : Prop :=
  match ended.result with
  | .error _ => invoked = ended ∧ t' = t
  | .ok result =>
    match LogProtocolDecorator.logOutput logs result ended.output packetType t with
    | (.error error,u) => invoked = ⟨.error error,ended.output⟩ ∧ t' = u
    | (.ok _,u) => invoked = ended ∧ t' = u

variable {logs}

theorem Quiet.logNetwork (quiet : logs.Quiet) {log : LogFunction τ V} (set : logs.networkLogger = some log)
    (packet : V) (direction : PacketDirection) (t : τ) : ∃ u, log packet direction t = (.ok (),u) :=
  ⟨_,Prod.ext (quiet.network log set packet direction t) rfl⟩

theorem Quiet.logInput (quiet : logs.Quiet) (input : V) (packetType : PacketType) (t : τ) :
    ∃ u, LogProtocolDecorator.logInput logs input packetType t = (.ok (),u) := by
  unfold LogProtocolDecorator.logInput
  split
  · exact ⟨t,rfl⟩
  · rename_i log set
    exact ⟨_,Prod.ext (quiet.input log set input packetType t) rfl⟩

theorem Quiet.logOutput (quiet : logs.Quiet) (result : ProtocolResult) (output : V)
    (packetType : PacketType) (t : τ) :
    ∃ u, LogProtocolDecorator.logOutput logs result output packetType t = (.ok (),u) := by
  unfold LogProtocolDecorator.logOutput
  split
  · exact ⟨t,rfl⟩
  · rename_i log set
    exact ⟨_,Prod.ext (quiet.output log set result output packetType t) rfl⟩

theorem Quiet.closes (quiet : logs.Quiet) {packetType : PacketType} {ended invoked : Invoked V} {t t' : τ} :
    logs.Closes packetType ended t invoked t' ↔
      invoked = ended ∧ t' = logs.noteEnd packetType invoked t := by
  rcases ended with ⟨error | result,output⟩
  · constructor
    · rintro ⟨rfl,rfl⟩
      exact ⟨rfl,rfl⟩
    · rintro ⟨rfl,rfl⟩
      exact ⟨rfl,rfl⟩
  · obtain ⟨u,last⟩ := quiet.logOutput result output packetType t
    simp only [Closes,last]
    constructor
    · rintro ⟨rfl,rfl⟩
      exact ⟨rfl,by simp [noteEnd,last]⟩
    · rintro ⟨rfl,rfl⟩
      exact ⟨rfl,by simp [noteEnd,last]⟩

theorem Quiet.decorated (quiet : logs.Quiet) (functor : AnyFunctor (σ × τ) V) (packet : V) (s : σ × τ) :
    decorateFunctorWithLogger functor logs.networkLogger packet s =
      let (answer,u,t) := functor packet (s.1,logs.noteNetwork packet .kInput s.2)
      (answer,u,logs.noteReply answer t) := by
  cases set : logs.networkLogger with
  | none =>
    simp only [decorateFunctorWithLogger,noteNetwork,set]
    rcases functor packet s with ⟨_ | reply,u⟩ <;> simp [noteReply,noteNetwork,set]
  | some log =>
    obtain ⟨t,first⟩ := quiet.logNetwork set packet .kInput s.2
    simp only [decorateFunctorWithLogger,LogAnyFunctorDecorator.call,noteNetwork,set,first]
    rcases functor packet (s.1,t) with ⟨error | reply,u⟩
    · rfl
    · obtain ⟨v,last⟩ := quiet.logNetwork set reply .kOutput u.2
      simp [noteReply,noteNetwork,set,last]

theorem notePacket_parts (packet : V) (answer : Except Exception V) (t : τ) :
    logs.notePacket packet answer t = logs.noteReply answer (logs.noteNetwork packet .kInput t) := by
  cases set : logs.networkLogger <;> cases answer <;> simp [notePacket,noteReply,noteNetwork,set]

theorem Quiet.functor (quiet : logs.Quiet) (functor : AnyFunctor σ V) :
    decorateFunctorWithLogger (beside functor) logs.networkLogger = watched functor logs.notePacket := by
  funext packet s
  rw [quiet.decorated,watched,notePacket_parts]
  rfl

end LoggingFunctions

def lineLogger : LoggingFunctions (List String) Reference.Value :=
  ⟨some fun _ direction lines => (.ok (),lines ++ [if direction = .kInput then "request" else "reply"]),
   some fun _ _ lines => (.ok (),lines ++ ["input"]),some fun _ _ _ lines => (.ok (),lines ++ ["output"])⟩

theorem lineLogger_quiet : lineLogger.Quiet where
  network _ set _ _ _ := by cases set; rfl
  input _ set _ _ _ := by cases set; rfl
  output _ set _ _ _ _ := by cases set; rfl

def fullDisk : LoggingFunctions (List String) Reference.Value :=
  ⟨none,none,some fun _ _ _ lines => (.error (.foreign "disk full"),lines)⟩

def brokenLogger : LoggingFunctions (List String) Reference.Value :=
  ⟨some fun _ _ lines => (.error (.foreign "closed"),lines),none,none⟩

def measureCall : ClientCall Reference.Value :=
  ⟨⟨.kNone,true,1000,1⟩,0,fun _ => 0,.string "measure",.empty⟩

section Transparency
variable {σ τ υ V : Type}

-- With no function set the decorator is left out, which makes no difference.
theorem decorated_call (logs : LoggingFunctions τ V) (packetType : PacketType)
    (method : V → V → σ × τ → Option (Invoked V) × σ × τ) (input output : V) (s : σ × τ) :
    decorateProtocolWithLogger logs packetType method input output s =
      LogProtocolDecorator.call logs packetType method input output s := by
  unfold decorateProtocolWithLogger
  split
  · rfl
  · rename_i unset
    simp only [Bool.or_eq_true,not_or,Bool.not_eq_true,Option.isSome_eq_false_iff,
      Option.isNone_iff_eq_none] at unset
    obtain ⟨inputs,outputs⟩ := unset
    simp only [LogProtocolDecorator.call,LogProtocolDecorator.logInput,LogProtocolDecorator.logOutput,
      inputs,outputs]
    rcases method input output s with ⟨_ | ⟨_ | result,output⟩,t⟩ <;> rfl

variable [AnyValue V] [Codec V] {logs : LoggingFunctions τ V} {call : ClientCall V}
  {packetType : PacketType} {invoked : Invoked V} {functor : AnyFunctor σ V} {s s' : σ}

-- A call of the stack ends at a logger that throws, or as the call of its client.
theorem stack_cases {t t' : τ} :
    RPCLoggingClientStack.Returns functor logs call packetType (s,t) invoked (s',t') ↔
      (∃ error, LogProtocolDecorator.logInput logs call.input packetType t = (.error error,t') ∧
        invoked = ⟨.error error,call.output⟩ ∧ s' = s) ∨
      ∃ u ended v, LogProtocolDecorator.logInput logs call.input packetType t = (.ok (),u) ∧
        call.Returns (decorateFunctorWithLogger (beside functor) logs.networkLogger) packetType (s,u) ended
          (s',v) ∧ logs.Closes packetType ended v invoked t' := by
  have step : ∀ polls, RPCLoggingClientStack.call functor logs call packetType polls (s,t) =
      LogProtocolDecorator.call logs packetType (fun _ _ => call.method
        (decorateFunctorWithLogger (beside functor) logs.networkLogger) packetType polls) call.input call.output
        (s,t) := fun polls => decorated_call ..
  unfold RPCLoggingClientStack.Returns
  simp only [step,LogProtocolDecorator.call]
  rcases LogProtocolDecorator.logInput logs call.input packetType t with ⟨error | _,u⟩
  · constructor
    · rintro ⟨polls,returned⟩
      cases returned
      exact Or.inl ⟨error,rfl,rfl,rfl⟩
    · rintro (⟨_,same,rfl,rfl⟩ | ⟨_,_,_,same,_⟩)
      · cases same
        exact ⟨0,rfl⟩
      · cases same
  · dsimp only
    constructor
    · rintro ⟨polls,returned⟩
      refine Or.inr ⟨u,?_⟩
      rcases called : call.method (decorateFunctorWithLogger (beside functor) logs.networkLogger) packetType polls
        (s,u) with ⟨_ | ⟨error | result,output⟩,v⟩
      · rw [called] at returned
        cases returned
      · rw [called] at returned
        cases returned
        exact ⟨_,_,rfl,⟨polls,called⟩,rfl,rfl⟩
      · rw [called] at returned
        rcases last : LogProtocolDecorator.logOutput logs result output packetType v.2 with ⟨error | _,w⟩
        all_goals
          simp only [last] at returned
          cases returned
          refine ⟨_,_,rfl,⟨polls,called⟩,?_⟩
          simp [LoggingFunctions.Closes,last]
    · rintro (⟨_,same,_⟩ | ⟨_,⟨error | result,output⟩,v,same,⟨polls,called⟩,closes⟩)
      · cases same
      · cases same
        obtain ⟨rfl,rfl⟩ := closes
        exact ⟨polls,by simp only [called]⟩
      · cases same
        simp only [LoggingFunctions.Closes] at closes
        refine ⟨polls,?_⟩
        simp only [called]
        rcases last : LogProtocolDecorator.logOutput logs result output packetType v with ⟨error | _,w⟩
        all_goals
          rw [last] at closes
          obtain ⟨rfl,rfl⟩ := closes
          rfl

theorem stack_returns (quiet : logs.Quiet) {t t' : τ} :
    RPCLoggingClientStack.Returns functor logs call packetType (s,t) invoked (s',t') ↔
      ∃ u, call.Returns (watched functor logs.notePacket) packetType
          (s,(LogProtocolDecorator.logInput logs call.input packetType t).2) invoked (s',u) ∧
        t' = logs.noteEnd packetType invoked u := by
  obtain ⟨u,noted⟩ := quiet.logInput call.input packetType t
  rw [stack_cases,noted,quiet.functor]
  constructor
  · rintro (⟨_,same,_⟩ | ⟨_,ended,v,same,called,closes⟩)
    · cases same
    · cases same
      obtain ⟨rfl,rfl⟩ := quiet.closes.mp closes
      exact ⟨v,called,rfl⟩
  · rintro ⟨v,called,rfl⟩
    exact Or.inr ⟨u,invoked,v,rfl,called,quiet.closes.mpr ⟨rfl,rfl⟩⟩

theorem quiet_returns (quiet : logs.Quiet) (t : τ) :
    (∃ t', RPCLoggingClientStack.Returns functor logs call packetType (s,t) invoked (s',t')) ↔
      call.Returns functor packetType s invoked s' := by
  constructor
  · rintro ⟨t',returned⟩
    obtain ⟨u,watching,_⟩ := (stack_returns quiet).mp returned
    obtain ⟨_,rfl,plain⟩ := ClientCall.returns_alike (watched_alike functor logs.notePacket) call
      packetType rfl watching
    exact plain
  · intro plain
    obtain ⟨⟨_,u⟩,rfl,watching⟩ := ClientCall.returns_alike
      (t := (s,(LogProtocolDecorator.logInput logs call.input packetType t).2))
      (watched_alike functor logs.notePacket).symm call packetType rfl plain
    exact ⟨_,(stack_returns quiet).mpr ⟨u,watching,rfl⟩⟩

-- What the loggers of a client stack note is the conversation on the wire, a
-- request before its reply, between the arguments and the end of the call.
theorem client_stack_logged (functor : AnyFunctor σ V) (logs : LoggingFunctions τ V) (quiet : logs.Quiet)
    (call : ClientCall V) (packetType : PacketType) (s s' : σ) (t t' : τ) (invoked : Invoked V) :
    RPCLoggingClientStack.Returns functor logs call packetType (s,t) invoked (s',t') ↔
      ∃ sent, call.Returns (tracing functor) packetType (s,[]) invoked (s',sent) ∧
        t' = logs.noteCall packetType call.input sent invoked t := by
  have folds := watched_folds functor logs.notePacket
    (LogProtocolDecorator.logInput logs call.input packetType t).2
  rw [stack_returns quiet]
  constructor
  · rintro ⟨u,watching,rfl⟩
    obtain ⟨⟨_,sent⟩,same,traced⟩ :=
      ClientCall.returns_alike (t := (s,[])) folds.symm call packetType rfl watching
    cases same
    exact ⟨sent,traced,rfl⟩
  · rintro ⟨sent,traced,rfl⟩
    obtain ⟨_,rfl,watching⟩ := ClientCall.returns_alike folds call packetType rfl traced
    exact ⟨_,watching,rfl⟩

theorem client_stack_logged_scripted : RPCLoggingClientStack.Returns scripted lineLogger measureCall
    .kNormal (0,[]) ⟨.ok .success,.string "done"⟩ (4,["input","request","reply","request","reply",
      "request","reply","request","reply","output"]) :=
  (client_stack_logged scripted lineLogger lineLogger_quiet measureCall .kNormal 0 4 [] _ _).mpr
    ⟨_,⟨5,rfl⟩,rfl⟩

-- An exception that leaves a client stack is one of its protocol loggers': that
-- of the input before anything is sent, or that of the output after the call has
-- ended and its output was written. A network logger never gets that far.
theorem client_stack_throws [LawfulAnyValue V] [LawfulAssign V] (functor : AnyFunctor σ V)
    (logs : LoggingFunctions τ V) (call : ClientCall V)
    (supported : isSupportedPayloadEncoding call.config.encoding = true) (packetType : PacketType)
    (s s' : σ) (t t' : τ) (error : Exception) (output : V) :
    RPCLoggingClientStack.Returns functor logs call packetType (s,t) ⟨.error error,output⟩ (s',t') ↔
      (LogProtocolDecorator.logInput logs call.input packetType t = (.error error,t') ∧
        output = call.output ∧ s' = s) ∨
      ∃ u result v, LogProtocolDecorator.logInput logs call.input packetType t = (.ok (),u) ∧
        call.Returns (decorateFunctorWithLogger (beside functor) logs.networkLogger) packetType (s,u)
          ⟨.ok result,output⟩ (s',v) ∧
        LogProtocolDecorator.logOutput logs result output packetType v = (.error error,t') := by
  rw [stack_cases]
  constructor
  · rintro (⟨_,noted,same,rfl⟩ | ⟨u,ended,v,noted,called,closes⟩)
    · cases same
      exact Or.inl ⟨noted,rfl,rfl⟩
    · obtain ⟨result,settled⟩ := (ClientCall.returns_quiet supported called).quiet
      rcases ended with ⟨_,final⟩
      cases settled
      simp only [LoggingFunctions.Closes] at closes
      rcases last : LogProtocolDecorator.logOutput logs result final packetType v with ⟨thrown | _,w⟩
      · rw [last] at closes
        obtain ⟨same,rfl⟩ := closes
        cases same
        exact Or.inr ⟨u,result,v,noted,called,last⟩
      · rw [last] at closes
        cases closes.1
  · rintro (⟨noted,rfl,rfl⟩ | ⟨u,result,v,noted,called,last⟩)
    · exact Or.inl ⟨error,noted,rfl,rfl⟩
    · refine Or.inr ⟨u,_,v,noted,called,?_⟩
      simp [LoggingFunctions.Closes,last]

theorem client_stack_throws_full : RPCLoggingClientStack.Returns scripted fullDisk measureCall .kNormal
    (0,[]) ⟨.error (.foreign "disk full"),.string "done"⟩ (4,[]) :=
  (client_stack_throws scripted fullDisk measureCall rfl .kNormal 0 4 [] [] _ _).mpr
    (Or.inr ⟨[],.success,[],rfl,⟨5,rfl⟩,rfl⟩)

theorem client_stack_muted [LawfulAnyValue V] (functor : AnyFunctor σ V) (logs : LoggingFunctions τ V)
    (log : LogFunction τ V) (set : logs.networkLogger = some log)
    (throws : ∀ packet t, ∃ error, (log packet .kInput t).1 = .error error) (call : ClientCall V)
    (supported : isSupportedPayloadEncoding call.config.encoding = true)
    (nonempty : isEmptyValue call.input = false) (packetType : PacketType) (s s' : σ) (t t' : τ)
    (invoked : Invoked V)
    (returns : RPCLoggingClientStack.Returns functor logs call packetType (s,t) invoked (s',t')) :
    s' = s ∧ invoked.output = call.output ∧
      ∀ result, invoked.result = .ok result → result = .clientTransportException := by
  rcases stack_cases.mp returns with ⟨_,_,rfl,rfl⟩ | ⟨u,ended,v,_,called,closes⟩
  · exact ⟨rfl,rfl,fun result same => by cases same⟩
  · obtain ⟨rfl,same⟩ := ClientCall.returns_thrown (P := fun s' => s'.1 = s) supported nonempty (by
      intro packet
      obtain ⟨error,thrown⟩ := throws packet u
      rcases noted : log packet .kInput u with ⟨_,w⟩
      rw [noted] at thrown
      cases thrown
      exact ⟨error,(s,w),by simp [decorateFunctorWithLogger,LogAnyFunctorDecorator.call,set,noted],rfl⟩)
      called
    refine ⟨same,?_⟩
    simp only [LoggingFunctions.Closes] at closes
    split at closes
    all_goals
      obtain ⟨rfl,_⟩ := closes
      refine ⟨rfl,fun result same => ?_⟩
      cases same
    rfl

theorem client_stack_muted_broken : ∃ s' t' invoked, RPCLoggingClientStack.Returns scripted brokenLogger
    measureCall .kNormal (0,[]) invoked (s',t') ∧ s' = 0 ∧ invoked.output = measureCall.output ∧
      ∀ result, invoked.result = .ok result → result = .clientTransportException :=
  ⟨0,[],⟨.ok .clientTransportException,.empty⟩,⟨0,rfl⟩,client_stack_muted scripted brokenLogger _ rfl
    (fun _ _ => ⟨_,rfl⟩) measureCall rfl rfl .kNormal 0 0 [] [] _ ⟨0,rfl⟩⟩

end Transparency

end SupProtocol
