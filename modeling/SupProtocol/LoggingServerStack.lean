import Mathlib.Data.List.Flatten
import SupProtocol.LoggingStack

namespace SupProtocol
open Dialogue

-- What the loggers of a server are told: by its protocol decorator, also on the
-- threads of asynchronous calls, and by its functor decorator.
inductive ProtocolNote (V : Type) where
  | input (input : V) (packetType : PacketType)
  | output (result : ProtocolResult) (output : V) (packetType : PacketType)
  deriving DecidableEq

inductive Note (V : Type) where
  | packet (packet : V) (direction : PacketDirection)
  | protocol (note : ProtocolNote V)

-- What other threads tell them around one packet: before it comes, before its own
-- call of the application, during that call and after it.
structure Elsewhere (V : Type) where
  before : List (ProtocolNote V)
  entering : List (ProtocolNote V)
  during : List (ProtocolNote V)
  leaving : List (ProtocolNote V)

def Elsewhere.silent (V : Type) : Elsewhere V := ⟨[],[],[],[]⟩

namespace LoggingFunctions
variable {τ V : Type} (logs : LoggingFunctions τ V)

def noted (t : τ) : Note V → τ
  | .packet packet direction => logs.noteNetwork packet direction t
  | .protocol (.input input packetType) => (LogProtocolDecorator.logInput logs input packetType t).2
  | .protocol (.output result output packetType) =>
    (LogProtocolDecorator.logOutput logs result output packetType t).2

def overhears (notes : List (ProtocolNote V)) (t : τ) : τ := (notes.map .protocol).foldl logs.noted t

end LoggingFunctions

namespace RPCLoggingServerStack
variable {τ V : Type}

-- LogProtocolDecorator as the thread of a packet calls it.
def outcome (logs : LoggingFunctions τ V) (packetType : PacketType) (method : V → V → Outcome V)
    (during : List (ProtocolNote V)) (input output : V) (t : τ) : Outcome V × τ :=
  match LogProtocolDecorator.logInput logs input packetType t with
  | (.error error,t) => (.error error,t)
  | (.ok _,t) =>
    let t := logs.overhears during t
    match method input output with
    | .error error => (.error error,t)
    | .ok (result,output) =>
      match LogProtocolDecorator.logOutput logs result output packetType t with
      | (.error error,t) => (.error error,t)
      | (.ok _,t) => (.ok (result,output),t)

-- The decorated application, called while the loggers are in this state, and the
-- state in which the call leaves them.
def protocol (logs : LoggingFunctions τ V) (protocol : Protocol V) (during : List (ProtocolNote V)) (t : τ) :
    Protocol V :=
  ⟨fun input output => (outcome logs .kNormal protocol.invoke during input output t).1,
   fun input output => (outcome logs .kService protocol.service during input output t).1⟩

def called (logs : LoggingFunctions τ V) (protocol : Protocol V) (during : List (ProtocolNote V)) (t : τ) :
    Made V → τ
  | .invoked input output => (outcome logs .kNormal protocol.invoke during input output t).2
  | .serviced input output => (outcome logs .kService protocol.service during input output t).2

variable [AnyValue V] [Codec V]

-- ProtocolRPCServer around the decorated application: a packet calls it once at
-- most.
def served (protocol : Protocol V) (schedule : Nat → Schedule V) (logs : LoggingFunctions τ V)
    (elsewhere : Nat → Elsewhere V) : AnyFunctor (Link V × τ) V := fun packet s =>
  let now := elsewhere s.1.packets
  let t := logs.overhears now.entering s.2
  let decorated := RPCLoggingServerStack.protocol logs protocol now.during t
  let answer := (s.1.server.call decorated packet (schedule s.1.packets)).1
  let (reply,link) := Link.functor decorated schedule packet s.1
  (reply,link,logs.overhears now.leaving (answer.made.head?.elim t (called logs protocol now.during t)))

def functor (protocol : Protocol V) (schedule : Nat → Schedule V) (logs : LoggingFunctions τ V)
    (elsewhere : Nat → Elsewhere V) : AnyFunctor (Link V × τ) V := fun packet s =>
  decorateFunctorWithLogger (served protocol schedule logs elsewhere) logs.networkLogger packet
    (s.1,logs.overhears (elsewhere s.1.packets).before s.2)

end RPCLoggingServerStack

section Notes
variable {V : Type}

def endNotes (packetType : PacketType) : Outcome V → List (ProtocolNote V)
  | .error _ => []
  | .ok (result,output) => [.output result output packetType]

def callNotes (protocol : Protocol V) (during : List (ProtocolNote V)) : Made V → List (ProtocolNote V)
  | .invoked input output =>
    .input input .kNormal :: (during ++ endNotes .kNormal (protocol.invoke input output))
  | .serviced input output =>
    .input input .kService :: (during ++ endNotes .kService (protocol.service input output))

def replyNotes : Except Exception V → List (Note V)
  | .error _ => []
  | .ok reply => [.packet reply .kOutput]

def exchangeNotes (protocol : Protocol V) (now : Elsewhere V) (packet : V) (answer : PacketAnswer V) :
    List (Note V) :=
  now.before.map .protocol ++ .packet packet .kInput ::
    ((now.entering ++ answer.made.flatMap (callNotes protocol now.during) ++ now.leaving).map .protocol ++
      replyNotes answer.reply)

def Note.onNetwork : Note V → Option (V × PacketDirection)
  | .packet value direction => some (value,direction)
  | .protocol _ => none

def Note.onProtocol : Note V → Option (ProtocolNote V)
  | .packet _ _ => none
  | .protocol told => some told

def exchanged : Sent V → List (V × PacketDirection)
  | (packet,.error _) => [(packet,.kInput)]
  | (packet,.ok reply) => [(packet,.kInput),(reply,.kOutput)]

def Event.isCommand : Event V → Bool
  | .handleInvoke .. => true
  | _ => false

-- No thread but that of the packets gives the server anything to do.
def Schedule.OnlyEnds (schedule : Schedule V) : Prop :=
  ∀ event ∈ schedule.before ++ schedule.between, ∃ call outcome, event = .complete call outcome

variable [AnyValue V] [Codec V]

def stackNotes (protocol : Protocol V) (schedule : Nat → Schedule V) (elsewhere : Nat → Elsewhere V) :
    List V → Link V → List (Note V) :=
  notesAlong (Link.functor protocol schedule) fun packet link =>
    exchangeNotes protocol (elsewhere link.packets) packet
      (link.server.call protocol packet (schedule link.packets)).1

end Notes

namespace LoggingFunctions
variable {τ V : Type} {logs : LoggingFunctions τ V}

theorem overhears_append (notes more : List (ProtocolNote V)) (t : τ) :
    logs.overhears (notes ++ more) t = logs.overhears more (logs.overhears notes t) := by
  simp [overhears,List.foldl_append]

-- With no function set the decorator is left out, which makes no difference.
theorem outcome_unset (inputs : logs.protocolInputLogger = none) (outputs : logs.protocolOutputLogger = none)
    (packetType : PacketType) (method : V → V → Outcome V) (during : List (ProtocolNote V))
    (input output : V) (t : τ) :
    RPCLoggingServerStack.outcome logs packetType method during input output t =
      (method input output,t) := by
  have unheard : logs.overhears during t = t := by
    unfold overhears
    induction during with
    | nil => rfl
    | cons note notes ih =>
      rw [List.map_cons,List.foldl_cons]
      cases note <;>
        simpa only [noted,LogProtocolDecorator.logInput,LogProtocolDecorator.logOutput,inputs,outputs] using ih
  simp only [RPCLoggingServerStack.outcome,LogProtocolDecorator.logInput,LogProtocolDecorator.logOutput,
    inputs,outputs,unheard]
  rcases method input output with _ | ⟨result,output⟩ <;> rfl

theorem Quiet.outcome (quiet : logs.Quiet) (packetType : PacketType) (method : V → V → Outcome V)
    (during : List (ProtocolNote V)) (input output : V) (t : τ) :
    RPCLoggingServerStack.outcome logs packetType method during input output t =
      (method input output,logs.overhears
        (.input input packetType :: (during ++ endNotes packetType (method input output))) t) := by
  obtain ⟨u,first⟩ := quiet.logInput input packetType t
  have heard : ∀ notes, logs.overhears (.input input packetType :: (during ++ notes)) t =
      logs.overhears notes (logs.overhears during u) := by
    intro notes
    rw [← overhears_append]
    simp [overhears,noted,first]
  simp only [RPCLoggingServerStack.outcome,first,heard]
  rcases method input output with ⟨error⟩ | ⟨result,final⟩
  · rfl
  · obtain ⟨v,last⟩ := quiet.logOutput result final packetType (logs.overhears during u)
    have told : logs.overhears [.output result final packetType] (logs.overhears during u) =
      (LogProtocolDecorator.logOutput logs result final packetType (logs.overhears during u)).2 := rfl
    simp only [endNotes,told,last]

theorem Quiet.protocol (quiet : logs.Quiet) (protocol : Protocol V) (during : List (ProtocolNote V)) (t : τ) :
    RPCLoggingServerStack.protocol logs protocol during t = protocol := by
  simp only [RPCLoggingServerStack.protocol,quiet.outcome]

theorem Quiet.called (quiet : logs.Quiet) (protocol : Protocol V) (during : List (ProtocolNote V)) (t : τ)
    (made : Made V) : RPCLoggingServerStack.called logs protocol during t made =
      logs.overhears (callNotes protocol during made) t := by
  cases made <;> simp only [RPCLoggingServerStack.called,quiet.outcome,callNotes]

end LoggingFunctions

namespace ProtocolRPCServer
variable {V : Type} [AnyValue V] [Codec V]

theorem made_once (protocol : Protocol V) (server : ProtocolRPCServer V) (packet : V)
    (schedule : Schedule V) : (server.call protocol packet schedule).1.made.length ≤ 1 := by
  unfold call handlePacket
  cases tryGetPacketEncoding packet with
  | none => simp
  | some encoding =>
    dsimp only
    split
    · unfold handleServiceRequest
      split
      · simp
      · split <;> simp
    · unfold handleInvokeRequest
      repeat' split
      all_goals simp

end ProtocolRPCServer

namespace RPCLoggingServerStack
variable {τ V : Type} [AnyValue V] [Codec V] {logs : LoggingFunctions τ V}

theorem served_quiet (quiet : logs.Quiet) (protocol : Protocol V) (schedule : Nat → Schedule V)
    (elsewhere : Nat → Elsewhere V) (packet : V) (link : Link V) (t : τ) :
    let now := elsewhere link.packets
    let answer := (link.server.call protocol packet (schedule link.packets)).1
    served protocol schedule logs elsewhere packet (link,t) =
      ((Link.functor protocol schedule packet link).1,(Link.functor protocol schedule packet link).2,
        logs.overhears (now.entering ++ answer.made.flatMap (callNotes protocol now.during) ++ now.leaving)
          t) := by
  have once := ProtocolRPCServer.made_once protocol link.server packet (schedule link.packets)
  simp only [served,quiet.protocol,LoggingFunctions.overhears_append]
  generalize (link.server.call protocol packet (schedule link.packets)).1.made = calls at once ⊢
  rcases calls with _ | ⟨made,_ | ⟨more,rest⟩⟩
  · rfl
  · simp only [List.head?_cons,Option.elim,quiet.called,List.flatMap_cons,List.flatMap_nil,List.append_nil]
  · simp at once

theorem functor_quiet (quiet : logs.Quiet) (protocol : Protocol V) (schedule : Nat → Schedule V)
    (elsewhere : Nat → Elsewhere V) (packet : V) (link : Link V) (t : τ) :
    functor protocol schedule logs elsewhere packet (link,t) =
      ((Link.functor protocol schedule packet link).1,(Link.functor protocol schedule packet link).2,
        (exchangeNotes protocol (elsewhere link.packets) packet
          (link.server.call protocol packet (schedule link.packets)).1).foldl logs.noted t) := by
  have replied : (link.server.call protocol packet (schedule link.packets)).1.reply =
    (Link.functor protocol schedule packet link).1 := rfl
  have noted : ∀ reply t, (replyNotes reply).foldl logs.noted t = logs.noteReply reply t := by
    intro reply t
    cases reply <;> rfl
  simp only [functor,quiet.decorated,served_quiet quiet,exchangeNotes,List.foldl_append,List.foldl_cons,
    noted,replied]
  rfl

theorem functor_alike (quiet : logs.Quiet) (protocol : Protocol V) (schedule : Nat → Schedule V)
    (elsewhere : Nat → Elsewhere V) :
    Alike (fun (s : Link V × τ) link => s.1 = link) (functor protocol schedule logs elsewhere)
      (Link.functor protocol schedule) := by
  rintro packet ⟨link,t⟩ _ rfl
  rw [functor_quiet quiet]
  exact ⟨rfl,rfl⟩

end RPCLoggingServerStack

section Transparency
variable {τ υ V : Type} [AnyValue V] [Codec V]

-- A call over both stacks returns as the call of a client that is joined to the
-- server itself, and leaves that server as it does.
theorem stacks_transparent (protocol : Protocol V) (schedule : Nat → Schedule V)
    (served : LoggingFunctions υ V) (quietServer : served.Quiet) (elsewhere : Nat → Elsewhere V)
    (logs : LoggingFunctions τ V) (quiet : logs.Quiet) (call : ClientCall V) (packetType : PacketType)
    (link link' : Link V) (v : υ) (t : τ) (invoked : Invoked V) :
    (∃ t' v', RPCLoggingClientStack.Returns
        (RPCLoggingServerStack.functor protocol schedule served elsewhere) logs call packetType
        ((link,v),t) invoked ((link',v'),t')) ↔
      call.Returns (Link.functor protocol schedule) packetType link invoked link' := by
  have alike := RPCLoggingServerStack.functor_alike quietServer protocol schedule elsewhere
  constructor
  · rintro ⟨t',v',returned⟩
    obtain ⟨_,rfl,plain⟩ := ClientCall.returns_alike alike call packetType rfl
      ((quiet_returns quiet t).mp ⟨t',returned⟩)
    exact plain
  · intro plain
    obtain ⟨⟨_,v'⟩,rfl,logged⟩ := ClientCall.returns_alike (t := (link,v)) alike.symm call packetType rfl
      plain
    obtain ⟨t',returned⟩ := (quiet_returns quiet t).mpr logged
    exact ⟨t',v',returned⟩

def Link.measuringThread : Nat → Elsewhere Reference.Value := fun k =>
  {Elsewhere.silent _ with
    before := if k = 2 then [.output .success (.string "done") .kNormal] else []
    entering := if k = 1 then [.input (.string "measure") .kNormal] else []}

theorem stacks_transparent_polled : ∃ t' v', RPCLoggingClientStack.Returns
    (RPCLoggingServerStack.functor Link.measuring Link.twoPolls lineLogger Link.measuringThread) lineLogger
    measureCall .kNormal ((.connect 10 ⟨0,5⟩ [],[]),[]) ⟨.ok .success,.string "done"⟩
    ((Link.twoPollsRun.2,v'),t') :=
  (stacks_transparent Link.measuring Link.twoPolls lineLogger lineLogger_quiet Link.measuringThread lineLogger
    lineLogger_quiet measureCall .kNormal (.connect 10 ⟨0,5⟩ []) Link.twoPollsRun.2 [] [] _).mpr ⟨5,rfl⟩

end Transparency

section Logged
variable {τ V : Type} {protocol : Protocol V} {elsewhere : Nat → Elsewhere V}

theorem exchange_network (now : Elsewhere V) (packet : V) (answer : PacketAnswer V) :
    (exchangeNotes protocol now packet answer).filterMap Note.onNetwork =
      exchanged (packet,answer.reply) := by
  have unheard : ∀ notes : List (ProtocolNote V), (notes.map .protocol).filterMap Note.onNetwork = [] := by
    intro notes
    simp [List.filterMap_map,Function.comp_def,Note.onNetwork]
  rcases answer with ⟨error | reply,made⟩ <;>
    simp [exchangeNotes,unheard,replyNotes,exchanged,Note.onNetwork]

theorem exchange_protocol (now : Elsewhere V) (packet : V) (answer : PacketAnswer V) :
    (exchangeNotes protocol now packet answer).filterMap Note.onProtocol = now.before ++
      (now.entering ++ answer.made.flatMap (callNotes protocol now.during) ++ now.leaving) := by
  have heard : ∀ notes : List (ProtocolNote V), (notes.map .protocol).filterMap Note.onProtocol = notes := by
    intro notes
    simp [List.filterMap_map,Function.comp_def,Note.onProtocol]
  rcases answer with ⟨error | reply,made⟩ <;>
    simp only [exchangeNotes,List.filterMap_append,List.filterMap_cons,heard,Note.onProtocol,replyNotes,
      List.filterMap_nil,List.append_nil]

theorem calls_told (protocol : Protocol V) (during : List (ProtocolNote V)) (made : List (Made V)) :
    (made.flatMap (callNotes protocol [])).Sublist (made.flatMap (callNotes protocol during)) := by
  apply List.Sublist.flatMap_right made
  rintro (⟨input,output⟩ | ⟨input,output⟩) _
  all_goals exact (List.sublist_append_right during _).cons_cons _

variable [AnyValue V] [Codec V] {schedule : Nat → Schedule V}

theorem calls_noted (packets : List V) (link : Link V) :
    ∃ made, (answers (Link.functor protocol schedule) packets link).2.made = link.made ++ made ∧
      (made.flatMap (callNotes protocol [])).Sublist
        ((stackNotes protocol schedule elsewhere packets link).filterMap Note.onProtocol) ∧
      ((∀ k, elsewhere k = .silent V) → (stackNotes protocol schedule elsewhere packets link).filterMap
        Note.onProtocol = made.flatMap (callNotes protocol [])) := by
  induction packets generalizing link with
  | nil => exact ⟨[],by simp [answers],.refl _,fun _ => rfl⟩
  | cons packet packets ih =>
    obtain ⟨made,same,told,alone⟩ := ih (Link.functor protocol schedule packet link).2
    let answer := (link.server.call protocol packet (schedule link.packets)).1
    have first : (stackNotes protocol schedule elsewhere (packet :: packets) link).filterMap Note.onProtocol =
        (exchangeNotes protocol (elsewhere link.packets) packet answer).filterMap Note.onProtocol ++
          (stackNotes protocol schedule elsewhere packets
            (Link.functor protocol schedule packet link).2).filterMap Note.onProtocol :=
      List.filterMap_append
    rw [exchange_protocol] at first
    refine ⟨answer.made ++ made,?_,?_,?_⟩
    · rw [← List.append_assoc]
      exact same
    · rw [first,List.flatMap_append]
      have here := calls_told protocol (elsewhere link.packets).during answer.made
      have within := (here.trans (List.sublist_append_right (elsewhere link.packets).entering _)).trans
        (List.sublist_append_left _ (elsewhere link.packets).leaving)
      exact (within.trans (List.sublist_append_right (elsewhere link.packets).before _)).append told
    · intro silent
      rw [first,alone silent,silent,List.flatMap_append]
      simp [Elsewhere.silent]

theorem commands_asked (packet : V) (moments : Nat → Moment V) :
    (packetCommands packet moments).filter Event.isCommand = packetCommands packet moments := by
  unfold packetCommands
  repeat' split
  all_goals rfl

omit [AnyValue V] [Codec V] in
theorem arrivals_ended (server : ProtocolRPCServer V) {schedule : Schedule V} (ends : schedule.OnlyEnds) :
    (server.arrivals schedule).filter Event.isCommand = [] := by
  apply List.filter_eq_nil_iff.mpr
  intro event member
  have cases : (∃ moments, event = .cleanUpExpiredRequests moments) ∨
      event ∈ schedule.before ++ schedule.between := by
    unfold ProtocolRPCServer.arrivals at member
    rw [List.mem_append,List.mem_append] at member
    rcases member with before | cleaned | between
    · exact Or.inr (List.mem_append_left _ before)
    · split at cleaned
      · exact Or.inl ⟨_,List.mem_singleton.mp cleaned⟩
      · cases cleaned
    · exact Or.inr (List.mem_append_right _ between)
  rcases cases with ⟨_,rfl⟩ | within
  · simp [Event.isCommand]
  · obtain ⟨_,_,rfl⟩ := ends event within
    simp [Event.isCommand]

theorem commands_arrived (ends : ∀ k, (schedule k).OnlyEnds) (packets : List V) (link : Link V) :
    ∃ events, (answers (Link.functor protocol schedule) packets link).2.events = link.events ++ events ∧
      events.filter Event.isCommand = (packets.zipIdx link.packets).flatMap
        fun numbered => packetCommands numbered.1 (schedule numbered.2).moments := by
  induction packets generalizing link with
  | nil => exact ⟨[],by simp [answers],rfl⟩
  | cons packet packets ih =>
    obtain ⟨events,same,arrived⟩ := ih (Link.functor protocol schedule packet link).2
    let now := schedule link.packets
    refine ⟨link.server.arrivals now ++ packetCommands packet now.moments ++ events,?_,?_⟩
    · rw [← List.append_assoc]
      exact same
    · rw [List.filter_append,List.filter_append,arrived,arrivals_ended link.server (ends link.packets),
        commands_asked]
      rfl

structure StackLogged (protocol : Protocol V) (schedule : Nat → Schedule V) (logs : LoggingFunctions τ V)
    (elsewhere : Nat → Elsewhere V) (packets : List V) (link : Link V) (t : τ)
    (found : List (Except Exception V) × Link V × τ) : Prop where
  answered : (found.1,found.2.1) = answers (Link.functor protocol schedule) packets link
  noted : found.2.2 = (stackNotes protocol schedule elsewhere packets link).foldl logs.noted t
  network : (stackNotes protocol schedule elsewhere packets link).filterMap Note.onNetwork =
    (packets.zip found.1).flatMap exchanged
  calls : ∃ made, found.2.1.made = link.made ++ made ∧
    (made.flatMap (callNotes protocol [])).Sublist
      ((stackNotes protocol schedule elsewhere packets link).filterMap Note.onProtocol) ∧
    ((∀ k, elsewhere k = .silent V) → (stackNotes protocol schedule elsewhere packets link).filterMap
      Note.onProtocol = made.flatMap (callNotes protocol []))
  commands : ∃ events, found.2.1.events = link.events ++ events ∧
    events.filter Event.isCommand = (packets.zipIdx link.packets).flatMap
      fun numbered => packetCommands numbered.1 (schedule numbered.2).moments

-- The answers are those of the server itself. The network logger sees each packet
-- with its reply and nothing else, the protocol loggers what the packets call.
theorem server_stack_logged (protocol : Protocol V) (schedule : Nat → Schedule V)
    (ends : ∀ k, (schedule k).OnlyEnds) (logs : LoggingFunctions τ V) (quiet : logs.Quiet)
    (elsewhere : Nat → Elsewhere V) (packets : List V) (link : Link V) (t : τ) :
    StackLogged protocol schedule logs elsewhere packets link t
      (answers (RPCLoggingServerStack.functor protocol schedule logs elsewhere) packets (link,t)) := by
  have folded : answers (RPCLoggingServerStack.functor protocol schedule logs elsewhere) packets (link,t) =
      ((answers (Link.functor protocol schedule) packets link).1,
        (answers (Link.functor protocol schedule) packets link).2,
        (stackNotes protocol schedule elsewhere packets link).foldl logs.noted t) :=
    folded_answers (RPCLoggingServerStack.functor_quiet quiet protocol schedule elsewhere) packets link t
  rw [folded]
  refine ⟨rfl,rfl,?_,calls_noted packets link,commands_arrived ends packets link⟩
  exact notesAlong_filterMap (fun packet link => exchange_network _ packet _) packets link

end Logged

def Link.mixedPackets : List Reference.Value :=
  [.withMember (.withMember (.emptyStruct requestTypeName) requestPayload (.string "measure"))
     asyncCommandFieldName (.unsignedInteger32 0),
   .withMember (.emptyStruct requestTypeName) requestPayload (.string "read"),.string "noise"]

theorem Link.twoPolls_ends (k : Nat) : (Link.twoPolls k).OnlyEnds := by
  intro event member
  simp only [Link.twoPolls,List.nil_append] at member
  split at member
  · exact ⟨0,_,List.mem_singleton.mp member⟩
  · cases member

theorem server_stack_logged_mixed :
    StackLogged Link.measuring Link.twoPolls lineLogger Link.measuringThread Link.mixedPackets
      (.connect 10 ⟨0,5⟩ []) [] (answers (RPCLoggingServerStack.functor Link.measuring Link.twoPolls
        lineLogger Link.measuringThread) Link.mixedPackets (.connect 10 ⟨0,5⟩ [],[])) ∧
    (answers (RPCLoggingServerStack.functor Link.measuring Link.twoPolls lineLogger Link.measuringThread)
      Link.mixedPackets (.connect 10 ⟨0,5⟩ [],[])).2.2 = ["request","reply","request","input","input",
        "output","reply","output","request","reply"] :=
  ⟨server_stack_logged Link.measuring Link.twoPolls Link.twoPolls_ends lineLogger lineLogger_quiet
    Link.measuringThread Link.mixedPackets (.connect 10 ⟨0,5⟩ []) [],rfl⟩

end SupProtocol
