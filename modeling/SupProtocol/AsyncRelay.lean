import SupProtocol.RelayedProtocol

namespace SupProtocol
open Machine

variable {V : Type}

abbrev Behaviour (V : Type) := V → V → Outcome V → Prop

def Protocol.behaviour (application : Protocol V) : Behaviour V :=
  fun input output outcome => application.invoke input output = outcome

-- The surroundings of one Invoke of a client: its server with what the server has
-- been through and with what its threads do, and the clock of the client.
structure Passage (V : Type) where
  expirationTimeNs : UInt64
  handler : ExpirationTimeoutHandler
  past : List (Event V)
  application : Protocol V
  schedule : Nat → Schedule V
  startTimestamp : UInt64
  clock : Nat → UInt64
  polls : Nat

namespace Passage
variable [AnyValue V] [Codec V]

def link (passage : Passage V) : Link V := .connect passage.expirationTimeNs passage.handler passage.past

def run (passage : Passage V) (config : ProtocolRPCClientConfig) (input output : V) :
    Option (Invoked V) × Link V :=
  ProtocolRPCClient.invoke (Link.functor passage.application passage.schedule) config
    passage.startTimestamp passage.clock passage.polls input output passage.link

-- The Invoke returns, and what its server calls behaves like `next`: the packet of
-- a synchronous client makes the call, that of an asynchronous one launches it. The
-- request of the latter does not expire, and nobody else takes it.
structure Through (passage : Passage V) (next : Behaviour V) (config : ProtocolRPCClientConfig)
    (input output : V) (outcome : Outcome V) : Prop where
  returned : ∃ invoked, (passage.run config input output).1 = some invoked ∧ invoked.outcome = outcome
  made : config.async = false → next input empty (passage.application.invoke input empty)
  launched : config.async = true → ∀ result,
    Tasks.outcomeOf (passage.run config input output).2.server.asyncServer.calls
      (passage.link.nextCall passage.schedule) = some result → next input empty result
  foreign : config.async = true → ∀ event ∈ passage.past, event.spares (passage.link.nextId passage.schedule)
  cooperates : config.async = true → (passage.run config input output).2.Cooperates
    passage.expirationTimeNs (passage.link.nextId passage.schedule) passage.schedule

end Passage

def relayed [AnyValue V] [Codec V] (application : Protocol V) :
    List ProtocolRPCClientConfig → Behaviour V
  | [] => application.behaviour
  | config :: configs => fun input output outcome =>
    ∃ passage : Passage V, passage.Through (relayed application configs) config input output outcome

inductive Conveyed [AnyValue V] (application : Protocol V) (configs : List ProtocolRPCClientConfig)
    (input output : V) : Outcome V → Prop where
  | refused (bare : isEmptyValue input = true) :
      Conveyed application configs input output (.ok (.clientTransportEncodingError,output))
  | told (nonempty : isEmptyValue input = false) : Conveyed application configs input output
      (.ok (callResult (application.invoke input empty) output))
  | gaveUp (nonempty : isEmptyValue input = false) (client : config ∈ configs)
      (asynchronous : config.async = true) :
      Conveyed application configs input output (.ok (.asynchronousProtocolTimeout,output))

section Answers
variable [AnyValue V] [Codec V] [LawfulAnyValue V] [LawfulCodec V] [LawfulAssign V]
  {passage : Passage V} {next : Behaviour V} {config : ProtocolRPCClientConfig} {input output : V}
  {outcome : Outcome V}

omit [LawfulAnyValue V] [LawfulCodec V] [LawfulAssign V] in
theorem through_refused (bare : isEmptyValue input = true)
    (through : passage.Through next config input output outcome) :
    outcome = .ok (.clientTransportEncodingError,output) := by
  obtain ⟨invoked,ran,same⟩ := through.returned
  simp only [Passage.run,ProtocolRPCClient.invoke,bare,if_true,Option.some.injEq] at ran
  rw [← same,← ran]
  rfl

theorem through_sync (nonempty : isEmptyValue input = false) (synchronous : config.async = false)
    (supported : isSupportedPayloadEncoding config.encoding = true)
    (through : passage.Through next config input output outcome) :
    ∃ result, next input empty result ∧ outcome = .ok (callResult result output) := by
  obtain ⟨invoked,ran,same⟩ := through.returned
  refine ⟨_,through.made synchronous,?_⟩
  have call := handleSyncInvoke_call passage.application passage.schedule passage.link nonempty config
    supported output
  rw [Passage.run,invoke_synchronous nonempty synchronous,Option.some.injEq] at ran
  rw [← same,← ran]
  exact call_outcome call

theorem sync_through (passage : Passage V) (nonempty : isEmptyValue input = false)
    (synchronous : config.async = false) (supported : isSupportedPayloadEncoding config.encoding = true)
    (made : next input empty (passage.application.invoke input empty)) :
    passage.Through next config input output
      (.ok (callResult (passage.application.invoke input empty) output)) := by
  have call := handleSyncInvoke_call passage.application passage.schedule passage.link nonempty config
    supported output
  have never : config.async ≠ true := by simp [synchronous]
  refine ⟨⟨_,?_,call_outcome call⟩,fun _ => made,?_,?_,?_⟩
  · rw [Passage.run,invoke_synchronous nonempty synchronous]
    rfl
  · exact fun asynchronous => absurd asynchronous never
  · exact fun asynchronous => absurd asynchronous never
  · exact fun asynchronous => absurd asynchronous never

theorem through_async (nonempty : isEmptyValue input = false) (asynchronous : config.async = true)
    (supported : isSupportedPayloadEncoding config.encoding = true)
    (through : passage.Through next config input output outcome) :
    outcome = .ok (.asynchronousProtocolTimeout,output) ∨
    ∃ result, next input empty result ∧ outcome = .ok (callResult result output) := by
  obtain ⟨invoked,ran,same⟩ := through.returned
  have launched := through.launched asynchronous
  have cooperates := through.cooperates asynchronous
  have tracks : passage.link.Tracks passage.expirationTimeNs := rfl
  have call : (AsyncInvokeServer.reached passage.expirationTimeNs
      (passage.link.pending passage.schedule)).calls.length = passage.link.nextCall passage.schedule :=
    congrArg (fun server => server.calls.length) (Link.found_reached tracks passage.schedule).symm
  simp only [Passage.run,invoke_asynchronous nonempty asynchronous] at ran launched cooperates
  have grows := started_advance (R := Link.Grows) Link.Grows.refl Link.Grows.trans
    (Link.functor_grows passage.application passage.schedule) config passage.startTimestamp
    passage.clock passage.polls input output passage.link
  obtain ⟨accepted,started,waiting⟩ := Link.start_waiting nonempty supported passage.application tracks
    ⟨rfl,rfl⟩ (through.foreign asynchronous) (cooperates.earlier grows)
  simp only [ProtocolRPCClient.handleAsyncInvoke,started,ne_eq,not_true_eq_false,if_false]
    at ran launched cooperates
  have waits : (⟨config.encoding,passage.link.nextId passage.schedule,false,empty⟩ :
    AsyncInvocation V).synchronous = false := rfl
  obtain ⟨answer,later,ended,_,returned⟩ := Link.awaitReply_waiting passage.schedule waits rfl supported
    passage.application config passage.startTimestamp passage.clock passage.polls waiting output cooperates
  rw [ended] at ran launched
  rcases returned invoked ran with rfl | ⟨result,done,rfl⟩
  · exact Or.inl same.symm
  · exact Or.inr ⟨result,launched result (call ▸ done),same.symm⟩

omit [Codec V] [LawfulCodec V] in
theorem Conveyed.passed {application : Protocol V} {configs : List ProtocolRPCClientConfig}
    (nonempty : isEmptyValue input = false) (conveyed : Conveyed application configs input empty outcome)
    (config : ProtocolRPCClientConfig) (output : V) :
    Conveyed application (config :: configs) input output (.ok (callResult outcome output)) := by
  cases conveyed with
  | refused bare => cases bare.symm.trans nonempty
  | told =>
    rw [callResult_passed]
    exact .told nonempty
  | gaveUp _ client asynchronous =>
    have late : callResult (.ok (.asynchronousProtocolTimeout,empty)) output =
        (.asynchronousProtocolTimeout,output) := by
      simp [callResult,ProtocolResult.success,ProtocolResult.asynchronousProtocolTimeout]
    rw [late]
    exact .gaveUp nonempty (List.mem_cons_of_mem _ client) asynchronous

-- Whatever the modes, the encodings and the surroundings on the way: the caller is
-- refused an empty input, sees what a call of the application's own server would
-- have told it, or learns that one of the clients has given up waiting.
theorem relay_answers (application : Protocol V) (configs : List ProtocolRPCClientConfig)
    (remote : configs ≠ [])
    (supported : ∀ config ∈ configs, isSupportedPayloadEncoding config.encoding = true)
    (input output : V) (outcome : Outcome V)
    (answered : relayed application configs input output outcome) :
    Conveyed application configs input output outcome := by
  induction configs generalizing output outcome with
  | nil => exact absurd rfl remote
  | cons config configs ih =>
    obtain ⟨passage,through⟩ := answered
    have here := supported config (List.mem_cons_self ..)
    cases bare : isEmptyValue input with
    | true =>
      rw [through_refused bare through]
      exact .refused bare
    | false =>
      have behind (result : Outcome V) (inner : relayed application configs input empty result) :
          Conveyed application (config :: configs) input output (.ok (callResult result output)) := by
        cases configs with
        | nil =>
          cases inner
          exact .told bare
        | cons other configs =>
          have rest := ih (by simp) (fun config member => supported config (List.mem_cons_of_mem _ member))
          exact (rest empty result inner).passed bare config output
      cases mode : config.async with
      | false =>
        obtain ⟨result,inner,rfl⟩ := through_sync bare mode here through
        exact behind result inner
      | true =>
        rcases through_async bare mode here through with rfl | ⟨result,inner,rfl⟩
        · exact .gaveUp bare (List.mem_cons_self ..) mode
        · exact behind result inner

end Answers

def firstPassage : Passage Reference.Value :=
  ⟨10,⟨0,5⟩,[],Link.measuring,Link.twoPolls,0,fun _ => 0,5⟩
def secondPassage : Passage Reference.Value :=
  ⟨10,⟨0,5⟩,[],Link.measuring,idleSchedule,0,fun _ => 0,0⟩

def mixedClients : List ProtocolRPCClientConfig := [⟨.kNone,true,1000,1⟩,⟨.kBase64,false,0,0⟩]

theorem relayed_polled :
    relayed Link.measuring mixedClients (.string "measure") .empty (.ok (.success,.string "done")) := by
  have inner : relayed Link.measuring [⟨.kBase64,false,0,0⟩] (.string "measure") .empty
      (.ok (.success,.string "done")) := ⟨secondPassage,sync_through secondPassage rfl rfl rfl rfl⟩
  refine ⟨firstPassage,⟨_,rfl,rfl⟩,nofun,?_,nofun,?_⟩
  · intro _ result done
    have known : Tasks.outcomeOf Link.twoPollsRun.2.server.asyncServer.calls 0 =
      some (.ok (.success,.string "done")) := by rfl
    cases known.symm.trans done
    exact inner
  · intro _
    refine ⟨by decide,by decide,?_⟩
    have sent : Link.twoPollsRun.2.packets = 4 := by decide
    change ∀ k < Link.twoPollsRun.2.packets, _
    rw [sent]
    decide

theorem relay_answers_polled : Conveyed Link.measuring mixedClients (.string "measure") .empty
    (.ok (.success,.string "done")) :=
  relay_answers Link.measuring mixedClients (by simp [mixedClients]) (by decide) _ _ _ relayed_polled

end SupProtocol
