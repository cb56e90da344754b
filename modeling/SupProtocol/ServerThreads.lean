import SupProtocol.SharedDelivery

namespace SupProtocol
open AsyncInvokeServer Machine

-- How far operator() has come with a packet. It takes the lock of the handler,
-- that of the asynchronous server for a clean-up, and that lock again for the
-- command; other threads may come between any two of them.
inductive Stage (V : Type) where
  | entered | expired | cleaned
  | answered (reply : Except Exception V)

-- A packet under way for a caller, and where the call stood that sent it. It is
-- no longer awaited when the functor has thrown in the meantime.
structure Errand (V : Type) where
  packet : V
  sender : Progress V
  stage : Stage V
  awaited : Bool

-- A server with a thread for each packet under way, and its callers. What reached
-- the asynchronous server, and whose packet launched which call, is noted.
structure Threads (V : Type) where
  server : ProtocolRPCServer V
  progress : Nat → Progress V
  errand : Nat → Option (Errand V)
  launchedBy : List Nat
  events : List (Event V)

inductive Move (V : Type) where
  | send (caller : Nat)
  | check (caller : Nat) (now : UInt64)
  | cleanUp (caller : Nat) (moments : Nat → Moment V)
  | handle (caller : Nat) (moments : Nat → Moment V)
  | giveUp (caller : Nat)
  | receive (caller : Nat)
  | complete (call : Nat) (outcome : Outcome V)

def Move.caller {V : Type} : Move V → Option Nat
  | .send caller | .check caller _ | .cleanUp caller _ | .handle caller _ | .giveUp caller
  | .receive caller => some caller
  | .complete _ _ => none

namespace Threads
variable {V : Type} [AnyValue V] [Codec V]

def start (expirationTimeNs cleanupNs : UInt64) (calls : Nat → ClientCall V) : Threads V where
  server := ⟨AsyncInvokeServer.start expirationTimeNs,⟨0,cleanupNs⟩⟩
  progress := fun caller => (calls caller).begin
  errand := fun _ => none
  launchedBy := []
  events := []

def put (s : Threads V) (caller : Nat) (progress : Progress V) : Threads V :=
  {s with progress := Function.update s.progress caller progress}

def carry (s : Threads V) (caller : Nat) (errand : Option (Errand V)) : Threads V :=
  {s with errand := Function.update s.errand caller errand}

def reach (s : Threads V) (event : Event V) : Threads V :=
  {s with
    server := {s.server with asyncServer := (s.server.asyncServer.step event).2}
    events := s.events ++ [event]}

-- The packet meets the asynchronous server, or the application. A reply that
-- nobody awaits goes nowhere.
def handled (protocol : Protocol V) (s : Threads V) (caller : Nat) (errand : Errand V)
    (moments : Nat → Moment V) : Threads V :=
  let (answer,server) :=
    ProtocolRPCServer.handlePacket protocol errand.packet moments s.server.asyncServer
  let arrived := packetCommands errand.packet moments
  {server := {s.server with asyncServer := server}
   progress := s.progress
   errand := Function.update s.errand caller
    (if errand.awaited then some {errand with stage := .answered answer.reply} else none)
   launchedBy := s.launchedBy ++ (arrived.flatMap Event.launches).map fun _ => caller
   events := s.events ++ arrived}

def step (protocol : Protocol V) (calls : Nat → ClientCall V) (s : Threads V) : Move V → Unit × Threads V
  | .send caller =>
    match s.errand caller,(calls caller).request (s.progress caller) with
    | none,some (.ok packet) => ((),s.carry caller (some ⟨packet,s.progress caller,.entered,true⟩))
    | none,some (.error error) => ((),s.put caller (.returned ⟨.error error,(calls caller).output⟩))
    | _,_ => ((),s)
  | .check caller now =>
    match s.errand caller with
    | some ⟨packet,sender,.entered,awaited⟩ =>
      let (needed,handler) := s.server.expirationHandler.isCleanUpNeeded now
      ((),{s with server := {s.server with expirationHandler := handler}}.carry caller
        (some ⟨packet,sender,if needed then .expired else .cleaned,awaited⟩))
    | _ => ((),s)
  | .cleanUp caller moments =>
    match s.errand caller with
    | some ⟨packet,sender,.expired,awaited⟩ =>
      ((),(s.reach (.cleanUpExpiredRequests moments)).carry caller
        (some ⟨packet,sender,.cleaned,awaited⟩))
    | _ => ((),s)
  | .handle caller moments =>
    match s.errand caller with
    | some ⟨packet,sender,.cleaned,awaited⟩ =>
      ((),s.handled protocol caller ⟨packet,sender,.cleaned,awaited⟩ moments)
    | _ => ((),s)
  | .giveUp caller =>
    match s.errand caller with
    | some ⟨_,sender,.answered _,true⟩ =>
      ((),(s.put caller ((calls caller).receive sender none)).carry caller none)
    | some ⟨packet,sender,stage,true⟩ =>
      ((),(s.put caller ((calls caller).receive sender none)).carry caller
        (some ⟨packet,sender,stage,false⟩))
    | _ => ((),s)
  | .receive caller =>
    match s.errand caller with
    | some ⟨_,sender,.answered reply,true⟩ =>
      ((),(s.put caller ((calls caller).receive sender (Shared.heard .delivered reply))).carry caller none)
    | _ => ((),s)
  | .complete call outcome => ((),s.reach (.complete call outcome))

-- The same run with each packet handled at once. Whether its reply gets lost is
-- only seen later on, where the caller receives it or gives up.
section Atomic
variable (calls : Nat → ClientCall V)

def endOf (caller : Nat) : Move V → Option Carriage
  | .receive other => if other = caller then some .delivered else none
  | .giveUp other => if other = caller then some .replyLost else none
  | _ => none

def fate (caller : Nat) (later : List (Move V)) : Carriage :=
  (later.findSome? (endOf caller)).getD .delivered

-- Where a caller stands once the reply that is on its way has come to its end. A
-- packet that has not been handled counts as not sent.
def settled (later : List (Move V)) (s : Threads V) (caller : Nat) : Progress V :=
  match s.errand caller with
  | none => s.progress caller
  | some ⟨_,sender,.answered reply,_⟩ =>
    (calls caller).receive sender (Shared.heard (fate caller later) reply)
  | some ⟨_,sender,_,_⟩ => sender

def atomic (later : List (Move V)) (s : Threads V) : Shared V :=
  ⟨s.server.asyncServer,s.settled calls later,s.launchedBy,s.events⟩

def tell (s : Threads V) (move : Move V) (later : List (Move V)) : List (Happening V) :=
  match move with
  | .send caller =>
    match s.errand caller,(calls caller).request (s.progress caller) with
    | none,some (.error _) => [.packet caller (fun _ => ⟨[],0⟩) .delivered]
    | _,_ => []
  | .cleanUp caller moments =>
    match s.errand caller with
    | some ⟨_,_,.expired,_⟩ => [.cleanUp moments]
    | _ => []
  | .handle caller moments =>
    match s.errand caller with
    | some ⟨_,_,.cleaned,awaited⟩ =>
      [.packet caller moments (if awaited then fate caller later else .replyLost)]
    | _ => []
  | .complete call outcome => [.complete call outcome]
  | _ => []

structure Known (call : ClientCall V) (progress : Progress V) (errand : Errand V) : Prop where
  asked : call.request errand.sender = some (.ok errand.packet)
  waits : errand.awaited = true → progress = errand.sender
  gone : errand.awaited = false → progress = call.receive errand.sender none
  silent : errand.awaited = false → ∀ reply, errand.stage ≠ .answered reply

def Sound (s : Threads V) : Prop :=
  ∀ caller errand, s.errand caller = some errand → Known (calls caller) (s.progress caller) errand

end Atomic

section Steps
variable {calls : Nat → ClientCall V} {s t : Threads V} {caller : Nat} {errand : Option (Errand V)}
  {progress : Progress V} {later : List (Move V)} {move : Move V}

omit [AnyValue V] [Codec V] in
theorem endOf_apart {other : Nat} (apart : move.caller ≠ some other) : endOf other move = none := by
  cases move with
  | receive caller => exact if_neg fun same => apart (congrArg some same)
  | giveUp caller => exact if_neg fun same => apart (congrArg some same)
  | _ => rfl

theorem settled_later (s : Threads V) (later : List (Move V)) (quiet : endOf caller move = none) :
    s.settled calls later caller = s.settled calls (move :: later) caller := by
  simp only [settled,fate,List.findSome?_cons,quiet]

theorem step_others (calls : Nat → ClientCall V) (protocol : Protocol V) (s : Threads V) (move : Move V) {other : Nat}
    (apart : move.caller ≠ some other) :
    (s.step protocol calls move).2.errand other = s.errand other ∧
      (s.step protocol calls move).2.progress other = s.progress other := by
  cases move with
  | complete call outcome => exact ⟨rfl,rfl⟩
  | send caller =>
    have differ : other ≠ caller := fun same => apart (congrArg some same.symm)
    simp only [step]
    split <;> simp [carry,put,differ]
  | check caller now =>
    have differ : other ≠ caller := fun same => apart (congrArg some same.symm)
    simp only [step]
    split <;> simp [carry,differ]
  | cleanUp caller moments =>
    have differ : other ≠ caller := fun same => apart (congrArg some same.symm)
    simp only [step]
    split <;> simp [carry,reach,differ]
  | handle caller moments =>
    have differ : other ≠ caller := fun same => apart (congrArg some same.symm)
    simp only [step]
    split <;> simp [handled,differ]
  | giveUp caller =>
    have differ : other ≠ caller := fun same => apart (congrArg some same.symm)
    simp only [step]
    split <;> simp [carry,put,differ]
  | receive caller =>
    have differ : other ≠ caller := fun same => apart (congrArg some same.symm)
    simp only [step]
    split <;> simp [carry,put,differ]

theorem stepped_atomic (protocol : Protocol V) (s : Threads V) (move : Move V) (later : List (Move V))
    (mine : move.caller = some caller) :
    (s.step protocol calls move).2.atomic calls later =
      ⟨(s.step protocol calls move).2.server.asyncServer,
       Function.update (s.settled calls (move :: later)) caller
         ((s.step protocol calls move).2.settled calls later caller),
       (s.step protocol calls move).2.launchedBy,(s.step protocol calls move).2.events⟩ := by
  have moved : (s.step protocol calls move).2.settled calls later =
      Function.update (s.settled calls (move :: later)) caller
        ((s.step protocol calls move).2.settled calls later caller) := by
    funext other
    by_cases same : other = caller
    · rw [same,Function.update_self]
    · have apart : move.caller ≠ some other := by
        rw [mine]
        exact fun both => same (Option.some.inj both).symm
      obtain ⟨errand,standing⟩ := step_others (calls) protocol s move apart
      rw [Function.update_of_ne same,← settled_later s later (endOf_apart apart)]
      simp only [settled,errand,standing]
  exact congrArg (Shared.mk _ · _ _) moved

theorem kept_atomic (protocol : Protocol V) (s : Threads V) (move : Move V) (later : List (Move V))
    (mine : move.caller = some caller)
    (same : (s.step protocol calls move).2.settled calls later caller =
      s.settled calls (move :: later) caller) :
    (s.step protocol calls move).2.atomic calls later =
      ⟨(s.step protocol calls move).2.server.asyncServer,s.settled calls (move :: later),
       (s.step protocol calls move).2.launchedBy,(s.step protocol calls move).2.events⟩ := by
  rw [stepped_atomic protocol s move later mine,same,Function.update_eq_self]

theorem moved_sound (sound : s.Sound calls) (errands : t.errand = Function.update s.errand caller errand)
    (standing : t.progress = Function.update s.progress caller progress)
    (own : ∀ known, errand = some known → Known (calls caller) progress known) : t.Sound calls := by
  intro other found here
  by_cases same : other = caller
  · subst other
    rw [errands,Function.update_self] at here
    rw [standing,Function.update_self]
    exact own found here
  · rw [errands,Function.update_of_ne same] at here
    rw [standing,Function.update_of_ne same]
    exact sound other found here

theorem step_sound (protocol : Protocol V) (s : Threads V) (move : Move V) (sound : s.Sound calls) :
    (s.step protocol calls move).2.Sound calls := by
  have still : ∀ caller, s.progress = Function.update s.progress caller (s.progress caller) :=
    fun caller => (Function.update_eq_self ..).symm
  cases move with
  | complete call outcome => exact sound
  | send caller =>
    simp only [step]
    split
    · rename_i asked
      exact moved_sound sound rfl (still caller) (by rintro _ ⟨⟩; exact ⟨asked,fun _ => rfl,nofun,nofun⟩)
    · rename_i idle _
      have unchanged : s.errand = Function.update s.errand caller none := by
        rw [← idle,Function.update_eq_self]
      exact moved_sound sound unchanged rfl nofun
    · exact sound
  | check caller now =>
    simp only [step]
    split
    · rename_i packet sender awaited here
      obtain ⟨asked,waits,gone,_⟩ := sound caller _ here
      refine moved_sound sound rfl (still caller) ?_
      rintro _ ⟨⟩
      exact ⟨asked,waits,gone,fun _ reply => by split <;> nofun⟩
    · exact sound
  | cleanUp caller moments =>
    simp only [step]
    split
    · rename_i packet sender awaited here
      obtain ⟨asked,waits,gone,_⟩ := sound caller _ here
      refine moved_sound sound rfl (still caller) ?_
      rintro _ ⟨⟩
      exact ⟨asked,waits,gone,fun _ _ => nofun⟩
    · exact sound
  | handle caller moments =>
    simp only [step]
    split
    · rename_i packet sender awaited here
      obtain ⟨asked,waits,_⟩ := sound caller _ here
      refine moved_sound sound rfl (still caller) ?_
      intro known same
      cases awaited with
      | false => cases same
      | true =>
        cases same
        exact ⟨asked,waits,nofun,nofun⟩
    · exact sound
  | giveUp caller =>
    simp only [step]
    split
    · exact moved_sound sound rfl rfl nofun
    · rename_i packet sender stage unanswered here
      obtain ⟨asked,_,_⟩ := sound caller _ here
      refine moved_sound sound rfl rfl ?_
      rintro _ ⟨⟩
      exact ⟨asked,nofun,fun _ => rfl,fun _ reply same => unanswered reply same⟩
    · exact sound
  | receive caller =>
    simp only [step]
    split
    · exact moved_sound sound rfl rfl nofun
    · exact sound

theorem idle_settled (sound : s.Sound calls) (move : Move V) (later : List (Move V))
    (idle : ∀ packet sender reply, s.errand caller ≠ some ⟨packet,sender,.answered reply,true⟩) :
    s.settled calls later caller = s.settled calls (move :: later) caller := by
  rcases here : s.errand caller with _ | ⟨packet,sender,stage,awaited⟩
  · simp only [settled,here]
  · cases stage with
    | entered => simp only [settled,here]
    | expired => simp only [settled,here]
    | cleaned => simp only [settled,here]
    | answered reply =>
      cases awaited with
      | true => exact absurd here (idle packet sender reply)
      | false => exact absurd rfl ((sound caller _ here).silent rfl reply)

omit [AnyValue V] [Codec V] in
theorem fate_arrived (caller : Nat) (later : List (Move V)) : fate caller later ≠ .requestLost := by
  intro lost
  unfold fate at lost
  cases found : later.findSome? (endOf caller) with
  | none =>
    rw [found] at lost
    cases lost
  | some carriage =>
    rw [found] at lost
    cases lost
    obtain ⟨move,_,ended⟩ := List.exists_of_findSome?_eq_some found
    cases move <;> simp [endOf] at ended

-- A packet that is handled is one exchange of the atomic run, with the end that
-- its reply is going to have.
theorem handled_told (protocol : Protocol V) {packet : V} {sender : Progress V} {awaited : Bool}
    {moments : Nat → Moment V} (sound : s.Sound calls)
    (here : s.errand caller = some ⟨packet,sender,.cleaned,awaited⟩) :
    (Shared.step protocol calls (s.atomic calls (.handle caller moments :: later))
      (.packet caller moments (if awaited then fate caller later else .replyLost))).2 =
      (s.step protocol calls (.handle caller moments)).2.atomic calls later := by
  obtain ⟨asked,_,gone,_⟩ := sound caller _ here
  have stands : s.settled calls (.handle caller moments :: later) caller = sender := by
    simp only [settled,here]
  have carried : (if awaited then fate caller later else .replyLost) ≠ Carriage.requestLost := by
    split
    · exact fate_arrived caller later
    · nofun
  rw [stepped_atomic protocol s (.handle caller moments) later rfl]
  simp only [Shared.step,atomic,stands,asked,if_neg carried,step,here]
  simp only [Shared.exchange,handled,stands]
  cases awaited with
  | true => simp only [settled,Function.update_self,if_true]
  | false =>
    have left : s.progress caller = (calls caller).receive sender none := gone rfl
    simp only [settled,Function.update_self,Bool.false_eq_true,if_false,left]
    rfl

-- What a move amounts to takes the state of the atomic run along.
def Follows (protocol : Protocol V) (calls : Nat → ClientCall V) (s : Threads V) (move : Move V)
    (later : List (Move V)) : Prop :=
  run (Shared.step protocol calls) (s.atomic calls (move :: later)) (s.tell calls move later) =
    (s.step protocol calls move).2.atomic calls later

theorem complete_told (protocol : Protocol V) (s : Threads V) (call : Nat) (outcome : Outcome V) :
    Follows protocol calls s (.complete call outcome) later := by
  have kept : s.settled calls later = s.settled calls (.complete call outcome :: later) :=
    funext fun _ => settled_later s later rfl
  simp only [Follows,tell,step,atomic,← kept]
  rfl

theorem send_told (protocol : Protocol V) (s : Threads V) : Follows protocol calls s (.send caller) later := by
  unfold Follows
  cases here : s.errand caller with
  | some errand =>
    rw [kept_atomic protocol s (.send caller) later rfl]
    · simp only [tell,step,here]
      rfl
    · simp only [step,here]
      exact settled_later s later rfl
  | none =>
    have stands : s.settled calls (.send caller :: later) caller = s.progress caller := by
      simp only [settled,here]
    rcases asks : (calls caller).request (s.progress caller) with _ | error | packet
    · rw [kept_atomic protocol s (.send caller) later rfl]
      · simp only [tell,step,here,asks]
        rfl
      · simp only [step,here,asks]
        exact settled_later s later rfl
    · rw [stepped_atomic protocol s (.send caller) later rfl]
      simp only [tell,step,here,asks,run,Shared.step,atomic,stands,Shared.put]
      simp only [settled,put,here,Function.update_self]
    · rw [kept_atomic protocol s (.send caller) later rfl]
      · simp only [tell,step,here,asks]
        rfl
      · rw [stands]
        simp only [step,here,asks,settled,carry,Function.update_self]

theorem check_told (protocol : Protocol V) (s : Threads V) (now : UInt64) :
    Follows protocol calls s (.check caller now) later := by
  unfold Follows
  rw [kept_atomic protocol s (.check caller now) later rfl]
  · simp only [tell,step]
    split <;> rfl
  · simp only [step]
    split
    · rename_i packet sender awaited here
      simp only [settled,carry,Function.update_self,here]
      cases (s.server.expirationHandler.isCleanUpNeeded now).1 <;> rfl
    · exact settled_later s later rfl

theorem cleanUp_told (protocol : Protocol V) (s : Threads V) (moments : Nat → Moment V) :
    Follows protocol calls s (.cleanUp caller moments) later := by
  unfold Follows
  rw [kept_atomic protocol s (.cleanUp caller moments) later rfl]
  · simp only [tell,step]
    split <;> rfl
  · simp only [step]
    split
    · rename_i packet sender awaited here
      simp only [settled,carry,Function.update_self,here]
    · exact settled_later s later rfl

theorem handle_told (protocol : Protocol V) (moments : Nat → Moment V) (sound : s.Sound calls) :
    Follows protocol calls s (.handle caller moments) later := by
  simp only [Follows,tell]
  split
  · rename_i packet sender awaited here
    exact handled_told protocol sound here
  · rename_i waits
    have stays : s.step protocol calls (.handle caller moments) = ((),s) := by
      simp only [step]
    rw [kept_atomic protocol s (.handle caller moments) later rfl]
    · rw [stays]
      rfl
    · rw [stays]
      exact settled_later s later rfl

theorem giveUp_told (protocol : Protocol V) (sound : s.Sound calls) :
    Follows protocol calls s (.giveUp caller) later := by
  unfold Follows
  rw [kept_atomic protocol s (.giveUp caller) later rfl]
  · simp only [tell,step]
    split <;> rfl
  · simp only [step]
    split
    · rename_i packet sender reply here
      simp [settled,carry,put,here,fate,endOf,Shared.heard]
    · rename_i packet sender stage unanswered here
      cases stage with
      | answered reply => exact (unanswered reply rfl).elim
      | entered => simp only [settled,carry,put,Function.update_self,here]
      | expired => simp only [settled,carry,put,Function.update_self,here]
      | cleaned => simp only [settled,carry,put,Function.update_self,here]
    · rename_i unanswered _
      exact idle_settled sound (.giveUp caller) later unanswered

theorem receive_told (protocol : Protocol V) (sound : s.Sound calls) :
    Follows protocol calls s (.receive caller) later := by
  unfold Follows
  rw [kept_atomic protocol s (.receive caller) later rfl]
  · simp only [tell,step]
    split <;> rfl
  · simp only [step]
    split
    · rename_i packet sender reply here
      simp [settled,carry,put,here,fate,endOf]
    · rename_i unanswered
      exact idle_settled sound (.receive caller) later unanswered

theorem step_told (protocol : Protocol V) (s : Threads V) (move : Move V) (later : List (Move V))
    (sound : s.Sound calls) : Follows protocol calls s move later := by
  cases move with
  | complete call outcome => exact complete_told protocol s call outcome
  | send caller => exact send_told protocol s
  | check caller now => exact check_told protocol s now
  | cleanUp caller moments => exact cleanUp_told protocol s moments
  | handle caller moments => exact handle_told protocol moments sound
  | giveUp caller => exact giveUp_told protocol sound
  | receive caller => exact receive_told protocol sound

end Steps

section Runs
variable (protocol : Protocol V) (calls : Nat → ClientCall V) (expirationTimeNs cleanupNs : UInt64)

def after (moves : List (Move V)) : Threads V :=
  run (step protocol calls) (start expirationTimeNs cleanupNs calls) moves

theorem after_told (moves : List (Move V)) :
    Shared.after protocol calls expirationTimeNs
        (foretold (step protocol calls) (tell calls) (start expirationTimeNs cleanupNs calls) moves) =
      (after protocol calls expirationTimeNs cleanupNs moves).atomic calls [] := by
  have initially : (start expirationTimeNs cleanupNs calls).Sound calls := nofun
  exact run_foretold (atomic calls) (step_sound protocol) (step_told protocol) initially moves

end Runs

section Safety
variable [LawfulAnyValue V] [LawfulCodec V] [LawfulAssign V] {protocol : Protocol V}
  {calls : Nat → ClientCall V} {expirationTimeNs cleanupNs : UInt64} {s : Threads V} {caller : Nat}

def observed (s : Threads V) : Shared V := ⟨s.server.asyncServer,s.progress,s.launchedBy,s.events⟩

structure Safe (protocol : Protocol V) (calls : Nat → ClientCall V) (expirationTimeNs : UInt64)
    (moves : List (Move V)) (s : Threads V) : Prop where
  launched : ∀ number < s.server.asyncServer.calls.length, ∃ caller, s.launchedBy[number]? = some caller ∧
    (calls caller).config.async = true ∧
    (Tasks.inputs s.server.asyncServer.calls)[number]? = some (calls caller).input
  once : s.launchedBy.Nodup
  ends : ∀ caller invoked, s.progress caller = .returned invoked →
    s.observed.Ending protocol transportFailures caller (calls caller) invoked
  served : ∀ caller, (∀ move ∈ moves, move ≠ .giveUp caller) →
    s.observed.Unexpired expirationTimeNs caller → ∀ invoked, s.progress caller = .returned invoked →
      s.observed.Ending protocol Shared.patienceFailures caller (calls caller) invoked

omit [LawfulAnyValue V] [LawfulCodec V] [LawfulAssign V] in
theorem observed_later (calls : Nat → ClientCall V) (s : Threads V) :
    Shared.Later (s.atomic calls []) s.observed :=
  ⟨⟨[],(List.append_nil _).symm⟩,Tasks.Extends.refl _⟩

omit [LawfulAnyValue V] [LawfulCodec V] [LawfulAssign V] in
theorem sent_unreturned {call : ClientCall V} {sender : Progress V} {packet : V}
    (asked : call.request sender = some (.ok packet)) (invoked : Invoked V) :
    sender ≠ .returned invoked := by
  rintro rfl
  cases asked

omit [LawfulAnyValue V] [LawfulCodec V] [LawfulAssign V] in
-- A caller that has returned has no packet under way, or it gave that one up.
theorem returned_cases (sound : s.Sound calls) {invoked : Invoked V}
    (done : s.progress caller = .returned invoked) :
    (s.atomic calls []).progress caller = .returned invoked ∨
      (∃ errand, s.errand caller = some errand ∧ errand.awaited = false) ∧
        invoked = ⟨.ok .clientTransportException,(calls caller).output⟩ := by
  cases here : s.errand caller with
  | none =>
    refine Or.inl ?_
    simp only [atomic,settled,here]
    exact done
  | some errand =>
    obtain ⟨asked,waits,gone,_⟩ := sound caller errand here
    have unreturned := sent_unreturned asked
    cases awaited : errand.awaited with
    | true => exact absurd ((waits awaited).symm.trans done) (unreturned invoked)
    | false =>
      refine Or.inr ⟨⟨errand,rfl,awaited⟩,?_⟩
      rw [gone awaited] at done
      cases sender : errand.sender with
      | returned other => exact absurd sender (unreturned other)
      | called => rw [sender] at done; cases done; rfl
      | polling invocation polls => rw [sender] at done; cases done; rfl
      | fetching invocation => rw [sender] at done; cases done; rfl

omit [AnyValue V] [Codec V] [LawfulAnyValue V] [LawfulCodec V] [LawfulAssign V] in
theorem fate_patient {later : List (Move V)} (patient : ∀ move ∈ later, move ≠ .giveUp caller) :
    fate caller later = .delivered := by
  unfold fate
  cases found : later.findSome? (endOf caller) with
  | none => rfl
  | some carriage =>
    obtain ⟨move,member,ended⟩ := List.exists_of_findSome?_eq_some found
    cases move with
    | receive other =>
      simp only [endOf] at ended
      split at ended
      · cases ended
        rfl
      · cases ended
    | giveUp other =>
      simp only [endOf] at ended
      split at ended
      · rename_i same
        exact absurd (congrArg Move.giveUp same) (patient _ member)
      · cases ended
    | _ => cases ended

def Awaiting (caller : Nat) (s : Threads V) : Prop :=
  ∀ errand, s.errand caller = some errand → errand.awaited = true

omit [LawfulAnyValue V] [LawfulCodec V] [LawfulAssign V] in
theorem step_awaiting (protocol : Protocol V) (calls : Nat → ClientCall V) (s : Threads V) (move : Move V) (patient : move ≠ .giveUp caller)
    (awaiting : s.Awaiting caller) : (s.step protocol calls move).2.Awaiting caller := by
  intro errand under
  by_cases mine : move.caller = some caller
  · cases move with
    | complete call outcome => exact awaiting errand under
    | giveUp other =>
      cases mine
      exact absurd rfl patient
    | send other =>
      cases mine
      simp only [step] at under
      split at under
      · simp only [carry,Function.update_self] at under
        cases under
        rfl
      · exact awaiting errand under
      · exact awaiting errand under
    | check other now =>
      cases mine
      simp only [step] at under
      split at under
      · rename_i here
        have kept := awaiting _ here
        simp only [carry,Function.update_self] at under
        cases under
        exact kept
      · exact awaiting errand under
    | cleanUp other moments =>
      cases mine
      simp only [step] at under
      split at under
      · rename_i here
        have kept := awaiting _ here
        simp only [carry,Function.update_self] at under
        cases under
        exact kept
      · exact awaiting errand under
    | handle other moments =>
      cases mine
      simp only [step] at under
      split at under
      · rename_i here
        have kept := awaiting _ here
        simp only [handled,Function.update_self] at under
        rw [if_pos kept] at under
        cases under
        exact kept
      · exact awaiting errand under
    | receive other =>
      cases mine
      simp only [step] at under
      split at under
      · simp only [carry,Function.update_self] at under
        cases under
      · exact awaiting errand under
  · rw [(step_others calls protocol s move mine).1] at under
    exact awaiting errand under

omit [LawfulAnyValue V] [LawfulCodec V] [LawfulAssign V] in
theorem tell_carries (calls : Nat → ClientCall V) (s : Threads V) (move : Move V) (later : List (Move V))
    (patient : ∀ other ∈ move :: later, other ≠ .giveUp caller) (awaiting : s.Awaiting caller) :
    ∀ happening ∈ s.tell calls move later, happening.carries caller := by
  intro happening member
  cases move with
  | complete call outcome =>
    cases List.mem_singleton.mp member
    trivial
  | send other =>
    simp only [tell] at member
    split at member
    · cases List.mem_singleton.mp member
      exact fun _ => rfl
    · cases member
  | cleanUp other moments =>
    simp only [tell] at member
    split at member
    · cases List.mem_singleton.mp member
      trivial
    · cases member
  | handle other moments =>
    simp only [tell] at member
    split at member
    · rename_i here
      cases List.mem_singleton.mp member
      intro mine
      subst mine
      rw [if_pos (awaiting _ here)]
      exact fate_patient fun move known => patient move (List.mem_cons_of_mem _ known)
    · cases member
  | check other now => cases member
  | giveUp other => cases member
  | receive other => cases member

theorem threads_safe (protocol : Protocol V) (calls : Nat → ClientCall V)
    (supported : ∀ caller, isSupportedPayloadEncoding (calls caller).config.encoding = true)
    (expirationTimeNs cleanupNs : UInt64) (moves : List (Move V))
    (within : (after protocol calls expirationTimeNs cleanupNs moves).observed.Within) :
    Safe protocol calls expirationTimeNs moves
      (after protocol calls expirationTimeNs cleanupNs moves) := by
  have initially : (start expirationTimeNs cleanupNs calls).Sound calls := nofun
  have sound : (after protocol calls expirationTimeNs cleanupNs moves).Sound calls :=
    run_preserves (step_sound protocol) initially moves
  have told := after_told protocol calls expirationTimeNs cleanupNs moves
  have safe : Shared.Safe protocol calls
      ((after protocol calls expirationTimeNs cleanupNs moves).atomic calls []) := by
    rw [← told]
    refine (Shared.after_sound protocol supported _ ?_).safe
    rw [told]
    exact within
  refine ⟨safe.launched,safe.once,?_,?_⟩
  · intro caller invoked done
    rcases returned_cases sound done with given | ⟨_,rfl⟩
    · exact (safe.ends caller invoked given).later (observed_later calls _)
    · exact .failed .clientTransportException (List.mem_cons_self ..)
  · intro caller patient unexpired invoked done
    have idle : (start expirationTimeNs cleanupNs calls).Awaiting caller := nofun
    rcases returned_cases sound done with given | ⟨⟨errand,under,left⟩,_⟩
    · have carried := foretold_all (step_awaiting protocol calls) (tell_carries calls) idle moves patient
      have kept := Shared.after_kept supported _ carried
        (by rw [told]; exact ⟨unexpired.within,unexpired.alive⟩)
      rw [told] at kept
      exact (kept.answered invoked given).later (observed_later calls _)
    · have awaited := run_permitted (step_awaiting protocol calls) idle moves patient errand under
      rw [left] at awaited
      cases awaited

end Safety

-- One caller is served, one loses the reply to its request, and the request of a
-- third is handled only after that caller has gone.
def overlapping : List (Move Reference.Value) :=
  [.send 0,.send 1,.send 2,.check 0 10,.check 1 11,.giveUp 2,.handle 1 (instant 11),.check 2 12,
   .cleanUp 0 (instant 12),.handle 0 (instant 12),.receive 0,.giveUp 1,.handle 2 (instant 13),
   .complete 1 (.ok (.success,.string "done")),.send 0,.check 0 14,.cleanUp 0 (instant 14),
   .handle 0 (instant 14),.receive 0,.send 0,.check 0 15,.cleanUp 0 (instant 15),.handle 0 (instant 15),
   .receive 0]

def overlapped : Threads Reference.Value :=
  after ⟨fun _ _ => .ok (.success,.empty),fun _ _ => .ok (.success,.empty)⟩ Shared.threeCallers 10 5
    overlapping

theorem threads_safe_overlapping : overlapped.launchedBy = [1,0,2] ∧
    Safe ⟨fun _ _ => .ok (.success,.empty),fun _ _ => .ok (.success,.empty)⟩ Shared.threeCallers 10
      overlapping overlapped :=
  ⟨by decide,threads_safe _ Shared.threeCallers (fun _ => rfl) 10 5 overlapping (by decide)⟩

end Threads

end SupProtocol
