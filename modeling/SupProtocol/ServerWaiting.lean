import SupProtocol.ServerDelivery

namespace SupProtocol
open Machine

variable {V : Type}

-- The functions of the server once more, with the two things in them that can make
-- a thread wait under the mutex: `none` is a thread that waits for a running call.
namespace Blocking

def get (calls : Calls V) (call : Nat) : Option (Outcome V) := Tasks.outcomeOf calls call

-- The destructor of an entry: a future from std::async waits there for its call,
-- one whose value was moved out has nothing to wait for.
def destroy (calls : Calls V) (invoke : AsyncInvoke) : Option Unit :=
  match invoke.future with
  | none => some ()
  | some call => if Tasks.isReady calls call then some () else none

def erase (server : AsyncInvokeServer V) (id : UInt64) : Option (AsyncInvokeServer V) :=
  match server.invokes[id]? with
  | none => some (server.erase id)
  | some invoke => do
    destroy server.calls invoke
    return server.erase id

section Entries
variable [AnyValue V]

def getReplyOf (invoke : AsyncInvoke) (calls : Calls V) :
    Option ((ProtocolResult × V) × AsyncInvoke × List Access) :=
  let failure := ((.invalidAsynchronousOperationError,empty),invoke,[])
  match invoke.future with
  | none => some failure
  | some call =>
    if !Tasks.isReady calls call || invoke.invalidated then some failure
    else do
      let outcome ← get calls call
      return (AsyncInvoke.settled outcome,{invoke with future := none},[.retrieved call])

end Entries

def removeIfReady (server : AsyncInvokeServer V) (id : UInt64) (invoke : AsyncInvoke)
    (moment : Moment V) : Option (AsyncInvokeServer V × List Effect) :=
  let server := server.observe moment
  let (removable,seen) := invoke.isReadyForRemoval server.calls moment.now
  if removable then do
    let server ← erase server id
    return (server,seen.map (.on id) ++ [.erased id])
  else return (server,seen.map (.on id))

def cleanUpFrom (moments : Nat → Moment V) : Nat → List UInt64 → AsyncInvokeServer V →
    Option (AsyncInvokeServer V × List Effect)
  | _,[],server => return (server,[])
  | k,id :: ids,server =>
    match server.invokes[id]? with
    | none => cleanUpFrom moments k ids server
    | some invoke => do
      let (server,first) ← removeIfReady server id invoke (moments k)
      let (server,rest) ← cleanUpFrom moments (k+1) ids server
      return (server,first ++ rest)

variable [AnyValue V] [Codec V]

def getReply (server : AsyncInvokeServer V) (id : UInt64) (encoding : PayloadEncoding)
    (moments : Nat → Moment V) : Option (Answer V × AsyncInvokeServer V) :=
  match server.invokes[id]? with
  | none => return (⟨createAsyncRPCStatusReply .invalidRequestIdentifierError .kGetReply,[]⟩,server)
  | some invoke => do
    let server := server.observe (moments 0)
    let (reply,invoke,access) ← getReplyOf invoke server.calls
    let (server,removal) ← removeIfReady (server.store id invoke) id invoke (moments 1)
    return (⟨createAsyncRPCReply reply.1 reply.2 encoding .kGetReply,access.map (.on id) ++ removal⟩,
      server)

def invalidate (server : AsyncInvokeServer V) (id : UInt64) (moments : Nat → Moment V) :
    Option (Answer V × AsyncInvokeServer V) :=
  match server.invokes[id]? with
  | none => return (⟨createAsyncRPCStatusReply .invalidRequestIdentifierError .kInvalidate,[]⟩,server)
  | some invoke => do
    let invoke := invoke.invalidate
    let (server,removal) ← removeIfReady (server.store id invoke) id invoke (moments 0)
    return (⟨createAsyncRPCStatusReply .success .kInvalidate,.on id .invalidated :: removal⟩,server)

-- NewRequest and Poll neither take a value nor remove an entry.
def handleInvoke (server : AsyncInvokeServer V) (payload : V) (encoding : PayloadEncoding)
    (command : AsyncCommand) (moments : Nat → Moment V) : Option (Answer V × AsyncInvokeServer V) :=
  if command = .kInitialRequest then return server.newRequest payload encoding moments
  else
    match extractAsyncRequestId payload with
    | none => return (⟨createAsyncRPCStatusReply .serverTransportDecodingError command,[]⟩,server)
    | some id =>
      if command = .kPoll then return server.poll id encoding moments
      else if command = .kGetReply then getReply server id encoding moments
      else if command = .kInvalidate then invalidate server id moments
      else return (⟨createAsyncRPCStatusReply .invalidAsynchronousOperationError command,[]⟩,server)

def step (server : AsyncInvokeServer V) : Event V → Option (Output V × AsyncInvokeServer V)
  | .handleInvoke payload encoding command moments => do
    let (answer,server) ← handleInvoke server payload encoding command moments
    return (answer.output,server)
  | .cleanUpExpiredRequests moments => do
    let (server,effects) ← cleanUpFrom moments 0 server.invokes.keys server
    return (⟨none,effects⟩,server)
  | .complete call outcome =>
    return (⟨none,[]⟩,{server with calls := Tasks.finish server.calls call outcome})

section Unblocked
variable {s : AsyncInvokeServer V} {id : UInt64} {invoke : AsyncInvoke}

omit [AnyValue V] [Codec V] in
theorem destroy_ended {calls : Calls V}
    (ended : ∀ call, invoke.future = some call → Tasks.isReady calls call = true) :
    destroy calls invoke = some () := by
  unfold destroy
  cases held : invoke.future with
  | none => rfl
  | some call => exact if_pos (ended call held)

omit [AnyValue V] [Codec V] in
theorem erase_ended (found : s.invokes[id]? = some invoke)
    (ended : ∀ call, invoke.future = some call → Tasks.isReady s.calls call = true) :
    erase s id = some (s.erase id) := by
  simp only [erase,found,destroy_ended ended]
  rfl

omit [AnyValue V] [Codec V] in
theorem removable_ended {calls : Calls V} {now : UInt64}
    (removable : (invoke.isReadyForRemoval calls now).1 = true) :
    ∀ call, invoke.future = some call → Tasks.isReady calls call = true := by
  intro call held
  rw [AsyncInvoke.removable_held held] at removable
  exact (Bool.and_eq_true_iff.mp removable).1

omit [AnyValue V] [Codec V] in
theorem removeIfReady_unblocked (found : s.invokes[id]? = some invoke) (moment : Moment V) :
    removeIfReady s id invoke moment = some (s.removeIfReady id invoke moment) := by
  have here : (s.observe moment).invokes[id]? = some invoke := found
  unfold removeIfReady AsyncInvokeServer.removeIfReady
  dsimp only
  split
  · rename_i removable
    rw [erase_ended here (removable_ended removable)]
    rfl
  · rfl

omit [AnyValue V] [Codec V] in
theorem cleanUpFrom_unblocked (moments : Nat → Moment V) (ids : List UInt64) :
    ∀ (k : Nat) (s : AsyncInvokeServer V),
      cleanUpFrom moments k ids s = some (AsyncInvokeServer.cleanUpFrom moments k ids s) := by
  induction ids with
  | nil => exact fun _ _ => rfl
  | cons id ids ih =>
    intro k s
    unfold cleanUpFrom AsyncInvokeServer.cleanUpFrom
    cases found : s.invokes[id]? with
    | none => exact ih k s
    | some invoke =>
      simp only [removeIfReady_unblocked found (moments k),ih (k+1)]
      rfl

omit [Codec V] in
theorem getReplyOf_unblocked (invoke : AsyncInvoke) (calls : Calls V) :
    getReplyOf invoke calls = some (invoke.getReply calls) := by
  unfold getReplyOf AsyncInvoke.getReply get
  cases invoke.future with
  | none => rfl
  | some call =>
    dsimp only
    cases ended : Tasks.outcomeOf calls call with
    | none =>
      have running : Tasks.isReady calls call = false := by simp [Tasks.isReady,ended]
      simp [running]
    | some outcome =>
      have ready : Tasks.isReady calls call = true := by simp [Tasks.isReady,ended]
      cases invoke.invalidated <;> simp [ready]

theorem getReply_unblocked (s : AsyncInvokeServer V) (id : UInt64) (encoding : PayloadEncoding)
    (moments : Nat → Moment V) : getReply s id encoding moments = some (s.getReply id encoding moments) := by
  unfold getReply AsyncInvokeServer.getReply
  cases s.invokes[id]? with
  | none => rfl
  | some invoke =>
    have kept (server : AsyncInvokeServer V) (entry : AsyncInvoke) :
        (server.store id entry).invokes[id]? = some entry := by simp
    simp only [getReplyOf_unblocked,Option.bind_eq_bind,Option.bind_some,
      removeIfReady_unblocked (kept _ _)]
    rfl

theorem invalidate_unblocked (s : AsyncInvokeServer V) (id : UInt64) (moments : Nat → Moment V) :
    invalidate s id moments = some (s.invalidate id moments) := by
  unfold invalidate AsyncInvokeServer.invalidate
  cases s.invokes[id]? with
  | none => rfl
  | some invoke =>
    have kept : (s.store id invoke.invalidate).invokes[id]? = some invoke.invalidate := by simp
    simp only [removeIfReady_unblocked kept]
    rfl

theorem handleInvoke_unblocked (s : AsyncInvokeServer V) (payload : V) (encoding : PayloadEncoding)
    (command : AsyncCommand) (moments : Nat → Moment V) :
    handleInvoke s payload encoding command moments =
      some (s.handleInvoke payload encoding command moments) := by
  unfold handleInvoke AsyncInvokeServer.handleInvoke
  split
  · rfl
  · cases extractAsyncRequestId payload with
    | none => rfl
    | some id =>
      dsimp only
      split
      · rfl
      · split
        · exact getReply_unblocked s id encoding moments
        · split
          · exact invalidate_unblocked s id moments
          · rfl

theorem step_unblocked (s : AsyncInvokeServer V) (event : Event V) : step s event = some (s.step event) := by
  cases event with
  | complete call outcome => rfl
  | cleanUpExpiredRequests moments =>
    simp only [step,cleanUpFrom_unblocked]
    rfl
  | handleInvoke payload encoding command moments =>
    simp only [step,handleInvoke_unblocked]
    rfl

end Unblocked

end Blocking

namespace AsyncInvokeServer

-- Nobody waits for a running call, and its entry stays in the table whatever else
-- is known of it. The last part is about emplace, which would drop the new entry,
-- and wait for its call, if its id were still in use.
structure NeverWaits [AnyValue V] [Codec V] (records : List (Handled V)) : Prop where
  unblocked : ∀ r ∈ records, Blocking.step r.before r.event = some (r.output,r.after)
  erased : ∀ r ∈ records, ∀ key : UInt64, .erased key ∈ r.output.effects →
    ∃ invoke : AsyncInvoke, r.before.invokes[key]? = some invoke ∧
      ∀ call, invoke.future = some call → Tasks.isReady r.after.calls call = true
  stays : ∀ r ∈ records, ∀ (key : UInt64) (invoke : AsyncInvoke) call,
    r.before.invokes[key]? = some invoke → invoke.future = some call →
    Tasks.isReady r.after.calls call = false →
    ∃ kept : AsyncInvoke, r.after.invokes[key]? = some kept ∧ kept.future = some call
  launched : records.countP (·.event.isInitialRequest) < UInt64.size → ∀ r ∈ records,
    ∀ (key : UInt64) call now, .launched key call now ∈ r.output.effects →
    ∃ invoke : AsyncInvoke, r.after.invokes[key]? = some invoke ∧ invoke.future = some call

section Entries
variable {s t : AsyncInvokeServer V} {labels : List Effect} {key : UInt64} {invoke : AsyncInvoke} {call : Nat}

theorem transition_running (step : Transition s labels t) (found : s.invokes[key]? = some invoke)
    (held : invoke.future = some call) (running : Tasks.isReady s.calls call = false) :
    ∃ kept : AsyncInvoke, t.invokes[key]? = some kept ∧ kept.future = some call := by
  -- The only entries that go are those of calls that have ended.
  have other {k : UInt64} {entry : AsyncInvoke} (here : s.invokes[k]? = some entry)
      (ended : ∀ call, entry.future = some call → Tasks.isReady s.calls call = true) : k ≠ key := by
    intro same
    subst same
    cases found.symm.trans here
    cases running.symm.trans (ended call held)
  have changed {k : UInt64} {entry : AsyncInvoke} (here : s.invokes[k]? = some entry)
      {next : AsyncInvoke} (same : next.future = entry.future) :
      ∃ kept : AsyncInvoke, (s.store k next).invokes[key]? = some kept ∧ kept.future = some call := by
    rw [store_lookup]
    split
    · rename_i equal
      subst equal
      cases found.symm.trans here
      exact ⟨next,rfl,same.trans held⟩
    · exact ⟨invoke,found,held⟩
  cases step with
  | complete completions => exact ⟨invoke,found,held⟩
  | examine here now => exact ⟨invoke,found,held⟩
  | rewrite here => exact changed here rfl
  | access here now => exact changed here rfl
  | invalidate here => exact changed here rfl
  | launch payload now =>
    refine ⟨invoke,?_,held⟩
    rw [emplace_lookup,if_neg]
    · exact found
    · intro ⟨same,absent⟩
      rw [same] at absent
      cases absent.symm.trans found
  | erase here now removable =>
    refine ⟨invoke,?_,held⟩
    rw [erase_lookup,if_neg (other here (Blocking.removable_ended removable))]
    exact found
  | @retrieve _ taken k entry here mine ended wanted =>
    have apart : k ≠ key := by
      refine other here ?_
      intro call same
      cases mine.symm.trans same
      exact ended
    refine ⟨invoke,?_,held⟩
    rw [erase_lookup,if_neg apart,store_lookup,if_neg apart]
    exact found

theorem path_running (path : Path Transition s labels t) (found : s.invokes[key]? = some invoke)
    (held : invoke.future = some call) (running : Tasks.isReady t.calls call = false) :
    ∃ kept : AsyncInvoke, t.invokes[key]? = some kept ∧ kept.future = some call := by
  induction path generalizing invoke with
  | nil => exact ⟨invoke,found,held⟩
  | cons first rest ih =>
    have whole := (transition_calls first).trans (path_calls rest)
    have before := Bool.eq_false_iff.mpr fun ready =>
      Bool.eq_false_iff.mp running (whole.isReady ready)
    obtain ⟨kept,here,same⟩ := transition_running first found held before
    exact ih here same running

theorem transition_ended (step : Transition s labels t) (erased : .erased key ∈ labels) :
    ∃ invoke : AsyncInvoke, s.invokes[key]? = some invoke ∧
      ∀ call, invoke.future = some call → Tasks.isReady s.calls call = true := by
  cases step with
  | complete completions => cases erased
  | launch payload now => cases List.mem_singleton.mp erased
  | examine found now =>
    obtain ⟨_,other⟩ := examined_effects _ _ erased
    cases other
  | rewrite found => cases erased
  | access found now => cases List.mem_singleton.mp erased
  | invalidate found => cases List.mem_singleton.mp erased
  | erase found now removable =>
    rcases List.mem_append.mp erased with seen | gone
    · obtain ⟨_,other⟩ := examined_effects _ _ seen
      cases other
    · cases List.mem_singleton.mp gone
      exact ⟨_,found,Blocking.removable_ended removable⟩
  | @retrieve _ taken k entry found held ended wanted =>
    have same : key = k := by simpa using erased
    subst same
    refine ⟨entry,found,?_⟩
    intro call here
    cases held.symm.trans here
    exact ended

theorem transition_origin (step : Transition s labels t)
    (unlaunched : ∀ key call now, .launched key call now ∉ labels) :
    t.Entries fun key invoke => ∃ old : AsyncInvoke, s.invokes[key]? = some old ∧
      old.future = invoke.future := by
  refine transition_entries (P := fun key invoke => ∃ old : AsyncInvoke, s.invokes[key]? = some old ∧
    old.future = invoke.future) step ?_ (fun _ _ origin => origin) ?_ ?_ ?_
  · exact fun key invoke here => ⟨invoke,here,rfl⟩
  · intro now launched _
    exact absurd launched (unlaunched _ _ _)
  · exact fun _ _ _ _ origin => origin
  · exact fun _ _ _ origin => origin

theorem path_ended (path : Path Transition s labels t)
    (unlaunched : ∀ key call now, .launched key call now ∉ labels) (erased : .erased key ∈ labels) :
    ∃ invoke : AsyncInvoke, s.invokes[key]? = some invoke ∧
      ∀ call, invoke.future = some call → Tasks.isReady t.calls call = true := by
  induction path with
  | nil => cases erased
  | cons first rest ih =>
    rcases List.mem_append.mp erased with here | later
    · obtain ⟨invoke,found,ended⟩ := transition_ended first here
      refine ⟨invoke,found,?_⟩
      intro call held
      exact ((transition_calls first).trans (path_calls rest)).isReady (ended call held)
    · obtain ⟨invoke,found,ended⟩ :=
        ih (fun k call now member => unlaunched k call now (List.mem_append_right _ member)) later
      obtain ⟨old,here,same⟩ := transition_origin first
        (fun k call now member => unlaunched k call now (List.mem_append_left _ member)) _ _ found
      exact ⟨old,here,fun call held => ended call (same.symm.trans held)⟩

end Entries

section Runs
variable [AnyValue V] [Codec V]

theorem launched_alone (s : AsyncInvokeServer V) (event : Event V) {key now : UInt64} {call : Nat}
    (launched : .launched key call now ∈ (s.step event).1.effects) :
    ∃ payload encoding moments, event = .handleInvoke payload encoding .kInitialRequest moments ∧
      (s.step event).1.effects = [.launched (s.lastId+1) s.calls.length (moments 0).now] := by
  have initial : event.isInitialRequest = true := step_source s event _ launched
  cases event with
  | complete call outcome => cases initial
  | cleanUpExpiredRequests moments => cases initial
  | handleInvoke payload encoding command moments =>
    have same : command = .kInitialRequest := by simpa [Event.isInitialRequest] using initial
    subst same
    refine ⟨payload,encoding,moments,rfl,?_⟩
    rw [step_handleInvoke,output_effects,handleInvoke_newRequest,newRequest_effects]

theorem step_ended (s : AsyncInvokeServer V) (event : Event V) (key : UInt64)
    (erased : .erased key ∈ (s.step event).1.effects) :
    ∃ invoke : AsyncInvoke, s.invokes[key]? = some invoke ∧
      ∀ call, invoke.future = some call → Tasks.isReady (s.step event).2.calls call = true := by
  refine path_ended (step_path s event) ?_ erased
  intro k call now launched
  obtain ⟨_,_,_,_,alone⟩ := launched_alone s event launched
  rw [alone] at erased
  cases List.mem_singleton.mp erased

-- While the counter has not come around, emplace finds the next id free.
theorem step_launched {s : AsyncInvokeServer V} (numbered : Numbered s) (event : Event V)
    (below : s.calls.length + 1 < UInt64.size) {key now : UInt64} {call : Nat}
    (launched : .launched key call now ∈ (s.step event).1.effects) :
    ∃ invoke : AsyncInvoke, (s.step event).2.invokes[key]? = some invoke ∧ invoke.future = some call := by
  obtain ⟨payload,encoding,moments,rfl,alone⟩ := launched_alone s event launched
  rw [alone] at launched
  cases List.mem_singleton.mp launched
  have number := next_toNat numbered.counter below
  have free : s.invokes[s.lastId+1]? = none := by
    cases found : s.invokes[s.lastId+1]? with
    | none => rfl
    | some invoke =>
      obtain ⟨k,_,same,within⟩ := numbered.entries _ _ found
      omega
  refine ⟨⟨some s.calls.length,false,(moments 0).now,s.expirationTimeNs⟩,?_,rfl⟩
  rw [step_handleInvoke,handleInvoke_newRequest]
  simp only [newRequest,emplace_lookup]
  rw [if_pos ⟨trivial,free⟩]
  simp [observe,Tasks.length_finishAll]

theorem never_waits (expirationTimeNs : UInt64) (events : List (Event V)) :
    NeverWaits (handled expirationTimeNs events) := by
  refine ⟨?_,?_,?_,?_⟩
  · intro r known
    obtain ⟨before,event,_,_,rfl⟩ := history_member known
    exact Blocking.step_unblocked _ event
  · intro r known key erased
    obtain ⟨before,event,_,_,rfl⟩ := history_member known
    exact step_ended _ event key erased
  · intro r known key invoke call found held running
    obtain ⟨before,event,_,_,rfl⟩ := history_member known
    exact path_running (step_path _ event) found held running
  · intro few r known key call now launched
    obtain ⟨before,event,after,parts,rfl⟩ := history_member known
    have bounded : events.countP Event.isInitialRequest < UInt64.size := by
      have all : (handled expirationTimeNs events).map (·.event) = events := history_events _ events
      have same := congrArg (List.countP Event.isInitialRequest) all
      rw [List.countP_map] at same
      rw [← same]
      exact few
    obtain ⟨_,_,_,initial,_⟩ := launched_alone _ event launched
    have upTo := countP_upTo parts
    have one : (before ++ [event]).countP Event.isInitialRequest =
        before.countP Event.isInitialRequest + 1 := by
      rw [initial]
      simp [List.countP_append,Event.isInitialRequest]
    have count := reached_count expirationTimeNs before
    have numbered := reached_numbered expirationTimeNs before (by omega)
    have below : (reached expirationTimeNs before).calls.length + 1 < UInt64.size := by omega
    exact step_launched numbered event below launched

end Runs

end AsyncInvokeServer

end SupProtocol
