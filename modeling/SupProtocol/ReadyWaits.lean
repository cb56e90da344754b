import SupProtocol.ServerInterference

namespace SupProtocol
open Machine

variable {V : Type}

-- What reaches the server from inside of its own process: the events from before
-- and calls of WaitForReady. A moment of a wait says which calls have ended by the
-- time it returns, and what its one reading of the clock shows.
inductive Use (V : Type) where
  | ofEvent (event : Event V)
  | waitForReady (id : UInt64) (moment : Moment V)

def Use.isInitialRequest : Use V → Bool
  | .ofEvent event => event.isInitialRequest
  | .waitForReady _ _ => false

def Use.spares [AnyValue V] (key : UInt64) : Use V → Prop
  | .ofEvent event => event.spares key
  | .waitForReady _ _ => True

structure Response (V : Type) where
  ready : Option Bool
  output : Output V

namespace AsyncInvokeServer

def waitForReady (server : AsyncInvokeServer V) (id : UInt64) (moment : Moment V) :
    (Bool × List Effect) × AsyncInvokeServer V :=
  match server.invokes[id]? with
  | none => ((false,[]),server)
  | some invoke =>
    let server := server.observe moment
    let (isReady,invoke,access) := invoke.isReady server.calls moment.now
    ((isReady,access.map (.on id)),server.store id invoke)

abbrev Used (V : Type) := Record (AsyncInvokeServer V) (Use V) (Response V)

def Used.effects (r : Used V) : List Effect := r.output.output.effects

def doneBy (records : List (Used V)) : List Effect := records.flatMap Used.effects

-- A request whose reply can still be fetched when these effects are all there were.
structure Outstanding (key : UInt64) (call : Nat) (log : List Effect) : Prop where
  launched : ∃ now, .launched key call now ∈ log
  valid : .on key .invalidated ∉ log
  left : .erased key ∉ log

section Waiting
variable [AnyValue V] [Codec V]

def stepUse (server : AsyncInvokeServer V) : Use V → Response V × AsyncInvokeServer V
  | .ofEvent event =>
    let (output,server) := server.step event
    (⟨none,output⟩,server)
  | .waitForReady id moment =>
    let ((isReady,effects),server) := server.waitForReady id moment
    (⟨some isReady,⟨none,effects⟩⟩,server)

structure WaitsKept (expirationTimeNs : UInt64) (records : List (Used V)) : Prop where
  exact : ∀ earlier wait later key moment, records = earlier ++ wait :: later →
    wait.event = .waitForReady key moment →
    (wait.output.ready = some true ↔
      ∃ call, Outstanding key call (doneBy earlier) ∧ Tasks.isReady wait.after.calls call = true)
  fetched : ∀ earlier wait between last later key moment payload encoding moments,
    records = earlier ++ wait :: (between ++ last :: later) →
    wait.event = .waitForReady key moment → wait.output.ready = some true →
    last.event = .ofEvent (.handleInvoke payload encoding .kGetReply moments) →
    extractAsyncRequestId payload = some key → (∀ r ∈ between, r.event.spares key) →
    KeptAlive expirationTimeNs key (doneBy (wait :: between)) →
    ∃ call outcome, Outstanding key call (doneBy earlier) ∧
      Tasks.outcomeOf wait.after.calls call = some outcome ∧
      last.output.output.reply = some (createAsyncRPCReply (AsyncInvoke.settled outcome).1
        (AsyncInvoke.settled outcome).2 encoding .kGetReply)
  announced : ∀ earlier wait between last later key moment payload encoding moments,
    records = earlier ++ wait :: (between ++ last :: later) →
    wait.event = .waitForReady key moment → wait.output.ready = some true →
    last.event = .ofEvent (.handleInvoke payload encoding .kPoll moments) →
    extractAsyncRequestId payload = some key → (∀ r ∈ between, r.event.spares key) →
    KeptAlive expirationTimeNs key (doneBy (wait :: (between ++ [last]))) →
    last.output.output.reply = some (createAsyncRPCPollReply true encoding)
  once : ∀ key, (doneBy records).countP (Effect.retrieves key) ≤ 1

end Waiting

section Entries
variable {s t : AsyncInvokeServer V} {labels : List Effect} {key now : UInt64} {call : Nat}

-- What a step that had this effect found and what it left.
def Leaves (s t : AsyncInvokeServer V) : Effect → Prop
  | .launched key call _ =>
    key = s.lastId + 1 ∧ call = s.calls.length ∧ t.calls.length = s.calls.length + 1
  | .on key .invalidated => (∃ invoke : AsyncInvoke, s.invokes[key]? = some invoke) ∧
      t.Entries fun k invoke => k = key → invoke.invalidated = true
  | .on _ _ => True
  | .erased key => (∃ invoke : AsyncInvoke, s.invokes[key]? = some invoke) ∧ t.invokes[key]? = none

theorem transition_leaves (step : Transition s labels t) : ∀ effect ∈ labels, Leaves s t effect := by
  have examined {k : UInt64} {invoke : AsyncInvoke} {now : UInt64} (effect : Effect)
      (member : effect ∈ (invoke.isReadyForRemoval s.calls now).2.map (.on k)) : Leaves s t effect := by
    obtain ⟨_,rfl⟩ := examined_effects _ _ member
    trivial
  cases step with
  | complete completions => nofun
  | rewrite found => nofun
  | examine found now => exact examined
  | access found now => exact List.forall_mem_singleton.mpr trivial
  | launch payload now => exact List.forall_mem_singleton.mpr ⟨rfl,rfl,by simp [emplace,Tasks.launch]⟩
  | erase found now removable =>
    rename_i k invoke
    refine List.forall_mem_append.mpr ⟨examined,List.forall_mem_singleton.mpr ⟨⟨invoke,found⟩,?_⟩⟩
    rw [erase_lookup,if_pos rfl]
  | retrieve found held ended wanted =>
    rename_i call k invoke
    refine List.forall_mem_cons.mpr ⟨trivial,List.forall_mem_singleton.mpr ⟨⟨invoke,found⟩,?_⟩⟩
    rw [erase_lookup,if_pos rfl]
  | invalidate found =>
    rename_i k invoke
    refine List.forall_mem_singleton.mpr ⟨⟨invoke,found⟩,?_⟩
    rintro _ entry here rfl
    rw [store_lookup,if_pos rfl] at here
    cases here
    rfl

structure Chronicle (log : List Effect) (s : AsyncInvokeServer V) : Prop where
  numbered : Numbered s
  numbers : ∀ key call now, .launched key call now ∈ log → call + 1 = key.toNat
  present : ∀ key call now, .launched key call now ∈ log →
    .erased key ∈ log ∨ ∃ invoke : AsyncInvoke, s.invokes[key]? = some invoke
  origin : s.Entries fun key invoke => ∃ call now, invoke.future = some call ∧
    .launched key call now ∈ log
  gone : ∀ key, .erased key ∈ log → Settled key (fun _ => False) s
  marked : ∀ key, .on key .invalidated ∈ log → Settled key (fun invoke => invoke.invalidated = true) s
  wanted : ∀ key, .on key .invalidated ∉ log →
    s.Entries fun k invoke => k = key → invoke.invalidated = false

theorem start_chronicle (expirationTimeNs : UInt64) :
    Chronicle [] (start expirationTimeNs : AsyncInvokeServer V) :=
  ⟨start_numbered _,nofun,nofun,start_entries _ _,nofun,nofun,fun _ _ => start_entries _ _⟩

theorem transition_chronicle {log : List Effect} (chronicle : Chronicle log s)
    (step : Transition s labels t) (below : t.calls.length < UInt64.size) :
    Chronicle (log ++ labels) t := by
  have counter := chronicle.numbered.counter
  have longer := calls_grow s labels t step
  refine ⟨transition_numbered s labels t chronicle.numbered ⟨step,below⟩,?_,?_,?_,?_,?_,?_⟩
  · intro key call now launched
    rcases List.mem_append.mp launched with old | new
    · exact chronicle.numbers key call now old
    · obtain ⟨rfl,rfl,grown⟩ := transition_leaves step _ new
      exact (next_toNat counter (by omega)).symm
  · intro key call now launched
    rcases List.mem_append.mp launched with old | new
    · rcases chronicle.present key call now old with erased | ⟨invoke,here⟩
      · exact Or.inl (List.mem_append_left _ erased)
      · rcases transition_present step here with kept | erased
        · exact Or.inr kept
        · exact Or.inl (List.mem_append_right _ erased)
    · exact Or.inr (transition_launched step new)
  · refine transition_entries step chronicle.origin ?_ ?_ ?_ ?_
    · rintro key invoke ⟨call,now,held,old⟩
      exact ⟨call,now,held,List.mem_append_left _ old⟩
    · intro now launched _
      exact ⟨_,now,rfl,List.mem_append_right _ launched⟩
    · rintro key invoke _ _ ⟨call,now,held,old⟩
      exact ⟨call,now,held,List.mem_append_left _ old⟩
    · rintro key invoke _ ⟨call,now,held,old⟩
      exact ⟨call,now,held,List.mem_append_left _ old⟩
  · intro key erased
    rcases List.mem_append.mp erased with old | new
    · exact transition_settled (fun _ _ none => none) (fun _ none => none) counter below
        (chronicle.gone key old) step
    · obtain ⟨⟨invoke,found⟩,absent⟩ := transition_leaves step _ new
      exact absent_settled (Nat.le_trans (found_old chronicle.numbered found) longer) absent
  · intro key marked
    rcases List.mem_append.mp marked with old | new
    · exact transition_settled (fun _ _ unwanted => unwanted) (fun _ _ => rfl) counter below
        (chronicle.marked key old) step
    · obtain ⟨⟨invoke,found⟩,unwanted⟩ := transition_leaves step _ new
      exact ⟨Nat.le_trans (found_old chronicle.numbered found) longer,unwanted⟩
  · intro key alive
    exact transition_wanted step (fun member => alive (List.mem_append_right _ member))
      (chronicle.wanted key fun member => alive (List.mem_append_left _ member))

theorem path_chronicle {log : List Effect} (path : Path Transition s labels t)
    (below : t.calls.length < UInt64.size) (chronicle : Chronicle log s) : Chronicle (log ++ labels) t :=
  (path.restrict calls_grow below).accumulates
    (fun _ _ _ _ known step => transition_chronicle known step.1 step.2) chronicle

theorem Chronicle.outstanding {log : List Effect} (chronicle : Chronicle log s) (key : UInt64) (call : Nat) :
    Outstanding key call log ↔ ∃ invoke : AsyncInvoke, s.invokes[key]? = some invoke ∧
      invoke.future = some call ∧ invoke.invalidated = false := by
  constructor
  · rintro ⟨⟨now,launched⟩,valid,left⟩
    rcases chronicle.present key call now launched with erased | ⟨invoke,found⟩
    · exact absurd erased left
    · obtain ⟨other,since,held,known⟩ := chronicle.origin key invoke found
      have same := (chronicle.numbers key call now launched).trans
        (chronicle.numbers key other since known).symm
      have one : other = call := by omega
      exact ⟨invoke,found,one ▸ held,chronicle.wanted key valid key invoke found rfl⟩
  · rintro ⟨invoke,found,held,wanted⟩
    obtain ⟨other,now,same,launched⟩ := chronicle.origin key invoke found
    cases held.symm.trans same
    refine ⟨⟨now,launched⟩,?_,?_⟩
    · intro marked
      have unwanted := (chronicle.marked key marked).entry key invoke found rfl
      cases wanted.symm.trans unwanted
    · intro erased
      cases (chronicle.gone key erased).absent.symm.trans found

structure Fresh (expirationTimeNs key : UInt64) (call : Nat) (log : List Effect) (s : AsyncInvokeServer V)
    (invoke : AsyncInvoke) : Prop where
  found : s.invokes[key]? = some invoke
  held : invoke.future = some call
  wanted : invoke.invalidated = false
  timed : invoke.expirationTimeNs = expirationTimeNs
  stamped : invoke.lastAccess ∈ readings log

theorem Fresh.unexpired {expirationTimeNs : UInt64} {log more : List Effect} {invoke : AsyncInvoke}
    (fresh : Fresh expirationTimeNs key call log s invoke)
    (alive : KeptAlive expirationTimeNs key (log ++ more)) {k : Nat}
    (examined : .on key (.examined k invoke.lastAccess now) ∈ more) : invoke.isExpired now = false := by
  have bound := alive.recent k _ now (List.mem_append_right _ examined)
  rw [← fresh.timed] at bound
  exact recent_not_expired (alive.ordered fresh.stamped (reading_member examined rfl)) bound

theorem Fresh.stays {expirationTimeNs : UInt64} {log : List Effect} {invoke : AsyncInvoke}
    (fresh : Fresh expirationTimeNs key call log s invoke) (labels : List Effect)
    (still : t.invokes[key]? = some invoke) : Fresh expirationTimeNs key call (log ++ labels) t invoke := by
  obtain ⟨_,held,wanted,timed,stamped⟩ := fresh
  refine ⟨still,held,wanted,timed,?_⟩
  rw [readings_append]
  exact List.mem_append_left _ stamped

theorem launch_fresh {expirationTimeNs : UInt64} {log : List Effect} {invoke : AsyncInvoke}
    (fresh : Fresh expirationTimeNs key call log s invoke) (id : UInt64) (payload : V) (now : UInt64) :
    ({s with lastId := id}.emplace id payload now).1.invokes[key]? = some invoke := by
  rw [emplace_lookup,if_neg]
  · exact fresh.found
  · rintro ⟨rfl,absent⟩
    cases absent.symm.trans fresh.found

-- An entry that is waited for is not removed before it has expired.
theorem erase_fresh {expirationTimeNs : UInt64} {log : List Effect} {invoke entry : AsyncInvoke} {k : UInt64}
    (fresh : Fresh expirationTimeNs key call log s invoke) (here : s.invokes[k]? = some entry) (now : UInt64)
    (removable : (entry.isReadyForRemoval s.calls now).1 = true)
    (alive : KeptAlive expirationTimeNs key
      (log ++ ((entry.isReadyForRemoval s.calls now).2.map (.on k) ++ [.erased k]))) :
    (s.erase k).invokes[key]? = some invoke := by
  have other : k ≠ key := by
    rintro rfl
    cases here.symm.trans fresh.found
    rw [AsyncInvoke.removable_held fresh.held] at alive removable
    have unexpired := fresh.unexpired alive (List.mem_append_left _ (List.mem_singleton_self _))
    simp [fresh.wanted,unexpired] at removable
  rw [erase_lookup,if_neg other]
  exact fresh.found

theorem rewrite_fresh {expirationTimeNs : UInt64} {log : List Effect} {invoke entry : AsyncInvoke} {k : UInt64}
    (fresh : Fresh expirationTimeNs key call log s invoke) (here : s.invokes[k]? = some entry) :
    (s.store k entry).invokes[key]? = some invoke := by
  rw [store_lookup]
  split
  · rename_i own
    subst own
    exact here ▸ fresh.found
  · exact fresh.found

theorem access_fresh {expirationTimeNs : UInt64} {log : List Effect} {invoke entry : AsyncInvoke} {k : UInt64}
    (fresh : Fresh expirationTimeNs key call log s invoke) (here : s.invokes[k]? = some entry) (now : UInt64) :
    ∃ kept, Fresh expirationTimeNs key call (log ++ [.on k (.accessed now)])
      (s.store k {entry with lastAccess := now}) kept := by
  by_cases own : k = key
  · subst own
    cases here.symm.trans fresh.found
    refine ⟨{invoke with lastAccess := now},by rw [store_lookup,if_pos rfl],fresh.held,fresh.wanted,
      fresh.timed,?_⟩
    exact reading_member (List.mem_append_right _ (List.mem_singleton_self _)) rfl
  · refine ⟨invoke,fresh.stays _ ?_⟩
    rw [store_lookup,if_neg own]
    exact fresh.found

theorem transition_fresh {expirationTimeNs : UInt64} {log : List Effect} {invoke : AsyncInvoke}
    (fresh : Fresh expirationTimeNs key call log s invoke) (step : Transition s labels t)
    (alive : KeptAlive expirationTimeNs key (log ++ labels)) (undisturbed : Undisturbed key labels) :
    ∃ kept, Fresh expirationTimeNs key call (log ++ labels) t kept := by
  cases step with
  | complete completions => exact ⟨invoke,fresh.stays _ fresh.found⟩
  | examine _ now => exact ⟨invoke,fresh.stays _ fresh.found⟩
  | launch payload now => exact ⟨invoke,fresh.stays _ (launch_fresh fresh _ payload now)⟩
  | erase here now removable => exact ⟨invoke,fresh.stays _ (erase_fresh fresh here now removable alive)⟩
  | rewrite here => exact ⟨invoke,fresh.stays _ (rewrite_fresh fresh here)⟩
  | access here now => exact access_fresh fresh here now
  | retrieve here taken ended valid =>
    rename_i other k entry
    have apart : k ≠ key := fun own => undisturbed.untaken other (own ▸ List.mem_cons_self)
    refine ⟨invoke,fresh.stays _ ?_⟩
    rw [erase_lookup,if_neg apart,store_lookup,if_neg apart]
    exact fresh.found
  | invalidate here =>
    rename_i k entry
    have apart : k ≠ key := fun own => undisturbed.alive (own ▸ List.mem_cons_self)
    refine ⟨invoke,fresh.stays _ ?_⟩
    rw [store_lookup,if_neg apart]
    exact fresh.found

theorem Undisturbed.parts {first more : List Effect} (undisturbed : Undisturbed key (first ++ more)) :
    Undisturbed key first ∧ Undisturbed key more :=
  ⟨⟨fun member => undisturbed.alive (List.mem_append_left _ member),
    fun call member => undisturbed.untaken call (List.mem_append_left _ member)⟩,
   ⟨fun member => undisturbed.alive (List.mem_append_right _ member),
    fun call member => undisturbed.untaken call (List.mem_append_right _ member)⟩⟩

theorem path_fresh {expirationTimeNs : UInt64} {log : List Effect} {invoke : AsyncInvoke}
    (path : Path Transition s labels t) (alive : KeptAlive expirationTimeNs key (log ++ labels))
    (undisturbed : Undisturbed key labels) (fresh : Fresh expirationTimeNs key call log s invoke) :
    ∃ kept, Fresh expirationTimeNs key call (log ++ labels) t kept := by
  induction path generalizing log invoke with
  | nil => exact ⟨invoke,by simpa using fresh⟩
  | cons first rest ih =>
    rw [← List.append_assoc] at alive ⊢
    obtain ⟨here,later⟩ := undisturbed.parts
    obtain ⟨middle,held⟩ := transition_fresh fresh first alive.earlier here
    exact ih alive later held

end Entries

section Waits
variable {s : AsyncInvokeServer V} {key : UInt64} {moment : Moment V} {invoke : AsyncInvoke} {call : Nat}

theorem waitForReady_absent (absent : s.invokes[key]? = none) :
    s.waitForReady key moment = ((false,[]),s) := by
  simp only [waitForReady,absent]

theorem waitForReady_path (s : AsyncInvokeServer V) (key : UInt64) (moment : Moment V) :
    Path Transition s (s.waitForReady key moment).1.2 (s.waitForReady key moment).2 := by
  unfold waitForReady
  cases found : s.invokes[key]? with
  | none => exact .nil
  | some invoke =>
    have again : (s.observe moment).invokes[key]? = some invoke := found
    exact (observe_path s moment).append (poll_access again _ _)

theorem waitForReady_effects {effect : Effect} (member : effect ∈ (s.waitForReady key moment).1.2) :
    ∃ now, effect = .on key (.accessed now) := by
  unfold waitForReady at member
  cases found : s.invokes[key]? with
  | none => simp [found] at member
  | some invoke =>
    rcases AsyncInvoke.isReady_cases invoke (s.observe moment).calls moment.now with
      refused | ⟨_,_,_,read⟩
    · simp only [found,refused,List.map_nil] at member
      cases member
    · simp only [found,read,List.map_cons,List.map_nil,List.mem_singleton] at member
      exact ⟨moment.now,member⟩

theorem waitForReady_live (found : s.invokes[key]? = some invoke) (held : invoke.future = some call)
    (wanted : invoke.invalidated = false) : s.waitForReady key moment =
      ((Tasks.isReady (s.observe moment).calls call,[.on key (.accessed moment.now)]),
       (s.observe moment).store key {invoke with lastAccess := moment.now}) := by
  simp only [waitForReady,found,AsyncInvoke.isReady_reads held wanted]
  rfl

theorem waitForReady_exact (stocked : Stocked s) : (s.waitForReady key moment).1.1 = true ↔
    ∃ (invoke : AsyncInvoke) (call : Nat), s.invokes[key]? = some invoke ∧ invoke.future = some call ∧
      invoke.invalidated = false ∧ Tasks.isReady (s.waitForReady key moment).2.calls call = true := by
  constructor
  · intro ready
    cases found : s.invokes[key]? with
    | none => simp [waitForReady_absent found] at ready
    | some invoke =>
      obtain ⟨call,held,_⟩ := stocked key invoke found
      have wanted : invoke.invalidated = false := by
        by_contra given
        have unwanted : invoke.invalidated = true := by simpa using given
        simp [waitForReady,found,AsyncInvoke.isReady,held,unwanted] at ready
      refine ⟨invoke,call,rfl,held,wanted,?_⟩
      rw [waitForReady_live found held wanted] at ready ⊢
      exact ready
  · rintro ⟨invoke,call,found,held,wanted,ended⟩
    rw [waitForReady_live found held wanted] at ended ⊢
    exact ended

variable [AnyValue V] [Codec V]

theorem stepUse_path (s : AsyncInvokeServer V) (asked : Use V) :
    Path Transition s (stepUse s asked).1.output.effects (stepUse s asked).2 := by
  cases asked with
  | ofEvent event => exact step_path s event
  | waitForReady key moment => exact waitForReady_path s key moment

theorem uses_path (s : AsyncInvokeServer V) (uses : List (Use V)) :
    Path Transition s (doneBy (history stepUse s uses)) (run stepUse s uses) := by
  induction uses generalizing s with
  | nil => exact .nil
  | cons asked uses ih => exact (stepUse_path s asked).append (ih (stepUse s asked).2)

theorem stepUse_length (s : AsyncInvokeServer V) (asked : Use V) :
    (stepUse s asked).2.calls.length = s.calls.length + [asked].countP Use.isInitialRequest := by
  cases asked with
  | ofEvent event =>
    have count := launches_count [event]
    rw [List.flatMap_singleton] at count
    simp only [stepUse,step_length,count,List.countP_singleton,Use.isInitialRequest]
    rfl
  | waitForReady key moment =>
    simp only [stepUse,waitForReady]
    cases s.invokes[key]? with
    | none => rfl
    | some invoke => simp [Tasks.length_finishAll,Use.isInitialRequest]

theorem uses_count (s : AsyncInvokeServer V) (uses : List (Use V)) :
    (run stepUse s uses).calls.length = s.calls.length + uses.countP Use.isInitialRequest := by
  induction uses generalizing s with
  | nil => rfl
  | cons asked uses ih =>
    rw [run,ih,stepUse_length]
    simp only [List.countP_cons,List.countP_nil]
    omega

theorem spared_undisturbed (s : AsyncInvokeServer V) {event : Event V} (spares : event.spares key) :
    Undisturbed key (s.step event).1.effects :=
  ⟨fun member => spares.2 (step_source s event _ member),
   fun _ member => spares.1 (step_source s event _ member)⟩

theorem uses_undisturbed {s : AsyncInvokeServer V} {uses : List (Use V)}
    (spared : ∀ r ∈ history stepUse s uses, r.event.spares key) :
    Undisturbed key (doneBy (history stepUse s uses)) := by
  have harmless : ∀ r ∈ history stepUse s uses, Undisturbed key (Used.effects r) := by
    intro r known
    have spares := spared r known
    obtain ⟨before,asked,_,_,rfl⟩ := history_member known
    cases asked with
    | ofEvent event => exact spared_undisturbed _ spares
    | waitForReady id moment =>
      refine ⟨fun member => ?_,fun call member => ?_⟩
      · obtain ⟨now,same⟩ := waitForReady_effects member
        cases same
      · obtain ⟨now,same⟩ := waitForReady_effects member
        cases same
  constructor
  · intro member
    obtain ⟨r,known,here⟩ := List.mem_flatMap.mp member
    exact (harmless r known).alive here
  · intro call member
    obtain ⟨r,known,here⟩ := List.mem_flatMap.mp member
    exact (harmless r known).untaken call here

omit [AnyValue V] [Codec V] in
-- After a yes the entry is as fresh as the clock that the wait has read, however
-- long it was left alone before.
theorem waited_fresh {expirationTimeNs : UInt64} (stocked : Stocked s) (timed : Timed expirationTimeNs s)
    (ready : (s.waitForReady key moment).1.1 = true) : ∃ (invoke : AsyncInvoke) (call : Nat),
      s.invokes[key]? = some invoke ∧ invoke.future = some call ∧ invoke.invalidated = false ∧
      Tasks.isReady (s.waitForReady key moment).2.calls call = true ∧
      Fresh expirationTimeNs key call (s.waitForReady key moment).1.2 (s.waitForReady key moment).2
        {invoke with lastAccess := moment.now} := by
  obtain ⟨invoke,call,found,held,wanted,ended⟩ := (waitForReady_exact stocked).mp ready
  refine ⟨invoke,call,found,held,wanted,ended,?_⟩
  rw [waitForReady_live found held wanted]
  exact ⟨by rw [store_lookup,if_pos rfl],held,wanted,timed.entries key invoke found,
    by simp [readings,Effect.reading]⟩

theorem retrieves_takes (key : UInt64) (log : List Effect) :
    log.countP (Effect.retrieves key) ≤ Mailbox.takes key (log.filterMap Effect.action) := by
  induction log with
  | nil => exact Nat.le_refl _
  | cons effect log ih =>
    rw [← List.singleton_append,List.countP_append,List.filterMap_append,Mailbox.takes_append]
    refine Nat.add_le_add ?_ ih
    by_cases retrieves : Effect.retrieves key effect = true
    · obtain ⟨call,rfl⟩ := Effect.retrieves_exact retrieves
      simp [Effect.retrieves,Effect.action]
    · simp [retrieves]

end Waits

section Main
variable [AnyValue V] [Codec V] {expirationTimeNs key : UInt64} {uses : List (Use V)}
  {earlier between later : List (Used V)} {wait last : Used V} {moment : Moment V}

theorem wait_split (bounded : uses.countP Use.isInitialRequest < UInt64.size)
    (split : history stepUse (start expirationTimeNs) uses = earlier ++ wait :: later)
    (waits : wait.event = .waitForReady key moment) :
    Chronicle (doneBy earlier) wait.before ∧ Stocked wait.before ∧ Timed expirationTimeNs wait.before ∧
    wait.output.ready = some (wait.before.waitForReady key moment).1.1 ∧
    wait.effects = (wait.before.waitForReady key moment).1.2 ∧
    wait.after = (wait.before.waitForReady key moment).2 := by
  obtain ⟨before,asked,after,parts,rfl,rfl,_⟩ := history_split split
  cases waits
  have path := uses_path (start expirationTimeNs) before
  have below : (run stepUse (start expirationTimeNs) before).calls.length < UInt64.size := by
    rw [uses_count]
    rw [parts,List.countP_append] at bounded
    exact Nat.lt_of_le_of_lt (by simp [start]) bounded
  have chronicle := path_chronicle path below (start_chronicle expirationTimeNs)
  exact ⟨chronicle,path_stocked path (start_stocked _),path_timed path (start_timed _),rfl,rfl,rfl⟩

theorem wait_fresh (bounded : uses.countP Use.isInitialRequest < UInt64.size)
    (split : history stepUse (start expirationTimeNs) uses = earlier ++ wait :: (between ++ last :: later))
    (waits : wait.event = .waitForReady key moment) (ready : wait.output.ready = some true)
    (spared : ∀ r ∈ between, r.event.spares key)
    (alive : KeptAlive expirationTimeNs key (doneBy (wait :: between))) : ∃ call outcome invoke,
      Outstanding key call (doneBy earlier) ∧ Tasks.outcomeOf wait.after.calls call = some outcome ∧
      Tasks.outcomeOf last.before.calls call = some outcome ∧
      Fresh expirationTimeNs key call (doneBy (wait :: between)) last.before invoke ∧
      last = record stepUse last.before last.event := by
  obtain ⟨chronicle,stocked,timed,answer,effects,after⟩ := wait_split bounded split waits
  have yes : (wait.before.waitForReady key moment).1.1 = true := Option.some.inj (answer.symm.trans ready)
  obtain ⟨invoke,call,found,held,wanted,ended,fresh⟩ := waited_fresh stocked timed yes
  obtain ⟨rest,remaining,_,_⟩ := run_resumes split
  obtain ⟨middle,asked,_,_,rfl,rfl,_⟩ := history_split remaining.symm
  have path := uses_path wait.after middle
  rw [← after] at ended fresh
  rw [← effects] at fresh
  obtain ⟨outcome,known⟩ := Option.isSome_iff_exists.mp ended
  obtain ⟨kept,there⟩ := path_fresh path alive (uses_undisturbed spared) fresh
  exact ⟨call,outcome,kept,(chronicle.outstanding key call).mpr ⟨invoke,found,held,wanted⟩,known,
    (path_calls path).outcomes call outcome known,there,rfl⟩

theorem waits_kept (expirationTimeNs : UInt64) (uses : List (Use V))
    (bounded : uses.countP Use.isInitialRequest < UInt64.size) :
    WaitsKept expirationTimeNs (history stepUse (start expirationTimeNs) uses) := by
  refine ⟨?_,?_,?_,?_⟩
  · intro earlier wait later key moment split waits
    obtain ⟨chronicle,stocked,_,answer,_,after⟩ := wait_split bounded split waits
    rw [answer,after,Option.some.injEq,waitForReady_exact stocked]
    constructor
    · rintro ⟨invoke,call,found,held,wanted,ended⟩
      exact ⟨call,(chronicle.outstanding key call).mpr ⟨invoke,found,held,wanted⟩,ended⟩
    · rintro ⟨call,outstanding,ended⟩
      obtain ⟨invoke,found,held,wanted⟩ := (chronicle.outstanding key call).mp outstanding
      exact ⟨invoke,call,found,held,wanted,ended⟩
  · intro earlier wait between last later key moment payload encoding moments split waits ready fetches
      named spared alive
    obtain ⟨call,outcome,invoke,outstanding,known,ended,fresh,answer⟩ :=
      wait_fresh bounded split waits ready spared alive
    refine ⟨call,outcome,outstanding,known,?_⟩
    rw [answer,fetches]
    have observed := (Tasks.finishAll_extends last.before.calls (moments 0).completions).outcomes _ _ ended
    exact (getReply_delivers encoding moments named fresh.found fresh.held observed fresh.wanted).2.2
  · intro earlier wait between last later key moment payload encoding moments split waits ready polls
      named spared alive
    have parts : doneBy (wait :: (between ++ [last])) = doneBy (wait :: between) ++ last.effects := by
      simp [doneBy]
    rw [parts] at alive
    obtain ⟨call,outcome,invoke,_,_,ended,fresh,answer⟩ :=
      wait_fresh bounded split waits ready spared alive.earlier
    have same : last.output.output = (last.before.poll key encoding moments).1.output := by
      rw [answer,polls]
      simp only [record,stepUse,step_handleInvoke,handleInvoke_poll named]
    have examined := poll_examines encoding moments fresh.found fresh.held
    have unexpired : invoke.isExpired (moments 0).now = false := by
      refine fresh.unexpired alive (k := call) ?_
      rw [Used.effects,same]
      exact examined
    have still : Tasks.isReady (last.before.poll key encoding moments).2.calls call = true := by
      have extended := path_calls (poll_path last.before key encoding moments)
      exact extended.isReady (by rw [Tasks.isReady,ended]; rfl)
    rw [same,output_reply,poll_reads encoding moments fresh.found fresh.held fresh.wanted unexpired,still]
  · intro key
    have below : (run stepUse (start expirationTimeNs) uses).calls.length < UInt64.size := by
      rw [uses_count]
      exact Nat.lt_of_le_of_lt (by simp [start]) bounded
    obtain ⟨box,actions,_⟩ := path_mirrored (uses_path (start expirationTimeNs) uses) below
    exact Nat.le_trans (retrieves_takes key _) (Mailbox.taken_once actions key)

-- A finished request that nobody asks about for five times its expiration time.
-- The wait finds it all the same, and so does the command after it.
def lateRun : List (Use Reference.Value) :=
  [.ofEvent (.handleInvoke (.string "measure") .kNone .kInitialRequest (instant 0)),
   .ofEvent (.complete 0 (.ok (.success,.string "done"))),
   .waitForReady 1 ⟨[],50⟩,
   .ofEvent (.handleInvoke (Reference.namedRequest 1) .kNone .kGetReply (instant 55))]

theorem waits_kept_late : WaitsKept 10 (history stepUse (start 10) lateRun) ∧
    (history stepUse (start 10) lateRun).map (·.output.ready) = [none,none,some true,none] ∧
    .on 1 (.retrieved 0) ∈ doneBy (history stepUse (start 10) lateRun) :=
  ⟨waits_kept 10 lateRun (by decide),by decide,by decide⟩

end Main

end AsyncInvokeServer

end SupProtocol
