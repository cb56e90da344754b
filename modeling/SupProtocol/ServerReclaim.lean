import SupProtocol.ServerFunctor
import SupProtocol.WallClock

namespace SupProtocol
open Machine AsyncInvokeServer

variable {V : Type}

structure Arrival (V : Type) where
  packet : V
  schedule : Schedule V

-- Packets come one at a time: between them only calls end.
def Arrival.alone (arrival : Arrival V) : Prop :=
  ∀ event ∈ arrival.schedule.before ++ arrival.schedule.between, event.isCompletion = true

namespace ProtocolRPCServer
variable [AnyValue V] [Codec V]

def serve (protocol : Protocol V) (server : ProtocolRPCServer V) (arrival : Arrival V) :
    PacketAnswer V × ProtocolRPCServer V := server.call protocol arrival.packet arrival.schedule

abbrev Packets (V : Type) := List (Record (ProtocolRPCServer V) (Arrival V) (PacketAnswer V))

def packets (protocol : Protocol V) (expirationTimeNs cleanupNs : UInt64)
    (arrivals : List (Arrival V)) : Packets V :=
  history (serve protocol) ⟨start expirationTimeNs,⟨0,cleanupNs⟩⟩ arrivals

section Records
variable (r : Record (ProtocolRPCServer V) (Arrival V) (PacketAnswer V))

def foundBy : AsyncInvokeServer V := run step r.before.asyncServer r.event.schedule.before
def preparedFor : AsyncInvokeServer V := r.before.prepared r.event.schedule

def logOf : List Effect :=
  effectsOf (history step r.before.asyncServer
    (r.before.arrivals r.event.schedule ++ packetCommands r.event.packet r.event.schedule.moments))

def clockOf : List UInt64 := r.event.schedule.now :: readings (logOf r)

end Records

def Forward (records : Packets V) : Prop := (records.flatMap clockOf).Pairwise (· ≤ ·)

-- A call had finished by a time when it is found ended wherever the clock has come
-- to that time.
def FinishedBy (records : Packets V) (time call : Nat) : Prop :=
  ∀ r ∈ records, time ≤ r.event.schedule.now.toNat → Tasks.isReady (foundBy r).calls call = true

-- A call that had finished a clean-up interval ago, for a request that was last
-- accessed an expiration time before that.
def Unattended (records : Packets V) (expirationTimeNs cleanupNs now : UInt64) (call : Nat)
    (lastAccess : UInt64) : Prop :=
  FinishedBy records (now.toNat - cleanupNs.toNat) call ∧
    lastAccess.toNat + (expirationTimeNs.toNat + cleanupNs.toNat) < now.toNat

def Attended (records : Packets V) (expirationTimeNs cleanupNs now : UInt64) (s : AsyncInvokeServer V) :
    Prop :=
  s.Entries fun _ invoke => ∃ call, invoke.future = some call ∧
    ¬ Unattended records expirationTimeNs cleanupNs now call invoke.lastAccess

structure Reclaimed (records : Packets V) (expirationTimeNs cleanupNs : UInt64) : Prop where
  handling : ∀ r ∈ records,
    Attended records expirationTimeNs cleanupNs r.event.schedule.now (preparedFor r)
  handled : ∀ r ∈ records,
    Attended records expirationTimeNs cleanupNs r.event.schedule.now r.after.asyncServer
  -- a request all of whose calls and accesses were long ago
  answered : ∀ earlier r later key, records = earlier ++ r :: later →
    (∀ call now, .launched key call now ∈ earlier.flatMap logOf →
      Unattended records expirationTimeNs cleanupNs r.event.schedule.now call now) →
    (∀ now, .on key (.accessed now) ∈ earlier.flatMap logOf →
      now.toNat + (expirationTimeNs.toNat + cleanupNs.toNat) < r.event.schedule.now.toNat) →
    (preparedFor r).invokes[key]? = none ∧
    ∀ event, packetCommands r.event.packet r.event.schedule.moments = [event] → event.concerns key →
      ∃ reply, r.output.reply = .ok reply ∧
        tryExtractProtocolResult reply = some .invalidRequestIdentifierError

end ProtocolRPCServer

namespace AsyncInvokeServer

section Sweep
variable {s t : AsyncInvokeServer V} {labels log : List Effect} {key : UInt64} {invoke : AsyncInvoke}

-- An entry that a clean-up leaves in the table was in it before, and at its turn
-- its call was running, or it was not expired.
structure Spared (s : AsyncInvokeServer V) (effects : List Effect) (key : UInt64) (invoke : AsyncInvoke) :
    Prop where
  old : s.invokes[key]? = some invoke
  turn : ∀ call, invoke.future = some call → Tasks.isReady s.calls call = true →
    ∃ now ∈ readings effects, invoke.isExpired now = false

theorem removeIfReady_spared {moment : Moment V}
    (found : s.invokes[key]? = some invoke) {kept : AsyncInvoke}
    (here : (s.removeIfReady key invoke moment).1.invokes[key]? = some kept) :
    Spared s (s.removeIfReady key invoke moment).2 key kept := by
  cases removable : (invoke.isReadyForRemoval (s.observe moment).calls moment.now).1 with
  | true =>
    rw [removeIfReady_removes removable,erase_lookup,if_pos rfl] at here
    cases here
  | false =>
    rw [removeIfReady_keeps removable] at here
    have same : some kept = some invoke := here.symm.trans found
    cases same
    refine ⟨found,?_⟩
    intro call held ended
    refine ⟨moment.now,reading_member (removeIfReady_examines held moment) rfl,?_⟩
    have still := (Tasks.finishAll_extends s.calls moment.completions).isReady ended
    rw [AsyncInvoke.removable_held held] at removable
    simp only [observe_calls,still,Bool.true_and,Bool.or_eq_false_iff] at removable
    exact removable.2

theorem removeIfReady_old {moment : Moment V} {id : UInt64} {entry : AsyncInvoke}
    (here : (s.removeIfReady id entry moment).1.invokes[key]? = some invoke) :
    s.invokes[key]? = some invoke := by
  unfold removeIfReady at here
  dsimp only at here
  split at here
  · exact (erased_entry here).2
  · exact here

theorem Spared.earlier {first : List Effect} (spared : Spared t labels key invoke)
    (old : s.invokes[key]? = some invoke) (longer : Tasks.Extends s.calls t.calls) :
    Spared s (first ++ labels) key invoke := by
  refine ⟨old,?_⟩
  intro call held ended
  obtain ⟨now,read,fresh⟩ := spared.turn call held (longer.isReady ended)
  exact ⟨now,by rw [readings_append]; exact List.mem_append_right _ read,fresh⟩

theorem cleanUpFrom_old (moments : Nat → Moment V) (ids : List UInt64) :
    ∀ (k : Nat) (s : AsyncInvokeServer V),
      (cleanUpFrom moments k ids s).1.invokes[key]? = some invoke → s.invokes[key]? = some invoke := by
  induction ids with
  | nil => exact fun _ _ here => here
  | cons id ids ih =>
    intro k s here
    unfold cleanUpFrom at here
    cases found : s.invokes[id]? with
    | none => exact ih k s (by simpa only [found] using here)
    | some entry =>
      simp only [found] at here
      exact removeIfReady_old (ih (k+1) _ here)

theorem cleanUpFrom_spared (moments : Nat → Moment V) (ids : List UInt64) (member : key ∈ ids) :
    ∀ (k : Nat) (s : AsyncInvokeServer V),
      (cleanUpFrom moments k ids s).1.invokes[key]? = some invoke →
      Spared s (cleanUpFrom moments k ids s).2 key invoke := by
  induction ids with
  | nil => cases member
  | cons id ids ih =>
    intro k s here
    unfold cleanUpFrom at here ⊢
    cases found : s.invokes[id]? with
    | none =>
      simp only [found] at here ⊢
      have old := cleanUpFrom_old moments ids k s here
      rcases List.mem_cons.mp member with same | later
      · subst same
        cases found.symm.trans old
      · exact ih later k s here
    | some entry =>
      simp only [found] at here ⊢
      have left := cleanUpFrom_old moments ids (k+1) _ here
      rcases List.mem_cons.mp member with same | later
      · subst same
        have spared := removeIfReady_spared found left
        refine ⟨spared.old,?_⟩
        intro call held ended
        obtain ⟨now,read,fresh⟩ := spared.turn call held ended
        exact ⟨now,by rw [readings_append]; exact List.mem_append_left _ read,fresh⟩
      · have longer : Tasks.Extends s.calls (s.removeIfReady id entry (moments k)).1.calls := by
          rw [removeIfReady_calls,observe_calls]
          exact Tasks.finishAll_extends _ _
        exact (ih later (k+1) _ here).earlier (removeIfReady_old left) longer

theorem cleanUp_spared {moments : Nat → Moment V}
    (here : (s.cleanUpExpiredRequests moments).1.invokes[key]? = some invoke) :
    Spared s (s.cleanUpExpiredRequests moments).2 key invoke := by
  have old := cleanUpFrom_old moments s.invokes.keys 0 s here
  refine cleanUpFrom_spared moments s.invokes.keys ?_ 0 s here
  rw [Std.TreeMap.mem_keys,Std.TreeMap.mem_iff_isSome_getElem?,old]
  rfl

end Sweep

section Stamps
variable {s t : AsyncInvokeServer V} {labels log : List Effect}

def Stamped (log : List Effect) (s : AsyncInvokeServer V) : Prop :=
  s.Entries fun key invoke => ∃ call now, invoke.future = some call ∧ .launched key call now ∈ log ∧
    (invoke.lastAccess = now ∨ .on key (.accessed invoke.lastAccess) ∈ log)

theorem transition_stamped (log : List Effect) (s : AsyncInvokeServer V) (labels : List Effect)
    (t : AsyncInvokeServer V) (stamped : Stamped log s) (step : Transition s labels t) :
    Stamped (log ++ labels) t := by
  refine transition_entries step stamped ?_ ?_ ?_ ?_
  · intro key invoke ⟨call,now,held,launched,stamp⟩
    exact ⟨call,now,held,List.mem_append_left _ launched,stamp.imp_right (List.mem_append_left _)⟩
  · intro now launched _
    exact ⟨s.calls.length,now,rfl,List.mem_append_right _ launched,Or.inl rfl⟩
  · intro key invoke now accessed ⟨call,first,held,launched,_⟩
    exact ⟨call,first,held,List.mem_append_left _ launched,Or.inr (List.mem_append_right _ accessed)⟩
  · intro key invoke _ ⟨call,now,held,launched,stamp⟩
    exact ⟨call,now,held,List.mem_append_left _ launched,stamp.imp_right (List.mem_append_left _)⟩

theorem path_stamped (path : Path Transition s labels t) (stamped : Stamped log s) :
    Stamped (log ++ labels) t := path.accumulates transition_stamped stamped

end Stamps

end AsyncInvokeServer

namespace ProtocolRPCServer
variable [AnyValue V] [Codec V] {records : Packets V} {expirationTimeNs cleanupNs last now : UInt64}
  {s t : AsyncInvokeServer V} {labels : List Effect}

theorem FinishedBy.later {time later call : Nat} (finished : FinishedBy records time call)
    (ordered : time ≤ later) : FinishedBy records later call :=
  fun r known shown => finished r known (Nat.le_trans ordered shown)

-- What a clean-up at `last` has left: entries that were accessed at most an
-- expiration time before it, or after it, and calls that were running then.
def Left (records : Packets V) (expirationTimeNs last : UInt64) (s : AsyncInvokeServer V) : Prop :=
  s.Entries fun _ invoke => ∃ call, invoke.future = some call ∧
    (last.toNat ≤ invoke.lastAccess.toNat + expirationTimeNs.toNat ∨
      ¬ FinishedBy records last.toNat call)

theorem transition_left (step : Transition s labels t) (later : ∀ now ∈ readings labels, last ≤ now)
    (left : Left records expirationTimeNs last s) : Left records expirationTimeNs last t := by
  refine transition_entries step left (fun _ _ held => held) ?_ ?_ (fun _ _ _ held => held)
  · intro now launched _
    have ordered := UInt64.le_iff_toNat_le.mp (later now (reading_member launched rfl))
    exact ⟨s.calls.length,rfl,Or.inl (Nat.le_trans ordered (Nat.le_add_right _ _))⟩
  · intro key invoke now accessed ⟨call,held,_⟩
    have ordered := UInt64.le_iff_toNat_le.mp (later now (reading_member accessed rfl))
    exact ⟨call,held,Or.inl (Nat.le_trans ordered (Nat.le_add_right _ _))⟩

theorem path_left (path : Path Transition s labels t) (later : ∀ now ∈ readings labels, last ≤ now)
    (left : Left records expirationTimeNs last s) : Left records expirationTimeNs last t := by
  induction path with
  | nil => exact left
  | cons first rest ih =>
    simp only [readings_append,List.mem_append] at later
    have middle := transition_left first (fun now read => later now (Or.inl read)) left
    exact ih (fun now read => later now (Or.inr read)) middle

-- Within a clean-up interval of it, nothing that is left is overdue.
theorem left_attended (left : Left records expirationTimeNs last s)
    (recent : now.toNat ≤ last.toNat + cleanupNs.toNat) :
    Attended records expirationTimeNs cleanupNs now s := by
  intro key invoke here
  obtain ⟨call,held,why⟩ := left key invoke here
  refine ⟨call,held,?_⟩
  intro ⟨finished,overdue⟩
  rcases why with fresh | running
  · omega
  · exact running (finished.later (by omega))

theorem isCleanUpNeeded_cases (handler : ExpirationTimeoutHandler) (now : UInt64) :
    (handler.isCleanUpNeeded now = (true,{handler with lastTimestamp := now})) ∨
    (handler.isCleanUpNeeded now = (false,handler) ∧ ¬ now - handler.lastTimestamp > handler.cleanupNs) := by
  unfold ExpirationTimeoutHandler.isCleanUpNeeded
  split
  · exact Or.inl rfl
  · rename_i early
    exact Or.inr ⟨rfl,early⟩

theorem isCleanUpNeeded_remembers (handler : ExpirationTimeoutHandler) (now : UInt64) :
    (handler.isCleanUpNeeded now).2.cleanupNs = handler.cleanupNs ∧
    ((handler.isCleanUpNeeded now).2.lastTimestamp = now ∨
      (handler.isCleanUpNeeded now).2.lastTimestamp = handler.lastTimestamp) := by
  rcases isCleanUpNeeded_cases handler now with needed | ⟨idle,_⟩
  · rw [needed]
    exact ⟨rfl,Or.inl rfl⟩
  · rw [idle]
    exact ⟨rfl,Or.inr rfl⟩

theorem completions_run {events : List (Event V)} (ended : ∀ event ∈ events, event.isCompletion = true) :
    ∀ s : AsyncInvokeServer V, (run step s events).invokes = s.invokes := by
  induction events with
  | nil => exact fun _ => rfl
  | cons event events ih =>
    intro s
    have first := ended event List.mem_cons_self
    cases event with
    | complete call outcome => exact ih (fun e known => ended e (List.mem_cons_of_mem _ known)) _
    | cleanUpExpiredRequests moments => cases first
    | handleInvoke payload encoding command moments => cases first

section Handling
variable {protocol : Protocol V} {server : ProtocolRPCServer V} {arrival : Arrival V}

theorem alone_before (alone : arrival.alone) (s : AsyncInvokeServer V) :
    (run step s arrival.schedule.before).invokes = s.invokes :=
  completions_run (fun event known => alone event (List.mem_append_left _ known)) s

theorem alone_between (alone : arrival.alone) (s : AsyncInvokeServer V) :
    (run step s arrival.schedule.between).invokes = s.invokes :=
  completions_run (fun event known => alone event (List.mem_append_right _ known)) s

theorem prepared_cases (alone : arrival.alone) {key : UInt64} {invoke : AsyncInvoke}
    (here : (server.prepared arrival.schedule).invokes[key]? = some invoke) :
    server.asyncServer.invokes[key]? = some invoke ∧
    ((server.expirationHandler.isCleanUpNeeded arrival.schedule.now).1 = true →
      Spared (run step server.asyncServer arrival.schedule.before)
        ((run step server.asyncServer arrival.schedule.before).cleanUpExpiredRequests
          arrival.schedule.cleanUp).2 key invoke) := by
  unfold prepared at here
  rw [alone_between alone] at here
  rw [← alone_before alone server.asyncServer]
  split at here
  · have spared := cleanUp_spared here
    exact ⟨spared.old,fun _ => spared⟩
  · rename_i idle
    exact ⟨here,fun needed => absurd needed idle⟩

theorem logOf_parts (r : Record (ProtocolRPCServer V) (Arrival V) (PacketAnswer V)) :
    logOf r = effectsOf (history step r.before.asyncServer (r.before.arrivals r.event.schedule)) ++
      effectsOf (history step (preparedFor r)
        (packetCommands r.event.packet r.event.schedule.moments)) := by
  rw [logOf,history_append,effectsOf_append,preparedFor,prepared_run]

theorem cleanUp_logged (server : ProtocolRPCServer V) (schedule : Schedule V)
    (needed : (server.expirationHandler.isCleanUpNeeded schedule.now).1 = true) :
    ((run step server.asyncServer schedule.before).cleanUpExpiredRequests schedule.cleanUp).2 ⊆
      effectsOf (history step server.asyncServer (server.arrivals schedule)) := by
  intro effect member
  rw [ProtocolRPCServer.arrivals,if_pos needed,history_append,effectsOf_append]
  apply List.mem_append_right _
  exact List.mem_append_left _ member

omit [AnyValue V] [Codec V] in
theorem not_expired_recent {invoke : AsyncInvoke} (fresh : invoke.isExpired now = false) :
    now.toNat ≤ invoke.lastAccess.toNat + invoke.expirationTimeNs.toNat := by
  by_contra late
  have exceeds : now - invoke.lastAccess > invoke.expirationTimeNs := by
    refine (exceeds_exact _ _ _).mpr (Or.inl ⟨UInt64.le_iff_toNat_le.mpr (by omega),by omega⟩)
  have expired : invoke.isExpired now = true := by simpa [AsyncInvoke.isExpired] using exceeds
  cases expired.symm.trans fresh

-- Whether or not the packet made the server clean up, the clean-up that the
-- handler remembers next is recent and has left what the packet finds.
theorem prepared_left (protocol : Protocol V) (alone : arrival.alone)
    (known : record (serve protocol) server arrival ∈ records)
    (past : server.expirationHandler.lastTimestamp ≤ arrival.schedule.now)
    (later : ∀ now ∈ readings (logOf (record (serve protocol) server arrival)),
      arrival.schedule.now ≤ now)
    (timed : Timed expirationTimeNs server.asyncServer)
    (left : Left records expirationTimeNs server.expirationHandler.lastTimestamp server.asyncServer) :
    let handler := (server.expirationHandler.isCleanUpNeeded arrival.schedule.now).2
    Left records expirationTimeNs handler.lastTimestamp (server.prepared arrival.schedule) ∧
    handler.lastTimestamp ≤ arrival.schedule.now ∧
    arrival.schedule.now.toNat ≤ handler.lastTimestamp.toNat + server.expirationHandler.cleanupNs.toNat := by
  rcases isCleanUpNeeded_cases server.expirationHandler arrival.schedule.now with needed | ⟨idle,early⟩
  · rw [needed]
    refine ⟨?_,UInt64.le_refl _,Nat.le_add_right _ _⟩
    intro key invoke here
    obtain ⟨old,spared⟩ := prepared_cases alone here
    obtain ⟨call,held,_⟩ := left key invoke old
    refine ⟨call,held,?_⟩
    by_cases finished : FinishedBy records arrival.schedule.now.toNat call
    · left
      have ended := finished _ known (Nat.le_refl _)
      have cleaned : (server.expirationHandler.isCleanUpNeeded arrival.schedule.now).1 = true := by
        rw [needed]
      obtain ⟨now,read,fresh⟩ := (spared cleaned).turn call held ended
      have logged : now ∈ readings (logOf (record (serve protocol) server arrival)) := by
        obtain ⟨effect,member,shown⟩ := List.mem_filterMap.mp read
        rw [logOf_parts]
        have first := cleanUp_logged server arrival.schedule cleaned member
        exact reading_member (List.mem_append_left _ first) shown
      have ordered := UInt64.le_iff_toNat_le.mp (later now logged)
      have recent := not_expired_recent fresh
      rw [timed.entries key invoke old] at recent
      exact Nat.le_trans ordered recent
    · exact Or.inr finished
  · rw [idle]
    dsimp only
    refine ⟨?_,past,?_⟩
    · intro key invoke here
      exact left key invoke (prepared_cases alone here).1
    · by_contra late
      refine early ((exceeds_exact _ _ _).mpr (Or.inl ⟨past,?_⟩))
      have ordered := UInt64.le_iff_toNat_le.mp past
      omega

end Handling

structure Tended (records : Packets V) (expirationTimeNs cleanupNs : UInt64) (earlier : Packets V)
    (server : ProtocolRPCServer V) : Prop where
  interval : server.expirationHandler.cleanupNs = cleanupNs
  past : server.expirationHandler.lastTimestamp = 0 ∨
    ∃ r ∈ earlier, r.event.schedule.now = server.expirationHandler.lastTimestamp
  left : Left records expirationTimeNs server.expirationHandler.lastTimestamp server.asyncServer
  timed : Timed expirationTimeNs server.asyncServer
  stamped : Stamped (earlier.flatMap logOf) server.asyncServer

theorem start_tended (records : Packets V) (expirationTimeNs cleanupNs : UInt64) :
    Tended records expirationTimeNs cleanupNs [] ⟨start expirationTimeNs,⟨0,cleanupNs⟩⟩ :=
  ⟨rfl,Or.inl rfl,start_entries _ _,start_timed _,start_entries _ _⟩

theorem forward_at {earlier later : Packets V}
    {r : Record (ProtocolRPCServer V) (Arrival V) (PacketAnswer V)} (forward : Forward records)
    (split : records = earlier ++ r :: later) :
    (∀ past ∈ earlier, past.event.schedule.now ≤ r.event.schedule.now) ∧
    ∀ now ∈ readings (logOf r), r.event.schedule.now ≤ now := by
  unfold Forward at forward
  rw [split,List.flatMap_append,List.flatMap_cons] at forward
  obtain ⟨_,rest,across⟩ := List.pairwise_append.mp forward
  have own := (List.pairwise_append.mp rest).1
  constructor
  · intro past known
    refine across _ (List.mem_flatMap.mpr ⟨past,known,List.mem_cons_self⟩) _ ?_
    exact List.mem_append_left _ List.mem_cons_self
  · exact (List.pairwise_cons.mp own).1

theorem handled_run (protocol : Protocol V) (server : ProtocolRPCServer V) (arrival : Arrival V) :
    (serve protocol server arrival).2.asyncServer =
      run step (server.prepared arrival.schedule)
        (packetCommands arrival.packet arrival.schedule.moments) :=
  handlePacket_run protocol arrival.packet arrival.schedule.moments (server.prepared arrival.schedule)

theorem serve_path (protocol : Protocol V) (server : ProtocolRPCServer V) (arrival : Arrival V) :
    Path Transition server.asyncServer (logOf (record (serve protocol) server arrival))
      (serve protocol server arrival).2.asyncServer := by
  have run := run_path server.asyncServer
    (server.arrivals arrival.schedule ++ packetCommands arrival.packet arrival.schedule.moments)
  rw [← call_run protocol] at run
  exact run

theorem handled_left (protocol : Protocol V) {server : ProtocolRPCServer V} {arrival : Arrival V}
    (later : ∀ now ∈ readings (logOf (record (serve protocol) server arrival)), last ≤ now)
    (left : Left records expirationTimeNs last (server.prepared arrival.schedule)) :
    Left records expirationTimeNs last (serve protocol server arrival).2.asyncServer := by
  have path := run_path (server.prepared arrival.schedule)
    (packetCommands arrival.packet arrival.schedule.moments)
  rw [← handled_run protocol] at path
  refine path_left path ?_ left
  intro now read
  apply later now
  rw [logOf_parts,readings_append]
  exact List.mem_append_right _ read

theorem Tended.ordered {earlier : Packets V} {server : ProtocolRPCServer V} {now : UInt64}
    (tended : Tended records expirationTimeNs cleanupNs earlier server)
    (before : ∀ past ∈ earlier, past.event.schedule.now ≤ now) :
    server.expirationHandler.lastTimestamp ≤ now := by
  rcases tended.past with zero | ⟨r,member,same⟩
  · rw [zero]
    exact UInt64.le_iff_toNat_le.mpr (Nat.zero_le _)
  · rw [← same]
    exact before r member

theorem Tended.remembers {protocol : Protocol V} {earlier : Packets V} {server : ProtocolRPCServer V}
    (tended : Tended records expirationTimeNs cleanupNs earlier server) (arrival : Arrival V) :
    let handler := (server.expirationHandler.isCleanUpNeeded arrival.schedule.now).2
    handler.lastTimestamp = 0 ∨ ∃ r ∈ earlier ++ [record (serve protocol) server arrival],
      r.event.schedule.now = handler.lastTimestamp := by
  intro handler
  rcases (isCleanUpNeeded_remembers server.expirationHandler arrival.schedule.now).2 with own | same
  · exact Or.inr ⟨_,List.mem_append_right _ List.mem_cons_self,own.symm⟩
  · have kept : handler.lastTimestamp = server.expirationHandler.lastTimestamp := same
    rw [kept]
    apply tended.past.imp_right
    intro ⟨r,member,shown⟩
    exact ⟨r,List.mem_append_left _ member,shown⟩

theorem serve_tended {protocol : Protocol V} {server : ProtocolRPCServer V} {arrival : Arrival V}
    {earlier later : Packets V} (alone : arrival.alone) (forward : Forward records)
    (split : records = earlier ++ record (serve protocol) server arrival :: later)
    (tended : Tended records expirationTimeNs cleanupNs earlier server) :
    Attended records expirationTimeNs cleanupNs arrival.schedule.now (server.prepared arrival.schedule) ∧
    Attended records expirationTimeNs cleanupNs arrival.schedule.now
      (serve protocol server arrival).2.asyncServer ∧
    Tended records expirationTimeNs cleanupNs (earlier ++ [record (serve protocol) server arrival])
      (serve protocol server arrival).2 := by
  obtain ⟨before,within⟩ := forward_at forward split
  have known : record (serve protocol) server arrival ∈ records := by rw [split]; simp
  obtain ⟨left,remembered,recent⟩ := prepared_left protocol alone known (tended.ordered before) within
    tended.timed tended.left
  rw [tended.interval] at recent
  have afterwards := handled_left protocol
    (fun now read => UInt64.le_trans remembered (within now read)) left
  have path := serve_path protocol server arrival
  have interval := (isCleanUpNeeded_remembers server.expirationHandler arrival.schedule.now).1
  refine ⟨left_attended left recent,left_attended afterwards recent,interval.trans tended.interval,
    tended.remembers arrival,afterwards,path_timed path tended.timed,?_⟩
  rw [List.flatMap_append,List.flatMap_cons,List.flatMap_nil,List.append_nil]
  exact path_stamped path tended.stamped

theorem command_reply (protocol : Protocol V) {packet : V} {moments : Nat → Moment V} {event : Event V}
    (server : AsyncInvokeServer V) (command : packetCommands packet moments = [event]) :
    (server.step event).1.reply = some (handlePacket protocol packet moments server).1.reply := by
  unfold packetCommands at command
  cases read : tryGetPacketEncoding packet with
  | none => simp [read] at command
  | some encoding =>
    simp only [read] at command
    split at command
    · cases command
    · rename_i accepted
      simp only [Bool.or_eq_true,Bool.not_eq_true',not_or,Bool.not_eq_true,Bool.not_eq_false] at accepted
      obtain ⟨service,format⟩ := accepted
      split at command
      · rename_i payload asked extracted info
        cases command
        simp [handlePacket,read,service,command_answers format extracted info,commandAnswer]
      · cases command

theorem unattended_absent {earlier : Packets V} {s t : AsyncInvokeServer V} {key : UInt64}
    (attended : Attended records expirationTimeNs cleanupNs now t) (stamped : Stamped (earlier.flatMap logOf) s)
    (old : ∀ invoke : AsyncInvoke, t.invokes[key]? = some invoke → s.invokes[key]? = some invoke)
    (launches : ∀ call past, .launched key call past ∈ earlier.flatMap logOf →
      Unattended records expirationTimeNs cleanupNs now call past)
    (accesses : ∀ past, .on key (.accessed past) ∈ earlier.flatMap logOf →
      past.toNat + (expirationTimeNs.toNat + cleanupNs.toNat) < now.toNat) : t.invokes[key]? = none := by
  cases here : t.invokes[key]? with
  | none => rfl
  | some invoke =>
    exfalso
    obtain ⟨call,held,fresh⟩ := attended key invoke here
    obtain ⟨launch,first,again,launched,stamp⟩ := stamped key invoke (old invoke here)
    cases held.symm.trans again
    obtain ⟨finished,overdue⟩ := launches call first launched
    rcases stamp with same | accessed
    · rw [same] at fresh
      exact fresh ⟨finished,overdue⟩
    · exact fresh ⟨finished,accesses _ accessed⟩

theorem packets_tended {protocol : Protocol V} {arrivals : List (Arrival V)} {earlier later : Packets V}
    {r : Record (ProtocolRPCServer V) (Arrival V) (PacketAnswer V)}
    (alone : ∀ arrival ∈ arrivals, arrival.alone)
    (forward : Forward (packets protocol expirationTimeNs cleanupNs arrivals))
    (split : packets protocol expirationTimeNs cleanupNs arrivals = earlier ++ r :: later) :
    r = record (serve protocol) r.before r.event ∧ r.event.alone ∧
    Tended (packets protocol expirationTimeNs cleanupNs arrivals) expirationTimeNs cleanupNs earlier
      r.before := by
  have single {earlier later : Packets V} {r : Record (ProtocolRPCServer V) (Arrival V) (PacketAnswer V)}
      (split : packets protocol expirationTimeNs cleanupNs arrivals = earlier ++ r :: later) :
      r = record (serve protocol) r.before r.event ∧ r.event.alone := by
    obtain ⟨before,arrival,after,parts,_,here,_⟩ := history_split split
    have member : arrival ∈ arrivals := by rw [parts]; simp
    rw [here]
    exact ⟨rfl,alone arrival member⟩
  refine ⟨(single split).1,(single split).2,?_⟩
  refine history_accumulates (start_tended _ _ _) ?_ split
  intro earlier r later parts held
  obtain ⟨here,own⟩ := single parts
  rw [here] at parts ⊢
  exact (serve_tended own forward parts held).2.2

theorem reclaimed [LawfulAnyValue V] (protocol : Protocol V) (expirationTimeNs cleanupNs : UInt64)
    (arrivals : List (Arrival V)) (alone : ∀ arrival ∈ arrivals, arrival.alone)
    (forward : Forward (packets protocol expirationTimeNs cleanupNs arrivals)) :
    Reclaimed (packets protocol expirationTimeNs cleanupNs arrivals) expirationTimeNs cleanupNs := by
  refine ⟨?_,?_,?_⟩
  · intro r known
    obtain ⟨earlier,later,split⟩ := List.append_of_mem known
    obtain ⟨here,own,tended⟩ := packets_tended alone forward split
    rw [here] at split
    exact (serve_tended own forward split tended).1
  · intro r known
    obtain ⟨earlier,later,split⟩ := List.append_of_mem known
    obtain ⟨here,own,tended⟩ := packets_tended alone forward split
    rw [here] at split ⊢
    exact (serve_tended own forward split tended).2.1
  · intro earlier r later key split launches accesses
    obtain ⟨here,own,tended⟩ := packets_tended alone forward split
    rw [here] at split
    have attended := (serve_tended own forward split tended).1
    have absent := unattended_absent attended tended.stamped
      (fun _ found => (prepared_cases own found).1) launches accesses
    refine ⟨absent,?_⟩
    intro event command concerns
    obtain ⟨reply,sent,read⟩ := absent_answered absent concerns
    refine ⟨reply,?_,read⟩
    have same := (command_reply protocol (preparedFor r) command).symm.trans sent
    rw [here]
    exact Option.some.inj same

-- A request from 15 that nobody asks for until it is too late: at 20 no clean-up is
-- due, and the one at 31 finds it ended and expired.
def forgottenArrivals : List (Arrival Reference.Value) :=
  let packet (built : Except Exception Reference.Value) : Reference.Value := built.toOption.getD .empty
  let schedule (before : List (Event Reference.Value)) (now : UInt64) : Schedule Reference.Value :=
    ⟨before,now,instant now,[],instant now⟩
  [⟨packet (createAsyncRPCRequest (.string "measure") .kNone),schedule [] 15⟩,
   ⟨.string "no packet",schedule [.complete 0 (.ok (.success,.string "done"))] 20⟩,
   ⟨packet (createAsyncRPCPoll 1 .kNone),schedule [] 31⟩]

theorem reclaimed_forgotten :
    let protocol : Protocol Reference.Value :=
      ⟨fun _ _ => .ok (.success,.empty),fun _ _ => .ok (.success,.empty)⟩
    Reclaimed (packets protocol 10 5 forgottenArrivals) 10 5 ∧
    (packets protocol 10 5 forgottenArrivals).map
      (fun r => (r.before.asyncServer.invokes.keys,(preparedFor r).invokes.keys)) =
      [([],[]),([1],[1]),([1],[])] := by
  intro protocol
  refine ⟨reclaimed protocol 10 5 forgottenArrivals ?_ ?_,?_⟩
  · unfold Arrival.alone
    decide
  · unfold Forward
    decide
  · decide

end ProtocolRPCServer

end SupProtocol
