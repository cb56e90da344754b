import SupProtocol.VariableWait

namespace SupProtocol.VariableWait
open Machine

variable {V : Type}

section Contract
variable [AnyValue V]

def Event.keeps (wait : VariableWait V) : Event V → Bool
  | .update available value => wait.accepts (available,value)
  | _ => true

def Fetched (records : Records V) (value : V) : Prop := ∃ r ∈ records, r.output = some (true,value)

def BeforeDeadline (s : State V) : Prop := ∀ finish, s.finish = some finish → s.now < finish

-- An update gave the variable the expected value for good, and its callback, the
-- one with its number, was delivered to this waiter before the deadline.
def Notified (wait : VariableWait V) (records : Records V) : Prop :=
  ∃ earlier u later, records = earlier ++ u :: later ∧
    (∃ available value, u.event = .update available value) ∧
    (∀ r ∈ u :: later, r.event.keeps wait = true) ∧
    ∃ d ∈ later, d.event = .deliver ∧
      d.before.delivered = u.before.delivered + u.before.undelivered.length ∧
      d.before.callbackSet = true ∧ BeforeDeadline d.before

structure Contract (wait : VariableWait V) (s : State V) (events : List (Event V)) : Prop where
  sound : Answers (run wait.step s events) true →
    ∃ value, Fetched (history wait.step s events) value ∧ wait.equals value wait.value = true
  held : wait.callbackSupported = true → wait.accepts s.current = true → s.undelivered = [] →
    (∀ event ∈ events, event.keeps wait = true) → ¬ Answers (run wait.step s events) false
  notified : wait.callbackSupported = true → Notified wait (history wait.step s events) →
    ¬ Answers (run wait.step s events) false

end Contract

section Sound
variable [AnyValue V] {wait : VariableWait V} {records : Records V} {s : State V}

-- What the thread may hold on to or return: nothing that it did not fetch.
def Backed (wait : VariableWait V) (records : Records V) : Point V → Prop
  | .fetching _ current | .comparing _ current | .sleeping _ current _ =>
    current = empty ∨ Fetched records current
  | .leaving true | .returned true =>
    ∃ value, Fetched records value ∧ wait.equals value wait.value = true
  | _ => True

omit [AnyValue V] in
theorem Fetched.more {value : V} (fetched : Fetched records value) (more : Records V) :
    Fetched (records ++ more) value := by
  obtain ⟨r,known,read⟩ := fetched
  exact ⟨r,List.mem_append_left _ known,read⟩

theorem Backed.more {point : Point V} (backed : Backed wait records point) (more : Records V) :
    Backed wait (records ++ more) point := by
  cases point with
  | fetching endTime current | comparing endTime current | sleeping endTime current wakeUp =>
    exact backed.imp_right fun fetched => fetched.more more
  | leaving answer | returned answer =>
    cases answer with
    | false => trivial
    | true =>
      obtain ⟨value,fetched,equal⟩ := backed
      exact ⟨value,fetched.more more,equal⟩
  | _ => trivial

theorem advance_backed (nonempty : isEmptyValue wait.value = false)
    (emptyEquals : ∀ value, wait.equals empty value = true → isEmptyValue value = true)
    (backed : Backed wait records s.point) :
    Backed wait (records ++ [record wait.step s .waiter]) (wait.advance s).2.point := by
  have read {info : Bool × V} (shown : (wait.advance s).1 = some info) (available : info.1 = true) :
      Fetched (records ++ [record wait.step s .waiter]) info.2 := by
    refine ⟨record wait.step s .waiter,by simp,?_⟩
    change (wait.advance s).1 = _
    rw [shown,← available]
  unfold advance at read ⊢
  cases here : s.point with
  | called => cases supported : wait.callbackSupported <;> trivial
  | guarded => trivial
  | waiting =>
    rcases look_cases s with ⟨_,next⟩ | ⟨_,_,next⟩ | ⟨_,_,next⟩
    · simp only [next]
      trivial
    · simp only [next]
      trivial
    · simp only [next,here]
      trivial
  | reading =>
    simp only [here] at read ⊢
    split
    · rename_i accepted
      obtain ⟨available,equal⟩ := Bool.and_eq_true_iff.mp accepted
      exact ⟨s.current.2,read rfl available,equal⟩
    · trivial
  | unsupported => exact Or.inl rfl
  | fetching endTime current =>
    rw [here] at backed
    simp only [here] at read ⊢
    split
    · rename_i available
      exact Or.inr (read rfl available)
    · exact backed.more _
  | comparing endTime current =>
    rw [here] at backed
    dsimp only
    split
    · rename_i equal
      rcases backed with unset | fetched
      · rw [unset] at equal
        cases nonempty.symm.trans (emptyEquals _ equal)
      · exact ⟨current,fetched.more _,equal⟩
    · split
      · trivial
      · exact backed.more _
  | sleeping endTime current wakeUp =>
    rw [here] at backed
    dsimp only
    split
    · exact backed.more _
    · rw [here]
      exact backed.more _
  | leaving answer =>
    rw [here] at backed
    have kept := backed.more [record wait.step s .waiter]
    cases answer <;> exact kept
  | returned answer =>
    rw [here] at backed
    dsimp only
    rw [here]
    exact backed.more _

theorem step_backed (nonempty : isEmptyValue wait.value = false)
    (emptyEquals : ∀ value, wait.equals empty value = true → isEmptyValue value = true)
    (records : Records V) (s : State V) (event : Event V) (backed : Backed wait records s.point) :
    Backed wait (records ++ [record wait.step s event]) (wait.step s event).2.point := by
  cases event with
  | waiter => exact advance_backed nonempty emptyEquals backed
  | update available value => exact backed.more _
  | tick passed => exact backed.more _
  | deliver =>
    have same : (deliver s).point = s.point := by
      unfold deliver
      split <;> rfl
    change Backed wait _ (deliver s).point
    rw [same]
    exact backed.more _

end Sound

section Held
variable {wait : VariableWait V} {s : State V} {event : Event V}

-- The flag is up wherever the thread will look at it before it reads back.
def Raised (s : State V) : Prop :=
  match s.point with
  | .called | .reading | .leaving true | .returned true => True
  | .guarded | .waiting => s.result = true
  | _ => False

theorem Raised.flagged (raised : Raised s) {undelivered : List Bool} {delivered : Nat} {result : Bool}
    (up : s.result = true → result = true) :
    Raised {s with undelivered := undelivered, delivered := delivered, result := result} := by
  unfold Raised at raised ⊢
  cases here : s.point with
  | guarded | waiting =>
    rw [here] at raised
    exact up raised
  | leaving answer | returned answer =>
    rw [here] at raised
    cases answer <;> exact raised
  | _ =>
    rw [here] at raised
    exact raised

-- The variable has the expected value, every callback on its way says so, and the
-- thread will find out.
structure Held (wait : VariableWait V) (s : State V) : Prop where
  supported : wait.callbackSupported = true
  accepted : wait.accepts s.current = true
  connected : ∀ flag ∈ s.undelivered, flag = true
  raised : Raised s

variable [AnyValue V]

theorem advance_held (held : Held wait s) : Held wait (wait.advance s).2 := by
  obtain ⟨supported,accepted,connected,raised⟩ := held
  unfold Raised at raised
  unfold advance
  cases here : s.point with
  | called =>
    refine ⟨supported,accepted,connected,?_⟩
    simp [Raised,supported]
  | guarded =>
    rw [here] at raised
    exact ⟨supported,accepted,connected,raised⟩
  | waiting =>
    rw [here] at raised
    have next : look s = {s with result := false, point := .reading} := if_pos raised
    rw [next]
    exact ⟨supported,accepted,connected,trivial⟩
  | reading =>
    refine ⟨supported,accepted,connected,?_⟩
    simp [Raised,accepted]
  | unsupported | fetching endTime current | comparing endTime current
  | sleeping endTime current wakeUp =>
    rw [here] at raised
    exact raised.elim
  | leaving answer | returned answer =>
    rw [here] at raised
    cases answer with
    | false => exact raised.elim
    | true => exact ⟨supported,accepted,connected,by simp [Raised,here]⟩

theorem step_held (keeps : event.keeps wait = true) (held : Held wait s) :
    Held wait (wait.step s event).2 := by
  cases event with
  | waiter => exact advance_held held
  | tick passed => exact ⟨held.supported,held.accepted,held.connected,held.raised⟩
  | update available value =>
    have on : available = true := (Bool.and_eq_true_iff.mp keeps).1
    refine ⟨held.supported,keeps,?_,held.raised⟩
    intro flag member
    rcases List.mem_append.mp member with old | new
    · exact held.connected flag old
    · exact (List.mem_singleton.mp new).trans on
  | deliver =>
    change Held wait (deliver s)
    rcases deliver_cases s with ⟨_,same⟩ | ⟨connected,rest,queue,same⟩
    · rw [same]
      exact held
    · rw [same]
      have up : connected = true := held.connected connected (by rw [queue]; simp)
      refine ⟨held.supported,held.accepted,?_,?_⟩
      · exact fun flag member => held.connected flag (by rw [queue]; exact List.mem_cons_of_mem _ member)
      · apply held.raised.flagged
        intro flag
        split
        · exact up
        · exact flag

theorem run_held {events : List (Event V)} (keeps : ∀ event ∈ events, event.keeps wait = true)
    (held : Held wait s) : Held wait (run wait.step s events) := by
  induction events generalizing s with
  | nil => exact held
  | cons event events ih =>
    have next := step_held (keeps event List.mem_cons_self) held
    exact ih (fun e known => keeps e (List.mem_cons_of_mem _ known)) next

omit [AnyValue V] in
theorem held_unrefused (held : Held wait s) : ¬ Answers s false := by
  have raised := held.raised
  unfold Raised at raised
  intro refused
  rcases refused with here | here <;> rw [here] at raised <;> exact raised

end Held

section Notice
variable {wait : VariableWait V} {s : State V} {number : Nat} {event : Event V}

-- In the callback path the callback is set exactly while the guard is alive, and the
-- thread gives up only at the deadline.
def Placed (s : State V) : Prop :=
  match s.point with
  | .called | .returned _ => s.callbackSet = false
  | .guarded | .waiting | .reading | .leaving true => True
  | .leaving false => ∃ finish, s.finish = some finish ∧ finish ≤ s.now
  | _ => False

structure Coming (wait : VariableWait V) (number : Nat) (s : State V) : Prop where
  accepted : wait.accepts s.current = true
  queued : s.delivered ≤ number → number < s.delivered + s.undelivered.length
  connected : ∀ flag ∈ s.undelivered.drop (number - s.delivered), flag = true

variable [AnyValue V]

theorem step_placed (supported : wait.callbackSupported = true) (event : Event V) (placed : Placed s) :
    Placed (wait.step s event).2 := by
  unfold Placed at placed
  cases event with
  | update available value => exact placed
  | tick passed =>
    unfold Placed
    dsimp only [step]
    cases here : s.point with
    | leaving answer =>
      rw [here] at placed
      cases answer with
      | true => trivial
      | false =>
        obtain ⟨finish,known,late⟩ := placed
        exact ⟨finish,known,by omega⟩
    | _ =>
      rw [here] at placed
      exact placed
  | deliver =>
    change Placed (deliver s)
    rcases deliver_cases s with ⟨_,same⟩ | ⟨_,_,_,same⟩ <;> rw [same] <;> exact placed
  | waiter =>
    change Placed (wait.advance s).2
    unfold advance
    cases here : s.point with
    | called => simp [Placed,supported]
    | guarded => trivial
    | waiting =>
      rcases look_cases s with ⟨_,next⟩ | ⟨_,late,next⟩ | ⟨_,_,next⟩
      · simp only [next]
        trivial
      · simp only [next]
        exact late
      · simp only [next]
        simp [Placed,here]
    | reading => cases wait.accepts s.current <;> simp [Placed]
    | unsupported | fetching endTime current | comparing endTime current
    | sleeping endTime current wakeUp =>
      rw [here] at placed
      exact placed.elim
    | leaving answer => rfl
    | returned answer =>
      rw [here] at placed
      simpa [Placed,here] using placed

theorem step_coming (keeps : event.keeps wait = true) (coming : Coming wait number s) :
    Coming wait number (wait.step s event).2 := by
  obtain ⟨accepted,queued,connected⟩ := coming
  cases event with
  | tick passed => exact ⟨accepted,queued,connected⟩
  | update available value =>
    have on : available = true := (Bool.and_eq_true_iff.mp keeps).1
    refine ⟨keeps,?_,?_⟩
    · intro ahead
      have bound := queued ahead
      simp only [step,List.length_append]
      omega
    · intro flag member
      simp only [step,List.drop_append,List.mem_append] at member
      rcases member with old | new
      · exact connected flag old
      · exact (List.mem_singleton.mp (List.mem_of_mem_drop new)).trans on
  | deliver =>
    change Coming wait number (deliver s)
    rcases deliver_cases s with ⟨_,same⟩ | ⟨first,rest,queue,same⟩
    · rw [same]
      exact ⟨accepted,queued,connected⟩
    · rw [same]
      rw [queue] at queued connected
      refine ⟨accepted,?_,?_⟩
      · intro ahead
        have bound := queued (by dsimp only at ahead; omega)
        simp only [List.length_cons] at bound
        dsimp only
        omega
      · intro flag member
        apply connected flag
        by_cases out : number ≤ s.delivered
        · have none : number - s.delivered = 0 := by omega
          have gone : number - (s.delivered + 1) = 0 := by omega
          rw [none]
          simp only [gone,List.drop_zero] at member
          exact List.mem_cons_of_mem _ member
        · have one : number - s.delivered = number - (s.delivered + 1) + 1 := by omega
          rw [one,List.drop_succ_cons]
          exact member
  | waiter =>
    obtain ⟨current,undelivered,delivered⟩ := advance_variable wait s
    change Coming wait number (wait.advance s).2
    refine ⟨by rw [current]; exact accepted,?_,?_⟩
    · rw [undelivered,delivered]
      exact queued
    · rw [undelivered,delivered]
      exact connected

omit [AnyValue V] in
theorem deliver_held (supported : wait.callbackSupported = true) (placed : Placed s)
    (coming : Coming wait number s) (turn : s.delivered = number) (set : s.callbackSet = true)
    (early : BeforeDeadline s) : Held wait (deliver s) := by
  have queued := coming.queued (by omega)
  have connected := coming.connected
  rw [turn,Nat.sub_self,List.drop_zero] at connected
  rcases deliver_cases s with ⟨none,_⟩ | ⟨first,rest,queue,same⟩
  · rw [none] at queued
    simp only [List.length_nil] at queued
    omega
  · have up : first = true := connected first (by rw [queue]; simp)
    rw [same]
    refine ⟨supported,coming.accepted,?_,?_⟩
    · exact fun flag member => connected flag (by rw [queue]; exact List.mem_cons_of_mem _ member)
    · unfold Placed at placed
      unfold Raised
      dsimp only
      cases here : s.point with
      | called | returned answer =>
        rw [here] at placed
        cases placed.symm.trans set
      | guarded | waiting => simp [set,up]
      | reading => trivial
      | leaving answer =>
        rw [here] at placed
        cases answer with
        | true => trivial
        | false =>
          obtain ⟨finish,known,late⟩ := placed
          have ahead := early finish known
          omega
      | unsupported | fetching endTime current | comparing endTime current
      | sleeping endTime current wakeUp =>
        rw [here] at placed
        exact placed

theorem keeps_later {s : State V} {events : List (Event V)}
    (keeps : ∀ r ∈ history wait.step s events, r.event.keeps wait = true) :
    ∀ event ∈ events, event.keeps wait = true := by
  intro event member
  have recorded : event ∈ (history wait.step s events).map (·.event) := by
    rw [history_events]
    exact member
  obtain ⟨r,known,same⟩ := List.mem_map.mp recorded
  rw [← same]
  exact keeps r known

theorem notified_held (supported : wait.callbackSupported = true) {s : State V} {events : List (Event V)}
    (placed : Placed s) (notified : Notified wait (history wait.step s events)) :
    Held wait (run wait.step s events) := by
  obtain ⟨earlier,u,later,split,⟨available,value,update⟩,keeps,d,member,deliver,turn,set,early⟩ := notified
  obtain ⟨between,after,parts⟩ := List.append_of_mem member
  rw [parts] at split keeps
  have whole : history wait.step s events = (earlier ++ u :: between) ++ d :: after := by
    rw [split]
    simp
  have reached : Placed d.before := by
    refine history_accumulates (P := fun _ s => Placed s) placed ?_ whole
    intro past r future split held
    obtain ⟨_,_,_,here⟩ := run_resumes split
    rw [here]
    exact step_placed supported r.event held
  obtain ⟨rest,remaining,_,updating⟩ := run_resumes split
  have coming : Coming wait (u.before.delivered + u.before.undelivered.length) d.before := by
    refine history_accumulates
      (P := fun _ s => Coming wait (u.before.delivered + u.before.undelivered.length) s) ?_ ?_ remaining.symm
    · have accepted := keeps u List.mem_cons_self
      rw [update] at accepted
      have on : available = true := (Bool.and_eq_true_iff.mp accepted).1
      rw [updating,update]
      refine ⟨accepted,?_,?_⟩
      · intro _
        simp [record,step]
      · intro flag queued
        simp only [record,step,Nat.add_sub_cancel_left,List.drop_left] at queued
        exact (List.mem_singleton.mp queued).trans on
    · intro past r future parts held
      obtain ⟨_,_,_,here⟩ := run_resumes parts
      have known : r ∈ between ++ d :: after := by
        rw [remaining,parts]
        simp
      rw [here]
      exact step_coming (keeps r (List.mem_cons_of_mem _ known)) held
  obtain ⟨last,following,final,delivering⟩ := run_resumes whole
  rw [final]
  refine run_held ?_ ?_
  · refine keeps_later ?_ (s := d.after)
    intro r known
    rw [← following] at known
    exact keeps r (List.mem_cons_of_mem _ (List.mem_append_right _ (List.mem_cons_of_mem _ known)))
  · have held := deliver_held supported reached coming turn set early
    rw [delivering,deliver]
    exact held

end Notice

section Results
variable [AnyValue V]

theorem contract (wait : VariableWait V) (nonempty : isEmptyValue wait.value = false)
    (emptyEquals : ∀ value, wait.equals empty value = true → isEmptyValue value = true)
    (current : Bool × V) (undelivered : List Bool) (now : Int) (events : List (Event V)) :
    Contract wait (begin current undelivered now) events := by
  refine ⟨?_,?_,?_⟩
  · intro answered
    have initially : Backed wait [] (begin current undelivered now).point := trivial
    have backed := history_collects (P := fun records s => Backed wait records s.point)
      (step_backed nonempty emptyEquals) initially events
    rcases answered with here | here <;> (rw [here] at backed; exact backed)
  · intro supported accepted quiet keeps
    refine held_unrefused (run_held keeps ⟨supported,accepted,?_,trivial⟩)
    intro flag member
    rw [quiet] at member
    cases member
  · intro supported notified
    exact held_unrefused (notified_held supported rfl notified)

def onArrival : List (Event Reference.Value) :=
  [.waiter,.waiter,.waiter,.waiter,.update true (.string "on"),.tick 9,.deliver,.tick 5,.waiter,.waiter,
   .waiter]

theorem contract_arrival :
    let wait : VariableWait Reference.Value := ⟨.string "on",10,true,fun left right => left == right⟩
    Contract wait (begin (true,.string "off") [] 0) onArrival ∧
    (run wait.step (begin (true,.string "off") [] 0) onArrival).point = .returned true := by
  intro wait
  refine ⟨contract wait rfl ?_ (true,.string "off") [] 0 onArrival,by decide⟩
  intro value equal
  rw [← eq_of_beq equal]
  rfl

end Results

end SupProtocol.VariableWait
