import SupProtocol.DecodedVariable
import SupProtocol.WaitContract

namespace SupProtocol.VariableWait.EncodedWait
open Machine

variable {V : Type} [AnyValue V]

def getValue (codec : VariableCodec V) (encoded : Bool × V) : Bool × V :=
  if !encoded.1 then (false,empty) else codec.decode encoded.2

-- The callback of the wait looks at its flag only. The underlying variable calls
-- it in the wrapper of the encoded one.
def callback : Callback V Bool := some fun _ connected => ⟨[connected],none⟩

-- The state of a wait on an encoded variable is that of a wait on the underlying
-- one: `current` is the encoded value. The wait itself sees the decoded one.
def view (codec : VariableCodec V) (s : State V) : State V := {s with current := getValue codec s.current}

def step (codec : VariableCodec V) (wait : VariableWait V) (s : State V) :
    Event V → Option (Bool × V) × State V
  | .waiter =>
    let (read,next) := wait.advance (view codec s)
    (read,{next with current := s.current})
  | .update available value =>
    (none,{s with
      current := (available,value)
      undelivered := s.undelivered ++ (wrappedCb codec callback value available).observed})
  | .deliver => (none,deliver s)
  | .tick passed => (none,{s with now := s.now + passed})

def seen (codec : VariableCodec V) : Event V → Event V
  | .update available value =>
    .update (getValue codec (available,value)).1 (getValue codec (available,value)).2
  | event => event

theorem wrapped_flag (codec : VariableCodec V) (available : Bool) (value : V) :
    (wrappedCb codec callback value available).observed = [(getValue codec (available,value)).1] := by
  cases available <;> simp [wrappedCb,callback,Callback.call,getValue]

def decodedRecord (codec : VariableCodec V) :
    Record (State V) (Event V) (Option (Bool × V)) → Record (State V) (Event V) (Option (Bool × V)) :=
  Record.seen (view codec) (seen codec)

theorem step_seen (codec : VariableCodec V) (wait : VariableWait V) :
    Seen (step codec wait) wait.step (view codec) (seen codec) := by
  intro s event
  cases event with
  | update available value =>
    simp only [VariableWait.step,step,seen,view,wrapped_flag]
  | tick passed => rfl
  | waiter =>
    have kept : (wait.advance (view codec s)).2.current = getValue codec s.current :=
      (advance_variable wait (view codec s)).1
    change wait.advance (view codec s) = ((wait.advance (view codec s)).1,
      {(wait.advance (view codec s)).2 with current := getValue codec s.current})
    rw [← kept]
  | deliver =>
    change (none,deliver (view codec s)) = (none,view codec (deliver s))
    unfold deliver
    cases queue : s.undelivered with
    | nil => simp [view,queue]
    | cons connected rest => simp [view,queue]

theorem advance_reads (wait : VariableWait V) (s : State V) {info : Bool × V}
    (read : (wait.advance s).1 = some info) : info = s.current := by
  unfold advance at read
  cases here : s.point <;> simp only [here] at read <;> first | cases read; rfl | cases read

theorem step_reads {codec : VariableCodec V} {wait : VariableWait V} {s : State V} {event : Event V}
    {info : Bool × V} (read : (step codec wait s event).1 = some info) :
    info = getValue codec s.current := by
  cases event with
  | waiter => exact advance_reads wait (view codec s) read
  | _ => cases read

theorem getValue_true {codec : VariableCodec V} {encoded : Bool × V} {value : V}
    (read : getValue codec encoded = (true,value)) :
    encoded.1 = true ∧ codec.decode encoded.2 = (true,value) := by
  unfold getValue at read
  cases available : encoded.1 with
  | false => simp [available] at read
  | true => exact ⟨rfl,by simpa [available] using read⟩

section Base64
variable [Codec V]

def Shows (wait : VariableWait V) (content : V) : Prop :=
  ∃ value, Decodes content value ∧ wait.equals value wait.value = true

-- The expected value was written through some encoded variable, from then on the
-- content was always one of its encodings, and the callback of the write was
-- delivered to the wait before the deadline.
def Written (wait : VariableWait V) (records : Records V) : Prop :=
  ∃ earlier u later, records = earlier ++ u :: later ∧
    (∃ encoded, u.event = .update true encoded ∧
      Access.Base64VariableCodec.encode wait.value = .ok (true,encoded)) ∧
    (∀ r ∈ later, ∀ available content, r.event = .update available content →
      available = true ∧ Shows wait content) ∧
    ∃ d ∈ later, d.event = .deliver ∧
      d.before.delivered = u.before.delivered + u.before.undelivered.length ∧
      d.before.callbackSet = true ∧ BeforeDeadline d.before

structure Base64Contract (wait : VariableWait V) (s : State V) (events : List (Event V)) : Prop where
  sound : Answers (run (step base64VariableCodec wait) s events) true →
    ∃ r ∈ history (step base64VariableCodec wait) s events, ∃ value, r.output = some (true,value) ∧
      r.before.current.1 = true ∧ Decodes r.before.current.2 value ∧ wait.equals value wait.value = true
  heard : wait.callbackSupported = true →
    Written wait (history (step base64VariableCodec wait) s events) →
    ¬ Answers (run (step base64VariableCodec wait) s events) false

theorem shows_accepts {wait : VariableWait V} {content : V} (shows : Shows wait content) :
    wait.accepts (getValue base64VariableCodec (true,content)) = true := by
  obtain ⟨value,decodes,equal⟩ := shows
  have decoded : Base64VariableCodec.decode content = (true,value) := by
    rw [decode_reads,(decoded_exact content value).mpr decodes]
    rfl
  simp [VariableWait.accepts,getValue,base64VariableCodec,decoded,equal]

theorem written_notified [LawfulAnyValue V] [LawfulCodec V]
    (named : isMemberName V kValueField = true) {wait : VariableWait V} {records : Records V}
    (same : wait.equals wait.value wait.value = true) (written : Written wait records) :
    Notified wait (records.map (decodedRecord base64VariableCodec)) := by
  obtain ⟨earlier,u,later,split,⟨encoded,update,writes⟩,keeps,d,member,deliver,turn,set,early⟩ := written
  obtain ⟨content,again,decodes⟩ := encode_decodes named wait.value
  cases writes.symm.trans again
  refine ⟨earlier.map (decodedRecord _),decodedRecord _ u,later.map (decodedRecord _),
    by rw [split,List.map_append,List.map_cons],?_,?_,decodedRecord _ d,List.mem_map_of_mem member,?_,turn,
    set,early⟩
  · simp only [decodedRecord,Record.seen,update,seen]
    exact ⟨_,_,rfl⟩
  · intro r known
    rw [← List.map_cons] at known
    obtain ⟨raw,here,rfl⟩ := List.mem_map.mp known
    rcases List.mem_cons.mp here with rfl | after
    · simp only [decodedRecord,Record.seen,update,seen,Event.keeps]
      exact shows_accepts ⟨wait.value,decodes,same⟩
    · cases event : raw.event with
      | update available value =>
        obtain ⟨on,shows⟩ := keeps raw after available value event
        subst on
        simp only [decodedRecord,Record.seen,event,seen,Event.keeps]
        exact shows_accepts shows
      | _ => simp [decodedRecord,Record.seen,event,seen,Event.keeps]
  · simp only [decodedRecord,Record.seen,deliver,seen]

-- A wait on a Base64ProcessVariable returns true only for a content that decodes
-- to the expected value, and does not miss one that is written.
theorem base64_wait_contract [LawfulAnyValue V] [LawfulCodec V]
    (named : isMemberName V kValueField = true) (wait : VariableWait V)
    (nonempty : isEmptyValue wait.value = false)
    (emptyEquals : ∀ value, wait.equals empty value = true → isEmptyValue value = true)
    (same : wait.equals wait.value wait.value = true) (current : Bool × V) (undelivered : List Bool)
    (now : Int) (events : List (Event V)) :
    Base64Contract wait (begin current undelivered now) events := by
  have sees := step_seen base64VariableCodec wait
  have ran := run_seen sees (begin current undelivered now) events
  have recorded : history wait.step (view base64VariableCodec (begin current undelivered now))
      (events.map (seen base64VariableCodec)) =
      (history (step base64VariableCodec wait) (begin current undelivered now) events).map
        (decodedRecord base64VariableCodec) := history_seen sees _ events
  refine ⟨?_,?_⟩
  · intro answered
    have initially : Backed wait [] (view base64VariableCodec (begin current undelivered now)).point :=
      trivial
    have backed := history_collects (P := fun records s => Backed wait records s.point)
      (step_backed nonempty emptyEquals) initially (events.map (seen base64VariableCodec))
    rw [ran,recorded,List.nil_append] at backed
    have fetched : ∃ value, Fetched ((history (step base64VariableCodec wait)
        (begin current undelivered now) events).map (decodedRecord base64VariableCodec)) value ∧ wait.equals value wait.value = true := by
      rcases answered with here | here <;>
        (simp only [view,here] at backed; exact backed)
    obtain ⟨value,⟨r,known,read⟩,equal⟩ := fetched
    obtain ⟨raw,member,rfl⟩ := List.mem_map.mp known
    obtain ⟨_,event,_,_,here⟩ := history_member member
    have output : (step base64VariableCodec wait raw.before event).1 = some (true,value) := by
      rw [here] at read ⊢
      exact read
    obtain ⟨available,decoded⟩ := getValue_true (step_reads output).symm
    refine ⟨raw,member,value,read,available,(decoded_exact _ value).mp ?_,equal⟩
    change Base64VariableCodec.decode _ = _ at decoded
    simp [Base64VariableCodec.decoded,decoded]
  · intro supported written refused
    have notified := written_notified named same written
    rw [← recorded] at notified
    refine held_unrefused (notified_held supported ?_ notified) ?_
    · exact rfl
    · rw [ran]
      exact refused

end Base64

def fiveAwaited : VariableWait Reference.Value :=
  ⟨.unsignedInteger32 5,10,true,fun left right => left == right⟩

def writtenInTime : List (Event Reference.Value) :=
  [.waiter,.waiter,.waiter,.waiter,.update true (.string "no encoding"),.update true encodedFive,.tick 9,
   .deliver,.deliver,.tick 5,.waiter,.waiter,.waiter]

theorem base64_wait_contract_written :
    Base64Contract fiveAwaited (begin (true,.unsignedInteger32 5) [] 0) writtenInTime ∧
    (run (step base64VariableCodec fiveAwaited) (begin (true,.unsignedInteger32 5) [] 0)
      writtenInTime).point = .returned true := by
  refine ⟨base64_wait_contract rfl fiveAwaited rfl ?_ rfl (true,.unsignedInteger32 5) [] 0
    writtenInTime,by decide⟩
  intro value equal
  rw [← eq_of_beq equal]
  rfl

end SupProtocol.VariableWait.EncodedWait
