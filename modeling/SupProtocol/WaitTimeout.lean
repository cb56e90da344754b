import SupProtocol.VariableWait

namespace SupProtocol.VariableWait
open Machine

variable {V : Type}

section Timeout
variable [AnyValue V]

def lateRead (r : Record (State V) (Event V) (Option (Bool × V))) : Bool :=
  match r.event,r.before.point,r.before.finish with
  | .waiter,.reading,some finish => decide (finish ≤ r.before.now)
  | _,_,_ => false

def looks (r : Record (State V) (Event V) (Option (Bool × V))) : Bool :=
  match r.event,r.before.point with
  | .waiter,.waiting => true
  | _,_ => false

def reports (r : Record (State V) (Event V) (Option (Bool × V))) : Option Bool :=
  match r.event,r.before.undelivered with
  | .deliver,connected :: _ => some connected
  | _,_ => none

def sinceLook (records : Records V) : Option Bool :=
  records.foldl (fun last r => if looks r then none else (reports r).or last) none

def Over (s : State V) : Prop := ∃ answer, Answers s answer

def Due (s : State V) : Prop := ∃ finish, s.finish = some finish ∧ finish ≤ s.now

-- At the deadline a look no longer blocks, there is at most one more read-back, and
-- whatever the thread does after that is to return.
structure RespectsTimeout (records : Records V) : Prop where
  unblocked : ∀ r ∈ records, looks r = true → Due r.before → r.after.point = .reading ∨ Over r.after
  once : records.countP lateRead ≤ 1
  returns : ∀ earlier r between last later, records = earlier ++ r :: (between ++ last :: later) →
    lateRead r = true → last.event = .waiter → Over last.after

-- After a late read-back the thread never looks when the last callback since its
-- look before said "connected".
def Calm (records : Records V) : Prop :=
  ∀ earlier r later, records = earlier ++ r :: later → earlier.any lateRead = true →
    looks r = true → sinceLook earlier ≠ some true

section Steps
variable {wait : VariableWait V} {s : State V} {event : Event V}

def Ending (s : State V) : Prop :=
  Over s ∨ (s.point = .waiting ∧ Due s)

omit [AnyValue V] in
theorem lateRead_exact {r : Record (State V) (Event V) (Option (Bool × V))} (late : lateRead r = true) :
    r.event = .waiter ∧ r.before.point = .reading ∧ Due r.before := by
  unfold lateRead at late
  split at late
  · rename_i finish event point known
    exact ⟨event,point,finish,known,by simpa using late⟩
  · cases late

omit [AnyValue V] in
theorem looks_exact {r : Record (State V) (Event V) (Option (Bool × V))} :
    looks r = true ↔ r.event = .waiter ∧ r.before.point = .waiting := by
  unfold looks
  constructor
  · intro looked
    split at looked
    · rename_i event point
      exact ⟨event,point⟩
    · cases looked
  · intro ⟨event,point⟩
    rw [event,point]

omit [AnyValue V] in
theorem Ending.notReading (ending : Ending s) : s.point ≠ .reading := by
  intro here
  rcases ending with ⟨answer,left | back⟩ | ⟨waiting,_⟩
  · cases here.symm.trans left
  · cases here.symm.trans back
  · cases here.symm.trans waiting

theorem read_ending (here : s.point = .reading) (late : Due s) : Ending (wait.step s .waiter).2 := by
  change Ending (wait.advance s).2
  unfold advance
  rw [here]
  cases accepted : wait.accepts s.current with
  | true => exact Or.inl ⟨true,Or.inl (by simp)⟩
  | false => exact Or.inr ⟨by simp,late⟩

theorem over_step (answered : Over s) (event : Event V) : Over (wait.step s event).2 := by
  obtain ⟨answer,point⟩ := answered
  cases event with
  | update available value => exact ⟨answer,point⟩
  | tick passed => exact ⟨answer,point⟩
  | deliver =>
    refine ⟨answer,?_⟩
    change Answers (VariableWait.deliver s) answer
    rcases deliver_cases s with ⟨_,same⟩ | ⟨_,_,_,same⟩ <;> rw [same] <;> exact point
  | waiter =>
    refine ⟨answer,?_⟩
    change Answers (wait.advance s).2 answer
    unfold advance
    rcases point with here | here
    · rw [here]
      exact Or.inr rfl
    · rw [here]
      exact Or.inr here

-- With the flag down a look at the deadline is the last.
theorem look_over (wait : VariableWait V) (waiting : s.point = .waiting) (late : Due s)
    (down : s.result = false) : Over (wait.step s .waiter).2 := by
  obtain ⟨finish,known,passed⟩ := late
  refine ⟨false,Or.inl ?_⟩
  change (wait.advance s).2.point = _
  unfold advance
  rw [waiting]
  simp [look,down,known,passed]

theorem step_ending (ending : Ending s)
    (calm : event = .waiter → s.point = .waiting → s.result = false) :
    Ending (wait.step s event).2 ∧ (event = .waiter → Over (wait.step s event).2) := by
  rcases ending with answered | ⟨waiting,late⟩
  · exact ⟨Or.inl (over_step answered event),fun _ => over_step answered event⟩
  · cases event with
    | waiter =>
      have answered := look_over wait waiting late (calm rfl waiting)
      exact ⟨Or.inl answered,fun _ => answered⟩
    | update available value => exact ⟨Or.inr ⟨waiting,late⟩,fun other => by cases other⟩
    | tick passed =>
      obtain ⟨finish,known,ordered⟩ := late
      refine ⟨Or.inr ⟨waiting,finish,known,?_⟩,fun other => by cases other⟩
      simp only [step]
      omega
    | deliver =>
      refine ⟨?_,fun other => by cases other⟩
      change Ending (VariableWait.deliver s)
      rcases deliver_cases s with ⟨_,same⟩ | ⟨_,_,_,same⟩ <;> rw [same] <;>
        exact Or.inr ⟨waiting,late⟩

theorem look_reads (wait : VariableWait V) (waiting : s.point = .waiting) (up : s.result = true) :
    (wait.step s .waiter).2.point = .reading := by
  change (wait.advance s).2.point = _
  unfold advance
  rw [waiting]
  simp [look,up]

end Steps

section Flag
variable {wait : VariableWait V} {s : State V} {records : Records V}

-- Up to its first look the thread has the flag it started with. From then on the
-- flag says what the last callback since the last look said.
def Follows (records : Records V) (s : State V) : Prop :=
  match s.point with
  | .called => records.any looks = false
  | .guarded => records.any looks = false ∧ s.callbackSet = true
  | .waiting => s.callbackSet = true ∧
    (records.any looks = true → s.result = (sinceLook records == some true))
  | .reading => s.callbackSet = true ∧ records.any looks = true ∧
    s.result = (sinceLook records == some true)
  | _ => True

omit [AnyValue V] in
theorem sinceLook_snoc (records : Records V) (r : Record (State V) (Event V) (Option (Bool × V))) :
    sinceLook (records ++ [r]) = if looks r then none else (reports r).or (sinceLook records) := by
  simp only [sinceLook,List.foldl_append,List.foldl_cons,List.foldl_nil]

omit [AnyValue V] in
theorem Follows.silent (follows : Follows records s)
    {r : Record (State V) (Event V) (Option (Bool × V))} (unlooked : looks r = false)
    (silent : reports r = none) : Follows (records ++ [r]) s := by
  unfold Follows at follows ⊢
  simp only [List.any_append,List.any_cons,List.any_nil,sinceLook_snoc,unlooked,silent,Bool.or_false,
    Option.none_or]
  exact follows

theorem deliver_follows (follows : Follows records s) :
    Follows (records ++ [record wait.step s .deliver]) (deliver s) := by
  have unlooked : looks (record wait.step s .deliver) = false := rfl
  rcases deliver_cases s with ⟨none,same⟩ | ⟨connected,rest,queue,same⟩
  · rw [same]
    exact follows.silent unlooked (by simp [reports,record,none])
  · have said : reports (record wait.step s .deliver) = some connected := by
      simp [reports,record,queue]
    rw [same]
    unfold Follows at follows ⊢
    simp only [List.any_append,List.any_cons,List.any_nil,sinceLook_snoc,unlooked,said,Bool.or_false,
      Option.some_or]
    cases here : s.point with
    | called | guarded =>
      rw [here] at follows
      exact follows
    | waiting =>
      rw [here] at follows
      obtain ⟨set,_⟩ := follows
      exact ⟨set,fun _ => by simp [set]⟩
    | reading =>
      rw [here] at follows
      obtain ⟨set,looked,_⟩ := follows
      exact ⟨set,looked,by simp [set]⟩
    | _ => trivial

theorem advance_follows (follows : Follows records s) :
    Follows (records ++ [record wait.step s .waiter]) (wait.advance s).2 := by
  have silent : reports (record wait.step s .waiter) = none := rfl
  by_cases waiting : s.point = .waiting
  -- A look clears the flag, so that nothing has been said since.
  · have looked : looks (record wait.step s .waiter) = true := looks_exact.mpr ⟨rfl,waiting⟩
    unfold Follows at follows
    rw [waiting] at follows
    unfold advance Follows
    simp only [waiting,List.any_append,List.any_cons,sinceLook_snoc,looked,Bool.true_or,Bool.or_true,
      if_true]
    rcases look_cases s with ⟨_,next⟩ | ⟨_,_,next⟩ | ⟨down,_,next⟩
    · rw [next]
      exact ⟨follows.1,trivial,rfl⟩
    · rw [next]
      trivial
    · rw [next,waiting]
      exact ⟨follows.1,fun _ => down⟩
  · have unlooked : looks (record wait.step s .waiter) = false := by
      rw [Bool.eq_false_iff]
      exact fun looked => waiting (looks_exact.mp looked).2
    have followed := follows.silent unlooked silent
    unfold Follows at followed
    unfold advance
    cases here : s.point with
    | called =>
      rw [here] at followed
      cases supported : wait.callbackSupported with
      | true => exact ⟨followed,rfl⟩
      | false => trivial
    | guarded =>
      rw [here] at followed
      refine ⟨followed.2,?_⟩
      intro looked
      cases followed.1.symm.trans looked
    | waiting => exact absurd here waiting
    | reading =>
      rw [here] at followed
      unfold Follows
      cases wait.accepts s.current with
      | true => trivial
      | false => exact ⟨followed.1,fun _ => followed.2.2⟩
    | sleeping endTime current wakeUp =>
      dsimp only
      split
      · trivial
      · unfold Follows
        rw [here]
        trivial
    | comparing endTime current =>
      dsimp only
      split
      · trivial
      · split <;> trivial
    | returned answer =>
      unfold Follows
      dsimp only
      rw [here]
      trivial
    | _ => trivial

theorem step_follows (event : Event V) (follows : Follows records s) :
    Follows (records ++ [record wait.step s event]) (wait.step s event).2 := by
  cases event with
  | waiter => exact advance_follows follows
  | deliver => exact deliver_follows follows
  | update available value =>
    have followed := follows.silent (r := record wait.step s (.update available value)) rfl rfl
    exact followed
  | tick passed =>
    have followed := follows.silent (r := record wait.step s (.tick passed)) rfl rfl
    exact followed

end Flag

section Exact
variable {wait : VariableWait V} {s : State V} {events : List (Event V)} {earlier later : Records V}
  {r : Record (State V) (Event V) (Option (Bool × V))}

theorem history_follows (initially : Follows [] s)
    (split : history wait.step s events = earlier ++ r :: later) : Follows earlier r.before := by
  refine history_accumulates initially ?_ split
  intro past q future parts held
  obtain ⟨_,_,_,same⟩ := run_resumes parts
  rw [same]
  exact step_follows q.event held

theorem look_finds (initially : Follows [] s)
    (split : history wait.step s events = earlier ++ r :: later)
    (past : earlier.any lateRead = true) (looked : looks r = true) :
    r.before.result = (sinceLook earlier == some true) := by
  obtain ⟨q,known,late⟩ := List.any_eq_true.mp past
  obtain ⟨before,between,parts⟩ := List.append_of_mem known
  have whole : history wait.step s events = before ++ q :: (between ++ r :: later) := by
    rw [split,parts]
    simp
  have reading := history_follows initially whole
  have waiting := history_follows initially split
  unfold Follows at reading waiting
  rw [(lateRead_exact late).2.1] at reading
  rw [(looks_exact.mp looked).2] at waiting
  refine waiting.2 ?_
  rw [parts,List.any_append,reading.2.1]
  rfl

-- In a calm run the wait is ending from the first late read-back on.
theorem calm_ending (initially : Follows [] s) (calm : Calm (history wait.step s events))
    {between : Records V} {last : Record (State V) (Event V) (Option (Bool × V))}
    (split : history wait.step s events = earlier ++ r :: (between ++ last :: later))
    (late : lateRead r = true) :
    Ending last.before ∧ (last.event = .waiter → Over last.after) := by
  obtain ⟨rest,remaining,_,here⟩ := run_resumes split
  obtain ⟨waiter,reading,passed⟩ := lateRead_exact late
  have started : Ending r.after := by
    rw [here,waiter]
    exact read_ending reading passed
  have quiet {past future : Records V} {q : Record (State V) (Event V) (Option (Bool × V))}
      (parts : history wait.step r.after rest = past ++ q :: future) :
      q.event = .waiter → q.before.point = .waiting → q.before.result = false := by
    intro turn waiting
    have looked : looks q = true := looks_exact.mpr ⟨turn,waiting⟩
    have whole : history wait.step s events = (earlier ++ r :: past) ++ q :: future := by
      rw [split,remaining,parts]
      simp
    have after : (earlier ++ r :: past).any lateRead = true := by simp [late]
    rw [look_finds initially whole after looked]
    simpa using calm _ q future whole after looked
  have ending : Ending last.before := by
    refine history_accumulates (P := fun _ s => Ending s) started ?_ remaining.symm
    intro past q future parts held
    obtain ⟨_,_,_,same⟩ := run_resumes parts
    rw [same]
    exact (step_ending held (quiet parts)).1
  obtain ⟨_,_,_,same⟩ := run_resumes remaining.symm
  refine ⟨ending,?_⟩
  intro turn
  rw [same]
  exact (step_ending ending (quiet remaining.symm)).2 turn

theorem look_unblocked (known : r ∈ history wait.step s events) (looked : looks r = true)
    (late : Due r.before) : r.after.point = .reading ∨ Over r.after := by
  obtain ⟨before,event,_,_,rfl⟩ := history_member known
  obtain ⟨waiter,waiting⟩ := looks_exact.mp looked
  dsimp only [record] at waiter waiting late ⊢
  rw [waiter]
  cases up : (run wait.step s before).result with
  | true => exact Or.inl (look_reads wait waiting up)
  | false => exact Or.inr (look_over wait waiting late up)

theorem respects_timeout_exact (wait : VariableWait V) (current : Bool × V) (undelivered : List Bool)
    (now : Int) (events : List (Event V)) :
    RespectsTimeout (history wait.step (begin current undelivered now) events) ↔
      Calm (history wait.step (begin current undelivered now) events) := by
  have initially : Follows [] (begin current undelivered now) := rfl
  constructor
  · intro respects earlier r later split past looked connected
    have up := look_finds initially split past looked
    rw [connected] at up
    obtain ⟨waiter,waiting⟩ := looks_exact.mp looked
    obtain ⟨q,known,late⟩ := List.any_eq_true.mp past
    obtain ⟨before,between,parts⟩ := List.append_of_mem known
    obtain ⟨_,_,_,here⟩ := run_resumes split
    rw [parts,List.append_assoc,List.cons_append] at split
    obtain ⟨answer,answered⟩ := respects.returns before q between r later split late waiter
    have reading := look_reads wait waiting up
    rw [here,waiter] at answered
    rcases answered with left | back
    · cases reading.symm.trans left
    · cases reading.symm.trans back
  · intro calm
    refine ⟨fun r known => look_unblocked known,?_,?_⟩
    · apply counted_once
      intro earlier r later split late q member
      obtain ⟨between,after,parts⟩ := List.append_of_mem member
      rw [parts] at split
      have ending := (calm_ending initially calm split late).1
      cases again : lateRead q with
      | false => rfl
      | true => exact absurd (lateRead_exact again).2.1 ending.notReading
    · intro earlier r between last later split late waiter
      exact (calm_ending initially calm split late).2 waiter

end Exact

-- A variable that is updated to another value before each look of the thread: the
-- deadline is at 10 and the clock at 20, and it reads back three times.
def busyVariable : List (Event Reference.Value) :=
  let round : List (Event Reference.Value) := [.update true (.string "off"),.deliver,.waiter,.waiter]
  [.waiter,.waiter,.tick 20] ++ round ++ round ++ round

theorem busy_variable_late :
    let wait : VariableWait Reference.Value := ⟨.string "on",10,true,fun left right => left == right⟩
    (history wait.step (begin (true,.string "off") [] 0) busyVariable).countP lateRead = 3 ∧
    (run wait.step (begin (true,.string "off") [] 0) busyVariable).point = .waiting ∧
    ¬ RespectsTimeout (history wait.step (begin (true,.string "off") [] 0) busyVariable) := by
  intro wait
  have late : (history wait.step (begin (true,.string "off") [] 0) busyVariable).countP lateRead = 3 := by
    decide
  refine ⟨late,by decide,?_⟩
  intro respects
  have once := respects.once
  omega

end Timeout

end SupProtocol.VariableWait
