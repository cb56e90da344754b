import Mathlib.Data.List.Basic

namespace Machine

-- A deterministic machine answers one event at a time. Its history keeps, for
-- every event, the state before it, the answer and the state after it.
structure Record (σ ε ω : Type) where
  before : σ
  event : ε
  output : ω
  after : σ

section Runs
variable {σ ε ω : Type} {step : σ → ε → ω × σ}

def record (step : σ → ε → ω × σ) (s : σ) (event : ε) : Record σ ε ω :=
  ⟨s,event,(step s event).1,(step s event).2⟩

def run (step : σ → ε → ω × σ) : σ → List ε → σ
  | s,[] => s
  | s,event :: events => run step (step s event).2 events

def history (step : σ → ε → ω × σ) : σ → List ε → List (Record σ ε ω)
  | _,[] => []
  | s,event :: events => record step s event :: history step (step s event).2 events

theorem run_append (s : σ) (earlier later : List ε) :
    run step s (earlier ++ later) = run step (run step s earlier) later := by
  induction earlier generalizing s with
  | nil => rfl
  | cons event events ih => exact ih _

theorem history_append (s : σ) (earlier later : List ε) :
    history step s (earlier ++ later) =
      history step s earlier ++ history step (run step s earlier) later := by
  induction earlier generalizing s with
  | nil => rfl
  | cons event events ih => simp only [List.cons_append,history,run,ih]

theorem run_preserves {P : σ → Prop} (preserved : ∀ s event, P s → P (step s event).2) {s : σ}
    (initially : P s) (events : List ε) : P (run step s events) := by
  induction events generalizing s with
  | nil => exact initially
  | cons event events ih => exact ih (preserved s event initially)

theorem run_earlier {within : σ → Prop} (earlier : ∀ s event, within (step s event).2 → within s)
    {s : σ} (events : List ε) (bounded : within (run step s events)) : within s := by
  induction events generalizing s with
  | nil => exact bounded
  | cons event events ih => exact earlier s event (ih bounded)

-- An invariant that some events keep within a bound holds after a run of such
-- events that ends within it, if nothing that is out of bounds comes back.
theorem run_bounded {P within : σ → Prop} {allowed : ε → Prop}
    (earlier : ∀ s event, within (step s event).2 → within s)
    (preserved : ∀ s event, allowed event → P s → within (step s event).2 → P (step s event).2)
    {s : σ} (initially : P s) (events : List ε) (permitted : ∀ event ∈ events, allowed event)
    (bounded : within (run step s events)) : P (run step s events) := by
  induction events generalizing s with
  | nil => exact initially
  | cons event events ih =>
    have kept := preserved s event (permitted event (List.mem_cons_self ..)) initially
      (run_earlier earlier events bounded)
    exact ih kept (fun other member => permitted other (List.mem_cons_of_mem _ member)) bounded

theorem run_permitted {P : σ → Prop} {allowed : ε → Prop}
    (preserved : ∀ s event, allowed event → P s → P (step s event).2) {s : σ} (initially : P s)
    (events : List ε) (permitted : ∀ event ∈ events, allowed event) : P (run step s events) :=
  @run_bounded σ ε ω step P (fun _ => True) allowed (fun _ _ _ => trivial)
    (fun s event known held _ => preserved s event known held) s initially events permitted trivial

theorem run_simulates {abstract : α → ε → α} {R : σ → α → Prop}
    (matched : ∀ s a event, R s a → R (step s event).2 (abstract a event))
    {s : σ} {a : α} (related : R s a) (events : List ε) :
    R (run step s events) (events.foldl abstract a) := by
  induction events generalizing s a with
  | nil => exact related
  | cons event events ih =>
    apply ih
    exact matched s a event related

theorem history_split {s : σ} {events : List ε} {earlier later : List (Record σ ε ω)}
    {r : Record σ ε ω} (split : history step s events = earlier ++ r :: later) :
    ∃ before event after, events = before ++ event :: after ∧
      earlier = history step s before ∧ r = record step (run step s before) event ∧
      later = history step r.after after := by
  induction events generalizing s earlier with
  | nil => cases earlier <;> cases split
  | cons event events ih =>
    cases earlier with
    | nil =>
      cases split
      exact ⟨[],event,events,rfl,rfl,rfl,rfl⟩
    | cons first earlier =>
      obtain ⟨same,rest⟩ := List.cons.inj split
      obtain ⟨before,found,after,rfl,rfl,here,remaining⟩ := ih rest
      exact ⟨event :: before,found,after,rfl,by rw [← same]; rfl,here,remaining⟩

-- An invariant between the state and the records so far, which each record of the
-- history keeps, holds at all of them.
theorem history_accumulates {P : List (Record σ ε ω) → σ → Prop} {s : σ} {events : List ε}
    (initially : P [] s)
    (preserved : ∀ earlier r later, history step s events = earlier ++ r :: later →
      P earlier r.before → P (earlier ++ [r]) r.after)
    {earlier later : List (Record σ ε ω)} {r : Record σ ε ω}
    (split : history step s events = earlier ++ r :: later) : P earlier r.before := by
  induction events generalizing s earlier P with
  | nil => cases earlier <;> cases split
  | cons event events ih =>
    cases earlier with
    | nil =>
      cases split
      exact initially
    | cons first earlier =>
      obtain ⟨same,rest⟩ := List.cons.inj split
      subst same
      have first : P [record step s event] (step s event).2 :=
        preserved [] (record step s event) _ rfl initially
      refine ih (P := fun records t => P (record step s event :: records) t) first ?_ rest
      intro earlier r later parts held
      have whole := congrArg (List.cons (record step s event)) parts
      exact preserved (record step s event :: earlier) r later whole held

theorem history_collects {P : List (Record σ ε ω) → σ → Prop}
    (preserved : ∀ records s event, P records s →
      P (records ++ [record step s event]) (step s event).2)
    {records : List (Record σ ε ω)} {s : σ} (initially : P records s) (events : List ε) :
    P (records ++ history step s events) (run step s events) := by
  induction events generalizing records s with
  | nil => simpa [history,run] using initially
  | cons event events ih =>
    rw [history,← List.singleton_append,← List.append_assoc]
    exact ih (preserved records s event initially)

theorem history_events (s : σ) (events : List ε) :
    (history step s events).map (·.event) = events := by
  induction events generalizing s with
  | nil => rfl
  | cons event events ih => rw [history,List.map_cons,ih,record]

-- What rules itself out from then on happens at most once.
theorem counted_once {p : α → Bool} {xs : List α}
    (alone : ∀ earlier x later, xs = earlier ++ x :: later → p x = true → ∀ y ∈ later, p y = false) :
    xs.countP p ≤ 1 := by
  induction xs with
  | nil => simp
  | cons x xs ih =>
    by_cases here : p x = true
    · have none : xs.countP p = 0 := by
        apply List.countP_eq_zero.mpr
        intro y member
        simpa using alone [] x xs rfl here y member
      have count : (x :: xs).countP p = xs.countP p + 1 := List.countP_cons_of_pos here
      omega
    · rw [List.countP_cons_of_neg here]
      apply ih
      intro earlier y later split
      exact alone (x :: earlier) y later (by rw [split]; rfl)

theorem run_resumes {s : σ} {events : List ε} {earlier later : List (Record σ ε ω)} {r : Record σ ε ω}
    (split : history step s events = earlier ++ r :: later) :
    ∃ rest, later = history step r.after rest ∧ run step s events = run step r.after rest ∧
      r = record step r.before r.event := by
  obtain ⟨before,event,rest,parts,_,here,remaining⟩ := history_split split
  refine ⟨rest,remaining,?_,?_⟩
  · rw [parts,run_append,here]
    rfl
  · rw [here]
    rfl

theorem history_member {s : σ} {events : List ε} {r : Record σ ε ω}
    (member : r ∈ history step s events) :
    ∃ before event after, events = before ++ event :: after ∧
      r = record step (run step s before) event := by
  obtain ⟨earlier,later,split⟩ := List.append_of_mem member
  obtain ⟨before,event,after,parts,_,here,_⟩ := history_split split
  exact ⟨before,event,after,parts,here⟩

theorem record_bounded {P within : σ → Prop} (earlier : ∀ s event, within (step s event).2 → within s)
    (preserved : ∀ s event, P s → within (step s event).2 → P (step s event).2)
    {s : σ} (initially : P s) {events : List ε} (bounded : within (run step s events))
    {r : Record σ ε ω} (member : r ∈ history step s events) :
    P r.before ∧ within r.after ∧ r = record step r.before r.event := by
  obtain ⟨before,later,split⟩ := List.append_of_mem member
  obtain ⟨first,event,_,_,_,here,_⟩ := history_split split
  obtain ⟨rest,_,same,again⟩ := run_resumes split
  rw [same] at bounded
  have after := run_earlier earlier rest bounded
  have any : ∀ s event, True → P s → within (step s event).2 → P (step s event).2 :=
    fun s event _ => preserved s event
  refine ⟨?_,after,again⟩
  rw [here] at after ⊢
  exact run_bounded earlier any initially first (fun _ _ => trivial) (earlier _ event after)

end Runs

-- A machine that is another one seen through a view of its states and events.
section Views
variable {σ τ ε ι ω : Type} {step : σ → ε → ω × σ} {other : τ → ι → ω × τ} {view : σ → τ} {f : ε → ι}

def Record.seen (view : σ → τ) (f : ε → ι) (r : Record σ ε ω) : Record τ ι ω :=
  ⟨view r.before,f r.event,r.output,view r.after⟩

def Seen (step : σ → ε → ω × σ) (other : τ → ι → ω × τ) (view : σ → τ) (f : ε → ι) : Prop :=
  ∀ s event, other (view s) (f event) = ((step s event).1,view (step s event).2)

theorem run_seen (seen : Seen step other view f) (s : σ) (events : List ε) :
    run other (view s) (events.map f) = view (run step s events) := by
  induction events generalizing s with
  | nil => rfl
  | cons event events ih =>
    rw [List.map_cons,run,seen s event]
    exact ih _

theorem history_seen (seen : Seen step other view f) (s : σ) (events : List ε) :
    history other (view s) (events.map f) = (history step s events).map (Record.seen view f) := by
  induction events generalizing s with
  | nil => rfl
  | cons event events ih =>
    have first : Machine.record other (view s) (f event) =
        (Machine.record step s event).seen view f := by
      simp only [Machine.record,Record.seen,seen s event]
    rw [List.map_cons,history,history,List.map_cons,first,seen s event,ih]

end Views

-- A machine whose runs are those of another one, where what an event amounts to
-- there, and how its state is seen, may depend on the events still to come.
section Foretold
variable {σ τ ε ι ω ρ : Type} {step : σ → ε → ω × σ} {other : τ → ι → ρ × τ}
  {tell : σ → ε → List ε → List ι}

def foretold (step : σ → ε → ω × σ) (tell : σ → ε → List ε → List ι) : σ → List ε → List ι
  | _,[] => []
  | s,event :: events => tell s event events ++ foretold step tell (step s event).2 events

def followed (rest : List ε) (tell : σ → ε → List ε → List ι) : σ → ε → List ε → List ι :=
  fun s event events => tell s event (events ++ rest)

theorem foretold_append (s : σ) (events rest : List ε) : foretold step tell s (events ++ rest) =
    foretold step (followed rest tell) s events ++ foretold step tell (run step s events) rest := by
  induction events generalizing s with
  | nil => rfl
  | cons event events ih =>
    rw [List.cons_append,foretold,ih,foretold,List.append_assoc]
    rfl

theorem run_followed (view : List ε → σ → τ) {P : σ → Prop} (preserved : ∀ s event, P s → P (step s event).2)
    (matched : ∀ s event events, P s →
      run other (view (event :: events) s) (tell s event events) = view events (step s event).2)
    {s : σ} (initially : P s) (events rest : List ε) :
    run other (view (events ++ rest) s) (foretold step (followed rest tell) s events) =
      view rest (run step s events) := by
  induction events generalizing s with
  | nil => rfl
  | cons event events ih =>
    have first := matched s event (events ++ rest) initially
    rw [foretold,run_append,List.cons_append,followed,first]
    exact ih (preserved s event initially)

theorem run_foretold (view : List ε → σ → τ) {P : σ → Prop} (preserved : ∀ s event, P s → P (step s event).2)
    (matched : ∀ s event events, P s →
      run other (view (event :: events) s) (tell s event events) = view events (step s event).2)
    {s : σ} (initially : P s) (events : List ε) :
    run other (view events s) (foretold step tell s events) = view [] (run step s events) := by
  have whole : foretold step tell s (events ++ []) = foretold step (followed [] tell) s events ++ [] :=
    foretold_append s events []
  have linked := run_followed view preserved matched initially events []
  rw [List.append_nil] at whole linked
  rw [whole,List.append_nil]
  exact linked

theorem foretold_all {P : σ → Prop} {Q : ι → Prop} {allowed : ε → Prop}
    (preserved : ∀ s event, allowed event → P s → P (step s event).2)
    (told : ∀ s event events, (∀ other ∈ event :: events, allowed other) → P s →
      ∀ x ∈ tell s event events, Q x)
    {s : σ} (initially : P s) (events : List ε) (permitted : ∀ event ∈ events, allowed event) :
    ∀ x ∈ foretold step tell s events, Q x := by
  induction events generalizing s with
  | nil => nofun
  | cons event events ih =>
    intro x member
    rw [foretold,List.mem_append] at member
    rcases member with here | there
    · exact told s event events permitted initially x here
    · have next := preserved s event (permitted event (List.mem_cons_self ..)) initially
      exact ih next (fun other known => permitted other (List.mem_cons_of_mem _ known)) x there

end Foretold

-- Paths of a relation whose steps carry the labels of what they did.
inductive Path {σ ι : Type} (step : σ → List ι → σ → Prop) : σ → List ι → σ → Prop where
  | nil : Path step s [] s
  | cons (first : step s labels middle) (rest : Path step middle more t) :
      Path step s (labels ++ more) t

section Paths
variable {σ ι α κ : Type} {step : σ → List ι → σ → Prop}

theorem Path.single {s t : σ} {labels : List ι} (taken : step s labels t) :
    Path step s labels t := by
  simpa using Path.cons taken .nil

theorem Path.append {s middle t : σ} {labels more : List ι} (left : Path step s labels middle)
    (right : Path step middle more t) : Path step s (labels ++ more) t := by
  induction left with
  | nil => exact right
  | cons first rest ih =>
    rw [List.append_assoc]
    exact .cons first (ih right)

theorem Path.preserves {P : σ → Prop} (preserved : ∀ s labels t, P s → step s labels t → P t)
    {s t : σ} {labels : List ι} (path : Path step s labels t) (initially : P s) : P t := by
  induction path with
  | nil => exact initially
  | cons first rest ih => exact ih (preserved _ _ _ initially first)

theorem Path.accumulates {P : List ι → σ → Prop}
    (preserved : ∀ log s labels t, P log s → step s labels t → P (log ++ labels) t)
    {s t : σ} {labels log : List ι} (path : Path step s labels t) (initially : P log s) :
    P (log ++ labels) t := by
  induction path generalizing log with
  | nil => simpa using initially
  | cons first rest ih =>
    rw [← List.append_assoc]
    exact ih (preserved _ _ _ _ initially first)

theorem Path.grows {measure : σ → Nat}
    (grows : ∀ s labels t, step s labels t → measure s ≤ measure t)
    {s t : σ} {labels : List ι} (path : Path step s labels t) : measure s ≤ measure t := by
  induction path with
  | nil => exact Nat.le_refl _
  | cons first rest ih => exact Nat.le_trans (grows _ _ _ first) ih

theorem Path.restrict {measure : σ → Nat} {bound : Nat}
    (grows : ∀ s labels t, step s labels t → measure s ≤ measure t)
    {s t : σ} {labels : List ι} (path : Path step s labels t) (below : measure t < bound) :
    Path (fun s labels t => step s labels t ∧ measure t < bound) s labels t := by
  induction path with
  | nil => exact .nil
  | cons first rest ih =>
    exact .cons ⟨first,Nat.lt_of_le_of_lt (rest.grows grows) below⟩ (ih below)

theorem Path.simulates {abstract : α → List κ → α → Prop} {R : σ → α → Prop}
    {f : ι → Option κ}
    (matched : ∀ s labels t a, R s a → step s labels t →
      ∃ b, Path abstract a (labels.filterMap f) b ∧ R t b)
    {s t : σ} {a : α} {labels : List ι} (path : Path step s labels t) (related : R s a) :
    ∃ b, Path abstract a (labels.filterMap f) b ∧ R t b := by
  induction path generalizing a with
  | nil => exact ⟨a,.nil,related⟩
  | cons first rest ih =>
    obtain ⟨middle,left,held⟩ := matched _ _ _ _ related first
    obtain ⟨b,right,final⟩ := ih held
    exact ⟨b,by rw [List.filterMap_append]; exact left.append right,final⟩

end Paths

end Machine
