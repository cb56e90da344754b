import Mathlib.Data.List.Basic

namespace Tasks

-- Calls running on threads of their own. Each one is launched with an input and
-- ends at most once, in an outcome that then never changes.
structure Task (ι ο : Type) where
  input : ι
  outcome : Option ο
  deriving DecidableEq

abbrev Pool (ι ο : Type) := List (Task ι ο)

variable {ι ο : Type}

def Task.finish (task : Task ι ο) (outcome : ο) : Task ι ο :=
  match task.outcome with
  | none => {task with outcome := some outcome}
  | some _ => task

def launch (pool : Pool ι ο) (input : ι) : Nat × Pool ι ο :=
  (pool.length,pool ++ [⟨input,none⟩])

def finish (pool : Pool ι ο) (key : Nat) (outcome : ο) : Pool ι ο :=
  pool.modify key (fun task => task.finish outcome)

def finishAll (pool : Pool ι ο) (completions : List (Nat × ο)) : Pool ι ο :=
  completions.foldl (fun pool done => finish pool done.1 done.2) pool

def outcomeOf (pool : Pool ι ο) (key : Nat) : Option ο := pool[key]?.bind (·.outcome)

def isReady (pool : Pool ι ο) (key : Nat) : Bool := (outcomeOf pool key).isSome

def inputs (pool : Pool ι ο) : List ι := pool.map (·.input)

@[simp] theorem length_inputs (pool : Pool ι ο) : (inputs pool).length = pool.length := by
  simp [inputs]

@[simp] theorem inputs_launch (pool : Pool ι ο) (input : ι) :
    inputs (launch pool input).2 = inputs pool ++ [input] := by simp [inputs,launch]

theorem Task.finish_input (task : Task ι ο) (outcome : ο) :
    (task.finish outcome).input = task.input := by
  unfold Task.finish
  split <;> rfl

@[simp] theorem inputs_finish (pool : Pool ι ο) (key : Nat) (outcome : ο) :
    inputs (finish pool key outcome) = inputs pool := by
  refine List.ext_getElem? fun k => ?_
  simp only [inputs,finish,List.getElem?_map,List.getElem?_modify]
  cases pool[k]? with
  | none => rfl
  | some task => by_cases here : key = k <;> simp [here,Task.finish_input]

@[simp] theorem inputs_finishAll (pool : Pool ι ο) (completions : List (Nat × ο)) :
    inputs (finishAll pool completions) = inputs pool := by
  induction completions generalizing pool with
  | nil => rfl
  | cons done completions ih =>
    rw [finishAll,List.foldl_cons]
    exact (ih _).trans (inputs_finish _ _ _)

theorem length_finishAll (pool : Pool ι ο) (completions : List (Nat × ο)) :
    (finishAll pool completions).length = pool.length := by
  rw [← length_inputs,inputs_finishAll,length_inputs]

-- What other threads can do to a pool between two looks at it: launch more
-- calls and end some, but never change one that has ended.
structure Extends (before after : Pool ι ο) : Prop where
  inputs : ∃ more, Tasks.inputs after = Tasks.inputs before ++ more
  outcomes : ∀ key outcome, outcomeOf before key = some outcome → outcomeOf after key = some outcome

theorem Extends.refl (pool : Pool ι ο) : Extends pool pool :=
  ⟨⟨[],by simp⟩,fun _ _ known => known⟩

theorem Extends.trans {first second third : Pool ι ο} (left : Extends first second)
    (right : Extends second third) : Extends first third := by
  obtain ⟨x,hx⟩ := left.inputs
  obtain ⟨y,hy⟩ := right.inputs
  refine ⟨⟨x ++ y,by rw [hy,hx,List.append_assoc]⟩,?_⟩
  intro key outcome known
  exact right.outcomes key outcome (left.outcomes key outcome known)

theorem launch_extends (pool : Pool ι ο) (input : ι) : Extends pool (launch pool input).2 := by
  refine ⟨⟨[input],inputs_launch pool input⟩,?_⟩
  intro key outcome known
  have bounded : key < pool.length := by
    by_contra outside
    rw [outcomeOf,List.getElem?_eq_none (by omega)] at known
    cases known
  simpa only [outcomeOf,launch,List.getElem?_append_left bounded] using known

theorem finish_extends (pool : Pool ι ο) (key : Nat) (outcome : ο) :
    Extends pool (finish pool key outcome) := by
  refine ⟨⟨[],by simp⟩,?_⟩
  intro k known ended
  simp only [outcomeOf,finish,List.getElem?_modify] at ended ⊢
  cases at_k : pool[k]? with
  | none => simp [at_k] at ended
  | some task =>
    simp only [at_k,Option.bind_some] at ended
    by_cases here : key = k <;> simp [here,Task.finish,ended]

theorem finishAll_extends (pool : Pool ι ο) (completions : List (Nat × ο)) :
    Extends pool (finishAll pool completions) := by
  induction completions generalizing pool with
  | nil => exact .refl pool
  | cons done completions ih => exact (finish_extends pool done.1 done.2).trans (ih _)

theorem Extends.length {before after : Pool ι ο} (extended : Extends before after) :
    before.length ≤ after.length := by
  obtain ⟨more,parts⟩ := extended.inputs
  have count := congrArg List.length parts
  rw [List.length_append,length_inputs,length_inputs] at count
  omega

theorem Extends.isReady {before after : Pool ι ο} (extended : Extends before after) {key : Nat}
    (ready : Tasks.isReady before key = true) : Tasks.isReady after key = true := by
  obtain ⟨outcome,known⟩ := Option.isSome_iff_exists.mp ready
  rw [Tasks.isReady,extended.outcomes key outcome known]
  rfl

section Looks
variable {pool before after : Pool ι ο}

theorem pool_ext (same : inputs before = inputs after)
    (outcomes : ∀ key, outcomeOf before key = outcomeOf after key) : before = after := by
  refine List.ext_getElem? fun key => ?_
  have input := congrArg (·[key]?) same
  have outcome := outcomes key
  simp only [inputs,List.getElem?_map,outcomeOf] at input outcome
  cases left : before[key]? with
  | none => cases right : after[key]? <;> simp_all
  | some task =>
    cases right : after[key]? with
    | none => simp_all
    | some other =>
      obtain ⟨i,o⟩ := task
      obtain ⟨j,u⟩ := other
      simp_all

theorem outcomeOf_outside {key : Nat} (outside : pool.length ≤ key) : outcomeOf pool key = none := by
  rw [outcomeOf,List.getElem?_eq_none outside]
  rfl

theorem outcomeOf_take {count key : Nat} (within : key < count) :
    outcomeOf (pool.take count) key = outcomeOf pool key := by
  rw [outcomeOf,List.getElem?_take_of_lt within,outcomeOf]

theorem outcomeOf_finish (pool : Pool ι ο) (done key : Nat) (outcome : ο) :
    outcomeOf (finish pool done outcome) key =
      if done = key ∧ key < pool.length then (outcomeOf pool key).or (some outcome)
      else outcomeOf pool key := by
  simp only [outcomeOf,finish,List.getElem?_modify]
  by_cases here : done = key
  · by_cases within : key < pool.length
    · rw [List.getElem?_eq_getElem within]
      cases ended : pool[key].outcome <;> simp [here,within,Task.finish,ended]
    · simp [within]
  · simp [here]

-- The first end of a call counts.
theorem outcomeOf_finishAll (completions : List (Nat × ο)) {key : Nat} (within : key < pool.length) :
    outcomeOf (finishAll pool completions) key =
      (outcomeOf pool key).or ((completions.find? (·.1 == key)).map (·.2)) := by
  induction completions generalizing pool with
  | nil => simp [finishAll]
  | cons done completions ih =>
    rw [finishAll,List.foldl_cons]
    have longer : (finish pool done.1 done.2).length = pool.length := by simp [finish]
    refine (ih (by rw [longer]; exact within)).trans ?_
    rw [outcomeOf_finish]
    by_cases here : done.1 = key
    · rw [if_pos ⟨here,within⟩,List.find?_cons_of_pos (by simp [here]),Option.or_assoc]
      simp
    · rw [if_neg (fun both => here both.1),List.find?_cons_of_neg (by simp [here])]

theorem take_finish (pool : Pool ι ο) (count key : Nat) (outcome : ο) :
    (finish pool key outcome).take count = finish (pool.take count) key outcome :=
  List.take_modify _ _ _ _

theorem take_finishAll (pool : Pool ι ο) (count : Nat) (completions : List (Nat × ο)) :
    (finishAll pool completions).take count = finishAll (pool.take count) completions := by
  induction completions generalizing pool with
  | nil => rfl
  | cons done completions ih =>
    rw [finishAll,List.foldl_cons]
    refine (ih _).trans ?_
    rw [take_finish]
    rfl

def endOf (before after : Pool ι ο) (key : Nat) : Option (Nat × ο) :=
  match outcomeOf before key with
  | none => (outcomeOf after key).map fun outcome => (key,outcome)
  | some _ => none

def endedBetween (before after : Pool ι ο) : List (Nat × ο) :=
  (List.range before.length).filterMap (endOf before after)

theorem endOf_running {key : Nat} (running : outcomeOf before key = none) :
    endOf before after key = (outcomeOf after key).map fun outcome => (key,outcome) := by
  rw [endOf,running]

theorem endOf_key {key : Nat} {done : Nat × ο} (ended : endOf before after key = some done) :
    done.1 = key := by
  unfold endOf at ended
  split at ended
  · obtain ⟨outcome,_,same⟩ := Option.map_eq_some_iff.mp ended
    rw [← same]
  · cases ended

theorem find_endedBetween {key : Nat} (within : key < before.length) :
    (endedBetween before after).find? (·.1 == key) = endOf before after key := by
  have only (k : Nat) : (endOf before after k).any (·.1 == key) = true →
      k = key := by
    intro found
    cases ended : endOf before after k with
    | none => simp [ended] at found
    | some done =>
      rw [ended] at found
      have same : done.1 = key := by simpa using found
      exact (endOf_key ended).symm.trans same
  rw [endedBetween,List.find?_filterMap]
  cases first : (List.range before.length).find? fun k => (endOf before after k).any (·.1 == key) with
  | some k =>
    have found := List.find?_some (p := fun k => (endOf before after k).any (·.1 == key)) first
    rw [only k found]
    rfl
  | none =>
    have nothing := List.find?_eq_none.mp first key (List.mem_range.mpr within)
    cases ended : endOf before after key with
    | none => rfl
    | some done =>
      rw [ended] at nothing
      have same := endOf_key ended
      simp [same] at nothing

theorem finishAll_endedBetween (extended : Extends before after) :
    finishAll before (endedBetween before after) = after.take before.length := by
  obtain ⟨more,parts⟩ := extended.inputs
  refine pool_ext ?_ ?_
  · have first : inputs (after.take before.length) = (inputs after).take before.length :=
      List.map_take
    rw [inputs_finishAll,first,parts,← length_inputs before,List.take_left]
  · intro key
    by_cases within : key < before.length
    · rw [outcomeOf_finishAll _ within,outcomeOf_take within,find_endedBetween within]
      cases ended : outcomeOf before key with
      | none =>
        rw [endOf_running ended]
        simp [Option.map_map,Function.comp_def]
      | some outcome => simpa using (extended.outcomes key outcome ended).symm
    · rw [outcomeOf_outside (by rw [length_finishAll]; exact Nat.not_lt.mp within),outcomeOf_outside]
      rw [List.length_take]
      omega

end Looks

end Tasks
