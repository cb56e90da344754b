import SupProtocol.ServerThreads

namespace SupProtocol
open AsyncInvokeServer Machine

namespace Threads
variable {V : Type} [AnyValue V] [Codec V]

-- The moves of one caller and of the thread for its packet, and what they are in
-- one call of the functor.
def own (caller : Nat) (moves : List (Move V)) : List (Move V) :=
  moves.filter fun move => decide (move.caller = some caller)

def call (caller : Nat) (now : UInt64) (cleanUp moments : Nat → Moment V) : List (Move V) :=
  [.send caller,.check caller now,.cleanUp caller cleanUp,.handle caller moments,.receive caller]

section Own
variable {protocol : Protocol V} {calls : Nat → ClientCall V} {caller : Nat} {s : Threads V}
  {moves rest : List (Move V)} {move : Move V} {packet : V} {sender : Progress V} {awaited : Bool}

theorem run_others (protocol : Protocol V) (calls : Nat → ClientCall V) (s : Threads V)
    (others : ∀ move ∈ moves, move.caller ≠ some caller) :
    (run (step protocol calls) s moves).errand caller = s.errand caller ∧
      (run (step protocol calls) s moves).progress caller = s.progress caller := by
  induction moves generalizing s with
  | nil => exact ⟨rfl,rfl⟩
  | cons move moves ih =>
    obtain ⟨errand,standing⟩ :=
      step_others calls protocol s move (others move (List.mem_cons_self ..))
    obtain ⟨kept,stays⟩ := ih (step protocol calls s move).2
      fun other member => others other (List.mem_cons_of_mem _ member)
    exact ⟨kept.trans errand,stays.trans standing⟩

theorem own_next (protocol : Protocol V) (calls : Nat → ClientCall V) (s : Threads V)
    (next : own caller moves = move :: rest) : ∃ before after, moves = before ++ move :: after ∧
      own caller after = rest ∧ move.caller = some caller ∧
      (run (step protocol calls) s before).errand caller = s.errand caller ∧
      (run (step protocol calls) s before).progress caller = s.progress caller := by
  obtain ⟨before,after,parts,others,mine,left⟩ := List.filter_eq_cons_iff.mp next
  obtain ⟨errand,standing⟩ := run_others protocol calls s
    (fun other member => by simpa using others other member)
  exact ⟨before,after,parts,left,of_decide_eq_true mine,errand,standing⟩

-- In these moves a packet of the caller counts in the run with packets handled at
-- once, and the caller is left with nothing under way.
structure Finishes (protocol : Protocol V) (calls : Nat → ClientCall V) (caller : Nat) (s : Threads V)
    (moves : List (Move V)) : Prop where
  counts : ∃ before move after, moves = before ++ move :: after ∧ ∀ later,
    1 ≤ ((run (step protocol calls) s before).tell calls move later).countP (Happening.isPacketOf caller)
  finished : (run (step protocol calls) s moves).errand caller = none

theorem Finishes.next
    (finishes : Finishes protocol calls caller (s.step protocol calls move).2 moves) :
    Finishes protocol calls caller s (move :: moves) := by
  obtain ⟨⟨before,counted,after,parts,counts⟩,finished⟩ := finishes
  exact ⟨⟨move :: before,counted,after,by rw [parts]; rfl,counts⟩,finished⟩

theorem Finishes.later {first : List (Move V)}
    (finishes : Finishes protocol calls caller (run (step protocol calls) s first) moves) :
    Finishes protocol calls caller s (first ++ moves) := by
  obtain ⟨⟨before,counted,after,parts,counts⟩,finished⟩ := finishes
  refine ⟨⟨first ++ before,counted,after,?_,?_⟩,?_⟩
  · rw [parts,List.append_assoc]
  · rw [run_append]
    exact counts
  · rw [run_append]
    exact finished

theorem Finishes.told (finishes : Finishes protocol calls caller s moves) (rest : List (Move V)) :
    (foretold (step protocol calls) (tell calls) (run (step protocol calls) s moves) rest).countP
        (Happening.isPacketOf caller) + 1 ≤
      (foretold (step protocol calls) (tell calls) s (moves ++ rest)).countP (Happening.isPacketOf caller) := by
  obtain ⟨⟨before,counted,after,rfl,counts⟩,_⟩ := finishes
  have here := counts (after ++ rest)
  rw [foretold_append,foretold_append,foretold,List.countP_append,List.countP_append,List.countP_append]
  change _ ≤ _ + (((run (step protocol calls) s before).tell calls counted (after ++ rest)).countP _ + _) + _
  omega

section Moves
variable (protocol : Protocol V) (calls : Nat → ClientCall V) {stage : Stage V}

theorem sent_enters (idle : s.errand caller = none)
    (asked : (calls caller).request (s.progress caller) = some (.ok packet)) :
    (s.step protocol calls (.send caller)).2.errand caller =
      some ⟨packet,s.progress caller,.entered,true⟩ := by
  simp only [step,idle,asked,carry,Function.update_self]

theorem checked_goes (now : UInt64) (here : s.errand caller = some ⟨packet,sender,.entered,awaited⟩) :
    ∃ stage, (stage = .expired ∨ stage = .cleaned) ∧
      (s.step protocol calls (.check caller now)).2.errand caller =
        some ⟨packet,sender,stage,awaited⟩ := by
  simp only [step,here,carry,Function.update_self]
  cases (s.server.expirationHandler.isCleanUpNeeded now).1 with
  | true => exact ⟨.expired,Or.inl rfl,rfl⟩
  | false => exact ⟨.cleaned,Or.inr rfl,rfl⟩

theorem cleaned_goes (moments : Nat → Moment V) (here : s.errand caller = some ⟨packet,sender,stage,awaited⟩)
    (passed : stage = .expired ∨ stage = .cleaned) :
    (s.step protocol calls (.cleanUp caller moments)).2.errand caller =
      some ⟨packet,sender,.cleaned,awaited⟩ := by
  rcases passed with rfl | rfl
  · simp only [step,here,carry,Function.update_self]
  · simp only [step,here]

theorem handled_answers (moments : Nat → Moment V) (here : s.errand caller = some ⟨packet,sender,.cleaned,true⟩) :
    ∃ reply, (s.step protocol calls (.handle caller moments)).2.errand caller =
      some ⟨packet,sender,.answered reply,true⟩ := by
  simp only [step,here,handled,Function.update_self,if_true]
  exact ⟨_,rfl⟩

theorem received_ends {reply : Except Exception V}
    (here : s.errand caller = some ⟨packet,sender,.answered reply,true⟩) :
    (s.step protocol calls (.receive caller)).2.errand caller = none := by
  simp only [step,here,carry,Function.update_self]

end Moves

theorem answered_finishes {reply : Except Exception V}
    (here : s.errand caller = some ⟨packet,sender,.answered reply,true⟩)
    (next : own caller moves = [.receive caller]) :
    (run (step protocol calls) s moves).errand caller = none := by
  obtain ⟨before,after,rfl,left,_,errand,_⟩ := own_next protocol calls s next
  have others : ∀ move ∈ after, move.caller ≠ some caller := by
    intro move member
    simpa using List.filter_eq_nil_iff.mp left move member
  rw [run_append,run,(run_others protocol calls _ others).1]
  exact received_ends protocol calls (errand.trans here)

theorem ready_finishes {moments : Nat → Moment V}
    (here : s.errand caller = some ⟨packet,sender,.cleaned,true⟩)
    (next : own caller moves = [.handle caller moments,.receive caller]) :
    Finishes protocol calls caller s moves := by
  obtain ⟨before,after,rfl,left,_,errand,_⟩ := own_next protocol calls s next
  obtain ⟨reply,answered⟩ := handled_answers protocol calls moments (errand.trans here)
  refine ⟨⟨before,.handle caller moments,after,rfl,fun later => ?_⟩,?_⟩
  · simp [tell,errand.trans here,Happening.isPacketOf]
  · rw [run_append,run]
    exact answered_finishes answered left

theorem passed_finishes {cleanUp moments : Nat → Moment V} {stage : Stage V}
    (here : s.errand caller = some ⟨packet,sender,stage,true⟩)
    (passed : stage = .expired ∨ stage = .cleaned)
    (next : own caller moves = [.cleanUp caller cleanUp,.handle caller moments,.receive caller]) :
    Finishes protocol calls caller s moves := by
  obtain ⟨before,after,rfl,left,_,errand,_⟩ := own_next protocol calls s next
  have cleaned := cleaned_goes protocol calls cleanUp (errand.trans here) passed
  exact (ready_finishes cleaned left).next.later

theorem entered_finishes {now : UInt64} {cleanUp moments : Nat → Moment V}
    (here : s.errand caller = some ⟨packet,sender,.entered,true⟩)
    (next : own caller moves =
      [.check caller now,.cleanUp caller cleanUp,.handle caller moments,.receive caller]) :
    Finishes protocol calls caller s moves := by
  obtain ⟨before,after,rfl,left,_,errand,_⟩ := own_next protocol calls s next
  obtain ⟨stage,passed,checked⟩ := checked_goes protocol calls now (errand.trans here)
  exact (passed_finishes checked passed left).next.later

theorem idle_stays (idle : s.errand caller = none) (quiet : ∀ move ∈ moves, move ≠ .send caller) :
    (run (step protocol calls) s moves).errand caller = none ∧
      (run (step protocol calls) s moves).progress caller = s.progress caller := by
  induction moves generalizing s with
  | nil => exact ⟨idle,rfl⟩
  | cons move moves ih =>
    have first : (s.step protocol calls move).2.errand caller = none ∧
        (s.step protocol calls move).2.progress caller = s.progress caller := by
      by_cases mine : move.caller = some caller
      · cases move with
        | send other =>
          cases mine
          exact absurd rfl (quiet _ (List.mem_cons_self ..))
        | complete number outcome => cases mine
        | _ =>
          cases mine
          simp only [step,idle,and_self]
      · obtain ⟨errand,standing⟩ := step_others calls protocol s move mine
        exact ⟨errand.trans idle,standing⟩
    obtain ⟨kept,stays⟩ := ih first.1 fun other member => quiet other (List.mem_cons_of_mem _ member)
    exact ⟨kept,stays.trans first.2⟩

omit [AnyValue V] [Codec V] in
theorem own_quiet (none : .send caller ∉ own caller moves) : ∀ move ∈ moves, move ≠ .send caller := by
  rintro _ member rfl
  exact none (List.mem_filter.mpr ⟨member,decide_eq_true rfl⟩)

-- One call of the functor, with whatever others do in between: it comes to an end,
-- and it counts as a packet unless the caller had returned before.
theorem call_finishes {now : UInt64} {cleanUp moments : Nat → Moment V} (idle : s.errand caller = none)
    (asks : (calls caller).request (s.progress caller) ≠ none)
    (next : own caller moves = call caller now cleanUp moments) :
    Finishes protocol calls caller s moves := by
  obtain ⟨before,after,rfl,left,_,errand,standing⟩ := own_next protocol calls s next
  have waits := errand.trans idle
  rcases asked : (calls caller).request (s.progress caller) with _ | error | packet
  · exact absurd asked asks
  · rw [← standing] at asked
    refine ⟨⟨before,.send caller,after,rfl,fun later => ?_⟩,?_⟩
    · simp [tell,waits,asked,Happening.isPacketOf]
    · rw [run_append,run]
      refine (idle_stays ?_ (own_quiet (by rw [left]; simp))).1
      simp only [step,waits,asked]
      exact waits
  · have sent := sent_enters protocol calls waits (by rw [standing]; exact asked)
    exact (entered_finishes sent left).next.later

theorem returned_stays (protocol : Protocol V) {now : UInt64} {cleanUp moments : Nat → Moment V} (idle : s.errand caller = none)
    (returned : (calls caller).request (s.progress caller) = none)
    (next : own caller moves = call caller now cleanUp moments) :
    (run (step protocol calls) s moves).errand caller = none ∧
      (run (step protocol calls) s moves).progress caller = s.progress caller := by
  obtain ⟨before,after,rfl,left,_,errand,standing⟩ := own_next protocol calls s next
  have waits := errand.trans idle
  rw [← standing] at returned ⊢
  have unsent : (step protocol calls (run (step protocol calls) s before) (.send caller)).2 =
      run (step protocol calls) s before := by
    simp only [step,waits,returned]
  rw [run_append,run,unsent]
  exact idle_stays waits (own_quiet (by rw [left]; simp))

end Own

section Completion
variable [LawfulAnyValue V] [LawfulCodec V] [LawfulAssign V] {protocol : Protocol V}
  {calls : Nat → ClientCall V} {expirationTimeNs cleanupNs : UInt64} {caller : Nat} {s : Threads V}

omit [LawfulAnyValue V] [LawfulCodec V] [LawfulAssign V] in
theorem unasked_returned {call : ClientCall V} {progress : Progress V}
    (silent : call.request progress = none) : ∃ invoked, progress = .returned invoked := by
  cases progress with
  | returned invoked => exact ⟨invoked,rfl⟩
  | called =>
    simp only [ClientCall.request] at silent
    split at silent <;> cases silent
  | polling invocation polls => cases silent
  | fetching invocation => cases silent

omit [LawfulAnyValue V] [LawfulCodec V] [LawfulAssign V] in
theorem idle_settles (calls : Nat → ClientCall V) (later : List (Move V)) (idle : s.errand caller = none) :
    (s.atomic calls later).progress caller = s.progress caller := by
  simp only [atomic,settled,idle]

theorem twice_completes (supported : ∀ caller, isSupportedPayloadEncoding (calls caller).config.encoding = true)
    {later : List (Move V)} {outcome : Outcome V} (sound : s.Sound calls)
    (patient : ∀ move ∈ later, move ≠ .giveUp caller) (idle : s.errand caller = none)
    (kept : (s.atomic calls later).Kept protocol calls expirationTimeNs caller)
    (closing : (s.atomic calls later).Closing caller (calls caller) outcome)
    (unexpired : ((run (step protocol calls) s later).atomic calls []).Unexpired expirationTimeNs caller)
    {now again : UInt64} {cleanUp moments cleanUpAgain momentsAgain : Nat → Moment V}
    (twice : own caller later =
      call caller now cleanUp moments ++ call caller again cleanUpAgain momentsAgain) :
    (run (step protocol calls) s later).progress caller =
      .returned (callEnd outcome (calls caller).output) := by
  have awaiting : s.Awaiting caller := by
    intro errand under
    rw [idle] at under
    cases under
  have linked : run (Shared.step protocol calls) (s.atomic calls later)
      (foretold (step protocol calls) (tell calls) s later) =
        (run (step protocol calls) s later).atomic calls [] :=
    run_foretold (atomic calls) (step_sound protocol) (step_told protocol) sound later
  have carried := foretold_all (step_awaiting protocol calls) (tell_carries calls) awaiting later patient
  obtain ⟨closed,left⟩ := Shared.run_closing supported _ carried kept closing (by rwa [linked])
  rw [linked] at closed left
  suffices ends : (run (step protocol calls) s later).errand caller = none ∧
      ∃ invoked, (run (step protocol calls) s later).progress caller = .returned invoked by
    obtain ⟨free,invoked,done⟩ := ends
    rw [done,closed.given invoked ((idle_settles calls [] free).trans done)]
  have launched := closing.launched
  rw [idle_settles calls later idle] at launched left
  obtain ⟨first,second,rfl,firstCall,secondCall⟩ := List.filter_eq_append_iff.mp twice
  rw [run_append]
  by_cases asks : (calls caller).request (s.progress caller) = none
  · obtain ⟨free,stays⟩ := returned_stays protocol idle asks firstCall
    rw [← stays] at asks
    obtain ⟨done,still⟩ := returned_stays protocol free asks secondCall
    rw [still]
    exact ⟨done,unasked_returned asks⟩
  · have finishes : Finishes protocol calls caller s first := call_finishes idle asks firstCall
    by_cases ended : (calls caller).request ((run (step protocol calls) s first).progress caller) = none
    · obtain ⟨done,still⟩ := returned_stays protocol finishes.finished ended secondCall
      rw [still]
      exact ⟨done,unasked_returned ended⟩
    · have last : Finishes protocol calls caller (run (step protocol calls) s first) second :=
        call_finishes finishes.finished ended secondCall
      have two := finishes.told second
      have one := last.told []
      rw [List.append_nil] at one
      have most : (s.progress caller).packetsLeft ≤ 2 := by
        cases here : s.progress caller with
        | called => exact absurd here launched
        | polling invocation polls => exact Nat.le_refl _
        | fetching invocation => exact Nat.le_succ _
        | returned invoked => exact Nat.zero_le _
      have free : (run (step protocol calls) s (first ++ second)).errand caller = none := by
        rw [run_append]
        exact last.finished
      rw [idle_settles calls [] free,Nat.sub_eq_zero_of_le (by omega),run_append] at left
      rw [run_append] at free
      exact ⟨free,Progress.returned_of_packetsLeft left⟩

-- A call that has ended is handed out by the next two calls of its caller's
-- functor, whatever other threads do between any two of its steps.
theorem threads_complete (protocol : Protocol V) (calls : Nat → ClientCall V)
    (supported : ∀ caller, isSupportedPayloadEncoding (calls caller).config.encoding = true)
    (expirationTimeNs cleanupNs : UInt64) (caller : Nat) (earlier later : List (Move V))
    (patient : ∀ move ∈ earlier ++ later, move ≠ .giveUp caller)
    (unexpired : (after protocol calls expirationTimeNs cleanupNs (earlier ++ later)).observed.Unexpired
      expirationTimeNs caller) (number : Nat) (outcome : Outcome V)
    (launched : (after protocol calls expirationTimeNs cleanupNs earlier).launchedBy[number]? = some caller)
    (ended : Tasks.outcomeOf (after protocol calls expirationTimeNs cleanupNs earlier).server.asyncServer.calls
      number = some outcome)
    (idle : (after protocol calls expirationTimeNs cleanupNs earlier).errand caller = none)
    (waits : ((after protocol calls expirationTimeNs cleanupNs earlier).progress caller).waitsFor ≠ none)
    {now again : UInt64} {cleanUp moments cleanUpAgain momentsAgain : Nat → Moment V}
    (twice : own caller later =
      call caller now cleanUp moments ++ call caller again cleanUpAgain momentsAgain) :
    (after protocol calls expirationTimeNs cleanupNs (earlier ++ later)).progress caller =
      .returned (callEnd outcome (calls caller).output) := by
  have fresh : (start expirationTimeNs cleanupNs calls).Sound calls := nofun
  have alone : (start expirationTimeNs cleanupNs calls).Awaiting caller := nofun
  have linked : Shared.after protocol calls expirationTimeNs (foretold (step protocol calls)
      (followed later (tell calls)) (start expirationTimeNs cleanupNs calls) earlier) =
        (after protocol calls expirationTimeNs cleanupNs earlier).atomic calls later :=
    run_followed (atomic calls) (step_sound protocol) (step_told protocol) fresh earlier later
  have told := after_told protocol calls expirationTimeNs cleanupNs (earlier ++ later)
  have carried := foretold_all (step_awaiting protocol calls) (tell_carries calls) alone
    (earlier ++ later) patient
  have alive : ((after protocol calls expirationTimeNs cleanupNs (earlier ++ later)).atomic calls
      []).Unexpired expirationTimeNs caller := ⟨unexpired.within,unexpired.alive⟩
  rw [foretold_append] at told carried
  have kept := Shared.after_kept supported _
    (fun happening member => carried happening (List.mem_append_left _ member))
    (Shared.after_earlier (by rwa [told]))
  rw [linked] at kept
  have stands := idle_settles calls later idle
  have closing : ((after protocol calls expirationTimeNs cleanupNs earlier).atomic calls later).Closing
      caller (calls caller) outcome := by
    refine ⟨⟨number,launched,ended⟩,?_,?_⟩
    · rw [stands]
      intro here
      simp [here,Progress.waitsFor] at waits
    · rw [stands]
      intro invoked here
      simp [here,Progress.waitsFor] at waits
  have sound : (after protocol calls expirationTimeNs cleanupNs earlier).Sound calls :=
    run_preserves (step_sound protocol) fresh earlier
  have resumed : after protocol calls expirationTimeNs cleanupNs (earlier ++ later) =
      run (step protocol calls) (after protocol calls expirationTimeNs cleanupNs earlier) later :=
    run_append _ earlier later
  rw [resumed] at alive ⊢
  exact twice_completes supported sound (fun move member => patient move (List.mem_append_right _ member))
    idle kept closing alive twice

end Completion

theorem overlapped_unexpired : overlapped.observed.Unexpired 10 0 := by
  refine ⟨by decide,fun number own => ?_⟩
  have owners : overlapped.observed.launchedBy = [1,0,2] := by decide
  rw [owners] at own
  match number with
  | 0 => cases own
  | 1 => exact of_decide_eq_true rfl
  | 2 => cases own
  | n+3 => cases own

theorem threads_complete_overlapping : overlapped.progress 0 =
    .returned (callEnd (.ok (.success,.string "done")) .empty) :=
  threads_complete _ Shared.threeCallers (fun _ => rfl) 10 5 0 (overlapping.take 14) (overlapping.drop 14)
    (by simp [overlapping]) overlapped_unexpired 1 _ rfl rfl rfl (by decide) rfl

end Threads

end SupProtocol
