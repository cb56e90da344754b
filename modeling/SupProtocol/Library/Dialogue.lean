import Mathlib.Data.List.Basic

namespace Dialogue

-- Something that answers one question at a time, and changes as it does.
abbrev Responder (σ ι ω : Type) := ι → σ → ω × σ

-- Somebody who asks: where it stands decides the next question, and the answer
-- where it stands then.
structure Asker (π ι ω : Type) where
  ask : π → Option ι
  hear : π → ω → π

section Talks
variable {π σ τ ι ω : Type}

def step (asker : Asker π ι ω) (responder : Responder σ ι ω) (s : π × σ) : π × σ :=
  match asker.ask s.1 with
  | none => s
  | some question => (asker.hear s.1 (responder question s.2).1,(responder question s.2).2)

def talk (asker : Asker π ι ω) (responder : Responder σ ι ω) : Nat → π × σ → π × σ
  | 0,s => s
  | questions+1,s => talk asker responder questions (step asker responder s)

def answers (responder : Responder σ ι ω) : List ι → σ → List ω × σ
  | [],s => ([],s)
  | question :: questions,s =>
    let (later,t) := answers responder questions (responder question s).2
    ((responder question s).1 :: later,t)

-- From related states on, nobody can tell the two apart.
def Alike (R : σ → τ → Prop) (f : Responder σ ι ω) (g : Responder τ ι ω) : Prop :=
  ∀ question s t, R s t → (f question s).1 = (g question t).1 ∧ R (f question s).2 (g question t).2

theorem Alike.symm {R : σ → τ → Prop} {f : Responder σ ι ω} {g : Responder τ ι ω} (alike : Alike R f g) :
    Alike (fun t s => R s t) g f := by
  intro question t s related
  obtain ⟨same,kept⟩ := alike question s t related
  exact ⟨same.symm,kept⟩

theorem talk_alike {R : σ → τ → Prop} {f : Responder σ ι ω} {g : Responder τ ι ω} (alike : Alike R f g)
    (asker : Asker π ι ω) (questions : Nat) {p : π} {s : σ} {t : τ} (related : R s t) :
    (talk asker f questions (p,s)).1 = (talk asker g questions (p,t)).1 ∧
      R (talk asker f questions (p,s)).2 (talk asker g questions (p,t)).2 := by
  induction questions generalizing p s t with
  | zero => exact ⟨rfl,related⟩
  | succ questions ih =>
    cases asked : asker.ask p with
    | none => simpa only [talk,step,asked] using ih related
    | some question =>
      obtain ⟨same,kept⟩ := alike question s t related
      simpa only [talk,step,asked,same] using ih kept

theorem answers_alike {R : σ → τ → Prop} {f : Responder σ ι ω} {g : Responder τ ι ω}
    (alike : Alike R f g) (questions : List ι) {s : σ} {t : τ} (related : R s t) :
    (answers f questions s).1 = (answers g questions t).1 ∧
      R (answers f questions s).2 (answers g questions t).2 := by
  induction questions generalizing s t with
  | nil => exact ⟨rfl,related⟩
  | cons question questions ih =>
    obtain ⟨same,kept⟩ := alike question s t related
    obtain ⟨later,held⟩ := ih kept
    exact ⟨congrArg₂ List.cons same later,held⟩

end Talks

-- The same responder with somebody beside it who sees every question and its
-- answer.
section Watched
variable {σ τ ι ω : Type}

def watched (responder : Responder σ ι ω) (watch : ι → ω → τ → τ) : Responder (σ × τ) ι ω :=
  fun question s =>
    ((responder question s.1).1,(responder question s.1).2,watch question (responder question s.1).1 s.2)

def recorded (responder : Responder σ ι ω) : Responder (σ × List (ι × ω)) ι ω :=
  watched responder fun question answer log => log ++ [(question,answer)]

theorem watched_alike (responder : Responder σ ι ω) (watch : ι → ω → τ → τ) :
    Alike (fun (s : σ × τ) t => s.1 = t) (watched responder watch) responder := by
  rintro question s _ rfl
  exact ⟨rfl,rfl⟩

-- All that a watcher knows follows from what happened.
theorem watched_folds (responder : Responder σ ι ω) (watch : ι → ω → τ → τ) (first : τ) :
    Alike (fun (s : σ × List (ι × ω)) (t : σ × τ) =>
        t = (s.1,s.2.foldl (fun seen exchanged => watch exchanged.1 exchanged.2 seen) first))
      (recorded responder) (watched responder watch) := by
  rintro question ⟨s,log⟩ t rfl
  refine ⟨rfl,?_⟩
  simp [recorded,watched,List.foldl_append]

end Watched

-- The same responder with notes taken at each question, which depend on the
-- question and on where the responder stands.
section Annotated
variable {σ τ ι ω κ : Type} {responder : Responder σ ι ω} {notes : ι → σ → List κ}

def annotated (responder : Responder σ ι ω) (notes : ι → σ → List κ) : Responder (σ × List κ) ι ω :=
  fun question s => ((responder question s.1).1,(responder question s.1).2,s.2 ++ notes question s.1)

def notesAlong (responder : Responder σ ι ω) (notes : ι → σ → List κ) : List ι → σ → List κ
  | [],_ => []
  | question :: questions,s =>
    notes question s ++ notesAlong responder notes questions (responder question s).2

theorem annotated_answers (questions : List ι) (s : σ) (log : List κ) :
    answers (annotated responder notes) questions (s,log) =
      ((answers responder questions s).1,(answers responder questions s).2,
        log ++ notesAlong responder notes questions s) := by
  induction questions generalizing s log with
  | nil => simp [answers,notesAlong]
  | cons question questions ih =>
    have first : annotated responder notes question (s,log) = ((responder question s).1,
      (responder question s).2,log ++ notes question s) := rfl
    simp only [answers,notesAlong,first,ih,List.append_assoc]

-- Whoever makes something of the notes one by one has made the same of them all.
theorem folded_answers {f : Responder (σ × τ) ι ω} {fold : τ → κ → τ}
    (folds : ∀ question s t, f question (s,t) =
      ((responder question s).1,(responder question s).2,(notes question s).foldl fold t))
    (questions : List ι) (s : σ) (t : τ) : answers f questions (s,t) =
      ((answers responder questions s).1,(answers responder questions s).2,
        (notesAlong responder notes questions s).foldl fold t) := by
  have alike : Alike (fun (s : σ × List κ) (u : σ × τ) => u = (s.1,s.2.foldl fold t))
      (annotated responder notes) f := by
    rintro question ⟨s,log⟩ _ rfl
    simp [annotated,folds,List.foldl_append]
  obtain ⟨same,kept⟩ := answers_alike alike questions (s := (s,[])) rfl
  rw [annotated_answers] at same kept
  exact Prod.ext same.symm kept

theorem notesAlong_filterMap {f : κ → Option α} {exchanged : ι × ω → List α}
    (noted : ∀ question s, (notes question s).filterMap f = exchanged (question,(responder question s).1))
    (questions : List ι) (s : σ) : (notesAlong responder notes questions s).filterMap f =
      (questions.zip (answers responder questions s).1).flatMap exchanged := by
  induction questions generalizing s with
  | nil => rfl
  | cons question questions ih =>
    simp only [notesAlong,answers,List.filterMap_append,noted,ih,List.zip_cons_cons,List.flatMap_cons]

end Annotated

end Dialogue
