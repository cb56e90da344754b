import SupProtocol.Library.Machine

namespace Mailbox
open Machine

-- One-shot delivery: a content is posted once under a fresh key, and may be
-- taken or dropped, after which it is gone.
structure Box (κ α : Type) where
  live : κ → Option α
  posted : List κ

inductive Action (κ α : Type) where
  | post (key : κ) (content : α)
  | take (key : κ) (content : α)
  | drop (key : κ)
  deriving DecidableEq

variable {κ α : Type} [DecidableEq κ]

def Box.put (box : Box κ α) (key : κ) (content : Option α) : Box κ α :=
  {box with live := fun k => if k = key then content else box.live k}

@[simp] theorem Box.put_put (box : Box κ α) (key : κ) (first last : Option α) :
    (box.put key first).put key last = box.put key last := by
  simp only [Box.put,Box.mk.injEq,and_true]
  funext k
  split <;> simp_all

def Box.start : Box κ α := ⟨fun _ => none,[]⟩

inductive Step : Box κ α → List (Action κ α) → Box κ α → Prop where
  | post (fresh : key ∉ box.posted) :
      Step box [.post key content] {box.put key (some content) with posted := box.posted ++ [key]}
  | take (held : box.live key = some content) : Step box [.take key content] (box.put key none)
  | drop : Step box [.drop key] (box.put key none)

def takes (key : κ) (log : List (Action κ α)) : Nat :=
  log.countP fun action => match action with
    | .take k _ => k == key
    | _ => false

@[simp] theorem takes_nil (key : κ) : takes key ([] : List (Action κ α)) = 0 := rfl

@[simp] theorem takes_append (key : κ) (log more : List (Action κ α)) :
    takes key (log ++ more) = takes key log + takes key more := List.countP_append ..

@[simp] theorem takes_post (key k : κ) (content : α) : takes key [.post k content] = 0 := rfl
@[simp] theorem takes_drop (key k : κ) : takes key ([.drop k] : List (Action κ α)) = 0 := rfl
@[simp] theorem takes_take (key k : κ) (content : α) :
    takes key [.take k content] = if key = k then 1 else 0 := by
  by_cases same : k = key
  · simp [takes,same]
  · simp [takes,same,Ne.symm same]

-- A content that is still there was posted and never taken; nothing is there,
-- or was taken, under a key that was not posted.
structure Sound (log : List (Action κ α)) (box : Box κ α) : Prop where
  live : ∀ key content, box.live key = some content → .post key content ∈ log ∧ takes key log = 0
  once : ∀ key, takes key log ≤ 1
  posted : ∀ key content, .post key content ∈ log → key ∈ box.posted
  unposted : ∀ key, key ∉ box.posted → takes key log = 0

theorem start_sound : Sound [] (Box.start : Box κ α) := by
  refine ⟨?_,?_,?_,?_⟩ <;> simp [Box.start]

theorem post_sound {log : List (Action κ α)} {box : Box κ α} (sound : Sound log box)
    (fresh : key ∉ box.posted) (content : α) : Sound (log ++ [.post key content])
      {box.put key (some content) with posted := box.posted ++ [key]} := by
  refine ⟨?_,by simpa using sound.once,?_,?_⟩
  · intro k c held
    simp only [Box.put] at held
    split at held
    · rename_i same
      cases held
      subst k
      exact ⟨by simp,by simpa using sound.unposted key fresh⟩
    · obtain ⟨was,untaken⟩ := sound.live k c held
      exact ⟨List.mem_append_left _ was,by simpa using untaken⟩
  · intro k c member
    rcases List.mem_append.mp member with old | new
    · exact List.mem_append_left _ (sound.posted k c old)
    · exact List.mem_append_right _ (by simpa using (Action.post.inj (List.mem_singleton.mp new)).1)
  · intro k absent
    simpa using sound.unposted k (fun old => absent (List.mem_append_left _ old))

theorem gone_live {log : List (Action κ α)} {box : Box κ α} (sound : Sound log box)
    (still : (box.put key none).live k = some content) :
    k ≠ key ∧ .post k content ∈ log ∧ takes k log = 0 := by
  simp only [Box.put] at still
  split at still
  · cases still
  · rename_i other
    exact ⟨other,sound.live k content still⟩

theorem take_sound {log : List (Action κ α)} {box : Box κ α} (sound : Sound log box)
    (held : box.live key = some content) :
    Sound (log ++ [.take key content]) (box.put key none) := by
  obtain ⟨was,untaken⟩ := sound.live key content held
  refine ⟨?_,?_,?_,?_⟩
  · intro k c still
    obtain ⟨other,posted,none⟩ := gone_live sound still
    exact ⟨List.mem_append_left _ posted,by simp [none,other]⟩
  · intro k
    by_cases same : k = key
    · simp [same,untaken]
    · simpa [same] using sound.once k
  · intro k c member
    exact sound.posted k c (by simpa using member)
  · intro k absent
    have other : k ≠ key := fun same => absent (same ▸ sound.posted key content was)
    simpa [other] using sound.unposted k absent

theorem drop_sound {log : List (Action κ α)} {box : Box κ α} (sound : Sound log box) (key : κ) :
    Sound (log ++ [.drop key]) (box.put key none) := by
  refine ⟨?_,by simpa using sound.once,?_,by simpa [Box.put] using sound.unposted⟩
  · intro k c still
    obtain ⟨_,posted,none⟩ := gone_live sound still
    exact ⟨List.mem_append_left _ posted,by simpa using none⟩
  · intro k c member
    exact sound.posted k c (by simpa using member)

theorem step_sound (log : List (Action κ α)) (box : Box κ α) (actions : List (Action κ α))
    (next : Box κ α) (sound : Sound log box) (step : Step box actions next) :
    Sound (log ++ actions) next := by
  cases step with
  | post fresh => exact post_sound sound fresh _
  | take held => exact take_sound sound held
  | drop => exact drop_sound sound _

theorem path_sound {log : List (Action κ α)} {box : Box κ α} (path : Path Step Box.start log box) :
    Sound log box := by
  simpa using path.accumulates step_sound start_sound

theorem taken_once {log : List (Action κ α)} {box : Box κ α} (path : Path Step Box.start log box)
    (key : κ) : takes key log ≤ 1 := (path_sound path).once key

end Mailbox
