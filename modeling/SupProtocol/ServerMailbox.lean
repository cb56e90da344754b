import SupProtocol.ServerFunctions
import SupProtocol.ServerInvariants
import SupProtocol.Library.Mailbox

namespace SupProtocol.AsyncInvokeServer
open Machine

variable {V : Type}

-- The table as a mailbox: an initial request posts its call under the new id,
-- a reply takes it, and every removal drops what is left.
def Effect.action : Effect → Option (Mailbox.Action UInt64 Nat)
  | .launched key call _ => some (.post key call)
  | .on key (.retrieved call) => some (.take key call)
  | .on _ _ => none
  | .erased key => some (.drop key)

structure Mirrors (s : AsyncInvokeServer V) (box : Mailbox.Box UInt64 Nat) : Prop where
  numbered : Numbered s
  live : ∀ key, box.live key = s.invokes[key]?.bind AsyncInvoke.future
  posted : ∀ key ∈ box.posted, 0 < key.toNat ∧ key.toNat ≤ s.calls.length

theorem start_mirrors (expirationTimeNs : UInt64) :
    Mirrors (start expirationTimeNs : AsyncInvokeServer V) Mailbox.Box.start :=
  ⟨start_numbered expirationTimeNs,fun key => by simp [Mailbox.Box.start,start],
   fun key member => by simp [Mailbox.Box.start] at member⟩

theorem examined_actions (invoke : AsyncInvoke) (calls : Calls V) (key now : UInt64) :
    ((invoke.isReadyForRemoval calls now).2.map (Effect.on key)).filterMap Effect.action = [] := by
  apply List.filterMap_eq_nil_iff.mpr
  intro effect member
  obtain ⟨call,rfl⟩ := examined_effects calls now member
  rfl

theorem Mirrors.fresh {s : AsyncInvokeServer V} {box : Mailbox.Box UInt64 Nat}
    (mirrors : Mirrors s box) (below : s.calls.length + 1 < UInt64.size) :
    s.lastId + 1 ∉ box.posted ∧ s.invokes[s.lastId + 1]? = none := by
  have number := next_toNat mirrors.numbered.counter below
  refine ⟨?_,?_⟩
  · intro member
    have bound := (mirrors.posted _ member).2
    omega
  · cases here : s.invokes[s.lastId + 1]? with
    | none => rfl
    | some invoke =>
      obtain ⟨call,_,same,bound⟩ := mirrors.numbered.entries _ _ here
      omega

theorem Mirrors.frame {s t : AsyncInvokeServer V} {box : Mailbox.Box UInt64 Nat}
    (mirrors : Mirrors s box) (numbered : Numbered t) (longer : s.calls.length ≤ t.calls.length)
    (same : ∀ key : UInt64, t.invokes[key]?.bind AsyncInvoke.future =
      s.invokes[key]?.bind AsyncInvoke.future) : Mirrors t box := by
  refine ⟨numbered,fun key => (mirrors.live key).trans (same key).symm,?_⟩
  intro key member
  obtain ⟨positive,bound⟩ := mirrors.posted key member
  exact ⟨positive,by omega⟩

theorem Mirrors.gone {s t : AsyncInvokeServer V} {box : Mailbox.Box UInt64 Nat} {key : UInt64}
    (mirrors : Mirrors s box) (numbered : Numbered t) (longer : s.calls.length ≤ t.calls.length)
    (same : ∀ k : UInt64, t.invokes[k]?.bind AsyncInvoke.future =
      if k = key then none else s.invokes[k]?.bind AsyncInvoke.future) :
    Mirrors t (box.put key none) := by
  refine ⟨numbered,?_,?_⟩
  · intro k
    simp only [Mailbox.Box.put,mirrors.live,same]
  · intro k member
    obtain ⟨positive,bound⟩ := mirrors.posted k member
    exact ⟨positive,by omega⟩

theorem store_futures {s : AsyncInvokeServer V} {key : UInt64} {invoke changed : AsyncInvoke}
    (found : s.invokes[key]? = some invoke) (same : changed.future = invoke.future) (k : UInt64) :
    (s.store key changed).invokes[k]?.bind AsyncInvoke.future =
      s.invokes[k]?.bind AsyncInvoke.future := by
  rw [store_lookup]
  split
  · rename_i here
    subst k
    simp [found,same]
  · rfl

theorem mirrored (s : AsyncInvokeServer V) (labels : List Effect) (t : AsyncInvokeServer V)
    (box : Mailbox.Box UInt64 Nat) (mirrors : Mirrors s box)
    (step : Transition s labels t ∧ t.calls.length < UInt64.size) :
    ∃ next, Path Mailbox.Step box (labels.filterMap Effect.action) next ∧ Mirrors t next := by
  have numbered := transition_numbered s labels t mirrors.numbered step
  obtain ⟨step,below⟩ := step
  have longer := calls_grow s labels t step
  cases step with
  | complete completions => exact ⟨box,.nil,mirrors.frame numbered longer fun _ => rfl⟩
  | launch payload now =>
    have count : s.calls.length + 1 < UInt64.size := by simpa [emplace,Tasks.launch] using below
    obtain ⟨unposted,absent⟩ := mirrors.fresh count
    refine ⟨_,.single (.post unposted),numbered,?_,?_⟩
    · intro key
      simp only [Mailbox.Box.put,emplace_lookup,mirrors.live]
      by_cases same : key = s.lastId + 1
      · subst key
        simp [absent]
      · simp [same,Ne.symm same]
    · intro key member
      have number := next_toNat mirrors.numbered.counter count
      have grown : ({s with lastId := s.lastId+1}.emplace (s.lastId+1) payload now).1.calls.length =
        s.calls.length + 1 := by simp [emplace,Tasks.launch]
      rcases List.mem_append.mp member with old | new
      · obtain ⟨positive,bound⟩ := mirrors.posted key old
        exact ⟨positive,by omega⟩
      · rw [List.mem_singleton.mp new]
        omega
  | examine found now =>
    rw [examined_actions]
    exact ⟨box,.nil,mirrors.frame numbered longer fun _ => rfl⟩
  | erase found now removable =>
    rw [List.filterMap_append,examined_actions]
    refine ⟨_,.single .drop,mirrors.gone numbered longer fun k => ?_⟩
    simp only [erase_lookup,eq_comm]
    split <;> rfl
  | rewrite found => exact ⟨box,.nil,mirrors.frame numbered longer (store_futures found rfl)⟩
  | access found now => exact ⟨box,.nil,mirrors.frame numbered longer (store_futures found rfl)⟩
  | retrieve found held ended wanted =>
    rename_i call key invoke
    have content : box.live key = some call := by rw [mirrors.live,found]; exact held
    have actions : Path Mailbox.Step box [.take key call,.drop key] ((box.put key none).put key none) :=
      (Path.single (Mailbox.Step.take content)).append (Path.single Mailbox.Step.drop)
    refine ⟨_,actions,?_⟩
    rw [Mailbox.Box.put_put]
    refine mirrors.gone numbered longer fun k => ?_
    simp only [erase_lookup,store_lookup,eq_comm]
    split <;> rfl
  | invalidate found => exact ⟨box,.nil,mirrors.frame numbered longer (store_futures found rfl)⟩

theorem path_mirrored {expirationTimeNs : UInt64} {labels : List Effect} {t : AsyncInvokeServer V}
    (path : Path Transition (start expirationTimeNs) labels t)
    (below : t.calls.length < UInt64.size) : ∃ box,
      Path Mailbox.Step Mailbox.Box.start (labels.filterMap Effect.action) box ∧ Mirrors t box :=
  (path.restrict calls_grow below).simulates (R := Mirrors) mirrored (start_mirrors expirationTimeNs)

end SupProtocol.AsyncInvokeServer
