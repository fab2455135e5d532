import LiveProbe.Proofs.World.Respect
import Mathlib.Data.List.Nodup

/-!
Chains of hooks on one method. Every hook runs what it was laid on, so a call runs the program at
the bottom once, and then the callbacks of those hooks that are the current ones of their managers,
the innermost first. Hooks that are no longer current fall through.
-/
namespace LiveProbe

namespace Body

variable {m : MethodName} {code : Code} {bound bound' slot : Nat → Nat} {n n' i i' : Nat}
  {callback : Callback} {saved b : Body}

def layer? (n i : Nat) : Body → Option (Callback × Body)
  | .hooked n' _ i' callback saved =>
    if n' = n ∧ i' = i then some (callback, saved) else saved.layer? n i
  | _ => none

/-- Hooks of a method on its program. No installation is there twice, and none has a number above
the last one of its manager. -/
def Stacked (m : MethodName) (code : Code) (bound : Nat → Nat) : Body → Prop
  | .program c => c = code
  | .hooked n m' i _ saved =>
    m' = m ∧ 0 < i ∧ i ≤ bound n ∧ saved.layer? n i = none ∧ saved.Stacked m code bound
  | _ => False

def live (slot : Nat → Nat) : Body → List (Nat × Callback)
  | .hooked n _ i callback saved =>
    saved.live slot ++ if slot n = i then [(n, callback)] else []
  | _ => []

theorem layer?_hooked_self (n i : Nat) (m : MethodName) (callback : Callback) (saved : Body) :
    (hooked n m i callback saved).layer? n i = some (callback, saved) := by
  simp [layer?]

theorem layer?_hooked_of_ne (apart : ¬ (n' = n ∧ i' = i)) (m : MethodName) (callback : Callback)
    (saved : Body) : (hooked n' m i' callback saved).layer? n i = saved.layer? n i := by
  simp [layer?, apart]

theorem Stacked.mono (stacked : b.Stacked m code bound) (le : ∀ n, bound n ≤ bound' n) :
    b.Stacked m code bound' := by
  induction b with
  | program c => exact stacked
  | hooked n m' i callback saved ih =>
    obtain ⟨own, positive, bounded, new, below⟩ := stacked
    exact ⟨own, positive, Nat.le_trans bounded (le n), new, ih below⟩
  | wrapped => exact stacked
  | replaced => exact stacked

theorem Stacked.layer?_eq_none (stacked : b.Stacked m code bound) (above : bound n < i) :
    b.layer? n i = none := by
  induction b with
  | hooked n' m' i' callback saved ih =>
    obtain ⟨-, -, bounded, -, below⟩ := stacked
    rw [layer?_hooked_of_ne, ih below]
    intro ⟨sameManager, sameNumber⟩
    subst sameManager sameNumber
    omega
  | _ => rfl

theorem Stacked.positive (stacked : b.Stacked m code bound) (found : (b.layer? n i).isSome = true) :
    0 < i := by
  induction b with
  | hooked n' m' i' callback saved ih =>
    obtain ⟨-, positive, -, -, below⟩ := stacked
    by_cases own : n' = n ∧ i' = i
    · rw [← own.2]
      exact positive
    · rw [layer?_hooked_of_ne own] at found
      exact ih below found
  | _ => simp [layer?] at found

theorem Stacked.mem_live (stacked : b.Stacked m code bound) :
    (n, callback) ∈ b.live slot ↔ ∃ saved, b.layer? n (slot n) = some (callback, saved) := by
  induction b with
  | hooked n' m' i' callback' saved ih =>
    obtain ⟨-, -, -, new, below⟩ := stacked
    unfold live
    rw [List.mem_append, ih below]
    by_cases own : n' = n ∧ i' = slot n
    · obtain ⟨rfl, rfl⟩ := own
      rw [new, layer?_hooked_self, if_pos rfl]
      simp [eq_comm]
    · rw [layer?_hooked_of_ne own]
      have absent : (n, callback) ∉ if slot n' = i' then [(n', callback')] else [] := by
        split
        · rename_i current
          intro member
          cases List.mem_singleton.mp member
          exact own ⟨rfl, current.symm⟩
        · exact List.not_mem_nil
      simp [absent]
  | _ => simp [live, layer?]

theorem Stacked.nodup_live (stacked : b.Stacked m code bound) :
    ((b.live slot).map (·.1)).Nodup := by
  induction b with
  | hooked n' m' i' callback' saved ih =>
    obtain ⟨-, -, -, new, below⟩ := stacked
    unfold live
    rw [List.map_append, List.nodup_append]
    refine ⟨ih below, ?_, ?_⟩
    · split
      · exact List.nodup_singleton _
      · exact List.nodup_nil
    · intro n member n'' member' same
      subst same
      split at member'
      · rename_i current
        obtain ⟨⟨_, callback⟩, listed, rfl⟩ := List.mem_map.mp member
        obtain ⟨deeper, found⟩ := below.mem_live.mp listed
        cases List.mem_singleton.mp member'
        rw [current, new] at found
        cases found
      · exact List.not_mem_nil member'
  | _ => exact List.nodup_nil

end Body

namespace Action

def fireAll (run : Runner) (args : CallArgs) (returned : Value) (callbacks : List Callback) :
    Action Unit :=
  callbacks.forM fun callback => do
    let w ← get
    fire run (.method { args, returned, elapsed := w.elapsed, stack := w.stack }) callback

def observed (run : Runner) (args : CallArgs) (code : Code) (callbacks : List Callback) :
    Action Value := do
  let returned ← run args code
  fireAll run args returned callbacks
  return returned

theorem fireAll_append (run : Runner) (args : CallArgs) (returned : Value)
    (first later : List Callback) : fireAll run args returned (first ++ later) =
      (fireAll run args returned first >>= fun _ => fireAll run args returned later) := by
  unfold fireAll
  exact List.forM_append

theorem bind_congr_apply {α β : Type} {x y : Action α} {w : World} (same : x w = y w)
    (f : α → Action β) : (x >>= f) w = (y >>= f) w := by
  rw [bind_apply, bind_apply, same]

theorem perform_of_stacked (run : Runner) (args : CallArgs) {m : MethodName} {code : Code}
    {bound : Nat → Nat} {b : Body} (stacked : b.Stacked m code bound) (w : World) :
    perform run args b w =
      observed run args code ((b.live fun n => w.slot n m).map (·.2)) w := by
  induction b with
  | program c =>
    cases stacked
    simp [perform, observed, fireAll, Body.live]
  | hooked n m' i callback saved ih =>
    obtain ⟨rfl, -, -, -, below⟩ := stacked
    have unfolded : perform run args (.hooked n m' i callback saved) w =
        (perform run args saved >>= fun returned => do
          fireAll run args returned (if w.slot n m' = i then [callback] else [])
          return returned) w := by
      show (perform run args saved >>= fun returned => if w.slot n m' = i then _ else _) w = _
      refine congrFun (congrArg (perform run args saved >>= ·) (funext fun returned => ?_)) w
      split <;> simp [fireAll]
    rw [unfolded, bind_congr_apply (ih below)]
    simp only [Body.live, observed, List.map_append, fireAll_append, bind_assoc, pure_bind]
    split <;> rfl
  | wrapped => exact stacked.elim
  | replaced => exact stacked.elim

end Action
end LiveProbe
