import Mathlib.Data.List.Nodup
import Mathlib.Logic.Function.Basic

namespace Holders

/-!
# Who holds a resource

Resources are taken, held by the slots of a table, and given back.

* `held` — what the slots hold, slot by slot;
* `count_held_update` — one slot against the others;
* `each_once_iff` — when each resource is given back once.
-/

universe u v

variable {ι : Type u} {α : Type v} {slots : List ι} {f : ι → Option α} {i : ι}

/-- What the slots hold. -/
def held (slots : List ι) (f : ι → Option α) : List α := slots.filterMap f

theorem held_cons : held (i :: slots) f = (f i).toList ++ held slots f := by
  unfold held
  cases hf : f i with
  | none => rw [List.filterMap_cons_none hf]; rfl
  | some x => rw [List.filterMap_cons_some hf]; rfl

/-- Slots that hold nothing. -/
theorem held_eq_nil (h : ∀ i, f i = none) : held slots f = [] := by
  induction slots with
  | nil => rfl
  | cons i slots ih => rw [held_cons, h i, ih]; rfl

section update

variable [DecidableEq ι]

theorem held_update_of_notMem (h : i ∉ slots) (v : Option α) :
    held slots (Function.update f i v) = held slots f := by
  refine List.filterMap_congr (fun j hj => ?_)
  have hne : j ≠ i := fun heq => h (heq ▸ hj)
  exact Function.update_of_ne hne v f

/-- One slot against the others. -/
theorem count_held_update [DecidableEq α] (hnodup : slots.Nodup) (hi : i ∈ slots) (v : Option α)
    (x : α) : (held slots (Function.update f i v)).count x + (f i).toList.count x =
      (held slots f).count x + v.toList.count x := by
  induction slots with
  | nil => exact absurd hi List.not_mem_nil
  | cons j slots ih =>
    obtain ⟨hj, hnodup⟩ := List.nodup_cons.mp hnodup
    rw [held_cons, held_cons, List.count_append, List.count_append]
    by_cases heq : i = j
    · subst heq
      rw [held_update_of_notMem hj, Function.update_self]
      omega
    · have hrest := ih hnodup ((List.mem_cons.mp hi).resolve_left heq)
      rw [Function.update_of_ne (fun h => heq h.symm)]
      omega

end update

/-- **Each once.** Where what was given back is what was taken and some of it a second time, each
    resource was given back once if and only if there was no second time. -/
theorem each_once_iff [DecidableEq α] {taken back again : List α} (hnodup : taken.Nodup)
    (hagain : ∀ x ∈ again, x ∈ taken) (hlaw : ∀ x, back.count x = taken.count x + again.count x) :
    ((∀ x ∈ taken, back.count x = 1) ∧ back.Nodup) ↔ again = [] := by
  constructor
  · rintro ⟨honce, -⟩
    refine List.eq_nil_iff_forall_not_mem.mpr (fun x hx => ?_)
    have htaken := List.count_pos_iff.mpr (hagain x hx)
    have hpos := List.count_pos_iff.mpr hx
    have := honce x (hagain x hx)
    have := hlaw x
    omega
  · rintro rfl
    simp only [List.count_nil, Nat.add_zero] at hlaw
    refine ⟨fun x hx => ?_, List.nodup_iff_count_le_one.mpr (fun x => ?_)⟩
    · rw [hlaw x]
      exact List.count_eq_one_of_mem hnodup hx
    · rw [hlaw x]
      exact List.nodup_iff_count_le_one.mp hnodup x

end Holders
