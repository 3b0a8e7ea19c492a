import Mathlib.Algebra.BigOperators.Group.Finset.Basic
import Mathlib.Algebra.Order.BigOperators.Group.Finset
import Mathlib.Data.Fintype.Basic

namespace Threads

/-!
# Counting frames on call stacks

Finitely many threads, each with a stack of frames, top first.  What threads do to shared state is
told by what their frames are at, so an invariant over all of them is arithmetic on counts.

* `count p S` — how many frames satisfy `p`;
* `count_le` — a wider kind counts at least as many;
* `count_pop` / `count_push` — the top frame of one thread against all the others.
-/

universe u v

variable {ι : Type u} {φ : Type v} [Fintype ι] {p q : φ → Bool} {S : ι → List φ} {i : ι}

/-- The number of frames, on all stacks, that satisfy `p`. -/
def count (p : φ → Bool) (S : ι → List φ) : Nat := ∑ i, (S i).countP p

theorem count_pos : 0 < count p S ↔ ∃ i, ∃ f ∈ S i, p f = true := by
  simp [count, Finset.sum_pos_iff, List.countP_pos_iff]

theorem count_eq_zero : count p S = 0 ↔ ∀ i, ∀ f ∈ S i, p f = false := by
  simp [count, List.countP_eq_zero]

/-- A wider kind counts at least as many. -/
theorem count_le (h : ∀ f, p f = true → q f = true) : count p S ≤ count q S :=
  Finset.sum_le_sum (fun _ _ => List.countP_mono_left (fun f _ => h f))

/-- On empty stacks nothing is counted. -/
@[simp] theorem count_nil : count p (fun _ : ι => []) = 0 := by
  simp [count]

variable [DecidableEq ι]

/-- One stack against the others. -/
theorem count_update (l : List φ) :
    count p (Function.update S i l) + (S i).countP p = count p S + l.countP p := by
  unfold count
  have hother : ∀ T : ι → List φ, ∑ j, (T j).countP p =
      (T i).countP p + ∑ j ∈ Finset.univ.erase i, (T j).countP p :=
    fun T => (Finset.add_sum_erase _ _ (Finset.mem_univ i)).symm
  have hrest : ∑ j ∈ Finset.univ.erase i, (Function.update S i l j).countP p =
      ∑ j ∈ Finset.univ.erase i, (S j).countP p := by
    refine Finset.sum_congr rfl (fun j hj => ?_)
    rw [Function.update_of_ne (Finset.ne_of_mem_erase hj)]
  rw [hother, hother, hrest, Function.update_self]
  omega

/-- The top frame against all the others. -/
theorem count_pop {f : φ} {rest : List φ} (h : S i = f :: rest) :
    count p S = count p (Function.update S i rest) + (p f).toNat := by
  have := count_update (p := p) (S := S) (i := i) rest
  rw [h, List.countP_cons] at this
  cases hf : p f
  · simp_all
  · simp_all
    omega

/-- A frame on top of the others. -/
theorem count_push (f : φ) :
    count p (Function.update S i (f :: S i)) = count p S + (p f).toNat := by
  have := count_update (p := p) (S := S) (i := i) (f :: S i)
  rw [List.countP_cons] at this
  cases hf : p f
  · simp_all
  · simp_all
    omega

/-- The top frame gives way to another, or to none. -/
theorem count_replace {rest : List φ} (next : Option φ) :
    count p (Function.update S i (next.toList ++ rest)) =
      count p (Function.update S i rest) + (next.any p).toNat := by
  cases next with
  | none => simp
  | some f' =>
    have := count_push (p := p) (S := Function.update S i rest) (i := i) f'
    simpa using this

end Threads
