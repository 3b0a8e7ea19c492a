import Mathlib.Tactic.Common

/-!
# Computations that read a buffer

A computation that reads a buffer at positions of its own choice, with a record of all positions.

* `Reading` — a value and the positions that were read for it; it is a monad, and `read` is one read;
* `Within` — every position is below a bound; `within_pure`, `within_bind`, `within_ite` — over the
  constructs of a program.
-/

universe u

/-- A value, and the positions that were read for it, in order. -/
structure Reading (α : Type u) where
  value : α
  positions : List Nat

namespace Reading

variable {α β : Type u} {r : Reading α} {f : α → Reading β} {n : Nat}

instance : Monad Reading where
  pure a := ⟨a, []⟩
  bind r f := ⟨(f r.value).value, r.positions ++ (f r.value).positions⟩

/-- One read. -/
def read (buffer : Nat → α) (i : Nat) : Reading α := ⟨buffer i, [i]⟩

@[simp] theorem value_pure (a : α) : (pure a : Reading α).value = a := rfl

@[simp] theorem value_bind : (r >>= f).value = (f r.value).value := rfl

@[simp] theorem value_ite {p : Prop} [Decidable p] (r r' : Reading α) :
    (if p then r else r').value = if p then r.value else r'.value := apply_ite value p r r'

@[simp] theorem value_read (buffer : Nat → α) (i : Nat) : (read buffer i).value = buffer i := rfl

/-- Every position is below `n`. -/
def Within (n : Nat) (r : Reading α) : Prop := ∀ i ∈ r.positions, i < n

theorem within_pure {a : α} : Within n (pure a : Reading α) :=
  fun _ hi => absurd hi List.not_mem_nil

theorem within_read (buffer : Nat → α) {i : Nat} (hi : i < n) : Within n (read buffer i) := by
  intro j hj
  rw [List.mem_singleton.mp hj]
  exact hi

/-- What follows is asked for after the value that it is given only. -/
theorem within_bind (hr : Within n r) (hf : Within n (f r.value)) : Within n (r >>= f) := by
  intro i hi
  rcases List.mem_append.mp hi with h | h
  · exact hr i h
  · exact hf i h

theorem within_ite {p : Prop} [Decidable p] {r r' : Reading α} (hr : p → Within n r)
    (hr' : ¬ p → Within n r') : Within n (if p then r else r') := by
  split
  · exact hr ‹_›
  · exact hr' ‹_›

/-- A bound of nothing is met by reading nothing only. -/
theorem Within.positions_eq_nil (h : Within 0 r) : r.positions = [] :=
  List.eq_nil_iff_forall_not_mem.mpr (fun i hi => absurd (h i hi) (Nat.not_lt_zero i))

end Reading
