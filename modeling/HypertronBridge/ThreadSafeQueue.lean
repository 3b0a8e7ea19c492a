import Mathlib.Data.List.Basic

namespace HypertronBridge

/-!
# The bounded queue (`thread_safe_queue.hpp`)

Each operation is one critical section under the queue's mutex.  The capacity bound and its
positivity (the constructor rejects a zero capacity) are fields, so every operation carries
its proof that the queue stays within bounds; the overflow policy, a constant of the object,
is a parameter of the type.
-/

universe u

/-- `OverflowPolicy`. -/
inductive OverflowPolicy
  | rejectNew | dropOldest
deriving DecidableEq, Repr

/-- A bounded queue, oldest item first. -/
structure ThreadSafeQueue (policy : OverflowPolicy) (α : Type u) where
  capacity : Nat
  items : List α := []
  closed : Bool := false
  capacity_pos : 0 < capacity
  bounded : items.length ≤ capacity

namespace ThreadSafeQueue

variable {policy : OverflowPolicy} {α : Type u}

/-- `push`: append, or handle the overflow as the policy says; `false` when rejected. -/
def push (q : ThreadSafeQueue policy α) (value : α) : Bool × ThreadSafeQueue policy α :=
  if q.closed then (false, q)
  else if h : q.items.length = q.capacity then
    match policy with
    | .rejectNew => (false, q)
    | .dropOldest =>
      (true, { q with
        items := q.items.tail ++ [value]
        bounded := by
          have := q.capacity_pos
          simp only [List.length_append, List.length_tail, List.length_singleton]
          omega })
  else
    (true, { q with
      items := q.items ++ [value]
      bounded := by
        have := q.bounded
        simp only [List.length_append, List.length_singleton]
        omega })

/-- `try_pop`: take the oldest item, if any. -/
def tryPop (q : ThreadSafeQueue policy α) : Option α × ThreadSafeQueue policy α :=
  match h : q.items with
  | [] => (none, q)
  | x :: rest =>
    (some x, { q with
      items := rest
      bounded := by
        have := q.bounded
        rw [h, List.length_cons] at this
        omega })

/-- `while (try_pop())`: every item in order, and the emptied queue. -/
def popAll (q : ThreadSafeQueue policy α) : List α × ThreadSafeQueue policy α :=
  (q.items, { q with items := [], bounded := Nat.zero_le _ })

/-- A `rejectNew` push is refused and changes nothing, or appends the value. -/
theorem push_cases (q : ThreadSafeQueue .rejectNew α) (value : α) :
    q.push value = (false, q) ∨
      ((q.push value).1 = true ∧ (q.push value).2.items = q.items ++ [value]) := by
  unfold push
  split
  · exact Or.inl rfl
  · split
    · exact Or.inl rfl
    · exact Or.inr ⟨rfl, rfl⟩

/-- `try_pop` on an empty and on a nonempty queue. -/
theorem tryPop_cases (q : ThreadSafeQueue policy α) :
    (q.items = [] ∧ q.tryPop = (none, q)) ∨
      ∃ x q', q.tryPop = (some x, q') ∧ q.items = x :: q'.items := by
  unfold tryPop
  split
  · rename_i h
    exact Or.inl ⟨h, rfl⟩
  · rename_i x rest h
    exact Or.inr ⟨x, _, rfl, h⟩

/-- What `try_pop` returned was the oldest item. -/
theorem tryPop_some {q q' : ThreadSafeQueue policy α} {x : α} (h : q.tryPop = (some x, q')) :
    q.items = x :: q'.items := by
  rcases q.tryPop_cases with ⟨_, heq⟩ | ⟨y, q₁, heq, hcons⟩
  · exact absurd (heq.symm.trans h) (by simp)
  · rw [heq, Prod.mk.injEq, Option.some.injEq] at h
    rw [hcons, h.1, h.2]

/-- `try_pop` returns nothing from an empty queue only. -/
theorem tryPop_none {q q' : ThreadSafeQueue policy α} (h : q.tryPop = (none, q')) :
    q.items = [] := by
  rcases q.tryPop_cases with ⟨hnil, _⟩ | ⟨y, q₁, heq, _⟩
  · exact hnil
  · exact absurd (heq.symm.trans h) (by simp)

/-- `popAll` is `try_pop` until it finds nothing. -/
theorem popAll_tryPop (q : ThreadSafeQueue policy α) :
    (q.tryPop.1 = none → q.popAll.1 = []) ∧
      ∀ x, q.tryPop.1 = some x → q.popAll.1 = x :: q.tryPop.2.popAll.1 := by
  rcases q.tryPop_cases with ⟨hnil, heq⟩ | ⟨y, q', heq, hcons⟩
  · simp [heq, popAll, hnil]
  · simp [heq, popAll, hcons]

end ThreadSafeQueue

end HypertronBridge
