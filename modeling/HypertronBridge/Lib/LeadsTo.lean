import Mathlib.Logic.Basic
import Mathlib.Order.Basic

/-!
# What an infinite behaviour comes to

An infinite behaviour is a sequence of states, each with the input that the step from it takes.

* `LeadsTo` — from every state with one property a state with another is reached, at once or later;
* `LeadsTo.of_step`, `LeadsTo.trans`, `LeadsTo.either` — one step, and how the property composes;
* `LeadsTo.while_kept`, `LeadsTo.lasts` — a property that lasts only while the inputs are of one kind.
-/

universe u v

/-- From every state with `P` one with `Q` is reached, at once or later. -/
def LeadsTo {σ : Type u} (s : Nat → σ) (P Q : σ → Prop) : Prop := ∀ n, P (s n) → ∃ m, n ≤ m ∧ Q (s m)

namespace LeadsTo

variable {σ : Type u} {α : Type v} {s : Nat → σ} {a : Nat → α} {P P' Q R : σ → Prop}

theorem of_imp (h : ∀ x, P x → Q x) : LeadsTo s P Q := fun n hP => ⟨n, Nat.le_refl n, h _ hP⟩

theorem of_step (h : ∀ n, P (s n) → Q (s (n + 1))) : LeadsTo s P Q :=
  fun n hP => ⟨n + 1, Nat.le_succ n, h n hP⟩

theorem trans (h : LeadsTo s P Q) (h' : LeadsTo s Q R) : LeadsTo s P R := by
  intro n hP
  obtain ⟨m, hm, hQ⟩ := h n hP
  obtain ⟨k, hk, hR⟩ := h' m hQ
  exact ⟨k, Nat.le_trans hm hk, hR⟩

theorem either (h : LeadsTo s P R) (h' : LeadsTo s P' R) : LeadsTo s (fun x => P x ∨ P' x) R := by
  rintro n (hP | hP')
  · exact h n hP
  · exact h' n hP'

/-- **Until another input comes.** A property that is kept by inputs of one kind only, each other one
    leading on, does not last where an input of another kind always comes. -/
theorem while_kept (keeps : α → Prop) (hkeep : ∀ n, P (s n) → keeps (a n) → P (s (n + 1)))
    (hleave : ∀ n, P (s n) → ¬ keeps (a n) → Q (s (n + 1)))
    (hcomes : ∀ n, P (s n) → ∃ m, n ≤ m ∧ ¬ keeps (a m)) : LeadsTo s P Q := by
  intro n hP
  obtain ⟨m, hm, hnot⟩ := hcomes n hP
  obtain ⟨k, rfl⟩ := Nat.exists_eq_add_of_le hm
  clear hm
  induction k generalizing n with
  | zero => exact ⟨n + 1, Nat.le_succ n, hleave n hP hnot⟩
  | succ k ih =>
    by_cases hn : keeps (a n)
    · rw [show n + (k + 1) = n + 1 + k by omega] at hnot
      obtain ⟨j, hj, hQ⟩ := ih (n + 1) (hkeep n hP hn) hnot
      exact ⟨j, Nat.le_of_succ_le hj, hQ⟩
    · exact ⟨n + 1, Nat.le_succ n, hleave n hP hn⟩

/-- A property that inputs of one kind keep lasts as long as these come. -/
theorem lasts (keeps : α → Prop) (hkeep : ∀ n, P (s n) → keeps (a n) → P (s (n + 1))) {n : Nat}
    (hP : P (s n)) (hall : ∀ m, n ≤ m → keeps (a m)) (m : Nat) (hm : n ≤ m) : P (s m) := by
  obtain ⟨k, rfl⟩ := Nat.exists_eq_add_of_le hm
  clear hm
  induction k with
  | zero => exact hP
  | succ k ih => exact hkeep (n + k) ih (hall (n + k) (Nat.le_add_right n k))

end LeadsTo
