import HypertronBridge.Lib.TransitionSystem
import Mathlib.Algebra.BigOperators.Group.List.Basic
import Mathlib.Algebra.GroupWithZero.Nat
import Mathlib.Data.List.Basic

namespace TransitionSystem

/-!
# Answers in a bounded number of steps

Some actions of a system are those of one party that works, and it is to answer something.  A rank that
each of its steps lowers, and that the other parties' steps raise by a known amount at most, bounds how
many steps it takes before the answer, whatever the others do in between.

* `Path step s as s'` — a run from `s` to `s'` with its actions, in order;
* `Path.answers` — the ranking rule; `Path.restrict` — for runs whose actions are of one kind;
* `sum_adds` — what is added, when it is the same for each action of one kind;
* `path_of_execGuarded` — an executed schedule is such a run.
-/

universe u v

variable {σ : Type u} {α : Type v} {step : α → σ → Option σ} {s s₁ s' : σ} {a : α} {as bs : List α}

/-- A run from one state to another, with its actions in order. -/
inductive Path (step : α → σ → Option σ) : σ → List α → σ → Prop
  | nil {s : σ} : Path step s [] s
  | cons {s s₁ s' : σ} {a : α} {as : List α} (hs : step a s = some s₁) (hrest : Path step s₁ as s') :
      Path step s (a :: as) s'

/-- It is a run. -/
theorem Path.reaches (h : Path step s as s') : Reaches step (fun _ _ => True) s s' := by
  induction h with
  | nil => exact .refl
  | cons hs _ ih => exact (Reaches.tail .refl trivial hs).trans ih

/-- It is a run with no other actions. -/
theorem Path.reaches_mem (h : Path step s as s') : Reaches step (fun _ a => a ∈ as) s s' := by
  have hfrom : ∀ bs : List α, (∀ a ∈ as, a ∈ bs) → Reaches step (fun _ a => a ∈ bs) s s' := by
    induction h with
    | nil => exact fun _ _ => .refl
    | @cons s s₁ s' a as hs _ ih =>
      intro bs hmem
      obtain ⟨ha, hrest⟩ := List.forall_mem_cons.mp hmem
      have hfirst : Reaches step (fun _ a => a ∈ bs) s s₁ := .tail .refl ha hs
      exact hfirst.trans (ih bs hrest)
  exact hfrom as (fun _ ha => ha)

/-- What steps keep, it keeps. -/
theorem Path.keeps {Q : σ → Prop} (h : Path step s as s') (hkeep : ∀ s a s', Q s → step a s = some s' → Q s')
    (hQ : Q s) : Q s' :=
  h.reaches.invariant hQ (fun s a s' _ hI _ hs => hkeep s a s' hI hs)

/-- A run with actions of one kind only is one of the system that has no others. -/
theorem Path.restrict {ok : α → Bool} (h : Path step s as s') (hok : ∀ a ∈ as, ok a = true) :
    Path (fun a s => if ok a then step a s else none) s as s' := by
  induction h with
  | nil => exact .nil
  | cons hs _ ih =>
    refine .cons ?_ (ih (fun a ha => hok a (List.mem_cons_of_mem _ ha)))
    rw [if_pos (hok _ (List.mem_cons_self ..))]
    exact hs

/-- **Ranking rule.** As long as a step does not bring the answer, it keeps the invariant, and lowers the
    rank when it is one of the worker's; other steps raise the rank by what their actions add.  Then either
    the answer has come, or the worker has taken no more steps than the rank and what was added. -/
theorem Path.answers {I Q : σ → Prop} (works : α → Bool) (adds : α → Nat) (rank : σ → Nat)
    (hstep : ∀ s a s', I s → step a s = some s' →
      Q s' ∨ I s' ∧ (works a).toNat + rank s' ≤ rank s + adds a)
    (hkeep : ∀ s a s', Q s → step a s = some s' → Q s') (h : Path step s as s') (hI : I s) :
    Q s' ∨ I s' ∧ as.countP works + rank s' ≤ rank s + (as.map adds).sum := by
  induction h with
  | nil => exact Or.inr ⟨hI, by simp⟩
  | @cons s s₁ s' a as hs hrest ih =>
    rcases hstep s a s₁ hI hs with hQ | ⟨hI₁, hrank⟩
    · exact Or.inl (hrest.keeps hkeep hQ)
    · rcases ih hI₁ with hQ | ⟨hI', hle⟩
      · exact Or.inl hQ
      · refine Or.inr ⟨hI', ?_⟩
        have hcount : (a :: as).countP works = as.countP works + (works a).toNat := by
          rw [List.countP_cons]
          cases works a <;> rfl
        rw [hcount, List.map_cons, List.sum_cons]
        omega

/-- When each action of one kind adds the same amount, the sum counts them. -/
theorem sum_adds (k : Nat) (adding : α → Bool) (as : List α) :
    (as.map fun a => k * (adding a).toNat).sum = k * as.countP adding := by
  induction as with
  | nil => rfl
  | cons a as ih =>
    rw [List.map_cons, List.sum_cons, ih, List.countP_cons, Nat.mul_add, Nat.add_comm]
    cases adding a <;> rfl

/-- An executed schedule is a run with these actions. -/
theorem path_of_execGuarded {ok : σ → α → Prop} [∀ s a, Decidable (ok s a)] (as : List α) :
    ∀ {s : σ}, execGuarded step ok as s = some s' → Path step s as s' := by
  induction as with
  | nil =>
    intro s hex
    rw [execGuarded, Option.some.injEq] at hex
    exact hex ▸ .nil
  | cons a as ih =>
    intro s hex
    rw [execGuarded] at hex
    split at hex
    · obtain ⟨s₁, hs, hrest⟩ := Option.bind_eq_some_iff.mp hex
      exact .cons hs (ih hrest)
    · exact absurd hex (by simp)

end TransitionSystem
