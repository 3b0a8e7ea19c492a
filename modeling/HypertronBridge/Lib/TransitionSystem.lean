import Mathlib.Logic.Basic

namespace TransitionSystem

/-!
# Guarded runs of a step function

A system is a partial step function `step : α → σ → Option σ`: the action `a` is
enabled in `s` when `step a s` is `some`.  A *guard* `ok : σ → α → Prop` restricts the
runs under consideration to those whose every step meets a condition on the state
before it, so one notion serves both the unrestricted system (`fun _ _ => True`) and
its behaviour under a named assumption.

* `Reaches step ok s₀ s` — some run from `s₀`, every step of it guarded, ends in `s`;
* `Reaches.invariant` — the invariant rule; `Reaches.trans` — runs compose;
  `Reaches.project` — runs of a larger system are runs of its part;
* `execGuarded` / `reaches_of_execGuarded` — an executable run, for concrete schedules.
-/

universe u v w x

variable {σ : Type u} {α : Type v} {step : α → σ → Option σ} {ok : σ → α → Prop}

/-- `s` is the end of a run from `s₀` whose every step meets the guard `ok`. -/
inductive Reaches (step : α → σ → Option σ) (ok : σ → α → Prop) (s₀ : σ) : σ → Prop
  | refl : Reaches step ok s₀ s₀
  | tail {s s' : σ} {a : α} :
      Reaches step ok s₀ s → ok s a → step a s = some s' → Reaches step ok s₀ s'

/-- **Invariant rule.** What holds at the start and is kept by every guarded step from a state
    reached holds in every state reached. -/
theorem Reaches.invariant {s₀ s : σ} {I : σ → Prop} (h : Reaches step ok s₀ s) (h₀ : I s₀)
    (hstep : ∀ s a s', Reaches step ok s₀ s → I s → ok s a → step a s = some s' → I s') : I s := by
  induction h with
  | refl => exact h₀
  | tail hrun hok hs ih => exact hstep _ _ _ hrun ih hok hs

/-- Runs compose. -/
theorem Reaches.trans {s₀ s₁ s : σ} (h₁ : Reaches step ok s₀ s₁) (h₂ : Reaches step ok s₁ s) :
    Reaches step ok s₀ s := by
  induction h₂ with
  | refl => exact h₁
  | tail _ hok hs ih => exact .tail ih hok hs

/-- **Projection rule.** When every guarded step of a system is, under `f`, a guarded step of another
    or no step at all, its runs are runs of the other. -/
theorem Reaches.project {τ : Type w} {β : Type x} {step' : β → τ → Option τ} {ok' : τ → β → Prop}
    {t₀ t : τ} (f : τ → σ) (h : Reaches step' ok' t₀ t)
    (hstep : ∀ t b t', ok' t b → step' b t = some t' →
      f t' = f t ∨ ∃ a, ok (f t) a ∧ step a (f t) = some (f t')) :
    Reaches step ok (f t₀) (f t) := by
  induction h with
  | refl => exact .refl
  | tail _ hok hs ih =>
    rcases hstep _ _ _ hok hs with heq | ⟨a, ha, hs'⟩
    · rwa [heq]
    · exact .tail ih ha hs'

/-- Execute a schedule, stopping with `none` at the first action that is disabled or
    fails the guard. -/
def execGuarded (step : α → σ → Option σ) (ok : σ → α → Prop)
    [∀ s a, Decidable (ok s a)] : List α → σ → Option σ
  | [], s => some s
  | a :: as, s => if ok s a then (step a s).bind (execGuarded step ok as) else none

/-- An executed schedule is a guarded run. -/
theorem reaches_of_execGuarded [∀ s a, Decidable (ok s a)] {s₀ : σ} (as : List α) :
    ∀ {s s' : σ}, Reaches step ok s₀ s → execGuarded step ok as s = some s' →
      Reaches step ok s₀ s' := by
  induction as with
  | nil =>
    intro s s' h hex
    rw [execGuarded, Option.some.injEq] at hex
    exact hex ▸ h
  | cons a as ih =>
    intro s s' h hex
    rw [execGuarded] at hex
    split at hex
    · rename_i hok
      obtain ⟨m, hm, hrest⟩ := Option.bind_eq_some_iff.mp hex
      exact ih (.tail h hok hm) hrest
    · exact absurd hex (by simp)

/-- What the end of a schedule shows, a guarded run shows. -/
theorem exists_reaches_of_execGuarded [∀ s a, Decidable (ok s a)] {s₀ : σ} (as : List α) (P : σ → Bool)
    (h : (execGuarded step ok as s₀).any P = true) : ∃ s, Reaches step ok s₀ s ∧ P s = true := by
  obtain ⟨s, hex, hP⟩ := (Option.any_eq_true _ _).mp h
  exact ⟨s, reaches_of_execGuarded as .refl hex, hP⟩

end TransitionSystem
