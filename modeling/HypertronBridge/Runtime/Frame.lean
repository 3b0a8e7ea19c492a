import HypertronBridge.Runtime.Step

namespace HypertronBridge.Runtime

open TransitionSystem

/-!
# What the worker's helpers leave alone

`fail_mode_transition`, the drains and `fail_all_pending_locked` touch the transition, the
controller, the queue or the emergency-stop slot, and the trace; the lemmas here say what each
of them keeps, so that the invariants never unfold them.
-/

variable {cfg : RuntimeConfig} {w : World}

namespace World

/-! ### `fail_mode_transition` -/

section FailModeTransition

variable (r : Result) (complete : Bool)

@[simp] theorem failModeTransition_shared :
    (w.failModeTransition cfg r complete).shared = w.shared := by
  cases complete <;> simp only [failModeTransition] <;> split <;> simp

@[simp] theorem failModeTransition_queue :
    (w.failModeTransition cfg r complete).queue = w.queue := by
  cases complete <;> simp only [failModeTransition] <;> split <;> simp

@[simp] theorem failModeTransition_calls :
    (w.failModeTransition cfg r complete).calls = w.calls := by
  cases complete <;> simp only [failModeTransition] <;> split <;> simp

@[simp] theorem failModeTransition_nextPromise :
    (w.failModeTransition cfg r complete).nextPromise = w.nextPromise := by
  cases complete <;> simp only [failModeTransition] <;> split <;> simp

@[simp] theorem failModeTransition_clock :
    (w.failModeTransition cfg r complete).clock = w.clock := by
  cases complete <;> simp only [failModeTransition] <;> split <;> simp

/-- Afterwards no transition is active; the rest of the worker is as before. -/
@[simp] theorem failModeTransition_wk :
    (w.failModeTransition cfg r complete).wk = { w.wk with transition.active := false } := by
  cases h : w.wk.transition.active with
  | true => cases complete <;> simp [failModeTransition, h, setPromise, log, control]
  | false =>
    have ht : w.wk.transition = { w.wk.transition with active := false } := by rw [← h]
    simp only [failModeTransition, h, Bool.false_eq_true, if_false]
    exact congrArg (fun t => { w.wk with transition := t }) ht

@[simp] theorem failModeTransition_false_ctl :
    (w.failModeTransition cfg r false).ctl = w.ctl := by
  simp only [failModeTransition]
  split <;> simp

@[simp] theorem failModeTransition_false_trace :
    (w.failModeTransition cfg r false).trace =
      if w.wk.transition.active then .resolved w.wk.transition.promise r :: w.trace
      else w.trace := by
  simp only [failModeTransition]
  split <;> simp

end FailModeTransition

/-! ### Draining commands -/

/-- What a completion and an answer keep, dropping commands keeps. -/
theorem dropCommands_induction {P : World → Prop} (r : Result) (cs : List Command)
    (hctl : ∀ w, ∀ c ∈ cs, ∀ mode, c.kind = .requestMode mode → P w →
      P (w.control cfg (.completeModeTransition false)))
    (hres : ∀ w, ∀ c ∈ cs, P w → P (w.setPromise c.promise r)) (h : P w) :
    P (w.dropCommands cfg r cs) := by
  induction cs generalizing w with
  | nil => exact h
  | cons c cs ih =>
    refine ih (fun w c hc => hctl w c (by simp [hc])) (fun w c hc => hres w c (by simp [hc]))
      (hres _ c (by simp) ?_)
    cases hk : c.kind with
    | requestAuthority _ => exact h
    | requestMode mode => exact hctl w c (by simp) mode hk h

section DropCommands

variable (r : Result) (cs : List Command)

@[simp] theorem dropCommands_shared : (w.dropCommands cfg r cs).shared = w.shared :=
  dropCommands_induction (P := fun v => v.shared = w.shared) r cs
    (fun _ _ _ _ _ h => by simpa using h) (fun _ _ _ h => by simpa using h) rfl

@[simp] theorem dropCommands_queue : (w.dropCommands cfg r cs).queue = w.queue :=
  dropCommands_induction (P := fun v => v.queue = w.queue) r cs
    (fun _ _ _ _ _ h => by simpa using h) (fun _ _ _ h => by simpa using h) rfl

@[simp] theorem dropCommands_wk : (w.dropCommands cfg r cs).wk = w.wk :=
  dropCommands_induction (P := fun v => v.wk = w.wk) r cs
    (fun _ _ _ _ _ h => by simpa using h) (fun _ _ _ h => by simpa using h) rfl

@[simp] theorem dropCommands_calls : (w.dropCommands cfg r cs).calls = w.calls :=
  dropCommands_induction (P := fun v => v.calls = w.calls) r cs
    (fun _ _ _ _ _ h => by simpa using h) (fun _ _ _ h => by simpa using h) rfl

@[simp] theorem dropCommands_nextPromise :
    (w.dropCommands cfg r cs).nextPromise = w.nextPromise :=
  dropCommands_induction (P := fun v => v.nextPromise = w.nextPromise) r cs
    (fun _ _ _ _ _ h => by simpa using h) (fun _ _ _ h => by simpa using h) rfl

@[simp] theorem dropCommands_clock : (w.dropCommands cfg r cs).clock = w.clock :=
  dropCommands_induction (P := fun v => v.clock = w.clock) r cs
    (fun _ _ _ _ _ h => by simpa using h) (fun _ _ _ h => by simpa using h) rfl

end DropCommands

/-! ### The emergency-stop slot -/

@[simp] theorem supersedeEstop_frame : w.supersedeEstop.shared = w.shared ∧
    w.supersedeEstop.ctl = w.ctl ∧ w.supersedeEstop.queue = w.queue ∧ w.supersedeEstop.wk = w.wk ∧
    w.supersedeEstop.calls = w.calls ∧ w.supersedeEstop.nextPromise = w.nextPromise ∧
    w.supersedeEstop.clock = w.clock := by
  unfold supersedeEstop
  split <;> simp

/-! ### `fail_all_pending_locked` -/

@[simp] theorem failEstop_shared : w.failEstop.shared =
    { w.shared with
      estopEngaged := false
      estopPromise := if w.shared.estopEngaged then none else w.shared.estopPromise } := by
  unfold failEstop
  cases h : w.shared.estopEngaged with
  | true => cases hp : w.shared.estopPromise <;> simp [hp]
  | false =>
    simp only [Bool.false_eq_true, if_false]
    rw [← h]

@[simp] theorem failEstop_frame : w.failEstop.ctl = w.ctl ∧ w.failEstop.queue = w.queue ∧
    w.failEstop.wk = w.wk ∧ w.failEstop.calls = w.calls ∧
    w.failEstop.nextPromise = w.nextPromise ∧ w.failEstop.clock = w.clock := by
  unfold failEstop
  split
  · split <;> simp
  · simp

@[simp] theorem failAllPending_frame : (w.failAllPending cfg).shared = w.failEstop.shared ∧
    (w.failAllPending cfg).queue.items = [] ∧
    (w.failAllPending cfg).wk = { w.wk with transition.active := false } ∧
    (w.failAllPending cfg).calls = w.calls ∧
    (w.failAllPending cfg).nextPromise = w.nextPromise ∧
    (w.failAllPending cfg).clock = w.clock := by
  simp [failAllPending, ThreadSafeQueue.popAll]

end World

end HypertronBridge.Runtime
