import HypertronBridge.Runtime.Trace

namespace HypertronBridge.Runtime

open TransitionSystem History

/-!
# No promise is lost

A promise made by a client call is in the hands of that call, in the command queue, with the
command or stop request the worker executes, in the armed mode transition or in the
emergency-stop slot, until it is answered.  `World.load` counts a promise over all these places
but the call, together with its answers; the worker's steps only move promises around, so they
keep the load.

* `Pc.promises`, `ModeTransition.promises`, `Event.answers` — who holds or answers what;
* `TransitionAt` — where the worker is about to write the transition;
* `workerStep_load` — the worker's steps keep the load;
* `Conserved` — every promise made has load one, its client call included.
-/

variable {cfg : RuntimeConfig} {w w' : World} {a : Action} {ans : Answer}
  {ok : World → Action → Prop}

/-! ### Who holds a promise -/

/-- The promises of the command or stop request that the worker is executing. -/
def Pc.promises : Pc → List PromiseId
  | .estopAbort p | .estopDrain p | .estopRead p | .estopZero p | .estopDamp p _ => [p]
  | .estopUndo p q => [p, q]
  | .execAuthority p _ | .execMode p _ | .execZero p _ | .execSetMode p _ | .execFail p _ _ => [p]
  | .execThrow c _ => [c.promise]
  | _ => []

/-- The promise of an armed transition. -/
def ModeTransition.promises (t : ModeTransition) : List PromiseId :=
  if t.active then [t.promise] else []

@[simp] theorem ModeTransition.promises_unarmed (stable : UInt16) (d : Time) (p : PromiseId) :
    (⟨false, stable, d, p⟩ : ModeTransition).promises = [] := rfl

@[simp] theorem ModeTransition.promises_armed (stable : UInt16) (d : Time) (p : PromiseId) :
    (⟨true, stable, d, p⟩ : ModeTransition).promises = [p] := rfl

/-- The promise that an event answers. -/
@[simp] def Event.answers : Event → List PromiseId
  | .resolved p _ => [p]
  | _ => []

/-- The promises answered in a trace. -/
def answered (t : List Event) : List PromiseId := t.flatMap Event.answers

@[simp] theorem answered_cons (e : Event) (t : List Event) :
    answered (e :: t) = e.answers ++ answered t := rfl

/-- How often `p` is held outside the client calls, or answered. -/
def World.load (w : World) (p : PromiseId) : Nat :=
  (w.queue.items.map Command.promise).count p + w.wk.pc.promises.count p +
    w.wk.transition.promises.count p + w.shared.estopPromise.toList.count p +
    (answered w.trace).count p

/-- The client call of `p` is still in progress. -/
def World.inCall (w : World) (p : PromiseId) : Nat := if (w.calls p).isSome then 1 else 0

/-! ### The transition at its writers -/

/-- A settlement finds the transition armed; a command about to arm it finds it unarmed. -/
def TransitionAt (wk : Worker) : Prop :=
  match wk.pc with
  | .settle | .checkComplete _ | .checkTimeout => wk.transition.active = true
  | .execZero _ _ | .execSetMode _ _ => wk.transition.active = false
  | _ => True

/-- **Run lemma.** -/
theorem Run.transitionAt (h : Run cfg ok w) : TransitionAt w.wk := by
  refine h.worker_history (I := fun wk _ => TransitionAt wk) trivial (fun _ _ _ _ ih => ih)
    (fun _ _ _ _ => trivial) ?_
  intro w ans w' _ ih hs
  cases hpc : w.wk.pc
  all_goals rw [hpc] at hs
  all_goals simp only [TransitionAt, hpc] at ih
  all_goals simp only [workerStep] at hs
  all_goals repeat' split at hs
  all_goals simp only [Option.some.injEq, reduceCtorEq] at hs
  all_goals subst hs
  all_goals simp_all [TransitionAt]

/-! ### The worker keeps the load -/

/-- Failing the transition answers its promise, if it was armed. -/
theorem answered_failModeTransition (r : Result) (complete : Bool) (p : PromiseId) :
    (answered (w.failModeTransition cfg r complete).trace).count p =
      w.wk.transition.promises.count p + (answered w.trace).count p := by
  simp only [World.failModeTransition, ModeTransition.promises]
  split
  · cases complete <;> simp [List.count_cons, Nat.add_comm]
  · simp

/-- Dropped commands are answered one by one. -/
theorem answered_dropCommands (r : Result) (cs : List Command) (p : PromiseId) :
    (answered (w.dropCommands cfg r cs).trace).count p =
      (cs.map Command.promise).count p + (answered w.trace).count p := by
  induction cs generalizing w with
  | nil => simp [World.dropCommands]
  | cons c cs ih =>
    cases hk : c.kind <;> simp [World.dropCommands, ih, hk, List.count_cons] <;> omega

variable (cfg) in
/-- The session-end drain answers everything that queue, transition and slot hold. -/
theorem answered_failAllPending (hestop : w.shared.estopEngaged = w.shared.estopPromise.isSome)
    (p : PromiseId) : (answered (w.failAllPending cfg).trace).count p =
      (w.queue.items.map Command.promise).count p + w.wk.transition.promises.count p +
        w.shared.estopPromise.toList.count p + (answered w.trace).count p := by
  have hslot : (answered w.failEstop.trace).count p =
      w.shared.estopPromise.toList.count p + (answered w.trace).count p := by
    unfold World.failEstop
    cases hp : w.shared.estopPromise <;> simp [hestop, hp, List.count_cons, Nat.add_comm]
  simp only [World.failAllPending, answered_dropCommands, World.setQueue_trace,
    answered_failModeTransition, hslot]
  simp [ThreadSafeQueue.popAll]
  omega

/-- **Step lemma.** A worker step only moves promises, or answers them. -/
theorem workerStep_load (hsession : SessionInv w) (htrans : TransitionAt w.wk)
    (hs : workerStep cfg ans w w.wk.pc = some w') (p : PromiseId) : w'.load p = w.load p := by
  cases hpc : w.wk.pc
  all_goals rw [hpc] at hs
  all_goals simp only [TransitionAt, hpc] at htrans
  all_goals simp only [workerStep] at hs
  all_goals repeat' split at hs
  all_goals simp only [Option.some.injEq, reduceCtorEq] at hs
  all_goals subst hs
  case drain =>
    -- The mark and its promise go together, so the slot is empty after the drain.
    have hslot : (if w.shared.estopEngaged = true then none else w.shared.estopPromise) = none := by
      rw [hsession.estop]
      cases w.shared.estopPromise <;> rfl
    simp only [World.load, World.goto_queue, World.log_queue, World.goto_wk_pc, World.goto_wk_transition,
      World.log_wk, World.goto_shared, World.log_shared, World.goto_trace, World.log_trace,
      World.failAllPending_frame, World.failEstop_shared, answered_cons, Event.answers,
      List.nil_append, hslot, hpc, Pc.promises]
    simp only [List.map_nil, List.count_nil, ModeTransition.promises_unarmed, Option.toList_none,
      Nat.zero_add, Nat.add_zero]
    exact answered_failAllPending cfg (w := { w with shared.connected := false }) hsession.estop p
  -- The other steps move a promise by one place, or answer it on the spot.
  all_goals simp [World.load, hpc, Pc.promises, answered_failModeTransition, List.count_cons,
    -World.failModeTransition_false_trace]
  all_goals try rw [ThreadSafeQueue.tryPop_some ‹w.queue.tryPop = _›]
  all_goals try simp [List.count_cons, ModeTransition.promises, *]
  all_goals try omega

/-! ### Every promise, in every run -/

/-- Every promise made is in exactly one place, or answered once; no other is anywhere. -/
def Conserved (w : World) : Prop :=
  ∀ p, w.inCall p + w.load p = if p < w.nextPromise then 1 else 0

/-- A worker step touches no client call and makes no promise. -/
theorem workerStep_calls (hs : workerStep cfg ans w w.wk.pc = some w') :
    w'.calls = w.calls ∧ w'.nextPromise = w.nextPromise := by
  cases hpc : w.wk.pc
  all_goals rw [hpc] at hs
  all_goals simp only [workerStep] at hs
  all_goals repeat' split at hs
  all_goals simp only [Option.some.injEq, reduceCtorEq] at hs
  all_goals subst hs
  all_goals simp

/-- A step that makes no promise and keeps every total keeps the law. -/
theorem Conserved.of_total (h : Conserved w) (hnext : w'.nextPromise = w.nextPromise)
    (htotal : ∀ p, w'.inCall p + w'.load p = w.inCall p + w.load p) : Conserved w' := by
  intro p
  rw [htotal p, hnext]
  exact h p

/-- A step that makes a promise and puts it in one place, or answers it, keeps the law. -/
theorem Conserved.of_fresh (h : Conserved w) (hnext : w'.nextPromise = w.nextPromise + 1)
    (htotal : ∀ p, w'.inCall p + w'.load p =
      w.inCall p + w.load p + [w.nextPromise].count p) : Conserved w' := by
  intro p
  rw [htotal p, hnext, h p]
  rcases Nat.lt_trichotomy p w.nextPromise with hlt | heq | hgt
  · simp [hlt, Nat.lt_succ_of_lt hlt, Nat.ne_of_gt hlt]
  · simp [heq]
  · simp [Nat.not_lt.mpr hgt, Nat.not_lt.mpr (Nat.le_of_lt hgt), Nat.ne_of_lt hgt]

/-- A promise not yet made is in nobody's hands. -/
theorem Conserved.fresh (h : Conserved w) : w.calls w.nextPromise = none := by
  have hp := h w.nextPromise
  simp only [Nat.lt_irrefl, if_false, Nat.add_eq_zero_iff, World.inCall] at hp
  cases hc : w.calls w.nextPromise with
  | none => rfl
  | some call => exact absurd hp.1 (by simp [hc])

/-- The promise of a client call in progress was made. -/
theorem Conserved.made (h : Conserved w) {p : PromiseId} (hcall : (w.calls p).isSome = true) :
    p < w.nextPromise := by
  have htotal := h p
  by_contra hge
  rw [if_neg hge] at htotal
  simp [World.inCall, hcall] at htotal

/-! ### Totals after a client's step -/

section Totals

variable (p q : PromiseId)

@[simp] theorem World.load_log (e : Event) : (w.log e).load p = w.load p + e.answers.count p := by
  simp only [World.load, World.log_queue, World.log_wk, World.log_shared, World.log_trace,
    answered_cons, List.count_append]
  omega

@[simp] theorem World.load_setPromise (r : Result) :
    (w.setPromise q r).load p = w.load p + [q].count p := by
  rw [World.setPromise, World.load_log, Event.answers]

@[simp] theorem World.load_control (op : Operation) : (w.control cfg op).load p = w.load p := by
  simp [World.load]

@[simp] theorem World.load_makePromise (r : Request) : (w.makePromise r).load p = w.load p := by
  simp [World.load]

@[simp] theorem World.load_setCall (call : Option ClientCall) :
    (w.setCall q call).load p = w.load p := rfl

/-- The slot holds its promise. -/
theorem World.load_setEstop (engaged : Bool) (slot : Option PromiseId) :
    (w.setEstop engaged slot).load p + w.shared.estopPromise.toList.count p =
      w.load p + slot.toList.count p := by
  simp only [World.load, World.setEstop_queue, World.setEstop_wk, World.setEstop_shared,
    World.setEstop_trace]
  omega

/-- A superseded stop request is answered. -/
@[simp] theorem World.load_supersedeEstop :
    w.supersedeEstop.load p = w.load p + w.shared.estopPromise.toList.count p := by
  unfold World.supersedeEstop
  split <;> rename_i hold <;> simp [hold]

/-- An enqueued command holds its promise. -/
theorem World.load_push {c : Command} (h : (w.queue.push c).1 = true) :
    (w.setQueue (w.queue.push c).2).load p = w.load p + [c.promise].count p := by
  rcases w.queue.push_cases c with heq | ⟨_, hitems⟩
  · exact absurd h (by simp [heq])
  · simp only [World.load, World.setQueue_queue, hitems, World.setQueue_wk, World.setQueue_shared,
      World.setQueue_trace, List.map_append, List.count_append, List.map_cons, List.map_nil]
    omega

@[simp] theorem World.inCall_log (e : Event) : (w.log e).inCall p = w.inCall p := rfl

@[simp] theorem World.inCall_setPromise (r : Result) :
    (w.setPromise q r).inCall p = w.inCall p := rfl

@[simp] theorem World.inCall_control (op : Operation) :
    (w.control cfg op).inCall p = w.inCall p := rfl

@[simp] theorem World.inCall_makePromise (r : Request) :
    (w.makePromise r).inCall p = w.inCall p := rfl

@[simp] theorem World.inCall_setQueue (queue : ThreadSafeQueue .rejectNew Command) :
    (w.setQueue queue).inCall p = w.inCall p := rfl

@[simp] theorem World.inCall_setEstop (engaged : Bool) (slot : Option PromiseId) :
    (w.setEstop engaged slot).inCall p = w.inCall p := rfl

/-- A call that begins holds its promise. -/
theorem World.inCall_begin (call : ClientCall) (h : w.calls q = none) :
    (w.setCall q (some call)).inCall p = w.inCall p + [q].count p := by
  simp only [World.inCall, World.setCall_calls, Function.update_apply, List.count_singleton]
  by_cases hpq : p = q
  · simp [hpq, h]
  · simp [hpq, Ne.symm hpq]

/-- A call that goes on keeps its promise. -/
theorem World.inCall_continue (call : ClientCall) (h : (w.calls q).isSome = true) :
    (w.setCall q (some call)).inCall p = w.inCall p := by
  simp only [World.inCall, World.setCall_calls, Function.update_apply]
  by_cases hpq : p = q
  · simp [hpq, h]
  · simp [hpq]

/-- A call that is over has handed its promise on. -/
theorem World.inCall_end (h : (w.calls q).isSome = true) :
    (w.setCall q none).inCall p + [q].count p = w.inCall p := by
  simp only [World.inCall, World.setCall_calls, Function.update_apply, List.count_singleton]
  by_cases hpq : p = q
  · simp [hpq, h]
  · simp [hpq, Ne.symm hpq]

end Totals

/-- A client call that is over, and whose promise went into the load, keeps the law. -/
theorem Conserved.of_end {v : World} {q : PromiseId} (h : Conserved w)
    (hcall : (w.calls q).isSome = true) (hcalls : v.calls = w.calls)
    (hnext : v.nextPromise = w.nextPromise) (hload : ∀ p, v.load p = w.load p + [q].count p) :
    Conserved (v.setCall q none) := by
  refine h.of_total hnext (fun p => ?_)
  have hend := World.inCall_end (w := v) p q (by rw [hcalls]; exact hcall)
  have hsame : v.inCall p = w.inCall p := by rw [World.inCall, hcalls, World.inCall]
  rw [World.load_setCall, hload]
  omega

/-- **Step lemma.** -/
theorem Conserved.step (h : Conserved w) (hsession : SessionInv w) (htrans : TransitionAt w.wk)
    (hs : step cfg a w = some w') : Conserved w' := by
  cases a with
  | worker ans =>
    obtain ⟨hcalls, hnext⟩ := workerStep_calls hs
    refine h.of_total hnext (fun p => ?_)
    rw [workerStep_load hsession htrans hs p, World.inCall, hcalls, World.inCall]
  | start =>
    -- The worker had nothing in hand before it starts.
    simp only [Runtime.step, World.start, Option.some.injEq] at hs
    subst hs
    split
    · rename_i hidle
      exact h.of_total rfl (fun p => by simp [World.load, World.inCall, hidle.1, Pc.promises])
    · exact h
  | stop | submitVelocity _ | status _ _ | advance _ =>
    simp only [Runtime.step, World.handleStatus, Option.some.injEq] at hs
    subst hs
    refine h.of_total (by simp) (fun p => ?_)
    simp [World.load, World.inCall]
  | clearEstop =>
    -- Its promise is answered at once.
    simp only [Runtime.step, Option.some.injEq] at hs
    subst hs
    refine h.of_fresh (by simp) (fun p => ?_)
    simp [Nat.add_assoc]
  | latchEstop =>
    -- Its promise stays with the client call until the mark.
    simp only [Runtime.step, Option.some.injEq] at hs
    subst hs
    refine h.of_fresh (by simp) (fun p => ?_)
    simp [World.inCall_begin, h.fresh]
    omega
  | markEstop q =>
    simp only [Runtime.step] at hs
    split at hs
    · rename_i hcall
      simp only [Option.some.injEq] at hs
      subst hs
      refine h.of_end (by simp [hcall]) ?_ ?_ (fun p => ?_)
      all_goals simp only [World.markEstop]
      · split <;> simp
      · split <;> simp
      · -- The slot is emptied into an answer, and then taken by the new promise or not.
        have hslot := World.load_setEstop (w := w.supersedeEstop) p
        simp only [World.supersedeEstop_frame, World.load_supersedeEstop] at hslot
        split
        · have hempty := hslot false none
          rw [World.load_setPromise]
          simp only [Option.toList_none, List.count_nil] at hempty
          omega
        · have hmark := hslot true (some q)
          simp only [Option.toList_some] at hmark
          omega
    · exact absurd hs (by simp)
  | requestAuthority sdk =>
    simp only [Runtime.step, World.requestAuthority, Option.some.injEq] at hs
    subst hs
    -- No session, an enqueued command, or a full queue.
    split
    · refine h.of_fresh (by simp) (fun p => ?_)
      simp [Nat.add_assoc]
    · split
      · rename_i hpush
        refine h.of_fresh (by simp) (fun p => ?_)
        rw [World.load_log, World.load_push _ hpush]
        simp [Nat.add_assoc]
      · refine h.of_fresh (by simp) (fun p => ?_)
        simp [Nat.add_assoc]
  | requestMode name =>
    simp only [Runtime.step, World.requestMode, Option.some.injEq] at hs
    subst hs
    split
    · refine h.of_fresh (by simp) (fun p => ?_)
      simp [Nat.add_assoc]
    · refine h.of_fresh (by simp) (fun p => ?_)
      simp [World.inCall_begin, h.fresh]
      omega
  | acceptMode q =>
    simp only [Runtime.step] at hs
    split at hs
    · rename_i hcall
      simp only [World.acceptMode, Option.some.injEq] at hs
      subst hs
      split
      · refine h.of_total (by simp) (fun p => ?_)
        simp [World.inCall_continue, hcall]
      · exact h.of_end (by simp [hcall]) (by simp) (by simp) (fun p => by simp)
    · exact absurd hs (by simp)
  | enqueueMode q =>
    simp only [Runtime.step] at hs
    split at hs
    · rename_i hcall
      simp only [Option.some.injEq] at hs
      subst hs
      simp only [World.enqueueMode]
      -- The session has ended, the command is enqueued, or the queue is full.
      split
      · exact h.of_end (by simp [hcall]) (by simp) (by simp) (fun p => by simp)
      · split
        · rename_i hpush
          refine h.of_end (by simp [hcall]) (by simp) (by simp) (fun p => ?_)
          rw [World.load_log, World.load_push _ hpush]
          simp
        · exact h.of_end (by simp [hcall]) (by simp) (by simp) (fun p => by simp)
    · exact absurd hs (by simp)

/-- **Run lemma.** The law holds in every state reached. -/
theorem Run.conserved (h : Run cfg ok w) : Conserved w := by
  refine h.invariant (fun p => ?_) (fun _ _ _ hrun hi _ hs => hi.step hrun.session hrun.transitionAt hs)
  simp [World.inCall, World.load, World.initial, Pc.promises, ModeTransition.promises, answered]

/-! ### Nothing is overwritten -/

/-- Failing an armed transition answers its promise. -/
theorem mem_answered_failModeTransition (r : Result) (complete : Bool)
    (h : w.wk.transition.active = true) :
    w.wk.transition.promise ∈ answered (w.failModeTransition cfg r complete).trace := by
  rw [← List.count_pos_iff, answered_failModeTransition, ModeTransition.promises, if_pos h,
    List.count_singleton_self]
  omega

variable (cfg) in
/-- The session-end drain answers the armed transition and the marked stop request. -/
theorem mem_answered_failAllPending {p : PromiseId}
    (hestop : w.shared.estopEngaged = w.shared.estopPromise.isSome)
    (h : p ∈ w.wk.transition.promises ∨ p ∈ w.shared.estopPromise.toList) :
    p ∈ answered (w.failAllPending cfg).trace := by
  rw [← List.count_pos_iff, answered_failAllPending cfg hestop]
  rcases h with h | h
  · have hpos := List.count_pos_iff.mpr h
    omega
  · have hpos := List.count_pos_iff.mpr h
    omega

/-- **Step lemma.** An armed transition stays as it is until its promise is answered. -/
theorem step_transition (hsession : SessionInv w) (htrans : TransitionAt w.wk)
    (hs : step cfg a w = some w') (hactive : w.wk.transition.active = true) :
    w'.wk.transition = w.wk.transition ∨ w.wk.transition.promise ∈ answered w'.trace := by
  rcases w.worker_or_client a with ⟨ans, rfl⟩ | ha
  · simp only [step] at hs
    cases hpc : w.wk.pc
    all_goals rw [hpc] at hs
    all_goals simp only [TransitionAt, hpc, hactive, Bool.true_eq_false] at htrans
    all_goals simp only [workerStep] at hs
    all_goals repeat' split at hs
    all_goals simp only [Option.some.injEq, reduceCtorEq] at hs
    all_goals subst hs
    case drain =>
      exact Or.inr (mem_answered_failAllPending cfg (w := { w with shared.connected := false })
        hsession.estop (Or.inl (by simp [ModeTransition.promises, hactive])))
    all_goals simp [mem_answered_failModeTransition, hactive]
  · rcases step_wk hs ha with hwk | ⟨_, hwk⟩
    · exact Or.inl (by rw [hwk])
    · exact Or.inl (by rw [hwk])

/-- **Step lemma.** A marked stop request stays marked until it is answered or the worker takes
    it over. -/
theorem step_estopPromise {p : PromiseId} (hsession : SessionInv w)
    (hs : step cfg a w = some w') (hp : w.shared.estopPromise = some p) :
    w'.shared.estopPromise = some p ∨ p ∈ answered w'.trace ∨ w'.wk.pc = .estopAbort p := by
  cases a
  case worker ans =>
    simp only [step] at hs
    cases hpc : w.wk.pc
    all_goals rw [hpc] at hs
    all_goals simp only [workerStep] at hs
    all_goals repeat' split at hs
    all_goals simp only [Option.some.injEq, reduceCtorEq] at hs
    all_goals subst hs
    case drain =>
      exact Or.inr (Or.inl (mem_answered_failAllPending cfg
        (w := { w with shared.connected := false }) hsession.estop (Or.inr (by simp [hp]))))
    all_goals simp_all
  all_goals simp only [step, World.start, World.markEstop, World.supersedeEstop,
    World.requestAuthority, World.requestMode, World.acceptMode, World.enqueueMode,
    World.handleStatus] at hs
  all_goals repeat' split at hs
  all_goals simp only [Option.some.injEq, reduceCtorEq] at hs
  all_goals subst hs
  all_goals simp_all

/-! ### The result -/

/-- **No future is lost.** In every run every promise is answered at most once; an unanswered
    promise is in exactly one place; the emergency-stop mark and its promise go together; a step
    overwrites neither the armed transition nor the slot before their promise is answered or, for
    the slot, in the worker's hands; and when the worker has returned, only client calls in
    progress still hold unanswered promises. -/
theorem promises_conserved (hrun : Reachable cfg w) :
    (∀ p, (answered w.trace).count p ≤ 1) ∧
      (∀ p < w.nextPromise, p ∉ answered w.trace →
        w.inCall p + (w.queue.items.map Command.promise).count p + w.wk.pc.promises.count p +
          w.wk.transition.promises.count p + w.shared.estopPromise.toList.count p = 1) ∧
      w.shared.estopEngaged = w.shared.estopPromise.isSome ∧
      (∀ a w', step cfg a w = some w' → w.wk.transition.active = true →
        w'.wk.transition = w.wk.transition ∨ w.wk.transition.promise ∈ answered w'.trace) ∧
      (∀ a w' p, step cfg a w = some w' → w.shared.estopPromise = some p →
        w'.shared.estopPromise = some p ∨ p ∈ answered w'.trace ∨ w'.wk.pc = .estopAbort p) ∧
      (w.wk.pc = .returned → ∀ p < w.nextPromise, p ∉ answered w.trace →
        (w.calls p).isSome = true) := by
  have hlaw := hrun.conserved
  have hsession := hrun.session
  refine ⟨fun p => ?_, fun p hp hopen => ?_, hsession.estop,
    fun a w' hs hactive => step_transition hsession hrun.transitionAt hs hactive,
    fun a w' p hs hp => step_estopPromise hsession hs hp, fun hret p hp hopen => ?_⟩
  · -- The load counts each answer.
    have htotal := hlaw p
    simp only [World.load] at htotal
    split at htotal <;> omega
  · have htotal := hlaw p
    rw [if_pos hp, World.load, List.count_eq_zero.mpr hopen] at htotal
    omega
  · -- After the session, queue, transition and slot are empty.
    have hidle : w.wk.pc.inSession = false := by rw [hret]; rfl
    have htotal := hlaw p
    simp only [World.load, hsession.idleQueue hidle, hret, Pc.promises, ModeTransition.promises,
      hsession.idleTransition hidle, hsession.idleEstop hidle, List.count_eq_zero.mpr hopen, if_pos hp]
      at htotal
    simp only [World.inCall, List.map_nil, List.count_nil, Bool.false_eq_true, if_false,
      Option.toList_none, Nat.add_zero] at htotal
    by_contra hnone
    rw [if_neg hnone] at htotal
    omega

/-- The promise of an authority request that waits in the queue. -/
theorem promises_conserved_queued :
    ∃ w, Reachable {} w ∧ w.queue.items = [⟨.requestAuthority true, 0⟩] ∧
      w.inCall 0 + (w.queue.items.map Command.promise).count 0 + w.wk.pc.promises.count 0 +
        w.wk.transition.promises.count 0 + w.shared.estopPromise.toList.count 0 = 1 := by
  obtain ⟨w, hrun, hw⟩ := exists_run_of_exec {} (fun _ _ => True)
    (readying ++ [.requestAuthority true])
    (fun w => w.queue.items = [⟨.requestAuthority true, 0⟩] ∧ 0 < w.nextPromise ∧
      0 ∉ answered w.trace) (by decide +kernel)
  obtain ⟨hqueue, hmade, hopen⟩ := of_decide_eq_true hw
  exact ⟨w, hrun, hqueue, (promises_conserved hrun).2.1 0 hmade hopen⟩

end HypertronBridge.Runtime
