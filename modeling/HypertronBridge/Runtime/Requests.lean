import HypertronBridge.Runtime.Promises

namespace HypertronBridge.Runtime

open TransitionSystem History

/-!
# Requests behind commands and stops

Every command in the queue, every stop request and every client call in progress goes back to
the client call that made its promise, and no two calls make the same promise.

* `Asked` — the request behind a command; `LatchedFor` — the latch behind a stop request;
* `Requests` — the invariant, `Run.requests` its run lemma.
-/

variable {cfg : RuntimeConfig} {w w' : World} {a : Action} {ans : Answer}
  {ok : World → Action → Prop}

/-- The client call behind a command made its promise and asked for what the command does. -/
def Asked (c : Command) (t : List Event) : Prop :=
  match c.kind with
  | .requestAuthority sdk => .requested c.promise (.authority sdk) ∈ t
  | .requestMode mode => ∃ name, modeOf name = some mode ∧ .requested c.promise (.mode name) ∈ t

/-- The newest event is the stop request `p`, right after its latch. -/
def LatchedFor (p : PromiseId) (h : List Event) : Prop :=
  ∃ t older, h = .requested p .estop :: .control ⟨t, .triggerEstop, true⟩ :: older

/-- The stop request that the worker is executing. -/
def Pc.estopRequest : Pc → Option PromiseId
  | .estopAbort p | .estopDrain p | .estopUndo p _ | .estopRead p | .estopZero p
  | .estopDamp p _ => some p
  | _ => none

/-- What a client call in progress goes back to. -/
def Backed (p : PromiseId) (t : List Event) : ClientCall → Prop
  | .estopMark => Once (LatchedFor p) t
  | .modeAccept name => .requested p (.mode name) ∈ t
  | .modeEnqueue mode => Asked ⟨.requestMode mode, p⟩ t

/-- Who asked for what is in progress. -/
structure Requests (w : World) : Prop where
  calls : ∀ p call, w.calls p = some call → Backed p w.trace call
  queued : ∀ c, .enqueued c ∈ w.trace → Asked c w.trace
  slot : ∀ p, w.shared.estopPromise = some p → Once (LatchedFor p) w.trace
  worker : ∀ p, w.wk.pc.estopRequest = some p → Once (LatchedFor p) w.trace
  made : ∀ p r, .requested p r ∈ w.trace → p < w.nextPromise
  unique : ∀ p r r', .requested p r ∈ w.trace → .requested p r' ∈ w.trace → r = r'

theorem Asked.append {c : Command} {t : List Event} (h : Asked c t) (new : List Event) :
    Asked c (new ++ t) := by
  unfold Asked at h ⊢
  split <;> rename_i hk <;> rw [hk] at h
  · exact List.mem_append_right _ h
  · obtain ⟨name, hname, hmem⟩ := h
    exact ⟨name, hname, List.mem_append_right _ hmem⟩

theorem Backed.append {p : PromiseId} {call : ClientCall} {t : List Event} (h : Backed p t call)
    (new : List Event) : Backed p (new ++ t) call := by
  cases call with
  | estopMark => exact Once.append h new
  | modeAccept name => exact List.mem_append_right _ h
  | modeEnqueue mode => exact Asked.append (c := ⟨.requestMode mode, p⟩) h new

/-- **Frame lemma.** A step keeps the invariant when the calls, the commands, the stop requests
    and the promise it adds are backed by the trace after it. -/
theorem Requests.frame (h : Requests w) (new : List Event) (heq : w'.trace = new ++ w.trace)
    (hcalls : ∀ p call, w'.calls p = some call → w.calls p = some call ∨ Backed p w'.trace call)
    (henq : ∀ c, .enqueued c ∈ new → Asked c w'.trace)
    (hslot : ∀ p, w'.shared.estopPromise = some p →
      w.shared.estopPromise = some p ∨ Once (LatchedFor p) w'.trace)
    (hpc : ∀ p, w'.wk.pc.estopRequest = some p →
      w.wk.pc.estopRequest = some p ∨ w.shared.estopPromise = some p)
    (hnext : w.nextPromise ≤ w'.nextPromise)
    (hreq : ∀ p r, .requested p r ∈ new → p = w.nextPromise ∧ p < w'.nextPromise ∧
      ∀ r', .requested p r' ∈ new → r = r') : Requests w' := by
  constructor
  · intro p call hc
    rcases hcalls p call hc with hc | hc
    · rw [heq]
      exact (h.calls p call hc).append new
    · exact hc
  · intro c hc
    rw [heq] at hc
    rcases List.mem_append.mp hc with hc | hc
    · exact henq c hc
    · rw [heq]
      exact (h.queued c hc).append new
  · intro p hp
    rcases hslot p hp with hp | hp
    · rw [heq]
      exact (h.slot p hp).append new
    · exact hp
  · intro p hp
    rw [heq]
    rcases hpc p hp with hp | hp
    · exact (h.worker p hp).append new
    · exact (h.slot p hp).append new
  · intro p r hp
    rw [heq] at hp
    rcases List.mem_append.mp hp with hp | hp
    · exact (hreq p r hp).2.1
    · exact Nat.lt_of_lt_of_le (h.made p r hp) hnext
  · -- A promise of the new events is fresh, so its request is not among the old ones.
    have hold : ∀ p r r', .requested p r ∈ new → .requested p r' ∈ w.trace → False := by
      intro p r r' hnew hmem
      have hlt := h.made p r' hmem
      rw [(hreq p r hnew).1] at hlt
      exact Nat.lt_irrefl _ hlt
    intro p r r' hp hp'
    rw [heq] at hp hp'
    rcases List.mem_append.mp hp with hp | hp <;> rcases List.mem_append.mp hp' with hp' | hp'
    · exact (hreq p r hp).2.2 r' hp'
    · exact (hold p r r' hp hp').elim
    · exact (hold p r' r hp' hp).elim
    · exact h.unique p r r' hp hp'

/-- A client's step that leaves the calls and the slot alone. -/
theorem Requests.quiet (h : Requests w) (new : List Event) (heq : w'.trace = new ++ w.trace)
    (hcalls : w'.calls = w.calls) (hslot : w'.shared.estopPromise = w.shared.estopPromise)
    (hwk : w'.wk = w.wk) (henq : ∀ c, .enqueued c ∈ new → Asked c w'.trace)
    (hnext : w.nextPromise ≤ w'.nextPromise)
    (hreq : ∀ p r, .requested p r ∈ new → p = w.nextPromise ∧ p < w'.nextPromise ∧
      ∀ r', .requested p r' ∈ new → r = r') : Requests w' :=
  h.frame new heq (fun _ _ hc => Or.inl (hcalls ▸ hc)) henq (fun _ hp => Or.inl (hslot ▸ hp))
    (fun _ hp => Or.inl (hwk ▸ hp)) hnext hreq

/-- A client call that moves on, or is over. -/
theorem Requests.setCall (h : Requests w) (q : PromiseId) (call : Option ClientCall)
    (hcall : ∀ c, call = some c → Backed q w.trace c) : Requests (w.setCall q call) := by
  refine ⟨fun p c hc => ?_, h.queued, h.slot, h.worker, h.made, h.unique⟩
  simp only [World.setCall_calls, Function.update_apply] at hc
  split at hc
  · rename_i hpq
    rw [hpq]
    exact hcall c hc
  · exact h.calls p c hc

theorem Requests.setPromise (h : Requests w) (p : PromiseId) (r : Result) :
    Requests (w.setPromise p r) :=
  h.quiet [_] rfl rfl rfl rfl (by simp) (Nat.le_refl _) (by simp)

theorem Requests.control (h : Requests w) (op : Operation) : Requests (w.control cfg op) :=
  h.quiet [_] rfl rfl rfl rfl (by simp) (Nat.le_refl _) (by simp)

/-- An accepted mode is recorded. -/
theorem Requests.accepted (h : Requests w) (q : PromiseId) (mode : UInt16) :
    Requests (w.log (.accepted q mode)) :=
  h.quiet [.accepted q mode] rfl rfl rfl rfl (by simp) (Nat.le_refl _) (by simp)

theorem Requests.makePromise (h : Requests w) (r : Request) : Requests (w.makePromise r) :=
  h.quiet [_] rfl rfl rfl rfl (by simp) (by simp) (by simp)

/-- An enqueued command that was asked for. -/
theorem Requests.push (h : Requests w) (q : ThreadSafeQueue .rejectNew Command) {c : Command}
    (hc : Asked c w.trace) : Requests ((w.setQueue q).log (.enqueued c)) := by
  refine h.quiet [.enqueued c] rfl rfl rfl rfl (fun c' hc' => ?_) (Nat.le_refl _) (by simp)
  simp only [List.mem_singleton, Event.enqueued.injEq] at hc'
  rw [hc']
  exact hc.append [.enqueued c]

/-- The slot, marked with a latched stop request or emptied. -/
theorem Requests.setEstop (h : Requests w) (engaged : Bool) (slot : Option PromiseId)
    (hslot : ∀ p, slot = some p → Once (LatchedFor p) w.trace) :
    Requests (w.setEstop engaged slot) :=
  ⟨h.calls, h.queued, fun p hp => hslot p hp, h.worker, h.made, h.unique⟩

theorem Requests.supersedeEstop (h : Requests w) : Requests w.supersedeEstop := by
  unfold World.supersedeEstop
  split
  · exact h.setPromise _ _
  · exact h

/-- The worker takes over a stop request only from the slot, and never marks one. -/
theorem workerStep_estop {p : PromiseId} (hs : workerStep cfg ans w w.wk.pc = some w') :
    (w'.shared.estopPromise = some p → w.shared.estopPromise = some p) ∧
      (w'.wk.pc.estopRequest = some p →
        w.wk.pc.estopRequest = some p ∨ w.shared.estopPromise = some p) := by
  cases hpc : w.wk.pc
  all_goals rw [hpc] at hs
  all_goals simp only [workerStep] at hs
  all_goals repeat' split at hs
  all_goals simp only [Option.some.injEq, reduceCtorEq] at hs
  all_goals subst hs
  all_goals simp [Pc.estopRequest]
  all_goals simp_all

/-- **Step lemma, worker.** -/
theorem Requests.worker_step (h : Requests w) (hs : workerStep cfg ans w w.wk.pc = some w') :
    Requests w' := by
  obtain ⟨hcalls, hnext⟩ := workerStep_calls hs
  obtain ⟨new, heq, hnew⟩ := Extends.trace (workerStep_extends hs)
  refine h.frame new heq (fun p call hc => Or.inl (hcalls ▸ hc)) (fun c hc => ?_)
    (fun p hp => Or.inl ((workerStep_estop hs).1 hp)) (fun p hp => (workerStep_estop hs).2 hp)
    (Nat.le_of_eq hnext.symm) (fun p r hp => ?_)
  · exact absurd ((hnew _ hc).enqueue c rfl) (by simp)
  · exact absurd ((hnew _ hp).request p r rfl) (by simp)

/-- **Step lemma.** -/
theorem Requests.step (h : Requests w) (hs : step cfg a w = some w') : Requests w' := by
  cases a with
  | worker ans => exact h.worker_step hs
  | start =>
    simp only [Runtime.step, World.start, Option.some.injEq] at hs
    subst hs
    split
    · exact ⟨h.calls, h.queued, h.slot, fun p hp => absurd hp (by simp [Pc.estopRequest]), h.made,
        h.unique⟩
    · exact h
  | stop | advance _ =>
    simp only [Runtime.step, Option.some.injEq] at hs
    subst hs
    exact ⟨h.calls, h.queued, h.slot, h.worker, h.made, h.unique⟩
  | submitVelocity _ =>
    simp only [Runtime.step, Option.some.injEq] at hs
    subst hs
    exact h.control _
  | status _ _ =>
    simp only [Runtime.step, Option.some.injEq] at hs
    subst hs
    exact h.quiet [_, _] rfl rfl rfl rfl (by simp) (Nat.le_refl _) (by simp)
  | clearEstop =>
    simp only [Runtime.step, Option.some.injEq] at hs
    subst hs
    exact ((h.control _).makePromise _).setPromise _ _
  | latchEstop =>
    simp only [Runtime.step, Option.some.injEq] at hs
    subst hs
    refine ((h.control _).makePromise _).setCall _ _ (fun c hc => ?_)
    rw [← Option.some.inj hc]
    exact Since.now ⟨w.clock, w.trace, rfl⟩
  | markEstop q =>
    simp only [Runtime.step] at hs
    split at hs
    · rename_i hcall
      simp only [Option.some.injEq] at hs
      subst hs
      have hback : Once (LatchedFor q) w.supersedeEstop.trace := by
        have hlatched : Once (LatchedFor q) w.trace := h.calls q _ hcall
        unfold World.supersedeEstop
        split
        · exact hlatched.append [_]
        · exact hlatched
      refine Requests.setCall ?_ q none (by simp)
      simp only [World.markEstop]
      split
      · exact (h.supersedeEstop.setEstop false none (by simp)).setPromise _ _
      · refine h.supersedeEstop.setEstop true (some q) (fun p hp => ?_)
        rw [← Option.some.inj hp]
        exact hback
    · exact absurd hs (by simp)
  | requestAuthority sdk =>
    simp only [Runtime.step, Option.some.injEq] at hs
    subst hs
    simp only [World.requestAuthority]
    split
    · exact (h.makePromise _).setPromise _ _
    · split
      · exact (h.makePromise _).push _ (by simp [Asked])
      · exact (h.makePromise _).setPromise _ _
  | requestMode name =>
    simp only [Runtime.step, Option.some.injEq] at hs
    subst hs
    simp only [World.requestMode]
    split
    · exact (h.makePromise _).setPromise _ _
    · refine (h.makePromise _).setCall _ _ (fun c hc => ?_)
      rw [← Option.some.inj hc]
      simp [Backed]
  | acceptMode q =>
    simp only [Runtime.step] at hs
    split at hs
    · rename_i name hcall
      simp only [Option.some.injEq] at hs
      subst hs
      have hasked : .requested q (.mode name) ∈ w.trace := h.calls q _ hcall
      simp only [World.acceptMode]
      split
      · rename_i hacc
        refine ((h.control _).accepted q _).setCall _ _ (fun c hc => ?_)
        rw [← Option.some.inj hc]
        rcases RobotController.requestMode_cases w.clock name w.ctl with
          ⟨mode, hmode, _, _, _, _, heq⟩ | ⟨hrej, _⟩
        · exact ⟨name, by rw [heq]; exact hmode, by simp [hasked]⟩
        · exact absurd hacc (by simp [hrej])
      · exact ((h.control _).setPromise _ _).setCall _ _ (by simp)
    · exact absurd hs (by simp)
  | enqueueMode q =>
    simp only [Runtime.step] at hs
    split at hs
    · rename_i mode hcall
      simp only [Option.some.injEq] at hs
      subst hs
      refine Requests.setCall ?_ q none (by simp)
      simp only [World.enqueueMode]
      split
      · exact (h.control _).setPromise _ _
      · split
        · exact h.push _ (h.calls q _ hcall)
        · exact (h.control _).setPromise _ _
    · exact absurd hs (by simp)

/-- **Run lemma.** -/
theorem Run.requests (h : Run cfg ok w) : Requests w := by
  refine h.invariant ?_ (fun _ _ _ _ hi _ hs => hi.step hs)
  constructor <;> simp [World.initial, Pc.estopRequest]

end HypertronBridge.Runtime
