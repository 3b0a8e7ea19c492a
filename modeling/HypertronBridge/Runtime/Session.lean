import HypertronBridge.Runtime.Frame

namespace HypertronBridge.Runtime

open TransitionSystem RobotController

/-!
# Sessions

What the worker's program counter says about the rest of the runtime: `connected_` is set
exactly between `connect` and the session-end drain, the emergency-stop mark and its promise go
together, and outside a session nothing is queued, armed or ready.

* `Pc.inSession` — the worker is inside a connected session;
* `SessionInv` — the invariant, `SessionInv.step` its step lemma, `Run.session` its run lemma.
-/

variable {cfg : RuntimeConfig} {w w' : World} {a : Action} {ans : Answer}
  {ok : World → Action → Prop}

/-- The worker is between `connected_ = true` and the session-end drain. -/
def Pc.inSession : Pc → Bool
  | .idle | .checkStop | .preflight | .checkStopAfterPreflight | .clearLatch | .initCall
  | .initReturn | .checkStopAfterInit | .subscribeImu | .subscribeSport | .subscribeLidar
  | .checkStopAfterSubscribe | .connect | .invalidateCaches _ | .invalidateStatus _
  | .invalidateConnection _ | .deinit _ | .checkStopAfterSession | .backoff _ | .returned => false
  | _ => true

/-- The worker is about to run one of the three sections of `invalidate_session`. -/
def Pc.invalidating : Pc → Bool
  | .invalidateCaches _ | .invalidateStatus _ | .invalidateConnection _ => true
  | _ => false

/-- What the program counter says about the rest of the runtime. -/
structure SessionInv (w : World) : Prop where
  connected : w.shared.connected = w.wk.pc.inSession
  estop : w.shared.estopEngaged = w.shared.estopPromise.isSome
  idleQueue : w.wk.pc.inSession = false → w.queue.items = []
  idleEstop : w.wk.pc.inSession = false → w.shared.estopPromise = none
  idleTransition : w.wk.pc.inSession = false → w.wk.transition.active = false
  unarmed : w.wk.pc.inSession = false → w.wk.pc.invalidating = false →
    w.ctl.driverReady = false

theorem SessionInv.initial : SessionInv (World.initial cfg) := by
  constructor <;> intros <;> rfl

/-- `connected_` follows the worker's position. -/
theorem workerStep_connected (h : w.shared.connected = w.wk.pc.inSession)
    (hs : workerStep cfg ans w w.wk.pc = some w') : w'.shared.connected = w'.wk.pc.inSession := by
  cases hpc : w.wk.pc
  all_goals rw [hpc] at hs h
  all_goals simp only [workerStep] at hs
  all_goals repeat' split at hs
  all_goals simp only [Option.some.injEq, reduceCtorEq] at hs
  all_goals subst hs
  all_goals simp only [Pc.inSession] at h
  all_goals simp [Pc.inSession, h]

/-- The worker takes the stop mark together with its promise. -/
theorem workerStep_slot (h : w.shared.estopEngaged = w.shared.estopPromise.isSome)
    (hs : workerStep cfg ans w w.wk.pc = some w') :
    w'.shared.estopEngaged = w'.shared.estopPromise.isSome := by
  cases hpc : w.wk.pc
  all_goals rw [hpc] at hs
  all_goals simp only [workerStep] at hs
  all_goals repeat' split at hs
  all_goals simp only [Option.some.injEq, reduceCtorEq] at hs
  all_goals subst hs
  case drain => cases hp : w.shared.estopPromise <;> simp [h, hp]
  all_goals simp [h]

/-- The worker is outside a session after the session-end drain, and after steps outside a
    session that leave the queue, the slot and the transition alone. -/
theorem workerStep_outside (hs : workerStep cfg ans w w.wk.pc = some w')
    (hout : w'.wk.pc.inSession = false) :
    w.wk.pc = .drain ∨ (w.wk.pc.inSession = false ∧ w'.queue = w.queue ∧
      w'.shared.estopPromise = w.shared.estopPromise ∧ w'.wk.transition = w.wk.transition ∧
      (w'.wk.pc.invalidating = false → (∃ k, w.wk.pc = .invalidateConnection k) ∨
        (w.wk.pc.invalidating = false ∧ w'.ctl = w.ctl))) := by
  cases hpc : w.wk.pc
  all_goals rw [hpc] at hs
  all_goals simp only [workerStep] at hs
  all_goals repeat' split at hs
  all_goals simp only [Option.some.injEq, reduceCtorEq] at hs
  all_goals subst hs
  all_goals simp [Pc.inSession, Pc.invalidating] at hout ⊢

/-- The worker's steps keep the session invariant. -/
theorem SessionInv.worker (h : SessionInv w) (hs : workerStep cfg ans w w.wk.pc = some w') :
    SessionInv w' := by
  have hdrain : w.wk.pc = .drain → w'.queue.items = [] ∧ w'.shared.estopPromise = none ∧
      w'.wk.transition.active = false ∧ w'.wk.pc.invalidating = true := by
    intro hpc
    have hslot := h.estop
    rw [hpc] at hs
    simp only [workerStep, Option.some.injEq] at hs
    subst hs
    cases hp : w.shared.estopPromise <;> simp [Pc.invalidating, hslot, hp]
  refine ⟨workerStep_connected h.connected hs, workerStep_slot h.estop hs, ?_, ?_, ?_, ?_⟩
  · intro hout
    rcases workerStep_outside hs hout with hpc | ⟨hout', hq, -⟩
    · exact (hdrain hpc).1
    · rw [hq]
      exact h.idleQueue hout'
  · intro hout
    rcases workerStep_outside hs hout with hpc | ⟨hout', -, hslot, -⟩
    · exact (hdrain hpc).2.1
    · rw [hslot]
      exact h.idleEstop hout'
  · intro hout
    rcases workerStep_outside hs hout with hpc | ⟨hout', -, -, htrans, -⟩
    · exact (hdrain hpc).2.2.1
    · rw [htrans]
      exact h.idleTransition hout'
  · intro hout hdone
    rcases workerStep_outside hs hout with hpc | ⟨hout', -, -, -, hctl⟩
    · rw [(hdrain hpc).2.2.2] at hdone
      exact absurd hdone (by simp)
    · rcases hctl hdone with ⟨k, hpc⟩ | ⟨hdone', hsame⟩
      · -- The section that takes the readiness back.
        rw [hpc] at hs
        simp only [workerStep, Option.some.injEq] at hs
        subst hs
        rfl
      · rw [hsame]
        exact h.unarmed hout' hdone'

/-- A step that leaves the session fields and the worker alone, and does not arm the readiness,
    keeps the session invariant. -/
theorem SessionInv.frame (h : SessionInv w) (hwk : w'.wk = w.wk)
    (hconn : w'.shared.connected = w.shared.connected)
    (hestop : w'.shared.estopEngaged = w'.shared.estopPromise.isSome)
    (hqueue : w.wk.pc.inSession = false → w'.queue.items = w.queue.items)
    (hidle : w.wk.pc.inSession = false → w'.shared.estopPromise = w.shared.estopPromise)
    (hready : w.ctl.driverReady = false → w'.ctl.driverReady = false) : SessionInv w' := by
  refine ⟨by rw [hconn, hwk]; exact h.connected, hestop, ?_, ?_, ?_, ?_⟩ <;> rw [hwk]
  · intro hp
    rw [hqueue hp]
    exact h.idleQueue hp
  · intro hp
    rw [hidle hp]
    exact h.idleEstop hp
  · exact h.idleTransition
  · intro hp hi
    exact hready (h.unarmed hp hi)

/-- Outside a session every client request is refused at once. -/
theorem SessionInv.sessionDown (h : SessionInv w) (hp : w.wk.pc.inSession = false) :
    w.shared.sessionDown = true := by
  have hc := h.connected
  rw [hp] at hc
  simp [Shared.sessionDown, hc]

/-- **Step lemma.** Every step keeps the session invariant. -/
theorem SessionInv.step (h : SessionInv w) (hs : step cfg a w = some w') : SessionInv w' := by
  cases a with
  | start =>
    simp only [Runtime.step, Option.some.injEq] at hs
    subst hs
    unfold World.start
    split
    · rename_i hidle
      obtain ⟨hconn, hestop, hqueue, hidle', htrans, hready⟩ := h
      rw [hidle.1] at hconn hqueue hidle' htrans hready
      constructor <;> simp_all [Pc.inSession, Pc.invalidating]
    · exact h
  | stop =>
    simp only [Runtime.step, Option.some.injEq] at hs
    subst hs
    exact h.frame rfl rfl h.estop (fun _ => rfl) (fun _ => rfl) id
  | submitVelocity velocity =>
    simp only [Runtime.step, Option.some.injEq] at hs
    subst hs
    exact h.frame (by simp) (by simp) (by simpa using h.estop) (by simp) (by simp)
      (fun hd => by simp [apply_driverReady, hd])
  | clearEstop =>
    simp only [Runtime.step, Option.some.injEq] at hs
    subst hs
    exact h.frame (by simp) (by simp) (by simpa using h.estop) (by simp) (by simp)
      (fun hd => by simp [apply_driverReady, hd])
  | latchEstop =>
    simp only [Runtime.step, Option.some.injEq] at hs
    subst hs
    exact h.frame (by simp) (by simp) (by simpa using h.estop) (by simp) (by simp)
      (fun hd => by simp [apply_driverReady, hd])
  | markEstop p =>
    simp only [Runtime.step] at hs
    split at hs
    · simp only [Option.some.injEq] at hs
      subst hs
      simp only [World.markEstop]
      cases hdown : w.shared.sessionDown with
      | true =>
        exact h.frame (by simp) (by simp) (by simp) (fun _ => by simp)
          (fun hp => by simp [h.idleEstop hp]) (by simp)
      | false =>
        have hin : w.wk.pc.inSession ≠ false := fun hp => by
          simp [h.sessionDown hp] at hdown
        exact h.frame (by simp) (by simp) (by simp) (fun _ => by simp)
          (fun hp => absurd hp hin) (by simp)
    · exact absurd hs (by simp)
  | requestAuthority sdk =>
    simp only [Runtime.step, Option.some.injEq] at hs
    subst hs
    simp only [World.requestAuthority]
    split
    · exact h.frame (by simp) (by simp) (by simpa using h.estop) (by simp) (by simp) (by simp)
    · rename_i hdown
      have hin : w.wk.pc.inSession ≠ false := fun hp => hdown (h.sessionDown hp)
      split
      · exact h.frame (by simp) (by simp) (by simpa using h.estop) (fun hp => absurd hp hin)
          (by simp) (by simp)
      · exact h.frame (by simp) (by simp) (by simpa using h.estop) (by simp) (by simp) (by simp)
  | requestMode name =>
    simp only [Runtime.step, Option.some.injEq] at hs
    subst hs
    simp only [World.requestMode]
    split <;>
      exact h.frame (by simp) (by simp) (by simpa using h.estop) (by simp) (by simp) (by simp)
  | acceptMode p =>
    simp only [Runtime.step] at hs
    split at hs
    · simp only [Option.some.injEq] at hs
      subst hs
      simp only [World.acceptMode]
      split <;>
        exact h.frame (by simp) (by simp) (by simpa using h.estop) (by simp) (by simp)
          (fun hd => by simp [apply_driverReady, hd])
    · exact absurd hs (by simp)
  | enqueueMode p =>
    simp only [Runtime.step] at hs
    split at hs
    · simp only [Option.some.injEq] at hs
      subst hs
      simp only [World.enqueueMode]
      split
      · exact h.frame (by simp) (by simp) (by simpa using h.estop) (by simp) (by simp)
          (fun hd => by simp [apply_driverReady, hd])
      · rename_i hdown
        have hin : w.wk.pc.inSession ≠ false := fun hp => hdown (h.sessionDown hp)
        split
        · exact h.frame (by simp) (by simp) (by simpa using h.estop) (fun hp => absurd hp hin)
            (by simp) (by simp)
        · exact h.frame (by simp) (by simp) (by simpa using h.estop) (by simp) (by simp)
            (fun hd => by simp [apply_driverReady, hd])
    · exact absurd hs (by simp)
  | status linked authority =>
    simp only [Runtime.step, Option.some.injEq] at hs
    subst hs
    exact h.frame (by simp) (by simp) (by simpa using h.estop) (by simp) (by simp)
      (fun hd => by simp [apply_driverReady, hd])
  | advance d =>
    simp only [Runtime.step, Option.some.injEq] at hs
    subst hs
    exact h.frame rfl rfl h.estop (fun _ => rfl) (fun _ => rfl) id
  | worker ans => exact h.worker hs

/-- **Run lemma.** The session invariant holds in every state reached. -/
theorem Run.session (h : Run cfg ok w) : SessionInv w :=
  h.invariant SessionInv.initial (fun _ _ _ _ hi _ hs => hi.step hs)

end HypertronBridge.Runtime
