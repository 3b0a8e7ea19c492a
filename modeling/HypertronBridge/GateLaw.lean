import HypertronBridge.RobotController
import HypertronBridge.Lib.History

namespace HypertronBridge

open RobotController History

/-!
# The gate law of the controller

Whatever operations run in whatever order, an accepted velocity is backed by the history:
once anything closed the motion gate, only the confirmation of a move request reopens it,
and that request was not disturbed in between.

* `GateHistory c log` — what the four flags of `c` say about the log;
* `GateHistory.perform` / `Performed.gateHistory` — one operation, and every sequence;
* `accepted_velocity_gate_law` — the law for an accepted velocity.
-/

variable {deadman now : Time} {c : RobotController} {log : List Call} {op : Operation}

/-- The call is not a gate event. -/
def Call.gateNeutral (e : Call) : Prop := e.gateEvent = false

/-- The newest call is an accepted request for mode `m`. -/
def AcceptedRequest (m : UInt16) (h : List Call) : Prop :=
  ∃ t name before, h = ⟨t, .requestMode name, true⟩ :: before ∧ modeOf name = some m

/-- The newest call confirms a move request that nothing disturbed in between. -/
def ConfirmedMove (h : List Call) : Prop :=
  ∃ t before, h = ⟨t, .completeModeTransition true, true⟩ :: before ∧
    Since Call.gateNeutral (AcceptedRequest modeMove) before

/-- The newest call is a status update that stored `s`. -/
def StatusUpdate (s : ControllerStatus) (h : List Call) : Prop :=
  ∃ t outcome before, h = ⟨t, .updateRobotState s, outcome⟩ :: before

/-- The call is one of the two emergency-stop operations. -/
def Call.estopOperation (e : Call) : Prop := e.op = .triggerEstop ∨ e.op = .clearEstop

/-- What the controller's flags say about the calls so far. -/
structure GateHistory (c : RobotController) (log : List Call) : Prop where
  /-- A pending transition was accepted for its mode and not disturbed since. -/
  pending : c.modeTransitionPending = true →
    Since Call.gateNeutral (AcceptedRequest c.pendingMode) log
  /-- An open gate was never closed, or its last gate event confirmed a move request. -/
  gate : c.motionTransitionGate = false →
    (∀ e ∈ log, e.closesGate = false) ∨ Since Call.gateNeutral ConfirmedMove log
  /-- The stored status is the initial one or that of the last update. -/
  status : c.status = {} ∨
    Since (fun e => ∀ s, e.op ≠ .updateRobotState s) (StatusUpdate c.status) log
  /-- Without a latch, the last emergency-stop operation (if any) was a clear. -/
  estop : c.estopLatched = false →
    (∀ e ∈ log, ¬ e.estopOperation) ∨
      Since (fun e => ¬ e.estopOperation) (fun h => ∃ e before, h = e :: before ∧ e.op = .clearEstop)
        log

/-! ### One operation -/

/-- A neutral call does not close the gate. -/
theorem closesGate_of_gateNeutral {e : Call} (h : e.gateNeutral) : e.closesGate = false := by
  unfold Call.closesGate
  split
  · rename_i success heq
    simp [Call.gateNeutral, Call.gateEvent, heq] at h
  · exact h

/-- The pending transition and the gate, after one more call. -/
theorem GateHistory.perform_gate (h : GateHistory c log) (now : Time) (op : Operation) :
    ((op.apply deadman now c).2.modeTransitionPending = true →
        Since Call.gateNeutral (AcceptedRequest (op.apply deadman now c).2.pendingMode)
          (op.call deadman now c :: log)) ∧
      ((op.apply deadman now c).2.motionTransitionGate = false →
        (∀ e ∈ op.call deadman now c :: log, e.closesGate = false) ∨
          Since Call.gateNeutral ConfirmedMove (op.call deadman now c :: log)) := by
  by_cases hev : (op.call deadman now c).gateEvent = true
  · by_cases hreq : ∃ name, op = .requestMode name
    · -- An accepted request: it owns the transition, and the gate is closed.
      obtain ⟨name, rfl⟩ := hreq
      simp only [Operation.call, Call.gateEvent, Operation.apply] at hev
      rcases requestMode_cases now name c with ⟨mode, hm, _, _, _, _, heq⟩ | ⟨hrej, _⟩
      · refine ⟨fun _ => Since.now ⟨now, name, log, ?_, ?_⟩, fun hg => ?_⟩
        · simp [Operation.call, Operation.apply, heq]
        · simpa [Operation.apply, heq, forceZero] using hm
        · exact absurd hg (by simp [Operation.apply, heq, forceZero])
      · exact absurd hev (by simp [hrej])
    · obtain ⟨hpend, hgate⟩ := apply_gateEvent hev (fun name heq => hreq ⟨name, heq⟩)
      refine ⟨fun hp => absurd hp (by simp [hpend]), fun hg => Or.inr (Since.now ?_)⟩
      obtain ⟨rfl, hcp, hcm⟩ := hgate hg
      refine ⟨now, log, ?_, ?_⟩
      · simp [Operation.call, Operation.apply, enteredMove, hcp, hcm]
      · rw [← hcm]
        exact h.pending hcp
  · have hneutral : (op.call deadman now c).gateNeutral := by simpa [Call.gateNeutral] using hev
    obtain ⟨hg, hp, hm⟩ := apply_frame hneutral
    rw [hg, hp, hm]
    refine ⟨fun hpend => (h.pending hpend).cons hneutral, fun hopen => ?_⟩
    rcases h.gate hopen with hnever | hsince
    · left
      intro e he
      rcases List.mem_cons.mp he with rfl | he
      · exact closesGate_of_gateNeutral hneutral
      · exact hnever e he
    · exact Or.inr (hsince.cons hneutral)

/-- **Step lemma.** One operation keeps the gate history. -/
theorem GateHistory.perform (h : GateHistory c log) (now : Time) (op : Operation) :
    GateHistory (op.apply deadman now c).2 (op.call deadman now c :: log) := by
  obtain ⟨hst, hes, _⟩ := @apply_other deadman now c op
  refine ⟨(h.perform_gate now op).1, (h.perform_gate now op).2, ?_, ?_⟩
  · by_cases hup : ∃ s, op = .updateRobotState s
    · obtain ⟨s, rfl⟩ := hup
      right
      refine Since.now ⟨now, true, log, ?_⟩
      simp [Operation.call, Operation.apply, updateRobotState_status]
    · have hne : ∀ s, op ≠ .updateRobotState s := fun s heq => hup ⟨s, heq⟩
      rw [hst hne]
      rcases h.status with h0 | hs
      · exact Or.inl h0
      · exact Or.inr (hs.cons hne)
  · by_cases htr : op = .triggerEstop
    · subst htr
      intro hl
      exact absurd hl (by simp [Operation.apply, triggerEstop, forceZero])
    · by_cases hcl : op = .clearEstop
      · subst hcl
        intro _
        exact Or.inr (Since.now ⟨_, log, rfl, rfl⟩)
      · have hnot : ¬ (op.call deadman now c).estopOperation := by
          rintro (h | h)
          · exact htr h
          · exact hcl h
        rw [hes ⟨htr, hcl⟩]
        intro hl
        rcases h.estop hl with hnever | hs
        · left
          intro e he
          rcases List.mem_cons.mp he with rfl | he
          · exact hnot
          · exact hnever e he
        · exact Or.inr (hs.cons hnot)

/-- **Run lemma.** Every performed sequence of operations has the gate history. -/
theorem Performed.gateHistory (h : Performed deadman c log) : GateHistory c log := by
  induction h with
  | nil =>
    refine ⟨fun hp => absurd hp (by simp), fun _ => Or.inl (by simp), Or.inl rfl,
      fun _ => Or.inl (by simp)⟩
  | perform now op _ ih => exact ih.perform now op

/-! ### The law -/

/-- An accepted velocity finds the controller ready. -/
theorem movementReady_of_accepted {command : Velocity}
    (h : (c.acceptVelocity now command).1.accepted = true) : c.movementReady = true := by
  simp only [acceptVelocity] at h
  split at h
  · exact absurd h (by simp)
  · split at h
    · simp only [rejection] at h
      repeat' split at h
      all_goals exact absurd h (by simp)
    · rename_i hr
      simpa using hr

/-- The last status update of a log whose controller is not in its initial status. -/
theorem GateHistory.last_status (h : GateHistory c log) (hne : c.status ≠ {}) :
    ∃ after t outcome before, log = after ++ ⟨t, .updateRobotState c.status, outcome⟩ :: before ∧
      ∀ e ∈ after, ∀ s, e.op ≠ .updateRobotState s := by
  rcases h.status with h0 | hs
  · exact absurd h0 hne
  · obtain ⟨after, old, rfl, hafter, t, outcome, before, rfl⟩ := since_iff_append.mp hs
    exact ⟨after, t, outcome, before, rfl, hafter⟩

/-- The last emergency-stop operation of a log whose controller is not latched. -/
theorem GateHistory.last_estop (h : GateHistory c log) (hl : c.estopLatched = false)
    {after before : List Call} {e : Call} (heq : log = after ++ e :: before)
    (he : e.estopOperation) (hafter : ∀ x ∈ after, ¬ x.estopOperation) : e.op = .clearEstop := by
  rcases h.estop hl with hnever | hs
  · exact absurd he (hnever e (by simp [heq]))
  · obtain ⟨new, old, hsplit, hnew, x, rest, rfl, hx⟩ := since_iff_append.mp hs
    -- Two splits of one log at an estop operation with none after it are the same split.
    rw [heq] at hsplit
    rcases List.append_eq_append_iff.mp hsplit with ⟨mid, rfl, hmid⟩ | ⟨mid, rfl, hmid⟩
    · cases mid with
      | nil =>
        simp only [List.nil_append, List.cons.injEq] at hmid
        rw [hmid.1]
        exact hx
      | cons y mid =>
        simp only [List.cons_append, List.cons.injEq] at hmid
        exact absurd (hmid.1 ▸ he) (hnew y (by simp))
    · cases mid with
      | nil =>
        simp only [List.nil_append, List.cons.injEq] at hmid
        rw [← hmid.1]
        exact hx
      | cons y mid =>
        simp only [List.cons_append, List.cons.injEq] at hmid
        have hxe : x.estopOperation := Or.inr hx
        exact absurd (hmid.1 ▸ hxe) (hafter y (by simp))

/-- **Gate law.** A velocity accepted after any sequence of operations finds the driver
    ready, a last status with link, authority, Move and no error, and no latch since the last
    emergency-stop operation.  If anything in the log closed the gate, then the last gate event
    is a confirming completion, and it confirms a move request with no gate event in between. -/
theorem accepted_velocity_gate_law (hrun : Performed deadman c log) (now : Time)
    (command : Velocity) (hacc : (c.acceptVelocity now command).1.accepted = true) :
    ((∃ e ∈ log, e.closesGate = true) →
        ∃ after tb between ta name before,
          log = after ++ ⟨tb, .completeModeTransition true, true⟩ ::
            (between ++ ⟨ta, .requestMode name, true⟩ :: before) ∧
          modeOf name = some modeMove ∧ (∀ e ∈ after, e.gateEvent = false) ∧
          ∀ e ∈ between, e.gateEvent = false) ∧
      c.driverReady = true ∧
      (∃ after t state outcome before,
        log = after ++ ⟨t, .updateRobotState state, outcome⟩ :: before ∧
        (∀ e ∈ after, ∀ s, e.op ≠ .updateRobotState s) ∧ state.sdkLinked = true ∧
        state.controlAuthority = true ∧ state.sportStatus = 0xB104 ∧ state.errorCode = 0) ∧
      ∀ after e before, log = after ++ e :: before →
        (e.op = .triggerEstop ∨ e.op = .clearEstop) →
        (∀ x ∈ after, ¬ (x.op = .triggerEstop ∨ x.op = .clearEstop)) → e.op = .clearEstop := by
  have hist := hrun.gateHistory
  obtain ⟨hdr, hgate, _, hhealthy, hsport, hlatch⟩ :=
    movementReady_iff.mp (movementReady_of_accepted hacc)
  simp only [ControllerStatus.healthy, Bool.and_eq_true, beq_iff_eq] at hhealthy
  refine ⟨?_, hdr, ?_, ?_⟩
  · rintro ⟨e, he, hclosed⟩
    rcases hist.gate hgate with hnever | hs
    · exact absurd (hnever e he) (by simp [hclosed])
    · obtain ⟨after, _, rfl, hafter, tb, _, rfl, hreq⟩ := since_iff_append.mp hs
      obtain ⟨between, _, rfl, hbetween, ta, name, before, rfl, hm⟩ := since_iff_append.mp hreq
      exact ⟨after, tb, between, ta, name, before, rfl, hm, hafter, hbetween⟩
  · have hne : c.status ≠ {} := by
      intro h0
      rw [h0] at hhealthy
      simp at hhealthy
    obtain ⟨after, t, outcome, before, heq, hafter⟩ := hist.last_status hne
    exact ⟨after, t, c.status, outcome, before, heq, hafter, hhealthy.1.1, hhealthy.1.2, hsport,
      hhealthy.2⟩
  · intro after e before heq he hafter
    exact hist.last_estop hlatch heq he hafter

/-- A session that arms readiness, reports a healthy Move status and confirms a move. -/
def confirmedMoveOps : List Operation :=
  [.setDriverReady true, .updateRobotState ⟨true, true, 0xB104, 0⟩, .requestMode "move",
   .completeModeTransition true]

/-- Perform `ops` in order on a controller with log `log`, at time `0`. -/
def performAll (deadman : Time) : List Operation → RobotController × List Call →
    RobotController × List Call
  | [], s => s
  | op :: ops, s =>
      performAll deadman ops ((op.apply deadman 0 s.1).2, op.call deadman 0 s.1 :: s.2)

/-- Performing a list of operations stays within `Performed`. -/
theorem performed_performAll (ops : List Operation) {s : RobotController × List Call}
    (h : Performed deadman s.1 s.2) :
    Performed deadman (performAll deadman ops s).1 (performAll deadman ops s).2 := by
  induction ops generalizing s with
  | nil => exact h
  | cons op ops ih => exact ih (h.perform 0 op)

/-- The law at a confirmed move: the velocity is accepted although the request closed the
    gate. -/
theorem accepted_velocity_gate_law_confirmed :
    let s := performAll (ms 100) confirmedMoveOps ({}, [])
    (s.1.acceptVelocity 0 .zero).1.accepted = true ∧ (∃ e ∈ s.2, e.closesGate = true) ∧
      s.1.driverReady = true :=
  have hacc : ((performAll (ms 100) confirmedMoveOps ({}, [])).1.acceptVelocity 0 .zero).1.accepted
      = true := by decide +kernel
  ⟨hacc, by decide +kernel,
    (accepted_velocity_gate_law (performed_performAll confirmedMoveOps .nil) 0 .zero hacc).2.1⟩

end HypertronBridge
