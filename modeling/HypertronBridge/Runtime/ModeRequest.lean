import HypertronBridge.GateLaw
import HypertronBridge.Runtime.Requests

namespace HypertronBridge.Runtime

open TransitionSystem RobotController

/-!
# Mode requests that fail at once

`request_mode` passes the session check, the controller's gate and the enqueue.  A request that fails
at the enqueue is undone through `complete_mode_transition(false)`, which closes the motion gate
whatever it was before: `failed_enqueue_keeps_motion`.  A request that fails at the gate gets its code
from the text of the reason, and of an unknown name that text has the name in it: `rejection_codes`.

* `World.operations` — how often the controller was operated; `step_ctl` — what that says of it;
* `EnqueueFails`, `MotionKept` — the first kind of failure and what it should keep;
* `RejectedWith`, `CodesTell` — the second kind and what its codes should tell.
-/

variable {cfg : RuntimeConfig} {w w' w₁ w₂ w₃ : World} {a : Action} {ok : World → Action → Prop}

/-! ### The controller between two steps -/

/-- A critical section of the controller. -/
def Event.isControl : Event → Bool
  | .control _ => true
  | _ => false

/-- How many critical sections of the controller there were. -/
def World.operations (w : World) : Nat := w.trace.countP Event.isControl

/-- Events without an operation leave the controller. -/
theorem Extends.ctl {deadman now : Time} {P : Event → Prop} {c c' : RobotController}
    {t t' : List Event} (h : Extends deadman now P c t c' t') :
    t.countP Event.isControl ≤ t'.countP Event.isControl ∧
      (t'.countP Event.isControl = t.countP Event.isControl → c' = c) := by
  induction h with
  | refl => exact ⟨le_rfl, fun _ => rfl⟩
  | @control c' t' op _ _ ih =>
    rw [List.countP_cons_of_pos (by rfl)]
    exact ⟨by omega, fun h => absurd h (by omega)⟩
  | @other c' t' e _ _ hne ih =>
    have hcontrol : Event.isControl e = false := by
      cases e with
      | control call => exact absurd rfl (hne call)
      | _ => rfl
    rw [List.countP_cons_of_neg (by simp [hcontrol])]
    exact ih

/-- **Step lemma.** -/
theorem step_ctl (hs : step cfg a w = some w') :
    w.operations ≤ w'.operations ∧ (w'.operations = w.operations → w'.ctl = w.ctl) :=
  (step_extends hs).ctl

/-- **Run lemma.** -/
theorem reaches_ctl (h : Reaches (step cfg) ok w w') :
    w.operations ≤ w'.operations ∧ (w'.operations = w.operations → w'.ctl = w.ctl) := by
  induction h with
  | refl => exact ⟨le_rfl, fun _ => rfl⟩
  | @tail m m' a _ _ hs ih =>
    have hstep := step_ctl hs
    refine ⟨ih.1.trans hstep.1, fun heq => ?_⟩
    -- the count cannot go down again, so neither part of the run added to it
    have hle := ih.1
    have hle' := hstep.1
    rw [hstep.2 (by omega), ih.2 (by omega)]

/-! ### The pending mode -/

/-- Where nothing is pending there is no pending mode. -/
def NothingPending (c : RobotController) : Prop := c.modeTransitionPending = false → c.pendingMode = 0

/-- An operation keeps this. -/
theorem NothingPending.apply {c : RobotController} {deadman now : Time} {op : Operation}
    (h : NothingPending c) : NothingPending (op.apply deadman now c).2 := by
  by_cases hgate : (op.call deadman now c).gateEvent = true
  · cases op with
    | requestMode name =>
      rcases requestMode_cases now name c with ⟨mode, _, _, _, _, _, heq⟩ | ⟨_, heq⟩
      · exact fun hpending => absurd hpending (by simp [Operation.apply, heq, forceZero])
      · simpa only [Operation.apply, heq] using h
    | completeModeTransition success => exact fun _ => rfl
    | setDriverReady ready =>
      cases ready with
      | true => exact h
      | false => exact fun _ => rfl
    | invalidateConnection => exact fun _ => rfl
    | updateRobotState state =>
      have hst : state.healthy = false := by simpa [Operation.call, Call.gateEvent] using hgate
      have hstore : (c.storeStatus state).pendingMode = 0 := by simp [storeStatus, hst]
      rcases updateRobotState_cases now state c with heq | ⟨heq, _⟩ <;>
        exact fun _ => by simpa [Operation.apply, heq, forceZero] using hstore
    | _ => exact absurd hgate (by simp [Operation.call, Call.gateEvent])
  · obtain ⟨-, hpending, hmode⟩ := apply_frame (Bool.eq_false_iff.mpr hgate)
    unfold NothingPending
    rw [hpending, hmode]
    exact h

theorem Extends.nothingPending {deadman now : Time} {P : Event → Prop} {c c' : RobotController}
    {t t' : List Event} (h : Extends deadman now P c t c' t') (hc : NothingPending c) :
    NothingPending c' := by
  induction h with
  | refl => exact hc
  | control _ _ ih => exact ih.apply
  | other _ _ _ ih => exact ih

/-- **Run lemma.** -/
theorem Run.nothingPending (h : Run cfg ok w) : NothingPending w.ctl :=
  h.invariant (I := fun w => NothingPending w.ctl) (fun _ => rfl)
    (fun _ _ _ _ hinv _ hs => Extends.nothingPending (step_extends hs) hinv)

/-! ### A request that fails at the enqueue -/

/-- The controller accepts the request of promise `p` in `w`, no other operation of the controller
    runs before the enqueue, and `w'` is the world after the enqueue has answered with a failure. -/
def EnqueueFails (cfg : RuntimeConfig) (p : PromiseId) (w w' : World) : Prop :=
  ∃ w₁ w₂ mode r, step cfg (.acceptMode p) w = some w₁ ∧ w₁.calls p = some (.modeEnqueue mode) ∧
    Reaches (step cfg) (fun _ _ => True) w₁ w₂ ∧ w₂.operations = w₁.operations ∧
    step cfg (.enqueueMode p) w₂ = some w' ∧ w'.trace.head? = some (.resolved p r) ∧ r.success = false

/-- Motion is as it was: the fields that acceptance writes, and with them what is accepted. -/
structure MotionKept (c c' : RobotController) : Prop where
  modeTransitionPending : c'.modeTransitionPending = c.modeTransitionPending
  pendingMode : c'.pendingMode = c.pendingMode
  motionTransitionGate : c'.motionTransitionGate = c.motionTransitionGate
  velocities : ∀ now velocity, (c.acceptVelocity now velocity).1.accepted = true →
    (c'.acceptVelocity now velocity).1.accepted = true

/-- A schedule after which the request of promise `p` fails at the enqueue, and what it shows then. -/
theorem exists_enqueueFails (cfg : RuntimeConfig) (schedule : List Action) (p : PromiseId) (mode : UInt16) (r : Result)
    (P : World → World → Bool) (hr : r.success = false)
    (h : (exec cfg (fun _ _ => True) schedule).any (fun w => (step cfg (.acceptMode p) w).any (fun w₁ =>
      decide (w₁.calls p = some (.modeEnqueue mode)) && (step cfg (.enqueueMode p) w₁).any (fun w' =>
        decide (w'.trace.head? = some (.resolved p r)) && P w w'))) = true) :
    ∃ w w', Reachable cfg w ∧ EnqueueFails cfg p w w' ∧ P w w' = true := by
  obtain ⟨w, hrun, hw⟩ := exists_run_of_exec _ _ _ _ h
  obtain ⟨w₁, haccept, hw₁⟩ := Option.any_eq_true _ _ |>.mp hw
  rw [Bool.and_eq_true, decide_eq_true_eq] at hw₁
  obtain ⟨hcall, hw₁⟩ := hw₁
  obtain ⟨w', henqueue, hw'⟩ := Option.any_eq_true _ _ |>.mp hw₁
  rw [Bool.and_eq_true, decide_eq_true_eq] at hw'
  exact ⟨w, w', hrun, ⟨w₁, w₁, mode, r, haccept, hcall, .refl, rfl, henqueue, hw'.1, hr⟩, hw'.2⟩

/-- Link, authority and readiness in `Move`, with an open gate; then the queue fills up while a mode
    request is before its acceptance. -/
def fullQueue : List Action :=
  readying ++ .requestMode "stand" :: List.replicate 16 (.requestAuthority true)

/-- **The defect.** A request that is refused by a full queue closes the motion gate. -/
theorem failed_enqueue_gates_motion : ¬ ∀ (cfg : RuntimeConfig) (p : PromiseId) (w w' : World),
    Reachable cfg w → EnqueueFails cfg p w w' → MotionKept w.ctl w'.ctl := by
  intro hall
  obtain ⟨w, w', hrun, hfails, hgates⟩ := exists_enqueueFails {} fullQueue 0 0xA102
    (.failure sdkResFailed "command queue is full")
    (fun w w' => !w.ctl.motionTransitionGate && w'.ctl.motionTransitionGate)
    (by decide) (by decide +kernel)
  have hkept := (hall {} 0 w w' hrun hfails).motionTransitionGate
  rw [hkept] at hgates
  exact absurd hgates (by simp)

/-- A request that is accepted, and what acceptance does. -/
theorem acceptMode_accepted {p : PromiseId} {mode : UInt16}
    (hs : step cfg (.acceptMode p) w = some w₁) (hcall : w₁.calls p = some (.modeEnqueue mode)) :
    w.ctl.modeTransitionPending = false ∧ w₁.ctl = forceZero w.clock { w.ctl with
      modeTransitionPending := true, pendingMode := mode, motionTransitionGate := true } := by
  simp only [step] at hs
  split at hs
  · rename_i name hname
    obtain rfl := Option.some.inj hs
    unfold World.acceptMode at hcall ⊢
    rcases requestMode_cases w.clock name w.ctl with ⟨mode', _, _, hfree, _, _, heq⟩ | ⟨hrej, -⟩
    · simp only [heq, if_true, World.setCall_calls, Function.update_self, Option.some.injEq,
        ClientCall.modeEnqueue.injEq] at hcall
      subst hcall
      exact ⟨hfree, by simp [heq, Operation.apply]⟩
    · simp [hrej] at hcall
  · exact absurd hs (by simp)

/-- An enqueue that answers undoes the acceptance. -/
theorem enqueueMode_failed {p : PromiseId} {r : Result}
    (hs : step cfg (.enqueueMode p) w = some w') (hhead : w'.trace.head? = some (.resolved p r)) :
    w'.ctl = w.ctl.completeModeTransition w.clock false := by
  simp only [step] at hs
  split at hs
  · rename_i mode _
    obtain rfl := Option.some.inj hs
    show (w.enqueueMode cfg p mode).ctl = _
    simp only [World.setCall_trace, World.enqueueMode] at hhead ⊢
    by_cases hdown : w.shared.sessionDown = true
    · rw [if_pos hdown]
      rfl
    · by_cases hpush : (w.queue.push ⟨.requestMode mode, p⟩).1 = true
      · rw [if_neg hdown, if_pos hpush] at hhead
        exact absurd hhead (by simp)
      · rw [if_neg hdown, if_neg hpush]
        rfl
  · exact absurd hs (by simp)

/-- **Failed enqueue.** In every run, a request that fails at the enqueue leaves motion as it was
    exactly when the motion gate was closed already. -/
theorem failed_enqueue_keeps_motion {p : PromiseId} (hrun : Reachable cfg w)
    (h : EnqueueFails cfg p w w') : MotionKept w.ctl w'.ctl ↔ w.ctl.motionTransitionGate = true := by
  obtain ⟨w₁, w₂, mode, r, haccept, hcall, hmid, hquiet, henqueue, hhead, -⟩ := h
  obtain ⟨hfree, hctl₁⟩ := acceptMode_accepted haccept hcall
  have hctl₂ : w₂.ctl = w₁.ctl := (reaches_ctl hmid).2 hquiet
  have hctl : w'.ctl = w₁.ctl.completeModeTransition w₂.clock false := by
    rw [enqueueMode_failed henqueue hhead, hctl₂]
  have hgate : w'.ctl.motionTransitionGate = true := by
    rw [hctl]
    rfl
  refine ⟨fun hkept => hkept.motionTransitionGate.symm.trans hgate, fun hclosed => ⟨?_, ?_, ?_, ?_⟩⟩
  · rw [hctl, hfree]
    rfl
  · rw [hctl, hrun.nothingPending hfree]
    rfl
  · rw [hgate, hclosed]
  · -- behind a closed gate no velocity was accepted
    intro now velocity haccepted
    have hopen := (movementReady_iff.mp (movementReady_of_accepted haccepted)).2.1
    exact absurd (hopen.symm.trans hclosed) (by decide)

/-- A second request that the full queue refuses. -/
theorem failed_enqueue_keeps_motion_again : ∃ w w', Reachable {} w ∧ EnqueueFails {} 17 w w' ∧
    w.ctl.motionTransitionGate = true ∧
    (MotionKept w.ctl w'.ctl ↔ w.ctl.motionTransitionGate = true) := by
  obtain ⟨w, w', hrun, hfails, hclosed⟩ := exists_enqueueFails {}
    (fullQueue ++ [.acceptMode 0, .enqueueMode 0, .requestMode "stand"]) 17 0xA102
    (.failure sdkResFailed "command queue is full")
    (fun w _ => w.ctl.motionTransitionGate) (by decide) (by decide +kernel)
  exact ⟨w, w', hrun, hfails, hclosed, failed_enqueue_keeps_motion hrun hfails⟩

/-! ### A request that fails at the gate -/

/-- The step ended with the future of promise `p` failed with this code. -/
def RejectedWith (p : PromiseId) (code : UInt16) (w' : World) : Prop :=
  ∃ r, w'.trace.head? = some (.resolved p r) ∧ r.success = false ∧ r.code = code

/-- The codes tell a busy controller from bad input. -/
structure CodesTell (name : String) (c : RobotController) (rejectedWith : UInt16 → Prop) : Prop where
  busy : rejectedWith sdkResRunning ↔
    (modeOf name).isSome = true ∧ c.driverReady = true ∧ c.modeTransitionPending = true
  badInput : rejectedWith sdkResInvalidParam ↔ modeOf name = none

/-- The name, as the reason of an unknown one shows it, has the word that stands for a busy
    controller in it. -/
def NamesPending (name : String) : Prop := "pending".toList <:+: (normalizedMode name).toList

instance (name : String) : Decidable (NamesPending name) :=
  inferInstanceAs (Decidable (_ <:+: _))

/-- A schedule, and then a request for a mode up to the controller's gate. -/
theorem exists_rejected (cfg : RuntimeConfig) (schedule : List Action) (name : String) (p : PromiseId) (P : World → World → Bool)
    (h : (exec cfg (fun _ _ => True) schedule).any (fun w =>
      !w.shared.sessionDown && decide (w.nextPromise = p) && (step cfg (.requestMode name) w).any (fun w₁ =>
        (step cfg (.acceptMode p) w₁).any (P w₁))) = true) :
    ∃ w w₁ w', Reachable cfg w ∧ w.shared.sessionDown = false ∧
      step cfg (.requestMode name) w = some w₁ ∧ step cfg (.acceptMode w.nextPromise) w₁ = some w' ∧
      w.nextPromise = p ∧ P w₁ w' = true := by
  obtain ⟨w, hrun, hw⟩ := exists_run_of_exec _ _ _ _ h
  rw [Bool.and_eq_true, Bool.and_eq_true, Bool.not_eq_true', decide_eq_true_eq] at hw
  obtain ⟨⟨hlive, hnext⟩, hw⟩ := hw
  obtain ⟨w₁, hrequest, hw₁⟩ := Option.any_eq_true _ _ |>.mp hw
  obtain ⟨w', hgate, hw'⟩ := Option.any_eq_true _ _ |>.mp hw₁
  exact ⟨w, w₁, w', hrun, hlive, hrequest, hnext ▸ hgate, hnext, hw'⟩

/-- **The defect.** The unknown mode `pending` is rejected as if the controller were busy. -/
theorem pending_is_busy : ¬ ∀ (cfg : RuntimeConfig) (name : String) (w w₁ w' : World),
    w.shared.sessionDown = false → step cfg (.requestMode name) w = some w₁ →
      step cfg (.acceptMode w.nextPromise) w₁ = some w' →
      CodesTell name w₁.ctl (fun code => RejectedWith w.nextPromise code w') := by
  intro hall
  obtain ⟨w, w₁, w', -, hlive, hrequest, hgate, hnext, hhead⟩ := exists_rejected {} readying
    "pending" 0 (fun _ w' => decide (w'.trace.head? =
      some (.resolved 0 (.failure sdkResRunning "unknown robot mode: pending")))) (by decide +kernel)
  have htell := hall {} "pending" w w₁ w' hlive hrequest hgate
  have hbusy := htell.busy.mp ⟨_, hnext ▸ of_decide_eq_true hhead, by decide, rfl⟩
  exact absurd hbusy.1 (by decide)

/-- The call that the session check of a request leaves. -/
theorem requestMode_calls {name : String} (hlive : w.shared.sessionDown = false)
    (hs : step cfg (.requestMode name) w = some w₁) :
    w₁.calls w.nextPromise = some (.modeAccept name) := by
  obtain rfl := Option.some.inj hs
  simp [World.requestMode, hlive]

/-- The controller's gate of a call answers with the code of the decision, or not at all. -/
theorem rejectedWith_iff {p : PromiseId} {name : String} {code : UInt16}
    (hcall : w.calls p = some (.modeAccept name)) (hs : step cfg (.acceptMode p) w = some w') :
    RejectedWith p code w' ↔ (w.ctl.requestMode w.clock name).1.accepted = false ∧
      (mapModeRejection (w.ctl.requestMode w.clock name).1).code = code := by
  simp only [step, hcall, Option.some.injEq] at hs
  subst hs
  unfold RejectedWith World.acceptMode
  by_cases hacc : (w.ctl.requestMode w.clock name).1.accepted = true
  · simp [hacc]
  · simp only [if_neg hacc]
    constructor
    · rintro ⟨r, hhead, -, rfl⟩
      have heq : mapModeRejection (w.ctl.requestMode w.clock name).1 = r := by simpa using hhead
      exact ⟨Bool.eq_false_iff.mpr hacc, by rw [heq]⟩
    · rintro ⟨-, hcode⟩
      exact ⟨_, rfl, mapModeRejection_success _, hcode⟩

/-- A word whose first letter is not in a text is in the text followed by another exactly when it is
    in the other. -/
theorem infix_append_iff_of_not_mem {α : Type} {x : α} {xs t l : List α} (hx : x ∉ t) :
    x :: xs <:+: t ++ l ↔ x :: xs <:+: l := by
  induction t with
  | nil => rfl
  | cons y t ih =>
    obtain ⟨hne, ht⟩ : x ≠ y ∧ x ∉ t := by simpa using hx
    rw [List.cons_append, List.infix_cons_iff, ih ht, List.cons_prefix_cons]
    exact ⟨fun h => h.resolve_left (fun hp => hne hp.1), Or.inr⟩

/-- The reason of an unknown name. -/
theorem pending_in_unknown (name : String) :
    "pending".toList <:+: ("unknown robot mode: " ++ normalizedMode name).toList ↔ NamesPending name := by
  rw [String.toList_append]
  exact infix_append_iff_of_not_mem (by decide)

/-- No mode is named so. -/
theorem modeOf_of_namesPending {name : String} (h : NamesPending name) : modeOf name = none := by
  unfold NamesPending at h
  rw [modeOf, List.lookup_eq_none_iff]
  rintro ⟨known, mode⟩ hmem
  have hnot : ∀ entry ∈ kModes, ¬ "pending".toList <:+: entry.1.toList := by decide
  rw [bne_iff_ne]
  rintro rfl
  exact hnot _ hmem h

/-- The code for an unknown name. -/
theorem code_of_unknown {name : String} (c : RobotController) (now : Time) (h : modeOf name = none) :
    (c.requestMode now name).1.accepted = false ∧
      (mapModeRejection (c.requestMode now name).1).code =
        if NamesPending name then sdkResRunning else sdkResInvalidParam := by
  unfold requestMode
  rw [h]
  refine ⟨rfl, ?_⟩
  simp only [mapModeRejection, pending_in_unknown]
  split
  · rfl
  · rfl

/-- The code for a known mode: a busy controller has its own, and no rejection has that of bad input. -/
theorem code_of_known {name : String} {mode : UInt16} (c : RobotController) (now : Time)
    (h : modeOf name = some mode) :
    ((c.requestMode now name).1.accepted = false ∧
        (mapModeRejection (c.requestMode now name).1).code = sdkResRunning ↔
      c.driverReady = true ∧ c.modeTransitionPending = true) ∧
    ¬ ((c.requestMode now name).1.accepted = false ∧
        (mapModeRejection (c.requestMode now name).1).code = sdkResInvalidParam) := by
  have hbusy : (mapModeRejection ⟨false, mode, .invalidCommand,
      "another mode transition is pending"⟩).code = sdkResRunning := by
    have hmem : "pending".toList <:+: "another mode transition is pending".toList := by decide
    simp only [mapModeRejection, if_pos hmem]
    rfl
  unfold requestMode
  rw [h]
  dsimp only
  -- the controller's own order: readiness, then the pending transition, then everything else
  by_cases hready : c.driverReady = true
  · by_cases hpending : c.modeTransitionPending = true
    · simp [hready, hpending, hbusy, sdkResRunning, sdkResInvalidParam]
    · simp only [hready, hpending, Bool.not_true, Bool.false_eq_true, if_false, and_false, iff_false]
      repeat' split
      all_goals simp [mapModeRejection, Result.failure, sdkResRunning, sdkResInvalidParam, sdkResNotInit,
        sdkResWithoutAuth, sdkResFailed]
  · simp [hready, mapModeRejection, Result.failure, sdkResRunning, sdkResInvalidParam, sdkResFailed]

/-- **Rejection codes.** For every name, and whatever the others do between the session check of a live
    session and the controller's gate: the codes tell a busy controller from bad input exactly when
    the name does not have the word for a busy controller in it. -/
theorem rejection_codes {name : String} (hlive : w.shared.sessionDown = false)
    (hrequest : step cfg (.requestMode name) w = some w₁)
    (hmid : w₂.calls w.nextPromise = w₁.calls w.nextPromise)
    (hgate : step cfg (.acceptMode w.nextPromise) w₂ = some w₃) :
    CodesTell name w₂.ctl (fun code => RejectedWith w.nextPromise code w₃) ↔ ¬ NamesPending name := by
  have hcall := hmid.trans (requestMode_calls hlive hrequest)
  cases hmode : modeOf name with
  | none =>
    obtain ⟨hrej, hcode⟩ := code_of_unknown w₂.ctl w₂.clock hmode
    constructor
    · intro htell hnames
      have hbad := htell.badInput.mpr hmode
      rw [rejectedWith_iff hcall hgate, hcode, if_pos hnames] at hbad
      exact absurd hbad.2 (by decide)
    · intro hnames
      rw [if_neg hnames] at hcode
      refine ⟨?_, ?_⟩
      · rw [rejectedWith_iff hcall hgate, hcode, hmode]
        exact ⟨fun h => absurd h.2 (by decide), fun h => absurd h.1 (by simp)⟩
      · rw [rejectedWith_iff hcall hgate]
        exact ⟨fun _ => hmode, fun _ => ⟨hrej, hcode⟩⟩
  | some mode =>
    have hcodes := code_of_known w₂.ctl w₂.clock hmode
    refine ⟨fun _ hnames => absurd (modeOf_of_namesPending hnames) (by simp [hmode]), fun _ => ⟨?_, ?_⟩⟩
    · rw [rejectedWith_iff hcall hgate, hcodes.1, hmode]
      exact ⟨fun h => ⟨rfl, h⟩, fun h => h.2⟩
    · rw [rejectedWith_iff hcall hgate]
      exact ⟨fun h => absurd h hcodes.2, fun h => absurd (hmode.symm.trans h) (by simp)⟩

/-- Another unknown mode. -/
theorem rejection_codes_unknown : ∃ w w₁ w', Reachable {} w ∧
    step {} (.requestMode "fly") w = some w₁ ∧ step {} (.acceptMode w.nextPromise) w₁ = some w' ∧
    (CodesTell "fly" w₁.ctl (fun code => RejectedWith w.nextPromise code w') ↔ ¬ NamesPending "fly") := by
  obtain ⟨w, w₁, w', hrun, hlive, hrequest, hgate, -⟩ :=
    exists_rejected {} readying "fly" 0 (fun _ _ => true) (by decide +kernel)
  exact ⟨w, w₁, w', hrun, hrequest, hgate, rejection_codes hlive hrequest rfl hgate⟩

end HypertronBridge.Runtime
