import HypertronBridge.Runtime.Motion

namespace HypertronBridge.Runtime

open TransitionSystem History RobotController

/-!
# The emergency stop

`trigger_estop(true)` latches the controller and then marks the stop for the worker, which drops
the queued commands when it consumes the mark.  The latch, the mark, the worker's check and the
enqueue of an accepted mode command are separate sections, so a mode command can slip through:
`queued_mode_survives_stop` is one that is enqueued after the mark was consumed.  Motion cannot:
a tick that reads the controller after the latch never moves.

* `latched` — the last emergency-stop operation of the trace is the latch;
* `EstopLaw` — modes set under the latch are damping, ticks under the latch do not move;
* `World.estopRace` — the windows; `estop_law` — the result for runs that open none of them.
-/

variable {cfg : RuntimeConfig} {w w' : World} {a : Action} {ans : Answer}
  {ok : World → Action → Prop} {c c' : RobotController} {t t' : List Event}
  {deadman now : Time} {P : Event → Prop}

/-- The newest emergency-stop operation is a `trigger_estop`. -/
def latched : List Event → Bool
  | [] => false
  | .control call :: older =>
      match call.op with
      | .triggerEstop => true
      | .clearEstop => false
      | _ => latched older
  | _ :: older => latched older

/-- Under the latch every `set_mode` is damping, and a nonzero move goes back to a tick that read
    the controller when it was not latched. -/
def EstopLaw (t : List Event) : Prop :=
  (∀ new o mode r older, t = new ++ .sdk o (.setMode mode) r :: older → latched older = true →
    mode = modeDamping) ∧
    ∀ new o v r older, t = new ++ .sdk o (.move v) r :: older → v.nonzero = true →
      ∃ after tr before, older = after ++ .control ⟨tr, .velocityForTick, true⟩ :: before ∧
        (∀ e ∈ after, ∀ t o, e ≠ .control ⟨t, .velocityForTick, o⟩) ∧ latched before = false

/-! ### The defect -/

/-- A stand request accepted before the stop, and enqueued after the worker consumed it. -/
def enqueuedLate : List Action :=
  readying ++ [.requestMode "stand", .acceptMode 0, .latchEstop, .markEstop 1] ++
    works 16 (obliging 0xB104) ++ [.enqueueMode 0] ++ works 8 (obliging 0xB104)

/-- The vendor call before the last event set a mode that passes `ok`, with the latch set. -/
def setsModeLatched (ok : UInt16 → Bool) : List Event → Bool
  | _ :: .sdk _ (.setMode mode) _ :: older => ok mode && latched older
  | _ => false

theorem setsModeLatched_spec {ok : UInt16 → Bool} (ht : setsModeLatched ok t = true) :
    ∃ e o mode r older, t = [e] ++ .sdk o (.setMode mode) r :: older ∧ ok mode = true ∧
      latched older = true := by
  unfold setsModeLatched at ht
  split at ht
  · rename_i e o mode r older
    obtain ⟨hmode, hlatched⟩ := Bool.and_eq_true_iff.mp ht
    exact ⟨e, o, mode, r, older, rfl, hmode, hlatched⟩
  · exact absurd ht (by simp)

/-- **The defect.** The worker has executed the stop, and then sets the mode of that request. -/
theorem queued_mode_survives_stop : ¬ ∀ cfg w, Reachable cfg w → EstopLaw w.trace := by
  intro hall
  obtain ⟨w, hrun, hw⟩ := exists_run_of_exec {} (fun _ _ => True) enqueuedLate
    (fun w => setsModeLatched (fun mode => mode != modeDamping) w.trace) (by decide +kernel)
  obtain ⟨e, o, mode, r, older, htrace, hmode, hlatched⟩ := setsModeLatched_spec hw
  exact bne_iff_ne.mp hmode ((hall {} w hrun).1 [e] o mode r older htrace hlatched)

/-! ### The latch in the trace -/

/-- The controller's latch is the trace's, and ticks that yield a velocity read it open. -/
structure LatchHistory (c : RobotController) (t : List Event) : Prop where
  latch : c.estopLatched = latched t
  ticks : Historically (fun e older => ∀ tr, e = .control ⟨tr, .velocityForTick, true⟩ →
    latched older = false) t

/-- **Event lemma.** One controller call keeps the latch history. -/
theorem LatchHistory.control (h : LatchHistory c t) (op : Operation) :
    LatchHistory (op.apply deadman now c).2 (.control (op.call deadman now c) :: t) := by
  refine ⟨?_, ?_, h.ticks⟩
  · by_cases hop : op = .triggerEstop ∨ op = .clearEstop
    · rcases hop with rfl | rfl <;> rfl
    · have hkeep : (op.apply deadman now c).2.estopLatched = c.estopLatched :=
        (apply_other op).2.1 (not_or.mp hop)
      rw [hkeep, h.latch]
      cases op with
      | triggerEstop | clearEstop => exact absurd hop (by simp)
      | _ => rfl
  · rintro tr heq
    simp only [Event.control.injEq, Operation.call, Call.mk.injEq] at heq
    obtain ⟨-, rfl, hacc⟩ := heq
    have hready : c.movementReady = true := by
      simp only [Operation.apply, velocityForTick] at hacc
      split at hacc
      · exact absurd hacc (by simp)
      · simp_all
    rw [← h.latch]
    exact (movementReady_iff.mp hready).2.2.2.2.2

theorem LatchHistory.extends (h : LatchHistory c t) (hext : Extends deadman now P c t c' t') :
    LatchHistory c' t' := by
  induction hext with
  | refl => exact h
  | control _ _ ih => exact ih.control _
  | @other _ _ e _ _ hne ih =>
    refine ⟨?_, fun tr heq => absurd heq (hne _), ih.ticks⟩
    cases e with
    | control call => exact absurd rfl (hne call)
    | _ => exact ih.latch

/-- **Run lemma.** -/
theorem Run.latchHistory (h : Run cfg ok w) : LatchHistory w.ctl w.trace :=
  h.invariant (I := fun w => LatchHistory w.ctl w.trace) ⟨rfl, trivial⟩
    (fun _ _ _ _ hi _ hs => hi.extends (step_extends hs))

/-- Only `trigger_estop` writes the latch. -/
theorem step_estopLatched (hs : step cfg a w = some w') (ha : a ≠ .latchEstop)
    (hc : a ≠ .clearEstop) : w'.ctl.estopLatched = w.ctl.estopLatched := by
  have hkeep : ∀ {c' t'}, Extends (ms cfg.deadmanMs) w.clock (EventOf w a) w.ctl w.trace c' t' →
      c'.estopLatched = w.ctl.estopLatched := by
    intro c' t' hext
    induction hext with
    | refl => rfl
    | @control _ _ op _ he ih =>
      refine ((apply_other op).2.1 (not_or.mp fun hop => ?_)).trans ih
      rcases he.latch _ _ _ rfl hop with h | h
      · exact ha h
      · exact hc h
    | other _ _ _ ih => exact ih
  exact hkeep (step_extends hs)

/-! ### The windows -/

/-- A mode command other than damping. -/
def Command.otherMode (c : Command) : Bool :=
  match c.kind with
  | .requestMode mode => mode != modeDamping
  | .requestAuthority _ => false

/-- The queue has such a command at its head. -/
def World.headed (w : World) : Bool := w.queue.items.head?.any Command.otherMode

/-- The worker is past this iteration's stop check and has not popped a command yet. -/
def Pc.pastStopCheck : Pc → Bool
  | .estopRead _ | .estopZero _ | .estopDamp _ _ | .orphanRead | .orphanFail | .pop => true
  | _ => false

/-- The worker is executing a mode command other than damping, up to its `set_mode`. -/
def Pc.otherMode : Pc → Bool
  | .execMode _ mode | .execZero _ mode | .execSetMode _ mode => mode != modeDamping
  | _ => false

/-- The steps by which a mode command other than damping gets past the stop: the latch lands
    when the command is past this iteration's stop check; the command is enqueued there under
    the latch; the stop check finds no mark although the controller is latched. -/
def World.estopRace (w : World) : Action → Bool
  | .latchEstop => (w.wk.pc.pastStopCheck && w.headed) || w.wk.pc.otherMode
  | .enqueueMode p =>
      match w.calls p with
      | some (.modeEnqueue mode) => w.ctl.estopLatched && w.wk.pc.pastStopCheck &&
          w.queue.items.isEmpty && mode != modeDamping
      | _ => false
  | .worker _ =>
      w.wk.pc = .estopCheck && !w.shared.estopEngaged && w.ctl.estopLatched && w.headed
  | _ => false

/-- Under the latch no mode command other than damping is past the stop check. -/
def EstopInv (w : World) : Prop :=
  w.ctl.estopLatched = true →
    (w.wk.pc.pastStopCheck = true → w.headed = false) ∧ w.wk.pc.otherMode = false

/-- **Step lemma, worker.** -/
theorem EstopInv.worker_step (h : EstopInv w) (hrace : w.estopRace (.worker ans) = false)
    (hs : workerStep cfg ans w w.wk.pc = some w') : EstopInv w' := by
  intro hl
  rw [step_estopLatched (a := .worker ans) hs (by simp) (by simp)] at hl
  obtain ⟨hhead, hmode⟩ := h hl
  simp only [World.estopRace, hl, Bool.and_true] at hrace
  cases hpc : w.wk.pc
  all_goals rw [hpc] at hs hhead hmode hrace
  all_goals simp only [workerStep] at hs
  all_goals repeat' split at hs
  all_goals simp only [Option.some.injEq, reduceCtorEq] at hs
  all_goals subst hs
  all_goals simp [Pc.pastStopCheck, Pc.otherMode, World.headed] at hhead hmode hrace ⊢
  case estopCheck.isTrue hnone => exact hrace (by simpa using hnone)
  case h_1 _ _ hpop => simp [ThreadSafeQueue.tryPop_none hpop]
  case h_3 _ mode p _ hpop =>
    -- The command popped was the head, so it is damping.
    rw [ThreadSafeQueue.tryPop_some hpop] at hhead
    simpa [Command.otherMode] using hhead
  all_goals first
    | exact hhead
    | exact hmode

/-- **Step lemma, clients.** A client's step that opens none of the windows. -/
theorem EstopInv.client_step (h : EstopInv w) (hrace : w.estopRace a = false)
    (hs : step cfg a w = some w') (ha : w.workerAt a = none) (hl : a ≠ .latchEstop) :
    EstopInv w' := by
  intro hl'
  by_cases hclear : a = .clearEstop
  · rw [hclear] at hs
    simp only [Runtime.step, Option.some.injEq] at hs
    subst hs
    exact absurd hl' (by simp [Operation.apply, RobotController.clearEstop, forceZero])
  rw [step_estopLatched hs hl hclear] at hl'
  obtain ⟨hhead, hmode⟩ := h hl'
  rcases step_wk hs ha with hwk | ⟨-, hwk⟩
  · rw [hwk]
    refine ⟨fun hpast => ?_, hmode⟩
    rcases step_queue hs ha with hq | ⟨c, hq, hpush⟩
    · rw [World.headed, hq]
      exact hhead hpast
    · rw [World.headed, hq]
      cases hitems : w.queue.items with
      | cons x xs =>
        have hx := hhead hpast
        rw [World.headed, hitems] at hx
        exact hx
      | nil =>
        -- The pushed command is the new head.
        rcases hpush with hauth | ⟨mode, rfl, hkind, hcall, -⟩
        · unfold Command.isMode at hauth
          simp only [List.nil_append, List.head?_cons, Option.any_some, Command.otherMode]
          split <;> simp_all
        · simp only [World.estopRace, hcall, hl', hpast, hitems] at hrace
          simpa [Command.otherMode, hkind] using hrace
  · rw [hwk]
    exact ⟨by simp [Pc.pastStopCheck], by simp [Pc.otherMode]⟩

/-- **Step lemma.** A step that opens none of the windows keeps the invariant. -/
theorem EstopInv.step (h : EstopInv w) (hrace : w.estopRace a = false)
    (hs : step cfg a w = some w') : EstopInv w' := by
  by_cases hl : a = .latchEstop
  · subst hl
    simp only [Runtime.step, Option.some.injEq] at hs
    subst hs
    simp only [World.estopRace, Bool.or_eq_false_iff, Bool.and_eq_false_iff] at hrace
    intro _
    refine ⟨fun hpast => ?_, hrace.2⟩
    rcases hrace.1 with hnot | hnot
    · exact absurd hpast (by simp [hnot])
    · exact hnot
  · rcases w.worker_or_client a with ⟨ans, rfl⟩ | ha
    · exact h.worker_step hrace hs
    · exact h.client_step hrace hs ha hl

/-- **Run lemma.** -/
theorem Run.estopInv (h : Run cfg (fun w a => w.estopRace a = false) w) : EstopInv w :=
  h.invariant (fun hl => absurd hl (by simp [World.initial]))
    (fun _ _ _ _ hi hok hs => hi.step hok hs)

/-! ### The result -/

/-- **Emergency-stop law.** In every run that opens none of the windows, from the latch of a
    stop to its clearing the worker sets no mode but damping, and no tick that reads the
    controller then moves. -/
theorem estop_law (hrun : Run cfg (fun w a => w.estopRace a = false) w) : EstopLaw w.trace := by
  constructor
  · intro new o mode r older htrace hl
    have hmodes := hrun.sdkCalls (R := fun _ call older => ∀ mode, call = .setMode mode →
      latched older = true → mode = modeDamping) (fun s o call hs hcall mode hmode hl => ?_)
    · exact historically_iff.mp hmodes new _ older htrace o _ r rfl mode rfl hl
    · subst hmode
      rw [← hs.latchHistory.latch] at hl
      have hother := (hs.estopInv hl).2
      cases hpc : s.wk.pc
      all_goals rw [hpc] at hcall hother
      all_goals simp only [Pc.sdkCall, Option.some.injEq, Prod.mk.injEq, reduceCtorEq, and_false,
        SdkCall.setMode.injEq] at hcall
      case execSetMode p m =>
        rw [← hcall.2]
        simpa [Pc.otherMode] using hother
      all_goals exact hcall.2.symm
  · intro new o v r older htrace hv
    obtain ⟨-, hsince⟩ := historically_iff.mp hrun.moves new _ older htrace o _ r rfl v rfl hv
    obtain ⟨after, _, rfl, hafter, tr, before, rfl, -⟩ := since_iff_append.mp hsince
    refine ⟨after, tr, before, rfl, fun e he => (hafter e he).2, ?_⟩
    refine historically_iff.mp hrun.latchHistory.ticks (new ++ .sdk o (.move v) r :: after) _ before
      ?_ tr rfl
    rw [htrace]
    simp

/-- A stand request that is queued when the stop is latched and marked. -/
def stoppedStand : List Action :=
  readying ++ [.requestMode "stand", .acceptMode 0, .enqueueMode 0, .latchEstop, .markEstop 1] ++
    works 11 (obliging 0xB104)

/-- The stop drops it and sets damping. -/
theorem estop_law_stopped :
    ∃ w new o mode r older, Run {} (fun w a => w.estopRace a = false) w ∧
      w.trace = new ++ .sdk o (.setMode mode) r :: older ∧ latched older = true ∧
      mode = modeDamping := by
  obtain ⟨w, hrun, hw⟩ := exists_run_of_exec {} (fun w a => w.estopRace a = false) stoppedStand
    (fun w => setsModeLatched (fun _ => true) w.trace) (by decide +kernel)
  obtain ⟨e, o, mode, r, older, htrace, -, hlatched⟩ := setsModeLatched_spec hw
  exact ⟨w, [e], o, mode, r, older, hrun, htrace, hlatched,
    (estop_law hrun).1 [e] o mode r older htrace hlatched⟩

end HypertronBridge.Runtime
