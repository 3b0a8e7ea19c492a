import HypertronBridge.Runtime.Trace

namespace HypertronBridge.Runtime

open TransitionSystem History RobotController

/-!
# Provenance of motion

Every nonzero velocity that reaches the SDK was submitted and accepted in the same session,
within the deadman, and nothing since the acceptance took it back.

* `VelocityHistory` — a stored velocity has every gate open, and its accepted submission is the
  last event that touched it; kept by every event but the opening of a session, at which no
  velocity is stored;
* `TickRead` — a motion tick read such a velocity; it holds while the worker is about to move;
* `nonzero_move_provenance` — the result, for every nonzero move of every run.
-/

variable {cfg : RuntimeConfig} {w w' : World} {a : Action} {ans : Answer}
  {ok : World → Action → Prop} {c c' : RobotController} {t t' : List Event}
  {deadman now : Time} {P : Event → Prop}

/-! ### The stored velocity -/

/-- An event that opens no session and after which an accepted velocity may still stand: no
    velocity submission, no emergency-stop operation, no accepted mode request, no completion,
    no invalidation, and no status that is unhealthy or not in Move. -/
def Event.keepsVelocity (e : Event) : Prop :=
  e ≠ .sessionOpened ∧ ∀ call, e = .control call → call.revokesVelocity = false

/-- The newest event is the submission, accepted at `ta`, of a finite command that clamps
    to `v`. -/
def Submitted (ta : Time) (v : Velocity) (h : List Event) : Prop :=
  ∃ command older, h = .control ⟨ta, .acceptVelocity command, true⟩ :: older ∧
    command.isFinite = true ∧ command.clamp = v

/-- A stored velocity has every gate open, and nothing since its submission took it back. -/
structure VelocityHistory (c : RobotController) (t : List Event) : Prop where
  ready : c.hasVelocity = true → c.movementReady = true
  since : c.hasVelocity = true →
    Since Event.keepsVelocity (Submitted c.lastVelocityTime c.latestVelocity) t

/-- **Event lemma.** One controller call keeps the velocity history. -/
theorem VelocityHistory.control (h : VelocityHistory c t) (op : Operation) :
    VelocityHistory (op.apply deadman now c).2 (.control (op.call deadman now c) :: t) := by
  refine ⟨apply_ready h.ready, fun hv => ?_⟩
  rcases apply_hasVelocity hv with ⟨command, rfl, hfin, hacc, hval, htime⟩ | ⟨hold, hkeep, hval, htime⟩
  · refine Since.now ⟨command, t, ?_, hfin, hval.symm⟩
    rw [htime, Operation.call, hacc]
  · rw [hval, htime]
    refine (h.since hold).cons ⟨by simp, ?_⟩
    rintro call heq
    rw [← Event.control.inj heq]
    exact hkeep

/-- The events of a step other than the opening of a session keep the velocity history. -/
theorem VelocityHistory.extends (h : VelocityHistory c t) (hext : Extends deadman now P c t c' t')
    (hP : ∀ e, P e → e ≠ .sessionOpened) : VelocityHistory c' t' := by
  induction hext with
  | refl => exact h
  | control _ _ ih => exact ih.control _
  | other _ he hne ih =>
    refine ⟨ih.ready, fun hv => (ih.since hv).cons ⟨hP _ he, fun call heq => ?_⟩⟩
    exact absurd heq (hne call)

/-- **Step lemma.** Every step keeps the velocity history: where a session opens, the driver is
    not ready and so no velocity is stored. -/
theorem VelocityHistory.step (h : VelocityHistory w.ctl w.trace) (hsession : SessionInv w)
    (hs : step cfg a w = some w') : VelocityHistory w'.ctl w'.trace := by
  by_cases hopen : w.workerAt a = some .connect
  · cases a with
    | worker ans =>
      simp only [World.workerAt, Option.some.injEq] at hopen
      have hnot : w.ctl.hasVelocity ≠ true := by
        intro hv
        have hready := (movementReady_iff.mp (h.ready hv)).1
        have hoff := hsession.unarmed (by rw [hopen]; rfl) (by rw [hopen]; rfl)
        exact absurd hready (by simp [hoff])
      simp only [Runtime.step, hopen, workerStep, Option.some.injEq] at hs
      subst hs
      exact ⟨h.ready, fun hv => absurd hv hnot⟩
    | _ => exact absurd hopen (by simp)
  · exact h.extends (step_extends hs) (fun e he ho => hopen (he.opened ho))

/-- **Run lemma.** The velocity history holds in every state reached. -/
theorem Run.velocityHistory (h : Run cfg ok w) : VelocityHistory w.ctl w.trace := by
  refine h.invariant (I := fun w => VelocityHistory w.ctl w.trace) ?_
    (fun _ _ _ hrun hi _ hs => hi.step hrun.session hs)
  exact ⟨fun hv => absurd hv (by simp [World.initial]), fun hv => absurd hv (by simp [World.initial])⟩

/-! ### The motion tick -/

/-- The controller's time stamp never runs ahead of the clock. -/
theorem Extends.lastVelocityTime_le (hext : Extends deadman now P c t c' t')
    (h : c.lastVelocityTime ≤ now) : c'.lastVelocityTime ≤ now := by
  induction hext with
  | refl => exact h
  | @control _ _ op _ _ ih =>
    rcases apply_lastVelocityTime op with heq | heq
    · exact Nat.le_of_eq heq
    · rw [heq]
      exact ih
  | other _ _ _ ih => exact ih

theorem Run.lastVelocityTime_le (h : Run cfg ok w) : w.ctl.lastVelocityTime ≤ w.clock := by
  refine h.invariant (I := fun w => w.ctl.lastVelocityTime ≤ w.clock) (Nat.le_refl 0)
    (fun s a s' _ hi _ hs => ?_)
  exact Nat.le_trans (Extends.lastVelocityTime_le (step_extends hs) hi) (step_clock_le hs)

/-- A tick that yields a nonzero target found the stored velocity fresh. -/
theorem velocityForTick_cases (h : (c.velocityForTick deadman now).accepted = true) :
    c.hasVelocity = true ∧ now - c.lastVelocityTime ≤ deadman ∧
      (c.velocityForTick deadman now).value = c.latestVelocity := by
  unfold velocityForTick at h ⊢
  split
  · rename_i hrej
    rw [if_pos hrej] at h
    exact absurd h (by simp)
  · rename_i hacc
    simp only [Bool.or_eq_true, Bool.not_eq_true', decide_eq_true_eq, not_or, Bool.not_eq_false,
      gt_iff_lt, Nat.not_lt] at hacc
    exact ⟨hacc.1.2, hacc.2, rfl⟩

/-- The newest event is a tick's read of the controller, which returned the velocity `v` of a
    submission at most `deadman` old that nothing took back. -/
def TickRead (deadman : Time) (v : Velocity) (h : List Event) : Prop :=
  ∃ tr older, h = .control ⟨tr, .velocityForTick, true⟩ :: older ∧
    ∃ ta, ta ≤ tr ∧ tr - ta ≤ deadman ∧ Since Event.keepsVelocity (Submitted ta v) older

/-- Between a tick's read and its move: no other tick, and the same session. -/
def Event.withinTick (e : Event) : Prop :=
  e ≠ .sessionOpened ∧ ∀ t o, e ≠ .control ⟨t, .velocityForTick, o⟩

theorem Event.withinTick_of_byClient {e : Event} (h : e.byClient = true) : e.withinTick := by
  constructor
  · rintro rfl
    exact absurd h (by simp [Event.byClient])
  · rintro t o rfl
    exact absurd h (by simp [Event.byClient])

/-- The worker gets to a move only by a tick's read. -/
theorem workerStep_tickMove {v : Velocity} (hs : workerStep cfg ans w w.wk.pc = some w')
    (hpc : w'.wk.pc = .tickMove v) : w.wk.pc = .tickRead := by
  cases hw : w.wk.pc
  all_goals rw [hw] at hs
  all_goals simp only [workerStep] at hs
  all_goals repeat' split at hs
  all_goals simp only [Option.some.injEq, reduceCtorEq] at hs
  all_goals subst hs
  all_goals simp at hpc ⊢

/-- **Step lemma.** A tick that goes on to move nonzero read a standing velocity. -/
theorem tickRead_step {v : Velocity} (hist : VelocityHistory w.ctl w.trace)
    (hclock : w.ctl.lastVelocityTime ≤ w.clock) (hw : w.wk.pc = .tickRead)
    (hs : workerStep cfg ans w w.wk.pc = some w') (hpc : w'.wk.pc = .tickMove v)
    (hv : v.nonzero = true) : TickRead (ms cfg.deadmanMs) v w'.trace := by
  rw [hw] at hs
  simp only [workerStep] at hs
  split at hs
  · simp only [Option.some.injEq] at hs
    subst hs
    simp only [World.goto_wk_pc, Pc.tickMove.injEq, World.tickTarget] at hpc
    by_cases hacc : (w.ctl.velocityForTick (ms cfg.deadmanMs) w.clock).accepted = true
    · rw [if_pos hacc] at hpc
      obtain ⟨hhas, hfresh, hval⟩ := velocityForTick_cases hacc
      refine ⟨w.clock, w.trace, ?_, w.ctl.lastVelocityTime, hclock, hfresh, ?_⟩
      · simp [Operation.call, Operation.apply, hacc]
      · rw [← hpc, hval]
        exact hist.since hhas
    · rw [if_neg hacc] at hpc
      exact absurd hv (by simp [← hpc])
  · simp only [Option.some.injEq] at hs
    subst hs
    exact absurd hpc (by simp)

/-- **Run lemma.** While the worker is about to move nonzero, its tick's read stands. -/
theorem Run.tickMove {v : Velocity} (h : Run cfg ok w) (hv : v.nonzero = true) :
    w.wk.pc = .tickMove v → Since Event.withinTick (TickRead (ms cfg.deadmanMs) v) w.trace := by
  refine h.worker_history (I := fun wk t => wk.pc = .tickMove v →
    Since Event.withinTick (TickRead (ms cfg.deadmanMs) v) t) ?_ ?_ ?_ ?_
  · intro hpc
    exact absurd hpc (by simp [World.initial])
  · intro wk t e he ih hpc
    exact (ih hpc).cons (Event.withinTick_of_byClient he)
  · intro wk t _ _ hpc
    exact absurd hpc (by simp)
  · intro w ans w' hrun _ hs hpc
    exact Since.now (tickRead_step hrun.velocityHistory hrun.lastVelocityTime_le
      (workerStep_tickMove hs hpc) hs hpc hv)

/-! ### Every nonzero move -/

/-- What stands before a nonzero move of `v`: its tick's read, and before that the submission. -/
def MoveHistory (deadman : Time) (v : Velocity) (h : List Event) : Prop :=
  InSession h ∧ Since Event.withinTick (TickRead deadman v) h

/-- **Run lemma.** Every nonzero move in the trace has its history. -/
theorem Run.moves (h : Run cfg ok w) : Historically (fun e older => ∀ o call r,
    e = .sdk o call r → ∀ v, call = .move v → v.nonzero = true →
      MoveHistory (ms cfg.deadmanMs) v older) w.trace := by
  refine h.sdkCalls (fun s o call hrun hcall v hmove hv => ?_)
  subst hmove
  have hpc : s.wk.pc = .tickMove v := by
    cases hpc : s.wk.pc
    all_goals rw [hpc] at hcall
    all_goals simp only [Pc.sdkCall, Option.some.injEq, Prod.mk.injEq, reduceCtorEq, and_false,
      SdkCall.move.injEq] at hcall
    -- Of the moves, only a tick's can be nonzero.
    all_goals first
      | rw [hcall.2]
      | exact absurd hv (by simp [← hcall.2])
  exact ⟨hrun.inSession (by rw [hpc]; rfl), hrun.tickMove hv hpc⟩

/-- **Provenance of motion.** Before every nonzero move of every run stands the tick that read
    its velocity, and before that an accepted submission of a finite command that clamps to it:
    in the same session, at most the deadman before the read, and with no other submission, no
    emergency-stop operation, no accepted mode request, no completion, no invalidation and no
    unhealthy or non-Move status in between. -/
theorem nonzero_move_provenance (hrun : Reachable cfg w) {new older : List Event} {o : Origin}
    {v : Velocity} {r : Outcome} (htrace : w.trace = new ++ .sdk o (.move v) r :: older)
    (hv : v.nonzero = true) :
    ∃ after tr between ta command before,
      older = after ++ .control ⟨tr, .velocityForTick, true⟩ ::
        (between ++ .control ⟨ta, .acceptVelocity command, true⟩ :: before) ∧
      command.isFinite = true ∧ command.clamp = v ∧ ta ≤ tr ∧ tr - ta ≤ ms cfg.deadmanMs ∧
      (∀ e ∈ after, e.sameSession ∧ ∀ t o, e ≠ .control ⟨t, .velocityForTick, o⟩) ∧
      (∀ e ∈ between, e.sameSession ∧
        ∀ call, e = .control call → call.revokesVelocity = false) ∧
      InSession before := by
  obtain ⟨hin, hsince⟩ := historically_iff.mp hrun.moves new _ older htrace o _ r rfl v rfl hv
  obtain ⟨after, _, rfl, hafter, tr, _, rfl, ta, hle, hfresh, hkept⟩ := since_iff_append.mp hsince
  obtain ⟨between, _, rfl, hbetween, command, before, rfl, hfin, hclamp⟩ := since_iff_append.mp hkept
  -- No session opens after the submission, so all of it lies in the session of the move.
  obtain ⟨hsame, hin₁⟩ := hin.of_append (fun hmem => (hafter _ hmem).1 rfl)
  obtain ⟨hsame', hin₂⟩ := (hin₁.of_cons (by simp)).of_append (fun hmem => (hbetween _ hmem).1 rfl)
  exact ⟨after, tr, between, ta, command, before, rfl, hfin, hclamp, hle, hfresh,
    fun e he => ⟨hsame e he, (hafter e he).2⟩, fun e he => ⟨hsame' e he, (hbetween e he).2⟩,
    hin₂.of_cons (by simp)⟩

/-- Full speed ahead. -/
def forward : Velocity := ⟨.one, .zero, .zero⟩

/-- A submission right after the readiness, and the motion tick that sends it. -/
def moving : List Action :=
  readying ++ [.submitVelocity forward, .advance (ms 20)] ++ works 11 (obliging 0xB104)

/-- The provenance of the move that this schedule sends. -/
theorem nonzero_move_provenance_forward :
    ∃ w older, Reachable {} w ∧
      w.trace = .sdk .tick (.move forward) (.returned (.ok "success")) :: older ∧
      ∃ tr ta command, .control ⟨tr, .velocityForTick, true⟩ ∈ older ∧
        .control ⟨ta, .acceptVelocity command, true⟩ ∈ older ∧ command.clamp = forward ∧
        tr - ta ≤ ms 100 := by
  obtain ⟨w, hrun, hhead⟩ := exists_run_of_exec {} (fun _ _ => True) moving
    (fun w => w.trace.head? = some (.sdk .tick (.move forward) (.returned (.ok "success"))))
    (by decide +kernel)
  obtain ⟨older, htrace⟩ := List.head?_eq_some_iff.mp (of_decide_eq_true hhead)
  obtain ⟨after, tr, between, ta, command, before, heq, -, hclamp, -, hfresh, -⟩ :=
    nonzero_move_provenance hrun (show w.trace = [] ++ _ from htrace) (by decide)
  exact ⟨w, older, hrun, htrace, tr, ta, command, by simp [heq], by simp [heq], hclamp, hfresh⟩

end HypertronBridge.Runtime
