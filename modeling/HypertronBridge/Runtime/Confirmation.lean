import HypertronBridge.Runtime.Revocation
import HypertronBridge.Runtime.Attribution
import HypertronBridge.Runtime.Success

namespace HypertronBridge.Runtime

open TransitionSystem History RobotController

/-!
# Confirmed mode transitions

`check_mode_transition` confirms the worker's armed command when the controller has *some*
pending transition.  When the safety gate drops the one of the armed command and a newer request
is accepted before the worker looks, the old command's status confirms the new request, and may
open the motion gate for it: `replaced_mode_is_confirmed`.  Where no request is accepted while an
earlier one is outstanding, every confirmation is of its own transition.

* `armed` — the command whose transition the worker watches, read off the trace;
* `World.Outstanding` — an accepted request between its acceptance and its confirmation;
* `World.replaces` — the condition; `modes_confirm_their_own` — the result under it.
-/

variable {cfg : RuntimeConfig} {w w' : World} {a : Action} {ans : Answer}
  {ok : World → Action → Prop}

/-- The command that the transition watch was last armed for. -/
def armed : List Event → Option Command
  | [] => none
  | .armed c _ :: _ => some c
  | _ :: older => armed older

/-- A confirmation finds the controller's pending transition to be that of the armed command,
    whose stable status the snapshot has; and a step that opens the motion gate is the
    confirmation of the Move status for a move request. -/
structure ConfirmsOwn (cfg : RuntimeConfig) (w : World) : Prop where
  confirm : ∀ s, w.wk.pc = .checkComplete s → ∃ mode,
    armed w.trace = some ⟨.requestMode mode, w.wk.transition.promise⟩ ∧
      w.ctl.modeTransitionPending = true ∧ w.ctl.pendingMode = mode ∧
      owner w.trace = some (w.wk.transition.promise, mode) ∧
      s.sportStatus = stableStatusFor mode
  gate : ∀ a w', step cfg a w = some w' → w.ctl.motionTransitionGate = true →
    w'.ctl.motionTransitionGate = false → ∃ ans s, a = .worker ans ∧ w.wk.pc = .checkComplete s ∧
      s.sportStatus = sportStateMove ∧
      armed w.trace = some ⟨.requestMode modeMove, w.wk.transition.promise⟩

/-! ### The defect -/

/-- A stand request is under way when the authority is lost and comes back; a move request is
    accepted before the worker looks; the robot then reports that it stands. -/
def replacedStand : List Action :=
  readying ++ [.requestMode "stand", .acceptMode 0, .enqueueMode 0] ++ works 13 (obliging 0xB104) ++
    [.status true false, .status true true, .requestMode "move", .acceptMode 1, .advance (ms 500)] ++
    works 18 (obliging 0xB102)

/-- **The defect.** The stand command is about to be confirmed, and the controller's pending
    transition is that of the move request. -/
theorem replaced_mode_is_confirmed : ¬ ∀ cfg w, Reachable cfg w → ConfirmsOwn cfg w := by
  intro hall
  obtain ⟨w, hrun, hw⟩ := exists_run_of_exec {} (fun _ _ => True) replacedStand
    (fun w => decide (w.wk.pc = .checkComplete ⟨true, 0, 0xB102⟩) &&
      decide (armed w.trace = some ⟨.requestMode 0xA102, 0⟩) &&
      decide (w.ctl.pendingMode = modeMove))
    (by decide +kernel)
  simp only [Bool.and_eq_true, decide_eq_true_eq] at hw
  obtain ⟨⟨hpc, harmed⟩, hpending⟩ := hw
  obtain ⟨mode, harmed', -, hmode, -⟩ := (hall {} w hrun).confirm _ hpc
  rw [harmed, Option.some.injEq, Command.mk.injEq, CommandKind.requestMode.injEq] at harmed'
  rw [hpending, ← harmed'.1] at hmode
  exact absurd hmode (by decide)

/-! ### Outstanding requests -/

/-- Request `p` for `mode` was accepted, and its command is still in the client's hands, in the
    queue, in execution before its `set_mode`, or watched for its status. -/
def World.Outstanding (w : World) (p : PromiseId) (mode : UInt16) : Prop :=
  w.calls p = some (.modeEnqueue mode) ∨
    ⟨.requestMode mode, p⟩ ∈ w.queue.items ++ w.wk.pc.commands ∨
    (w.wk.transition.active = true ∧ armed w.trace = some ⟨.requestMode mode, p⟩)

/-- Some request is outstanding. -/
def World.outstanding (w : World) : Bool :=
  (List.range w.nextPromise).any (fun p => match w.calls p with
    | some (.modeEnqueue _) => true
    | _ => false) ||
    (w.queue.items ++ w.wk.pc.commands).any Command.isMode || w.wk.transition.active

/-- A step that lets a confirmation meet another transition, or none: a request is accepted while
    an earlier one is outstanding (the safety gate dropped the transition of that one), or the
    gate drops the transition between the check and the confirmation. -/
def World.replaces (w : World) : Action → Bool
  | .acceptMode p =>
      match w.calls p with
      | some (.modeAccept name) =>
          (w.ctl.requestMode w.clock name).1.accepted && w.outstanding
      | _ => false
  | .status linked authority =>
      match w.wk.pc with
      | .checkComplete _ => w.endsTransition (.status linked authority)
      | _ => false
  | _ => false

theorem outstanding_of_Outstanding {p : PromiseId} {mode : UInt16} (hlaw : Conserved w)
    (h : w.Outstanding p mode) : w.outstanding = true := by
  rcases h with hcall | hmem | ⟨hactive, -⟩
  · have hmade : p < w.nextPromise := hlaw.made (by simp [hcall])
    simp only [World.outstanding, Bool.or_eq_true, List.any_eq_true, List.mem_range]
    exact Or.inl (Or.inl ⟨p, hmade, by simp [hcall]⟩)
  · have hany : (w.queue.items ++ w.wk.pc.commands).any Command.isMode = true :=
      List.any_eq_true.mpr ⟨_, hmem, rfl⟩
    simp [World.outstanding, hany]
  · simp [World.outstanding, hactive]

/-- Events that arm nothing. -/
theorem armed_append {new t : List Event} (h : ∀ c d, .armed c d ∉ new) :
    armed (new ++ t) = armed t := by
  induction new with
  | nil => rfl
  | cons e new ih =>
    have htail := ih (fun c d hmem => h c d (by simp [hmem]))
    cases e with
    | armed c d => exact absurd (h c d) (by simp)
    | _ => exact htail

/-- Where the watch is armed after a worker step, it was armed before, or the step armed it. -/
theorem workerStep_armed (hs : workerStep cfg ans w w.wk.pc = some w') (htrans : TransitionAt w.wk)
    (hactive : w'.wk.transition.active = true) :
    (w'.wk.transition = w.wk.transition ∧ armed w'.trace = armed w.trace) ∨
      ∃ p mode, w.wk.pc = .execSetMode p mode ∧ w'.wk.transition.promise = p ∧
        w'.wk.transition.stableStatus = stableStatusFor mode ∧
        armed w'.trace = some ⟨.requestMode mode, p⟩ := by
  by_cases harms : ∃ p mode, w.wk.pc = .execSetMode p mode
  · obtain ⟨p, mode, hpc⟩ := harms
    refine Or.inr ⟨p, mode, hpc, ?_⟩
    simp only [TransitionAt, hpc] at htrans
    rw [hpc] at hs
    simp only [workerStep] at hs
    repeat' split at hs
    all_goals simp only [Option.some.injEq] at hs
    all_goals subst hs
    all_goals first
      | exact ⟨rfl, rfl, rfl⟩
      | exact absurd hactive (by simp [htrans])
  · rcases (workerStep_watch hs).1 hactive with ⟨hsame, -⟩ | harms'
    · obtain ⟨new, heq, hnew⟩ := Extends.trace (workerStep_extends hs)
      refine Or.inl ⟨hsame, ?_⟩
      rw [heq]
      refine armed_append (fun c d hmem => harms ?_)
      obtain ⟨p, mode, hpc⟩ := (hnew _ hmem).arm c d rfl
      exact ⟨p, mode, Option.some.inj hpc⟩
    · exact absurd harms' harms

/-- **Run lemma.** The armed transition is that of the command armed last. -/
theorem Run.armedWatch (h : Run cfg ok w) : w.wk.transition.active = true → ∃ mode,
    armed w.trace = some ⟨.requestMode mode, w.wk.transition.promise⟩ ∧
      w.wk.transition.stableStatus = stableStatusFor mode := by
  refine h.worker_history (I := fun wk t => wk.transition.active = true → ∃ mode,
    armed t = some ⟨.requestMode mode, wk.transition.promise⟩ ∧
      wk.transition.stableStatus = stableStatusFor mode) ?_ ?_ ?_ ?_
  · intro hactive
    exact absurd hactive (by simp [World.initial])
  · intro wk t e he ih hactive
    cases e with
    | armed c d => exact absurd he (by simp [Event.byClient])
    | _ => exact ih hactive
  · intro wk t _ ih
    exact ih
  · intro w ans w' hrun ih hs hactive
    rcases workerStep_armed hs hrun.transitionAt hactive with ⟨hsame, harmed⟩ | ⟨p, mode, -, hp, hst, harmed⟩
    · rw [hsame, harmed]
      exact ih (hsame ▸ hactive)
    · exact ⟨mode, by rw [harmed, hp], hst⟩

/-- A call that moved on, or another call. -/
theorem calls_setCall {v : World} {p q : PromiseId} {call : Option ClientCall} {x : ClientCall}
    (h : (v.setCall q call).calls p = some x) : (p = q ∧ call = some x) ∨ v.calls p = some x := by
  simp only [World.setCall_calls, Function.update_apply] at h
  split at h
  · exact Or.inl ⟨‹p = q›, h⟩
  · exact Or.inr h

/-- A client call gets to its enqueue by acceptance only. -/
theorem step_modeEnqueue {p : PromiseId} {mode : UInt16} (hs : step cfg a w = some w')
    (hcall : w'.calls p = some (.modeEnqueue mode)) :
    w.calls p = some (.modeEnqueue mode) ∨
      ∃ name, a = .acceptMode p ∧ w.calls p = some (.modeAccept name) ∧
        (w.ctl.requestMode w.clock name).1.accepted = true ∧
        (w.ctl.requestMode w.clock name).1.mode = mode := by
  cases a
  case worker ans =>
    rw [(workerStep_calls hs).1] at hcall
    exact Or.inl hcall
  case acceptMode q =>
    simp only [step] at hs
    split at hs
    · rename_i name hname
      simp only [World.acceptMode, Option.some.injEq] at hs
      subst hs
      split at hcall
      · rename_i hacc
        rcases calls_setCall hcall with ⟨rfl, hmode⟩ | hold
        · simp only [Option.some.injEq, ClientCall.modeEnqueue.injEq] at hmode
          exact Or.inr ⟨name, rfl, hname, hacc, hmode⟩
        · exact Or.inl hold
      · rcases calls_setCall hcall with ⟨-, hnone⟩ | hold
        · exact absurd hnone (by simp)
        · exact Or.inl hold
    · exact absurd hs (by simp)
  all_goals simp only [step, World.start, World.markEstop, World.requestAuthority,
    World.requestMode, World.enqueueMode] at hs
  all_goals repeat' split at hs
  all_goals simp only [Option.some.injEq, reduceCtorEq] at hs
  all_goals subst hs
  -- The other calls move on to something else, or end.
  all_goals first
    | exact Or.inl hcall
    | (rcases calls_setCall hcall with ⟨-, hother⟩ | hold
       · exact absurd hother (by simp)
       · exact Or.inl (by simpa using hold))

/-- **Step lemma.** What is outstanding after a step was so before, or was accepted by it. -/
theorem step_outstanding {p : PromiseId} {mode : UInt16} (hs : step cfg a w = some w')
    (htrans : TransitionAt w.wk) (h : w'.Outstanding p mode) :
    w.Outstanding p mode ∨ ∃ name, a = .acceptMode p ∧ w.calls p = some (.modeAccept name) ∧
      (w.ctl.requestMode w.clock name).1.accepted = true ∧
      (w.ctl.requestMode w.clock name).1.mode = mode := by
  rcases h with hcall | hmem | ⟨hactive, harmed⟩
  · exact (step_modeEnqueue hs hcall).imp_left Or.inl
  · refine Or.inl ?_
    rcases w.worker_or_client a with ⟨ans, rfl⟩ | ha
    · exact Or.inr (Or.inl (workerStep_commands hs hmem).1)
    · have hcommands : w'.wk.pc.commands = w.wk.pc.commands := by
        rcases step_wk hs ha with hwk | ⟨hidle, hwk⟩
        · rw [hwk]
        · rw [hwk, hidle]
          rfl
      rw [hcommands] at hmem
      rcases step_queue hs ha with hq | ⟨c, hq, hpush⟩
      · rw [hq] at hmem
        exact Or.inr (Or.inl hmem)
      · rw [hq, List.append_assoc, List.mem_append, List.mem_append, List.mem_singleton] at hmem
        rcases hmem with hold | hnew | hold
        · exact Or.inr (Or.inl (by simp [hold]))
        · -- The pushed command comes from the client's call.
          subst hnew
          rcases hpush with hauth | ⟨mode', -, hkind, hcall, -⟩
          · exact absurd hauth (by simp [Command.isMode])
          · rw [CommandKind.requestMode.inj hkind]
            exact Or.inl hcall
        · exact Or.inr (Or.inl (by simp [hold]))
  · refine Or.inl ?_
    rcases w.worker_or_client a with ⟨ans, rfl⟩ | ha
    · rcases workerStep_armed hs htrans hactive with ⟨hsame, hkept⟩ | ⟨q, m, hpc, -, -, hset⟩
      · exact Or.inr (Or.inr ⟨hsame ▸ hactive, hkept ▸ harmed⟩)
      · rw [hset, Option.some.injEq] at harmed
        exact Or.inr (Or.inl (by simp [hpc, Pc.commands, harmed]))
    · obtain ⟨new, heq, hnew⟩ := Extends.trace (step_extends hs)
      have hkept : armed w'.trace = armed w.trace := by
        rw [heq]
        refine armed_append (fun c d hmem => ?_)
        obtain ⟨q, m, hpc⟩ := (hnew _ hmem).arm c d rfl
        rw [ha] at hpc
        exact absurd hpc (by simp)
      have hwk : w'.wk.transition = w.wk.transition := by
        rcases step_wk hs ha with hwk | ⟨-, hwk⟩ <;> rw [hwk]
      exact Or.inr (Or.inr ⟨hwk ▸ hactive, hkept ▸ harmed⟩)

/-! ### Where no outstanding request is replaced -/

/-- An outstanding request is the owner of the pending transition, if there is one; and a
    confirmation finds one. -/
structure OutstandingOwns (w : World) : Prop where
  owns : ∀ p mode, w.Outstanding p mode → ∀ q m, owner w.trace = some (q, m) → q = p ∧ m = mode
  confirm : ∀ s, w.wk.pc = .checkComplete s → w.ctl.modeTransitionPending = true

/-- A step that accepts no request over an outstanding one keeps the owners. -/
theorem OutstandingOwns.owns_step (h : OutstandingOwns w) (hrun : Run cfg ok w)
    (hok : w.replaces a = false) (hs : step cfg a w = some w') {p : PromiseId} {mode : UInt16}
    (hout : w'.Outstanding p mode) {q : PromiseId} {m : UInt16}
    (howner : owner w'.trace = some (q, m)) : q = p ∧ m = mode := by
  have hout' := step_outstanding hs hrun.transitionAt hout
  cases (step_owner hrun.ownerHistory hs).2 with
  | @accepted r name ha hcall hacc _ hnew =>
    -- Nothing else is outstanding, so it is the request just accepted.
    subst ha
    rcases hout' with hold | ⟨name', hr, hcall', -, hmode⟩
    · have hsome := outstanding_of_Outstanding hrun.conserved hold
      exact absurd hok (by simp [World.replaces, hcall, hacc, hsome])
    · rw [Action.acceptMode.injEq] at hr
      subst hr
      rw [hcall, Option.some.injEq, ClientCall.modeAccept.injEq] at hcall'
      rw [hnew, Option.some.injEq, Prod.mk.injEq] at howner
      rw [← howner.1, ← howner.2, ← hmode, hcall']
      exact ⟨rfl, rfl⟩
  | kept hrej hsame =>
    rcases hout' with hold | ⟨name, ha, hcall, hacc, -⟩
    · exact h.owns p mode hold q m (hsame ▸ howner)
    · rw [hrej p name ha hcall] at hacc
      exact absurd hacc (by simp)
  | ended _ _ hnone =>
    rw [hnone] at howner
    exact absurd howner (by simp)

/-- A promise that the armed transition holds is in no client's hands. -/
theorem Conserved.calls_transition (h : Conserved w) (hactive : w.wk.transition.active = true) :
    w.calls w.wk.transition.promise = none := by
  have htotal := h w.wk.transition.promise
  have hload : 1 ≤ w.load w.wk.transition.promise := by
    simp only [World.load, ModeTransition.promises, hactive, if_true, List.count_singleton_self]
    omega
  have hle : w.inCall w.wk.transition.promise + w.load w.wk.transition.promise ≤ 1 := by
    rw [htotal]
    split <;> simp
  cases hc : w.calls w.wk.transition.promise with
  | none => rfl
  | some call =>
    have hin : w.inCall w.wk.transition.promise = 1 := by simp [World.inCall, hc]
    omega

/-- While the worker is about to confirm, no client's step ends the transition. -/
theorem OutstandingOwns.kept (h : OutstandingOwns w) (hrun : Run cfg ok w)
    (hok : w.replaces a = false) (ha : w.workerAt a = none) {s : SdkSnapshot}
    (hpc : w.wk.pc = .checkComplete s) : w.endsTransition a = false := by
  cases a with
  | status linked authority => simpa [World.replaces, hpc] using hok
  | enqueueMode q =>
    -- The call would be outstanding beside the armed command, and both own the transition.
    cases hcall : w.calls q with
    | none => simp [World.endsTransition, hcall]
    | some call =>
      cases call with
      | modeEnqueue mode =>
        have hactive : w.wk.transition.active = true := by
          have htrans := hrun.transitionAt
          simpa only [TransitionAt, hpc] using htrans
        obtain ⟨m, harmed, -⟩ := hrun.armedWatch hactive
        have hsome : (owner w.trace).isSome = true := by
          rw [← hrun.ownerHistory.pending]
          exact h.confirm s hpc
        obtain ⟨⟨r, mr⟩, howner⟩ := Option.isSome_iff_exists.mp hsome
        have hq := (h.owns q mode (Or.inl hcall) r mr howner).1
        have hp := (h.owns _ m (Or.inr (Or.inr ⟨hactive, harmed⟩)) r mr howner).1
        have hnone := hrun.conserved.calls_transition hactive
        rw [← hp, hq, hcall] at hnone
        exact absurd hnone (by simp)
      | _ => simp [World.endsTransition, hcall]
  | worker ans => exact absurd ha (by simp)
  | _ => rfl

/-- The worker gets to a confirmation from the check of the pending transition only. -/
theorem workerStep_checkComplete {s : SdkSnapshot} (hs : workerStep cfg ans w w.wk.pc = some w')
    (hpc : w'.wk.pc = .checkComplete s) : w'.ctl.modeTransitionPending = true := by
  cases hw : w.wk.pc
  all_goals rw [hw] at hs
  all_goals simp only [workerStep] at hs
  all_goals repeat' split at hs
  all_goals simp only [Option.some.injEq, reduceCtorEq] at hs
  all_goals subst hs
  all_goals simp at hpc ⊢
  simp_all

/-- **Step lemma.** -/
theorem OutstandingOwns.step (h : OutstandingOwns w) (hrun : Run cfg ok w)
    (hok : w.replaces a = false) (hs : step cfg a w = some w') : OutstandingOwns w' := by
  refine ⟨fun p mode hout q m howner => h.owns_step hrun hok hs hout howner, fun s hpc => ?_⟩
  rcases w.worker_or_client a with ⟨ans, rfl⟩ | ha
  · exact workerStep_checkComplete hs hpc
  · have hpc' : w.wk.pc = .checkComplete s := by
      rcases step_wk hs ha with hwk | ⟨-, hwk⟩
      · rw [← hwk]
        exact hpc
      · rw [hwk] at hpc
        exact absurd hpc (by simp)
    obtain ⟨hist, hstep⟩ := step_owner hrun.ownerHistory hs
    rw [hist.pending]
    cases hstep with
    | accepted _ _ _ _ hnew =>
      rw [hnew]
      rfl
    | kept _ hsame =>
      rw [hsame, ← hrun.ownerHistory.pending]
      exact h.confirm s hpc'
    | ended _ hends _ =>
      rw [h.kept hrun hok ha hpc'] at hends
      exact absurd hends (by simp)

/-- **Run lemma.** -/
theorem Run.outstandingOwns (h : Run cfg (fun w a => w.replaces a = false) w) :
    OutstandingOwns w := by
  refine h.invariant ⟨fun p mode hout => ?_, by simp [World.initial]⟩
    (fun _ _ _ hrun hi hok hs => hi.step hrun hok hs)
  intro q m howner
  exact absurd howner (by simp [World.initial, owner])

/-! ### The result -/

/-- **Gate lemma.** The motion gate is opened by a confirmation only. -/
theorem step_opensGate (hs : step cfg a w = some w') (hclosed : w.ctl.motionTransitionGate = true)
    (hopen : w'.ctl.motionTransitionGate = false) :
    ∃ ans s, a = .worker ans ∧ w.wk.pc = .checkComplete s := by
  have hkeep : ∀ {c' t'}, Extends (ms cfg.deadmanMs) w.clock (EventOf w a) w.ctl w.trace c' t' →
      c'.motionTransitionGate = false → ∃ s, w.workerAt a = some (.checkComplete s) := by
    intro c' t' hext hopen'
    induction hext with
    | refl =>
      rw [hclosed] at hopen'
      exact absurd hopen' (by simp)
    | @control c₁ _ op _ he ih =>
      cases hgate : (op.call (ms cfg.deadmanMs) w.clock c₁).gateEvent with
      | false =>
        rw [(apply_frame hgate).1] at hopen'
        exact ih hopen'
      | true =>
        by_cases hop : ∃ name, op = .requestMode name
        · obtain ⟨name, rfl⟩ := hop
          rcases requestMode_cases w.clock name c₁ with ⟨_, _, _, _, _, _, heq⟩ | ⟨_, heq⟩
          · exact absurd hopen' (by simp [Operation.apply, heq, forceZero])
          · refine ih ?_
            simpa only [Operation.apply, heq] using hopen'
        · obtain ⟨rfl, -⟩ := (apply_gateEvent hgate (fun name hn => hop ⟨name, hn⟩)).2 hopen'
          exact he.confirm _ _ rfl
    | other _ _ _ ih => exact ih hopen'
  obtain ⟨s, hpc⟩ := hkeep (step_extends hs) hopen
  cases a with
  | worker ans => exact ⟨ans, s, rfl, Option.some.inj hpc⟩
  | _ => exact absurd hpc (by simp)

/-- **Confirmations match.** In every run that accepts no mode request over an outstanding one,
    and whose gate does not drop the transition right before its confirmation, every confirmation
    is of the armed command's own pending transition, and only the Move status of a move request
    opens the motion gate. -/
theorem modes_confirm_their_own (hrun : Run cfg (fun w a => w.replaces a = false) w) :
    ConfirmsOwn cfg w := by
  have hinv := hrun.outstandingOwns
  have hconfirm : ∀ s, w.wk.pc = .checkComplete s → ∃ mode,
      armed w.trace = some ⟨.requestMode mode, w.wk.transition.promise⟩ ∧
        w.ctl.modeTransitionPending = true ∧ w.ctl.pendingMode = mode ∧
        owner w.trace = some (w.wk.transition.promise, mode) ∧
        s.sportStatus = stableStatusFor mode := by
    intro s hpc
    have hactive : w.wk.transition.active = true := by
      have htrans := hrun.transitionAt
      simpa only [TransitionAt, hpc] using htrans
    obtain ⟨mode, harmed, hstable⟩ := hrun.armedWatch hactive
    have hpending := hinv.confirm s hpc
    have hsome : (owner w.trace).isSome = true := by
      rw [← hrun.ownerHistory.pending]
      exact hpending
    obtain ⟨⟨q, m⟩, howner⟩ := Option.isSome_iff_exists.mp hsome
    obtain ⟨rfl, rfl⟩ := hinv.owns _ mode (Or.inr (Or.inr ⟨hactive, harmed⟩)) q m howner
    exact ⟨m, harmed, hpending, hrun.ownerHistory.mode _ _ howner, howner,
      (hrun.watchHistory.complete s hpc).trans hstable⟩
  refine ⟨hconfirm, fun a w' hs hclosed hopen => ?_⟩
  obtain ⟨ans, s, rfl, hpc⟩ := step_opensGate hs hclosed hopen
  obtain ⟨mode, harmed, -, hmode, -, hstatus⟩ := hconfirm s hpc
  -- The completion opens the gate for a pending move only.
  have hmove : w.ctl.pendingMode = modeMove := by
    simp only [step, hpc, workerStep, Option.some.injEq] at hs
    subst hs
    have hentered : w.ctl.enteredMove true = true := by
      simpa [Operation.apply, completeModeTransition, forceZero] using hopen
    simp only [enteredMove, Bool.and_eq_true, beq_iff_eq] at hentered
    exact hentered.2
  rw [hmove] at hmode
  subst hmode
  exact ⟨ans, s, rfl, hpc, hstatus, harmed⟩

/-- A stand request is under way when the authority is lost; the worker settles it as an orphan
    before the authority is back and a move request is accepted. -/
def settledStand : List Action :=
  readying ++ [.requestMode "stand", .acceptMode 0, .enqueueMode 0] ++ works 13 (obliging 0xB104) ++
    [.status true false] ++ works 13 (obliging 0xB104) ++
    [.status true true, .requestMode "move", .acceptMode 1, .enqueueMode 1] ++
    works 14 (obliging 0xB104) ++ [.advance (ms 500)] ++ works 18 (obliging 0xB104)

/-- The move request is confirmed with its own pending transition. -/
theorem modes_confirm_their_own_settled :
    ∃ w s, Run {} (fun w a => w.replaces a = false) w ∧ w.wk.pc = .checkComplete s ∧ ∃ mode,
      armed w.trace = some ⟨.requestMode mode, w.wk.transition.promise⟩ ∧
        w.ctl.pendingMode = mode ∧ s.sportStatus = stableStatusFor mode := by
  obtain ⟨w, hrun, hw⟩ := exists_run_of_exec {} (fun w a => w.replaces a = false) settledStand
    (fun w => w.wk.pc = .checkComplete ⟨true, 0, 0xB104⟩) (by decide +kernel)
  have hpc := of_decide_eq_true hw
  obtain ⟨mode, harmed, -, hmode, -, hstatus⟩ := (modes_confirm_their_own hrun).confirm _ hpc
  exact ⟨w, _, hrun, hpc, mode, harmed, hmode, hstatus⟩

end HypertronBridge.Runtime
