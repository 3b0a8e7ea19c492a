import HypertronBridge.Runtime.Trace

namespace HypertronBridge.Runtime

open TransitionSystem History RobotController

/-!
# Revoked mode commands

Accepting a mode request makes it the owner of the controller's pending transition.  Losing the
authority, a system error, a completion or a teardown end that transition without touching the
command, and `execute_command` does not ask the controller again: `revoked_mode_is_sent`.  Where
no transition ends while a mode command is on its way, and no command is enqueued whose
transition has ended, `set_mode` is only called for the owner.

* `owner` — the request that owns the pending transition, read off the trace;
* `World.underway` — the mode commands that the worker is going to send;
* `World.revokes` — the condition; `sent_modes_are_pending` — the result under it.
-/

variable {cfg : RuntimeConfig} {w w' : World} {a : Action} {ans : Answer}
  {ok : World → Action → Prop} {c c' : RobotController} {t t' : List Event}
  {deadman now : Time} {P : Event → Prop}

/-! ### Who owns the pending transition -/

/-- The accepted request that nothing has ended or replaced since, with its mode. -/
def owner : List Event → Option (PromiseId × UInt16)
  | [] => none
  | .accepted p mode :: _ => some (p, mode)
  | .control call :: older => if call.gateEvent then none else owner older
  | _ :: older => owner older

/-- The controller has a pending transition exactly when a request owns it, in that request's
    mode. -/
structure OwnerHistory (c : RobotController) (t : List Event) : Prop where
  pending : c.modeTransitionPending = (owner t).isSome
  mode : ∀ p mode, owner t = some (p, mode) → c.pendingMode = mode

/-- Without an accepted request, a step keeps the owner or leaves none. -/
theorem OwnerHistory.extends (h : OwnerHistory c t) (hext : Extends deadman now P c t c' t')
    (hP : ∀ e, P e → e.accepts = false) :
    OwnerHistory c' t' ∧ (owner t' = owner t ∨ owner t' = none) := by
  induction hext with
  | refl => exact ⟨h, Or.inl rfl⟩
  | @control c₁ t₁ op _ he ih =>
    have hop : ∀ name, op ≠ .requestMode name := by
      rintro name rfl
      exact absurd (hP _ he) (by simp [Event.accepts, Operation.call])
    cases hgate : (op.call deadman now c₁).gateEvent with
    | true =>
      have hnone : owner (.control (op.call deadman now c₁) :: t₁) = none := by simp [owner, hgate]
      refine ⟨⟨?_, fun p mode hsome => ?_⟩, Or.inr hnone⟩
      · rw [hnone]
        exact (apply_gateEvent hgate hop).1
      · rw [hnone] at hsome
        exact absurd hsome (by simp)
    | false =>
      have hsame : owner (.control (op.call deadman now c₁) :: t₁) = owner t₁ := by
        simp [owner, hgate]
      obtain ⟨-, hpending, hmode⟩ := apply_frame hgate
      refine ⟨⟨?_, fun p mode hsome => ?_⟩, ?_⟩
      · rw [hpending, hsame]
        exact ih.1.pending
      · rw [hmode]
        exact ih.1.mode p mode (hsame ▸ hsome)
      · rw [hsame]
        exact ih.2
  | @other c₁ t₁ e _ he hne ih =>
    have hacc := hP _ he
    cases e with
    | accepted p mode => exact absurd hacc (by simp [Event.accepts])
    | control call => exact absurd rfl (hne call)
    | _ => exact ⟨⟨ih.1.pending, ih.1.mode⟩, ih.2⟩

/-- What a step does to the owner: it lets a request become the owner where there was none, it
    keeps the owner, or it ends its transition. -/
inductive OwnerStep (w : World) (a : Action) (t' : List Event) : Prop
  | accepted {p : PromiseId} {name : String} :
      a = .acceptMode p → w.calls p = some (.modeAccept name) →
      (w.ctl.requestMode w.clock name).1.accepted = true → owner w.trace = none →
      owner t' = some (p, (w.ctl.requestMode w.clock name).1.mode) → OwnerStep w a t'
  | kept : (∀ p name, a = .acceptMode p → w.calls p = some (.modeAccept name) →
      (w.ctl.requestMode w.clock name).1.accepted = false) → owner t' = owner w.trace →
      OwnerStep w a t'
  | ended : (∀ p, a ≠ .acceptMode p) → w.endsTransition a = true → owner t' = none →
      OwnerStep w a t'

/-- The controller's gate of a mode request. -/
theorem acceptMode_owner (h : OwnerHistory w.ctl w.trace) {p : PromiseId} {name : String}
    (hcall : w.calls p = some (.modeAccept name)) :
    OwnerHistory (w.acceptMode cfg p name).ctl (w.acceptMode cfg p name).trace ∧
      OwnerStep w (.acceptMode p) (w.acceptMode cfg p name).trace := by
  rcases requestMode_cases w.clock name w.ctl with ⟨mode, _, _, hfree, _, _, heq⟩ | ⟨hrej, heq⟩
  · have hnone : owner w.trace = none := by
      have hpending := h.pending
      rw [hfree] at hpending
      exact Option.isNone_iff_eq_none.mp (by simpa using hpending.symm)
    have hstep : w.acceptMode cfg p name = ((w.control cfg (.requestMode name)).log
        (.accepted p mode)).setCall p (some (.modeEnqueue mode)) := by
      simp [World.acceptMode, heq]
    rw [hstep]
    refine ⟨⟨?_, ?_⟩, .accepted rfl hcall (by simp [heq]) hnone (by simp [owner, heq])⟩
    · simp [owner, Operation.apply, heq, forceZero]
    · simp [owner, Operation.apply, heq, forceZero]
  · have hstep : w.acceptMode cfg p name = ((w.control cfg (.requestMode name)).setPromise p
        (mapModeRejection (w.ctl.requestMode w.clock name).1)).setCall p none := by
      simp [World.acceptMode, hrej]
    have howner : owner (w.acceptMode cfg p name).trace = owner w.trace := by
      rw [hstep]
      simp [owner, Operation.call, Operation.apply, Call.gateEvent, hrej]
    have hctl : (w.acceptMode cfg p name).ctl = w.ctl := by
      rw [hstep]
      simp [Operation.apply, heq]
    refine ⟨⟨?_, ?_⟩, .kept ?_ howner⟩
    · rw [hctl, howner]
      exact h.pending
    · rw [hctl, howner]
      exact h.mode
    · intro q name' hq hcall'
      rw [← Action.acceptMode.inj hq, hcall] at hcall'
      rw [← ClientCall.modeAccept.inj (Option.some.inj hcall')]
      exact hrej

/-- A step that ends no transition has no gate event, and so keeps the owner. -/
theorem owner_of_not_endsTransition (hs : step cfg a w = some w') (ha : ∀ p, a ≠ .acceptMode p)
    (hends : w.endsTransition a = false) : owner w'.trace = owner w.trace := by
  obtain ⟨new, heq, hnew⟩ := Extends.trace (step_extends hs)
  rw [heq]
  clear heq
  induction new with
  | nil => rfl
  | cons e new ih =>
    have htail := ih (fun x hx => hnew x (by simp [hx]))
    have he := hnew e (by simp)
    cases e with
    | accepted p mode =>
      obtain ⟨q, hq⟩ := he.accept rfl
      exact absurd hq (ha q)
    | control call =>
      have hgate : call.gateEvent = false := by
        by_contra hgate
        rcases he.gate call rfl (by simpa using hgate) with hends' | ⟨p, hp⟩
        · exact absurd hends' (by simp [hends])
        · exact ha p hp
      simp only [List.cons_append, owner, hgate, Bool.false_eq_true, if_false]
      exact htail
    | _ => exact htail

/-- **Step lemma.** -/
theorem step_owner (h : OwnerHistory w.ctl w.trace) (hs : step cfg a w = some w') :
    OwnerHistory w'.ctl w'.trace ∧ OwnerStep w a w'.trace := by
  by_cases hacc : ∃ p, a = .acceptMode p
  · obtain ⟨p, rfl⟩ := hacc
    simp only [step] at hs
    split at hs
    · rw [← Option.some.inj hs]
      exact acceptMode_owner h ‹_›
    · exact absurd hs (by simp)
  · have ha : ∀ p, a ≠ .acceptMode p := fun p hp => hacc ⟨p, hp⟩
    obtain ⟨hist, howner⟩ := h.extends (step_extends hs) (fun e he => by
      by_contra hnot
      exact hacc (he.accept (by simpa using hnot)))
    refine ⟨hist, ?_⟩
    cases hends : w.endsTransition a with
    | false =>
      exact .kept (fun p _ hp => absurd hp (ha p)) (owner_of_not_endsTransition hs ha hends)
    | true =>
      rcases howner with hsame | hnone
      · exact .kept (fun p _ hp => absurd hp (ha p)) hsame
      · exact .ended ha hends hnone

/-- **Run lemma.** -/
theorem Run.ownerHistory (h : Run cfg ok w) : OwnerHistory w.ctl w.trace :=
  h.invariant (I := fun w => OwnerHistory w.ctl w.trace) ⟨rfl, by simp [World.initial, owner]⟩
    (fun _ _ _ _ ih _ hs => (step_owner ih hs).1)

/-! ### Mode commands on their way -/

/-- The worker may still pop what is in the queue.  Between the consumed stop mark and its drain,
    and once the session is ending, it drops the queue instead; a stop or a dropped link is seen
    when the worker waits and once more before the stop check. -/
def World.willPop (w : World) : Bool :=
  match w.wk.pc with
  | .estopAbort _ | .estopDrain _ | .estopUndo _ _ | .stopRead | .stopZero | .stopDamp _
  | .drain => false
  | .estopCheck | .estopRead _ | .estopZero _ | .estopDamp _ _ | .orphanRead | .orphanFail
  | .pop => true
  | _ => !(w.shared.stopRequested || w.shared.linkDropLatched)

/-- The mode commands that the worker is going to send: the one it is executing, before its
    `set_mode`, and those it may still pop. -/
def World.underway (w : World) : List Command :=
  (w.wk.pc.commands ++ if w.willPop then w.queue.items else []).filter Command.isMode

/-- The worker calls `set_mode` for a command only when its request owns the pending transition,
    and so it was for every such call made. -/
structure SendsPending (w : World) : Prop where
  now : ∀ p mode, w.wk.pc = .execSetMode p mode → w.ctl.modeTransitionPending = true ∧
    w.ctl.pendingMode = mode ∧ owner w.trace = some (p, mode)
  sent : ∀ new c mode r older, w.trace = new ++ .sdk (.command c) (.setMode mode) r :: older →
    owner older = some (c.promise, mode)

/-! ### The defect -/

/-- A stand request that loses the authority while it is queued. -/
def revokedStand : List Action :=
  readying ++ [.requestMode "stand", .acceptMode 0, .enqueueMode 0, .status true false] ++
    works 7 (obliging 0xB104)

/-- **The defect.** The worker is about to set the mode, and the controller holds no pending
    transition. -/
theorem revoked_mode_is_sent : ¬ ∀ cfg w, Reachable cfg w → SendsPending w := by
  intro hall
  obtain ⟨w, hrun, hw⟩ := exists_run_of_exec {} (fun _ _ => True) revokedStand
    (fun w => decide (w.wk.pc = .execSetMode 0 0xA102) && !w.ctl.modeTransitionPending)
    (by decide +kernel)
  simp only [Bool.and_eq_true, decide_eq_true_eq, Bool.not_eq_true'] at hw
  have hpending := ((hall {} w hrun).now _ _ hw.1).1
  rw [hw.2] at hpending
  exact absurd hpending (by simp)

/-! ### Where nothing on its way is revoked -/

/-- A step that revokes a mode command and lets it go on: it ends the controller's transition
    while a mode command is on its way (one whose report drops the link also ends the session),
    or enqueues a mode command that no longer owns the transition. -/
def World.revokes (w : World) : Action → Bool
  | .status linked authority =>
      w.endsTransition (.status linked authority) &&
        !(World.underway { w with
          shared.linkDropLatched := w.shared.linkDropLatched || !linked }).isEmpty
  | .enqueueMode p =>
      if w.endsTransition (.enqueueMode p) then !w.underway.isEmpty
      else match w.calls p with
        | some (.modeEnqueue mode) => owner w.trace != some (p, mode)
        | _ => false
  | a => w.endsTransition a && !w.underway.isEmpty

/-- Every mode command on its way owns the pending transition. -/
def UnderwayOwns (w : World) : Prop :=
  ∀ c ∈ w.underway, ∃ mode, c.kind = .requestMode mode ∧ owner w.trace = some (c.promise, mode)

/-- The worker adds nothing to what is on its way. -/
theorem workerStep_underway (hsession : SessionInv w) (hs : workerStep cfg ans w w.wk.pc = some w') :
    ∀ c ∈ w'.underway, c ∈ w.underway := by
  intro c hc
  simp only [World.underway, List.mem_filter, List.mem_append] at hc ⊢
  refine ⟨?_, hc.2⟩
  have hmem := hc.1
  clear hc
  have hidle := hsession.idleQueue
  cases hpc : w.wk.pc
  all_goals rw [hpc] at hs hidle
  all_goals simp only [workerStep] at hs
  all_goals repeat' split at hs
  all_goals simp only [Option.some.injEq, reduceCtorEq] at hs
  all_goals subst hs
  all_goals simp [World.willPop, Pc.commands, Pc.inSession, hpc] at hmem hidle ⊢
  -- What was popped was in the queue, and a drained queue is empty.
  all_goals try rw [ThreadSafeQueue.tryPop_some ‹w.queue.tryPop = (some _, _)›]
  all_goals try rw [ThreadSafeQueue.tryPop_none ‹w.queue.tryPop = (none, _)›] at hmem
  all_goals first
    | exact hmem
    | exact List.mem_cons.mpr (hmem.imp_right And.right)
    | simp_all

/-- A stop and a dropped link stay; clients set them and the worker clears the latter. -/
theorem step_ending (hs : step cfg a w = some w') (ha : w.workerAt a = none) :
    (w.shared.stopRequested = true → w'.shared.stopRequested = true) ∧
      (w.shared.linkDropLatched = true → w'.shared.linkDropLatched = true) := by
  cases a
  case worker ans => exact absurd ha (by simp)
  all_goals simp only [step, World.start, World.markEstop, World.requestAuthority,
    World.requestMode, World.acceptMode, World.enqueueMode] at hs
  all_goals repeat' split at hs
  all_goals simp only [Option.some.injEq, reduceCtorEq] at hs
  all_goals subst hs
  all_goals simp
  all_goals intro h
  all_goals simp [h]

/-- A client adds to what is on its way only the mode command it pushes. -/
theorem clientStep_underway (hs : step cfg a w = some w') (ha : w.workerAt a = none) :
    ∀ c ∈ w'.underway, c ∈ w.underway ∨ (c.isMode = true ∧ w.Pushes a c) := by
  intro c hc
  obtain ⟨hstop, hdrop⟩ := step_ending hs ha
  have hsame : w'.wk.pc.commands = w.wk.pc.commands ∧ (w'.willPop = true → w.willPop = true) := by
    have hflags : (!(w'.shared.stopRequested || w'.shared.linkDropLatched)) = true →
        (!(w.shared.stopRequested || w.shared.linkDropLatched)) = true := by
      intro hup
      cases hs' : w.shared.stopRequested <;> cases hd' : w.shared.linkDropLatched <;> simp_all
    rcases step_wk hs ha with hwk | ⟨hidle, hwk⟩
    · refine ⟨by rw [hwk], fun hwill => ?_⟩
      unfold World.willPop at hwill ⊢
      rw [hwk] at hwill
      cases hpc : w.wk.pc <;> rw [hpc] at hwill <;> first
        | exact hwill
        | exact hflags hwill
    · refine ⟨by rw [hwk, hidle]; rfl, fun hwill => ?_⟩
      unfold World.willPop at hwill ⊢
      rw [hwk] at hwill
      rw [hidle]
      exact hflags hwill
  simp only [World.underway, List.mem_filter, List.mem_append, hsame.1] at hc ⊢
  obtain ⟨hexec | hqueue, hmode⟩ := hc
  · exact Or.inl ⟨Or.inl hexec, hmode⟩
  · split at hqueue
    · rename_i hwill
      rw [if_pos (hsame.2 hwill)]
      rcases step_queue hs ha with hq | ⟨d, hq, hpush⟩
      · rw [hq] at hqueue
        exact Or.inl ⟨Or.inr hqueue, hmode⟩
      · rw [hq, List.mem_append, List.mem_singleton] at hqueue
        rcases hqueue with hold | rfl
        · exact Or.inl ⟨Or.inr hold, hmode⟩
        · exact Or.inr ⟨hmode, hpush⟩
    · exact absurd hqueue (by simp)

/-- A step that revokes nothing ends no transition while something is on its way after it. -/
theorem endsTransition_of_underway {c : Command} (hok : w.revokes a = false)
    (hs : step cfg a w = some w') (hmem : c ∈ w.underway) (hmem' : c ∈ w'.underway) :
    w.endsTransition a = false := by
  have hnot : ∀ {l : List Command}, c ∈ l → l.isEmpty = false := by
    intro l hl
    cases l with
    | nil => exact absurd hl (by simp)
    | cons => rfl
  cases a with
  | status linked authority =>
    -- A report that drops the link ends the session, so it counts what is on its way after it.
    simp only [step, Option.some.injEq] at hs
    subst hs
    have hafter := hnot (show c ∈ World.underway { w with
      shared.linkDropLatched := w.shared.linkDropLatched || !linked } from hmem')
    simpa [World.revokes, hafter] using hok
  | enqueueMode p =>
    by_contra hends
    simp [World.revokes, hends, hnot hmem] at hok
  | _ => simpa [World.revokes, hnot hmem] using hok

/-- **Step lemma.** -/
theorem UnderwayOwns.step (h : UnderwayOwns w) (hist : OwnerHistory w.ctl w.trace)
    (hsession : SessionInv w) (hok : w.revokes a = false) (hs : step cfg a w = some w') :
    UnderwayOwns w' := by
  intro c hc
  have hold : c ∈ w.underway →
      ∃ mode, c.kind = .requestMode mode ∧ owner w'.trace = some (c.promise, mode) := by
    intro hmem
    obtain ⟨mode, hkind, howner⟩ := h c hmem
    refine ⟨mode, hkind, ?_⟩
    cases (step_owner hist hs).2 with
    | accepted _ _ _ hnone _ =>
      -- The transition is taken, so a new request is turned down.
      rw [hnone] at howner
      exact absurd howner (by simp)
    | kept _ hsame =>
      rw [hsame]
      exact howner
    | ended _ hends _ =>
      rw [endsTransition_of_underway hok hs hmem hc] at hends
      exact absurd hends (by simp)
  rcases w.worker_or_client a with ⟨ans, rfl⟩ | ha
  · exact hold (workerStep_underway hsession hs c hc)
  · rcases clientStep_underway hs ha c hc with hmem | ⟨hmode, hpush⟩
    · exact hold hmem
    · rcases hpush with hauth | ⟨mode, rfl, hkind, hcall, -, hends⟩
      · exact absurd hmode (by simp [hauth])
      · -- The guard lets only the owner be enqueued.
        refine ⟨mode, hkind, ?_⟩
        rw [owner_of_not_endsTransition hs (by simp) hends]
        simpa [World.revokes, hends, hcall] using hok

/-- **Run lemma.** -/
theorem Run.underwayOwns (h : Run cfg (fun w a => w.revokes a = false) w) : UnderwayOwns w := by
  refine h.invariant (fun c hc => ?_)
    (fun _ _ _ hrun hi hok hs => hi.step hrun.ownerHistory hrun.session hok hs)
  exact absurd hc (by simp [World.underway, World.initial, Pc.commands, World.willPop])

/-! ### The result -/

theorem UnderwayOwns.execSetMode {p : PromiseId} {mode : UInt16} (h : UnderwayOwns w)
    (hpc : w.wk.pc = .execSetMode p mode) : owner w.trace = some (p, mode) := by
  obtain ⟨mode', hkind, howner⟩ := h ⟨.requestMode mode, p⟩
    (by simp [World.underway, hpc, Pc.commands, Command.isMode])
  rw [CommandKind.requestMode.inj hkind]
  exact howner

/-- **A revoked mode command is never sent.** In every run that revokes no mode command on its
    way, `set_mode` is called for a command only while the controller holds the pending
    transition that its request created. -/
theorem sent_modes_are_pending (hrun : Run cfg (fun w a => w.revokes a = false) w) :
    SendsPending w := by
  constructor
  · intro p mode hpc
    have howner := hrun.underwayOwns.execSetMode hpc
    obtain ⟨hpending, hmode⟩ := hrun.ownerHistory
    exact ⟨by rw [hpending, howner]; rfl, hmode p mode howner, howner⟩
  · intro new c mode r older htrace
    have hsent := hrun.sdkCalls (R := fun o call older => ∀ c mode, o = .command c →
      call = .setMode mode → owner older = some (c.promise, mode))
      (fun s o call hs hcall c mode ho hmode => ?_)
    · exact historically_iff.mp hsent new _ older htrace _ _ r rfl c mode rfl rfl
    · subst ho hmode
      cases hpc : s.wk.pc
      all_goals rw [hpc] at hcall
      all_goals simp only [Pc.sdkCall, Option.some.injEq, Prod.mk.injEq, reduceCtorEq, and_false,
        false_and, Origin.command.injEq, SdkCall.setMode.injEq] at hcall
      obtain ⟨rfl, rfl⟩ := hcall
      exact hs.underwayOwns.execSetMode hpc

/-- The authority is lost and back before a stand request. -/
def restoredStand : List Action :=
  readying ++ [.status true false, .status true true, .requestMode "stand", .acceptMode 0,
    .enqueueMode 0] ++ works 7 (obliging 0xB104)

/-- Its `set_mode` finds its transition pending. -/
theorem sent_modes_are_pending_restored :
    ∃ w, Run {} (fun w a => w.revokes a = false) w ∧ w.wk.pc = .execSetMode 0 0xA102 ∧
      w.ctl.modeTransitionPending = true ∧ w.ctl.pendingMode = 0xA102 ∧
      owner w.trace = some (0, 0xA102) := by
  obtain ⟨w, hrun, hw⟩ := exists_run_of_exec {} (fun w a => w.revokes a = false) restoredStand
    (fun w => w.wk.pc = .execSetMode 0 0xA102) (by decide +kernel)
  have hpc := of_decide_eq_true hw
  exact ⟨w, hrun, hpc, (sent_modes_are_pending hrun).now _ _ hpc⟩

end HypertronBridge.Runtime
