import HypertronBridge.Runtime.Trace

namespace HypertronBridge.Runtime

open TransitionSystem History RobotController

/-!
# Link and authority of a session

The runtime caches the last status report, and the controller keeps its own copy.  The teardown
clears the caches, then the controller, then deinitialises the SDK; a report that arrives after
the first of these sections puts the ended session's values back, and the next session starts on
them: `late_report_survives`.  Without such reports both copies are always the last report since
the attempt's `init`, or false.

* `reported`, `sdkUp` — what the SDK reported, and whether it may report, read off the trace;
* `OnOwnReports` — caches, controller, requests and stops all go by the session's own reports;
* `World.lateReport` — the condition; `session_on_own_reports` — the result under it.
-/

variable {cfg : RuntimeConfig} {w w' : World} {a : Action} {ans : Answer}
  {ok : World → Action → Prop}

/-- Link and authority of the newest status report since the last `init` began. -/
def reported : List Event → Bool × Bool
  | [] => (false, false)
  | .initStarted :: _ => (false, false)
  | .statusReport linked authority :: _ => (linked, authority)
  | _ :: older => reported older

/-- The SDK is between the start of an `init` and the return of the next `deinit`. -/
def sdkUp : List Event → Bool
  | [] => false
  | .initStarted :: _ => true
  | .deinitReturned :: _ => false
  | _ :: older => sdkUp older

/-- The caches `sdk_linked_` and `control_authority_`. -/
def World.cached (w : World) : Bool × Bool := (w.shared.sdkLinked, w.shared.controlAuthority)

/-- The controller's own copies of them. -/
def World.gated (w : World) : Bool × Bool :=
  (w.ctl.status.sdkLinked, w.ctl.status.controlAuthority)

/-- A connected session goes by its own reports: both copies are the last of them, and requests,
    velocities and stops get through only on what it said. -/
structure OnOwnReports (cfg : RuntimeConfig) (w : World) : Prop where
  cached : w.cached = reported w.trace
  gated : w.gated = reported w.trace
  request : w.shared.sessionDown = false → (reported w.trace).1 = true
  mode : ∀ name, (w.ctl.requestMode w.clock name).1.accepted = true →
    reported w.trace = (true, true)
  velocity : ∀ v, (w.ctl.acceptVelocity w.clock v).1.accepted = true →
    reported w.trace = (true, true)
  estop : ∀ p ans w', w.wk.pc = .estopRead p → step cfg (.worker ans) w = some w' →
    w'.wk.pc = .estopZero p → reported w.trace = (true, true)
  stop : ∀ ans w', w.wk.pc = .stopRead → step cfg (.worker ans) w = some w' →
    w'.wk.pc = .stopZero → reported w.trace = (true, true)

/-- The SDK reports only between the start of `init` and the return of `deinit`. -/
def World.callbackInTime (w : World) : Action → Bool
  | .status _ _ => sdkUp w.trace
  | _ => true

/-- The worker has cleared the caches and not yet returned from `deinit`, and may reconnect. -/
def Pc.tearsDown : Pc → Bool
  | .invalidateStatus _ | .invalidateConnection _ => true
  | .deinit k => k != .quit
  | _ => false

/-- A report of a link or an authority that arrives when the teardown has already cleared the
    caches, in a runtime that is not stopping. -/
def World.lateReport (w : World) : Action → Bool
  | .status linked authority =>
      w.wk.pc.tearsDown && !w.shared.stopRequested && (linked || authority)
  | _ => false

/-! ### The defect -/

/-- A session ended by its heartbeat; one more report before `deinit`, and the reconnection. -/
def lateReporting (linked : Bool) : List Action :=
  .start :: works 13 (obliging 0xB104) ++ [.status true true, .advance (ms 100)] ++
    works 8 (obliging 0xB104) ++ [.worker { result := .failure sdkResTimeout "timeout" }] ++
    works 4 (obliging 0xB104) ++ [.status linked linked] ++ works 2 (obliging 0xB104) ++
    [.advance (ms 1000)] ++ works 14 (obliging 0xB104)

/-- **The defect.** The reconnected session holds link and authority that were reported to the
    ended one: it has no report of its own. -/
theorem late_report_survives : ¬ ∀ cfg w, Run cfg (fun w a => w.callbackInTime a = true) w →
    w.shared.connected = true → OnOwnReports cfg w := by
  intro hall
  obtain ⟨w, hrun, hw⟩ := exists_run_of_exec {} (fun w a => w.callbackInTime a = true)
    (lateReporting true) (fun w => w.shared.connected && decide (w.cached = (true, true)) &&
      decide (reported w.trace = (false, false))) (by decide +kernel)
  simp only [Bool.and_eq_true, decide_eq_true_eq] at hw
  obtain ⟨⟨hconn, hcached⟩, hreported⟩ := hw
  have heq := (hall {} w hrun hconn).cached
  rw [hcached, hreported] at heq
  exact absurd heq (by simp)

/-! ### Without late reports -/

/-- What the two copies are, by the worker's position. -/
inductive LinkPhase
  /-- Between the start of `init` and the end of the session: the last report since that start. -/
  | own
  /-- Before `init`: false. -/
  | clean
  /-- After the teardown cleared both, unless a stop lets the worker return: false. -/
  | leaving
  /-- The teardown cleared the caches and not yet the controller. -/
  | cleared
  /-- The teardown has not begun clearing, or the worker will not connect again. -/
  | open

/-- The phase of a program counter. -/
def Pc.linkPhase : Pc → LinkPhase
  | .idle | .preflight | .checkStopAfterPreflight | .clearLatch | .initCall => .clean
  | .checkStop | .invalidateConnection _ | .checkStopAfterSession | .backoff _ => .leaving
  | .invalidateStatus _ => .cleared
  | .deinit .quit | .invalidateCaches _ | .returned => .open
  | .deinit _ => .leaving
  | _ => .own

/-- The SDK is not initialised. -/
def Pc.sdkDown : Pc → Bool
  | .idle | .checkStop | .preflight | .checkStopAfterPreflight | .clearLatch | .initCall
  | .checkStopAfterSession | .backoff _ | .returned => true
  | _ => false

/-- Both copies are what the phase says. -/
def LinkInv (w : World) : Prop :=
  match w.wk.pc.linkPhase with
  | .own => w.cached = reported w.trace ∧ w.gated = reported w.trace
  | .clean => w.cached = (false, false) ∧ w.gated = (false, false)
  | .leaving => w.shared.stopRequested = false →
      w.cached = (false, false) ∧ w.gated = (false, false)
  | .cleared => w.shared.stopRequested = false → w.cached = (false, false)
  | .open => True

/-- Events that are not about the link leave the reports and the controller's status alone. -/
theorem Extends.link {deadman now : Time} {P : Event → Prop} {c c' : RobotController}
    {t t' : List Event} (h : Extends deadman now P c t c' t') (hP : ∀ e, P e → e.aboutLink = false) :
    c'.status = c.status ∧ reported t' = reported t ∧ sdkUp t' = sdkUp t := by
  induction h with
  | refl => exact ⟨rfl, rfl, rfl⟩
  | @control c₁ t₁ op _ he ih =>
    have hop : ∀ s, op ≠ .updateRobotState s := by
      rintro s rfl
      exact absurd (hP _ he) (by simp [Event.aboutLink, Operation.call])
    exact ⟨((apply_other op).1 hop).trans ih.1, ih.2⟩
  | @other c₁ t₁ e _ he _ ih =>
    have hnot := hP _ he
    cases e with
    | initStarted | deinitReturned | statusReport _ _ => exact absurd hnot (by simp [Event.aboutLink])
    | _ => exact ih

/-- A step that is not about the link. -/
theorem step_link (hs : step cfg a w = some w') (ha : w.aboutLink a = false) :
    w'.gated = w.gated ∧ reported w'.trace = reported w.trace ∧ sdkUp w'.trace = sdkUp w.trace := by
  have hnot : ∀ e, EventOf w a e → e.aboutLink = false := by
    intro e he
    by_contra hlink
    rw [he.link (by simpa using hlink)] at ha
    exact absurd ha (by simp)
  obtain ⟨hstatus, hrest⟩ := Extends.link (step_extends hs) hnot
  exact ⟨by rw [World.gated, World.gated, hstatus], hrest⟩

/-- **Run lemma.** Before `init` and after `deinit` the SDK is down. -/
theorem Run.sdkDown (h : Run cfg ok w) : w.wk.pc.sdkDown = true → sdkUp w.trace = false := by
  refine h.worker_history (I := fun wk t => wk.pc.sdkDown = true → sdkUp t = false)
    (fun _ => rfl) ?_ ?_ ?_
  · intro wk t e he ih hdown
    cases e with
    | initStarted | deinitReturned => exact absurd he (by simp [Event.byClient])
    | _ => exact ih hdown
  · intro wk t hidle ih _
    exact ih (by rw [hidle]; rfl)
  · intro w ans w' _ ih hs hdown
    by_cases hlink : w.aboutLink (.worker ans) = true
    · cases hpc : w.wk.pc
      all_goals simp only [World.aboutLink, hpc, Bool.false_eq_true] at hlink
      all_goals rw [hpc] at hs
      all_goals simp only [workerStep, Option.some.injEq] at hs
      all_goals subst hs
      case deinit k => cases k <;> rfl
      all_goals exact absurd hdown (by simp [Pc.sdkDown])
    · rw [(step_link (a := .worker ans) hs (by simpa using hlink)).2.2]
      refine ih ?_
      cases hpc : w.wk.pc
      all_goals simp only [World.aboutLink, hpc, not_true_eq_false] at hlink
      all_goals rw [hpc] at hs
      all_goals simp only [workerStep] at hs
      all_goals repeat' split at hs
      all_goals simp only [Option.some.injEq, reduceCtorEq] at hs
      all_goals subst hs
      all_goals simp [Pc.sdkDown] at hdown ⊢

/-- A worker step other than `init` and `deinit` leaves the SDK as it is. -/
theorem workerStep_sdkUp (hs : workerStep cfg ans w w.wk.pc = some w') (hinit : w.wk.pc ≠ .initCall)
    (hdeinit : ∀ k, w.wk.pc ≠ .deinit k) : sdkUp w'.trace = sdkUp w.trace := by
  by_cases hlink : w.aboutLink (.worker ans) = true
  · cases hpc : w.wk.pc
    all_goals simp only [World.aboutLink, hpc, Bool.false_eq_true] at hlink
    all_goals rw [hpc] at hs
    all_goals simp only [workerStep, Option.some.injEq] at hs
    case initCall => exact absurd hpc hinit
    case deinit k => exact absurd hpc (hdeinit k)
    all_goals subst hs
    all_goals rfl
  · exact (step_link (a := .worker ans) hs (by simpa using hlink)).2.2

theorem Pc.linkPhase_deinit (k : AfterDeinit) : (Pc.deinit k).linkPhase ≠ .own := by
  cases k <;> simp [linkPhase]

/-- **Run lemma.** From the start of `init` to the end of the session the SDK is up. -/
theorem Run.sdkUp (h : Run cfg ok w) : w.wk.pc.linkPhase = .own → sdkUp w.trace = true := by
  refine h.worker_history (I := fun wk t => wk.pc.linkPhase = .own → Runtime.sdkUp t = true)
    (fun hown => absurd hown (by simp [World.initial, Pc.linkPhase])) ?_ ?_ ?_
  · intro wk t e he ih hown
    cases e with
    | initStarted | deinitReturned => exact absurd he (by simp [Event.byClient])
    | _ => exact ih hown
  · intro wk t hidle _ hown
    exact absurd hown (by simp [Pc.linkPhase])
  · intro w ans w' _ ih hs hown
    -- `init` is the only way into the phase.
    have hup : w.wk.pc ≠ .initCall → w.wk.pc.linkPhase = .own := by
      intro hne
      cases hpc : w.wk.pc
      all_goals rw [hpc] at hs hne
      all_goals simp only [workerStep] at hs
      all_goals repeat' split at hs
      all_goals simp only [Option.some.injEq, reduceCtorEq] at hs
      all_goals subst hs
      case invalidateConnection k => exact absurd hown (Pc.linkPhase_deinit k)
      all_goals simp_all [Pc.linkPhase]
    by_cases hinit : w.wk.pc = .initCall
    · rw [hinit] at hs
      simp only [workerStep, Option.some.injEq] at hs
      subst hs
      rfl
    · rw [workerStep_sdkUp hs hinit (fun k hk => by
        have hphase := hup hinit
        rw [hk] at hphase
        exact Pc.linkPhase_deinit k hphase)]
      exact ih (hup hinit)

/-- A worker step keeps the stop request, and all but one keep the caches. -/
theorem workerStep_cached (hs : workerStep cfg ans w w.wk.pc = some w') :
    w'.shared.stopRequested = w.shared.stopRequested ∧
      ((∀ k, w.wk.pc ≠ .invalidateCaches k) → w'.cached = w.cached) := by
  cases hpc : w.wk.pc
  all_goals rw [hpc] at hs
  all_goals simp only [workerStep] at hs
  all_goals repeat' split at hs
  all_goals simp only [Option.some.injEq, reduceCtorEq] at hs
  all_goals subst hs
  all_goals simp [World.cached]

/-- **Step lemma, worker.** -/
theorem LinkInv.worker_step (h : LinkInv w) (hs : workerStep cfg ans w w.wk.pc = some w') :
    LinkInv w' := by
  obtain ⟨hstop, hcached⟩ := workerStep_cached hs
  by_cases hlink : w.aboutLink (.worker ans) = true
  · cases hpc : w.wk.pc
    all_goals simp only [World.aboutLink, hpc, Bool.false_eq_true] at hlink
    all_goals rw [hpc] at hs
    all_goals simp only [workerStep, Option.some.injEq] at hs
    all_goals simp only [LinkInv, hpc, Pc.linkPhase] at h
    all_goals subst hs
    case initCall => exact h
    case deinit k => cases k <;> exact h
    case pollApply s =>
      -- The poll writes the caches into the controller.
      have hstatus : (Operation.apply (ms cfg.deadmanMs) w.clock w.ctl (.updateRobotState
          ⟨w.shared.sdkLinked, w.shared.controlAuthority, s.sportStatus, s.errorCode⟩)).2.status =
          ⟨w.shared.sdkLinked, w.shared.controlAuthority, s.sportStatus, s.errorCode⟩ :=
        updateRobotState_status _ _ _
      refine ⟨h.1, ?_⟩
      simp only [World.gated, World.goto_ctl, World.control_ctl, hstatus]
      exact h.1
    case invalidateStatus k =>
      -- The teardown clears the controller after the caches.
      have hstatus : (Operation.apply (ms cfg.deadmanMs) w.clock w.ctl
          (.updateRobotState {})).2.status = {} := updateRobotState_status _ _ _
      refine fun hrun => ⟨h hrun, ?_⟩
      simp only [World.gated, World.goto_ctl, World.control_ctl, hstatus]
  · obtain ⟨hgated, hreported, -⟩ := step_link (a := .worker ans) hs (by simpa using hlink)
    by_cases hclear : ∃ k, w.wk.pc = .invalidateCaches k
    · obtain ⟨k, hpc⟩ := hclear
      rw [hpc] at hs
      simp only [workerStep, Option.some.injEq] at hs
      subst hs
      exact fun _ => rfl
    · -- Nothing moves; where the phase changes, the old phase says enough for the new one.
      have hkept := hcached (fun k hk => hclear ⟨k, hk⟩)
      unfold LinkInv at h ⊢
      rw [hgated, hreported, hkept, hstop]
      clear hgated hreported hkept hstop hcached
      cases hpc : w.wk.pc
      all_goals simp only [World.aboutLink, hpc, not_true_eq_false] at hlink
      all_goals rw [hpc] at hs h
      all_goals simp only [workerStep] at hs
      all_goals repeat' split at hs
      all_goals simp only [Option.some.injEq, reduceCtorEq] at hs
      all_goals subst hs
      case invalidateConnection k =>
        cases k with
        | quit => trivial
        | retry | sessionOver => exact h
      all_goals simp [Pc.linkPhase] at h ⊢
      all_goals first
        | exact h
        | exact fun _ => h
        | simp_all

/-- A step of a client leaves the caches alone, and only `stop` requests a stop. -/
theorem step_cached (hs : step cfg a w = some w') (ha : w.workerAt a = none)
    (hstatus : ∀ linked authority, a ≠ .status linked authority) :
    w'.cached = w.cached ∧ (w'.shared.stopRequested = false → w.shared.stopRequested = false) := by
  cases a
  case worker ans => exact absurd ha (by simp)
  case status linked authority => exact absurd rfl (hstatus linked authority)
  all_goals simp only [step, World.start, World.markEstop, World.requestAuthority,
    World.requestMode, World.acceptMode, World.enqueueMode] at hs
  all_goals repeat' split at hs
  all_goals simp only [Option.some.injEq, reduceCtorEq] at hs
  all_goals subst hs
  all_goals simp [World.cached]

/-- **Step lemma.** A report in time and not late keeps the invariant, and so does every other
    step. -/
theorem LinkInv.step (h : LinkInv w) (hdown : w.wk.pc.sdkDown = true → sdkUp w.trace = false)
    (htime : w.callbackInTime a = true) (hlate : w.lateReport a = false)
    (hs : step cfg a w = some w') : LinkInv w' := by
  cases a
  case worker ans => exact h.worker_step hs
  case status linked authority =>
    have hup : w.wk.pc.sdkDown ≠ true := by
      intro hpc
      simp only [World.callbackInTime, hdown hpc] at htime
      exact absurd htime (by simp)
    simp only [Runtime.step, Option.some.injEq] at hs
    subst hs
    have hgated : (w.handleStatus cfg linked authority).gated = (linked, authority) := by
      simp [World.gated, Operation.apply, updateRobotState_status]
    have hcached : (w.handleStatus cfg linked authority).cached = (linked, authority) := rfl
    have hreported : reported (w.handleStatus cfg linked authority).trace = (linked, authority) := rfl
    unfold LinkInv
    rw [hgated, hcached, hreported]
    simp only [World.lateReport] at hlate
    -- In its own phase the report is the last one; in the others it is empty, or late.
    cases hpc : w.wk.pc
    all_goals rw [hpc] at hup hlate
    all_goals simp [Pc.sdkDown, Pc.linkPhase, Pc.tearsDown, hpc] at hup hlate ⊢
    case invalidateStatus | invalidateConnection => exact hlate
    case deinit k => cases k <;> simp_all
  all_goals
    obtain ⟨hcached, hstop⟩ := step_cached hs rfl (by simp)
    obtain ⟨hgated, hreported, -⟩ := step_link hs rfl
    unfold LinkInv at h ⊢
    rw [hcached, hgated, hreported]
    rcases step_wk hs rfl with hwk | ⟨hidle, hwk⟩
    · rw [hwk]
      revert h
      cases w.wk.pc.linkPhase <;> simp_all
    · rw [hwk]
      rw [hidle] at h
      exact fun _ => h

/-- **Run lemma.** -/
theorem Run.linkInv (h : Run cfg (fun w a => w.callbackInTime a = true ∧ w.lateReport a = false) w) :
    LinkInv w :=
  h.invariant ⟨rfl, rfl⟩ (fun _ _ _ hrun hi hok hs => hi.step hrun.sdkDown hok.1 hok.2 hs)

/-- **A session goes by its own reports.** When no link or authority is reported between the
    clearing of the caches and the return of `deinit`, every state with `connected_` set has both
    copies equal to the last report since the current attempt's `init`. -/
theorem session_on_own_reports
    (hrun : Run cfg (fun w a => w.callbackInTime a = true ∧ w.lateReport a = false) w)
    (hconn : w.shared.connected = true) : OnOwnReports cfg w := by
  have hin : w.wk.pc.inSession = true := by
    rw [← hrun.session.connected]
    exact hconn
  obtain ⟨hcached, hgated⟩ : w.cached = reported w.trace ∧ w.gated = reported w.trace := by
    have hinv := hrun.linkInv
    unfold LinkInv at hinv
    have hphase : w.wk.pc.linkPhase = .own := by
      cases hpc : w.wk.pc <;> rw [hpc] at hin <;> first
        | rfl
        | exact absurd hin (by simp [Pc.inSession])
    rwa [hphase] at hinv
  have hhealthy : w.ctl.status.healthy = true → reported w.trace = (true, true) := by
    intro hh
    simp only [ControllerStatus.healthy, Bool.and_eq_true] at hh
    rw [← hgated, World.gated, hh.1.1, hh.1.2]
  refine ⟨hcached, hgated, ?_, ?_, ?_, ?_, ?_⟩
  · intro hup
    simp only [Shared.sessionDown, Bool.or_eq_false_iff, Bool.not_eq_false'] at hup
    rw [← hcached]
    exact hup.1.2
  · intro name hacc
    rcases requestMode_cases w.clock name w.ctl with ⟨mode, _, _, _, hh, _⟩ | ⟨hrej, _⟩
    · exact hhealthy hh
    · exact absurd hacc (by simp [hrej])
  · intro v hacc
    refine hhealthy ?_
    -- Without a healthy status the controller is not ready, and rejects.
    by_contra hh
    have hnot : w.ctl.movementReady = false := by
      by_contra hready
      exact hh (movementReady_iff.mp (by simpa using hready)).2.2.2.1
    simp only [acceptVelocity, hnot, Bool.not_false, if_true] at hacc
    split at hacc
    · exact absurd hacc (by simp)
    · unfold rejection at hacc
      repeat' split at hacc
      all_goals exact absurd hacc (by simp)
  · intro p ans w' hpc hs hzero
    rw [← hcached, World.cached]
    simp only [Runtime.step, hpc, workerStep] at hs
    split at hs
    · rw [← Option.some.inj hs] at hzero
      exact absurd hzero (by simp)
    · simp_all
  · intro ans w' hpc hs hzero
    rw [← hcached, World.cached]
    simp only [Runtime.step, hpc, workerStep] at hs
    rw [← Option.some.inj hs] at hzero
    simp only [World.goto_wk_pc] at hzero
    split at hzero
    · exact absurd hzero (by simp)
    · simp_all

/-- With a late report of nothing, the reconnected session starts without a link and turns every
    request down. -/
theorem session_on_own_reports_reconnected :
    ∃ w, Run {} (fun w a => w.callbackInTime a = true ∧ w.lateReport a = false) w ∧
      w.shared.connected = true ∧ w.cached = (false, false) ∧ w.shared.sessionDown = true := by
  obtain ⟨w, hrun, hw⟩ := exists_run_of_exec {}
    (fun w a => w.callbackInTime a = true ∧ w.lateReport a = false) (lateReporting false)
    (fun w => w.shared.connected && decide (reported w.trace = (false, false))) (by decide +kernel)
  simp only [Bool.and_eq_true, decide_eq_true_eq] at hw
  obtain ⟨hconn, hreported⟩ := hw
  have hown := session_on_own_reports hrun hconn
  refine ⟨w, hrun, hconn, hown.cached.trans hreported, ?_⟩
  by_contra hup
  have hlinked := hown.request (by simpa using hup)
  rw [hreported] at hlinked
  exact absurd hlinked (by simp)

end HypertronBridge.Runtime
