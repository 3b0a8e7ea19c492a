import Mathlib.Order.MinMax
import HypertronBridge.Runtime.LinkDrop
import HypertronBridge.Runtime.Response

namespace HypertronBridge.Runtime

open TransitionSystem

/-!
# A lost session is followed by another

When the link has dropped, or no session is up, the worker leaves what is left of the session, waits out its
pause and connects again.  While the network and the SDK answer with success it does so in a bounded number of
steps; the pause is the only thing that it ever waits for, and that is bounded too.

* `Lost` — the session is lost, or none is up, and nobody asked to stop;
* `BackoffBounded` — the pause that is left;
* `session_recovers` — the result.
-/

variable {cfg : RuntimeConfig} {w w' : World} {a : Action} {ans : Answer} {as : List Action}
  {ok : World → Action → Prop}

/-- No stop, and the preflight and the SDK calls of the worker succeed. -/
def Action.obliges : Action → Bool
  | .stop => false
  | .worker ans => ans.ready && ans.result.success
  | _ => true

/-! ### What is left of a pause -/

/-- The largest pause. -/
def RuntimeConfig.maxPause (cfg : RuntimeConfig) : Nat :=
  max cfg.reconnectInitialDelayMs cfg.reconnectMaxDelayMs

/-- The delay is no larger than the largest pause, and neither is what is left of a pause. -/
structure BackoffBounded (cfg : RuntimeConfig) (w : World) : Prop where
  delay : w.wk.backoffMs ≤ cfg.maxPause
  left : ∀ wakeAt, w.wk.pc = .backoff wakeAt → wakeAt ≤ w.clock + ms cfg.maxPause

theorem ms_le {n m : Nat} (h : n ≤ m) : ms n ≤ ms m := Nat.mul_le_mul_left _ h

theorem BackoffBounded.worker (h : BackoffBounded cfg w) (hs : workerStep cfg ans w w.wk.pc = some w') :
    BackoffBounded cfg w' := by
  obtain ⟨hdelay, hleft⟩ := h
  have hinitial : cfg.reconnectInitialDelayMs ≤ cfg.maxPause := le_max_left ..
  have hmax : cfg.reconnectMaxDelayMs ≤ cfg.maxPause := le_max_right ..
  have hpause : w.clock + ms w.wk.backoffMs ≤ w.clock + ms cfg.maxPause :=
    Nat.add_le_add_left (ms_le hdelay) _
  cases hpc : w.wk.pc
  all_goals rw [hpc] at hs
  all_goals simp only [workerStep] at hs
  all_goals repeat' split at hs
  all_goals simp only [Option.some.injEq, reduceCtorEq] at hs
  all_goals subst hs
  all_goals refine ⟨?_, ?_⟩
  all_goals simp [hdelay, hpause, hinitial, hmax]

/-- **Run lemma.** -/
theorem Run.backoffBounded (h : Run cfg ok w) : BackoffBounded cfg w := by
  refine h.invariant (I := BackoffBounded cfg) ?_ (fun s a s' _ hi _ hs => ?_)
  · exact ⟨le_max_left .., fun wakeAt hpc => absurd hpc (by simp [World.initial])⟩
  · rcases s.worker_or_client a with ⟨ans, rfl⟩ | ha
    · exact hi.worker hs
    · have hclock := step_clock_le hs
      rcases step_wk hs ha with hwk | ⟨-, hwk⟩
      · refine ⟨by rw [hwk]; exact hi.delay, fun wakeAt hpc => ?_⟩
        rw [hwk] at hpc
        exact (hi.left wakeAt hpc).trans (Nat.add_le_add_right hclock _)
      · exact ⟨by rw [hwk]; exact hi.delay, fun wakeAt hpc => absurd hpc (by simp [hwk])⟩

/-! ### A lost session -/

/-- The session is lost, or none is up; the worker runs, and nobody has asked it to stop. -/
structure Lost (w : World) : Prop where
  started : w.wk.pc ≠ .idle
  running : w.shared.stopRequested = false
  dropped : w.wk.pc.inSession = true → w.shared.linkDropLatched = true

/-- The steps to the next session, outside one, when every call succeeds. -/
def Pc.stepsToConnect : Pc → Nat
  | .connect => 1
  | .checkStopAfterSubscribe => 2
  | .subscribeLidar => 3
  | .subscribeSport => 4
  | .subscribeImu => 5
  | .checkStopAfterInit => 6
  | .initReturn => 7
  | .initCall => 8
  | .clearLatch => 9
  | .checkStopAfterPreflight => 10
  | .preflight => 11
  | .checkStop => 12
  | .backoff _ => 13
  | .checkStopAfterSession => 14
  | .deinit _ => 15
  | .invalidateConnection _ => 16
  | .invalidateStatus _ => 17
  | .invalidateCaches _ => 18
  | _ => 0

/-- The steps to the next session: to the end of the one that is lost, and on from there. -/
def World.recoveryRank (w : World) : Nat :=
  if w.wk.pc.inSession then 18 + w.drainRank else w.wk.pc.stepsToConnect

theorem recoveryRank_le : w.recoveryRank ≤ 54 + 2 * w.queue.items.length := by
  have hdrain : w.wk.pc.stepsToDrain ≤ 36 := by
    unfold Pc.stepsToDrain
    split <;> omega
  have hconnect : w.wk.pc.stepsToConnect ≤ 18 := by
    unfold Pc.stepsToConnect
    split <;> omega
  unfold World.recoveryRank World.drainRank
  split <;> omega

/-- The worker is about to return, or has. -/
def Pc.quits : Pc → Bool
  | .invalidateCaches k | .invalidateStatus k | .invalidateConnection k | .deinit k => k == .quit
  | .returned => true
  | _ => false

/-- The worker returns only when it is asked to stop. -/
theorem Run.quits (h : Run cfg ok w) : w.wk.pc.quits = true → w.shared.stopRequested = true := by
  refine h.invariant (I := fun w => w.wk.pc.quits = true → w.shared.stopRequested = true)
    (by simp [World.initial, Pc.quits]) (fun s a s' _ hi _ hs => ?_)
  rcases s.worker_or_client a with ⟨ans, rfl⟩ | ha
  · have hstep : workerStep cfg ans s s.wk.pc = some s' := hs
    cases hpc : s.wk.pc
    all_goals rw [hpc] at hstep hi
    all_goals simp only [workerStep] at hstep
    all_goals repeat' split at hstep
    all_goals simp only [Option.some.injEq, reduceCtorEq] at hstep
    all_goals subst hstep
    all_goals simp_all [Pc.quits]
  · rcases step_wk hs ha with hwk | ⟨-, hwk⟩
    · rw [hwk]
      exact fun hpc => clientStep_stop hs ha (hi hpc)
    · exact fun hpc => absurd hpc (by simp [hwk, Pc.quits])

/-- **Step lemma, the worker in the session.** -/
theorem Lost.inSession (h : Lost w) (hin : w.wk.pc.inSession = true)
    (hs : workerStep cfg ans w w.wk.pc = some w') : Lost w' ∧ 1 + w'.recoveryRank ≤ w.recoveryRank := by
  have hdropped := h.dropped hin
  have hrank := workerStep_drainRank hin hdropped hs
  have hlost : Lost w' := by
    obtain ⟨hstop, hstarted, -⟩ := workerStep_leaves hs
    refine ⟨hstarted, hstop.trans h.running, fun _ => ?_⟩
    rcases workerStep_latch hs with hsame | ⟨hpc, -⟩
    · rw [hsame]
      exact hdropped
    · exact absurd hin (by simp [hpc, Pc.inSession])
  refine ⟨hlost, ?_⟩
  cases hin' : w'.wk.pc.inSession with
  | true =>
    rw [World.recoveryRank, World.recoveryRank, if_pos hin, if_pos hin']
    omega
  | false =>
    -- only the drain leaves the session
    rcases workerStep_outside hs hin' with hpc | ⟨hout, -⟩
    · rw [hpc] at hs
      simp only [workerStep, Option.some.injEq] at hs
      subst hs
      simp [World.recoveryRank, World.drainRank, hpc, Pc.inSession, Pc.stepsToConnect, Pc.stepsToDrain]
      omega
    · exact absurd hin (by simp [hout])

/-- **Step lemma, the worker outside a session.** -/
theorem Lost.outside (h : Lost w) (hout : w.wk.pc.inSession = false) (hquits : w.wk.pc.quits = false)
    (hgood : (Action.worker ans).obliges = true) (hs : workerStep cfg ans w w.wk.pc = some w') :
    w.trace.count .sessionOpened < w'.trace.count .sessionOpened ∨
      Lost w' ∧ 1 + w'.recoveryRank ≤ w.recoveryRank := by
  obtain ⟨hstarted, hrunning, -⟩ := h
  simp only [Action.obliges, Bool.and_eq_true] at hgood
  obtain ⟨hready, hsuccess⟩ := hgood
  cases hpc : w.wk.pc
  all_goals rw [hpc] at hs hout hstarted hquits
  all_goals simp only [Pc.inSession, Bool.true_eq_false] at hout
  case connect =>
    simp only [workerStep, Option.some.injEq] at hs
    subst hs
    refine Or.inl ?_
    show _ < (Event.sessionOpened :: w.trace).count .sessionOpened
    rw [List.count_cons_self]
    exact Nat.lt_succ_self _
  all_goals simp only [workerStep, hrunning, hready, hsuccess] at hs
  all_goals repeat' split at hs
  all_goals simp only [Option.some.injEq, reduceCtorEq] at hs
  all_goals subst hs
  all_goals refine Or.inr ⟨⟨?_, ?_, ?_⟩, ?_⟩
  all_goals simp_all [World.recoveryRank, Pc.inSession, Pc.stepsToConnect, Pc.quits]

/-- Only a stop request stops. -/
theorem clientStep_running (hs : step cfg a w = some w') (ha : w.workerAt a = none)
    (hgood : a.obliges = true) : w'.shared.stopRequested = w.shared.stopRequested := by
  cases a
  case worker ans => exact absurd ha (by simp)
  case stop => exact absurd hgood (by simp [Action.obliges])
  all_goals simp only [step, World.start, World.markEstop, World.requestAuthority, World.requestMode,
    World.acceptMode, World.enqueueMode, World.handleStatus] at hs
  all_goals repeat' split at hs
  all_goals simp only [Option.some.injEq, reduceCtorEq] at hs
  all_goals subst hs
  all_goals simp

/-- A link drop stays latched. -/
theorem clientStep_latched (hs : step cfg a w = some w') (ha : w.workerAt a = none)
    (hl : w.shared.linkDropLatched = true) : w'.shared.linkDropLatched = true := by
  by_cases hstatus : ∃ linked authority, a = .status linked authority
  · obtain ⟨linked, authority, rfl⟩ := hstatus
    simp only [step, Option.some.injEq] at hs
    subst hs
    simp [hl]
  · rw [(clientStep_flags hs ha (fun linked authority heq => hstatus ⟨linked, authority, heq⟩)).1]
    exact hl

/-- **Step lemma, the others.** They leave a lost session lost. -/
theorem Lost.client (h : Lost w) (hreach : Reachable cfg w) (hgood : a.obliges = true)
    (hs : step cfg a w = some w') (ha : w.workerAt a = none) :
    Lost w' ∧ w'.recoveryRank ≤ w.recoveryRank := by
  rcases step_wk hs ha with hwk | ⟨hidle, -⟩
  · have hrunning : w'.shared.stopRequested = false := by
      rw [clientStep_running hs ha hgood]
      exact h.running
    have hlost : Lost w' := by
      refine ⟨by rw [hwk]; exact h.started, hrunning, fun hin => ?_⟩
      rw [hwk] at hin
      exact clientStep_latched hs ha (h.dropped hin)
    refine ⟨hlost, ?_⟩
    cases hin : w.wk.pc.inSession with
    | true =>
      have hqueue := clientStep_queue hreach.conserved (h.dropped hin) hs ha
      rw [World.recoveryRank, World.recoveryRank, World.drainRank, World.drainRank, hwk, hqueue]
    | false =>
      rw [World.recoveryRank, World.recoveryRank, hwk, hin]
      exact Nat.le_refl _
  · exact absurd hidle h.started

/-- What a lost session's worker does next is open to it, unless it waits out a pause. -/
theorem Lost.goesOn (h : Lost w) (hreach : Reachable cfg w) :
    (∀ ans, ∃ w', step cfg (.worker ans) w = some w') ∨
      ∃ wakeAt, w.wk.pc = .backoff wakeAt ∧ w.clock < wakeAt ∧ wakeAt ≤ w.clock + ms cfg.maxPause := by
  have hreturned : w.wk.pc ≠ .returned := fun hpc =>
    absurd (hreach.quits (by simp [hpc, Pc.quits])) (by simp [h.running])
  cases hsleeps : w.sleeps with
  | false => exact Or.inl (worker_goes_on hreach.session h.started hreturned hsleeps)
  | true =>
    unfold World.sleeps at hsleeps
    split at hsleeps
    · rename_i hpc
      have hwoken : w.woken = true := by simp [World.woken, h.dropped (by simp [hpc, Pc.inSession])]
      exact absurd hsleeps (by simp [hwoken])
    · rename_i wakeAt hpc
      rw [Bool.and_eq_true, decide_eq_true_eq] at hsleeps
      exact Or.inr ⟨wakeAt, hpc, hsleeps.2, hreach.backoffBounded.left wakeAt hpc⟩
    · exact absurd hsleeps (by simp)

/-- **A lost session is followed by another.** From any state of a run in which the session's link has dropped,
    or none is up, and nobody has asked to stop: whatever the clients, the status callbacks and the clock do in
    between, while the worker's calls succeed, another session opens before the worker takes more steps than 54
    and two for each command that is left; and until then the worker's next step is open to it, unless it waits
    out a pause, of which no more than the largest one is left. -/
theorem session_recovers (hrun : Reachable cfg w) (hlost : Lost w) (hpath : Path (step cfg) w as w')
    (hgood : ∀ a ∈ as, a.obliges = true) :
    w.trace.count .sessionOpened < w'.trace.count .sessionOpened ∨
      (as.countP Action.isWorker ≤ 54 + 2 * w.queue.items.length ∧
        ((∀ ans, ∃ w'', step cfg (.worker ans) w' = some w'') ∨
          ∃ wakeAt, w'.wk.pc = .backoff wakeAt ∧ w'.clock < wakeAt ∧
            wakeAt ≤ w'.clock + ms cfg.maxPause)) := by
  have hbound := recoveryRank_le (w := w)
  have hgrows : ∀ {v v' : World} {a : Action}, step cfg a v = some v' →
      v.trace.count .sessionOpened ≤ v'.trace.count .sessionOpened := by
    intro v v' a hs
    obtain ⟨new, heq, -⟩ := Extends.trace (step_extends hs)
    rw [heq, List.count_append]
    exact Nat.le_add_left ..
  have hstep : ∀ v a v', (Reachable cfg v ∧ Lost v ∧
      w.trace.count .sessionOpened ≤ v.trace.count .sessionOpened) →
      (if a.obliges then step cfg a v else none) = some v' →
      w.trace.count .sessionOpened < v'.trace.count .sessionOpened ∨
        (Reachable cfg v' ∧ Lost v' ∧ w.trace.count .sessionOpened ≤ v'.trace.count .sessionOpened) ∧
          a.isWorker.toNat + v'.recoveryRank ≤ v.recoveryRank + 0 := by
    rintro v a v' ⟨hreach, hlost, hle⟩ hs
    cases hgood : a.obliges with
    | false => exact absurd hs (by simp [hgood])
    | true =>
      rw [hgood, if_pos rfl] at hs
      have hreach' : Reachable cfg v' := hreach.tail trivial hs
      have hle' := hle.trans (hgrows hs)
      rcases v.worker_or_client a with ⟨ans, rfl⟩ | ha
      · cases hin : v.wk.pc.inSession with
        | true =>
          obtain ⟨hlost', hrank⟩ := hlost.inSession hin hs
          exact Or.inr ⟨⟨hreach', hlost', hle'⟩, hrank⟩
        | false =>
          have hstays : v.wk.pc.quits = false := by
            by_contra hquits
            exact absurd (hreach.quits (by simpa using hquits)) (by simp [hlost.running])
          rcases hlost.outside hin hstays hgood hs with hopened | ⟨hlost', hrank⟩
          · exact Or.inl (Nat.lt_of_le_of_lt hle hopened)
          · exact Or.inr ⟨⟨hreach', hlost', hle'⟩, hrank⟩
      · have hother : a.isWorker = false := by
          cases a with
          | worker ans => exact absurd ha (by simp)
          | _ => rfl
        obtain ⟨hlost', hrank⟩ := hlost.client hreach hgood hs ha
        rw [hother]
        exact Or.inr ⟨⟨hreach', hlost', hle'⟩, by simpa using hrank⟩
  have hanswer := (hpath.restrict hgood).answers Action.isWorker (fun _ => 0) World.recoveryRank hstep
    (fun v a v' hopened hs => by
      split at hs
      · exact Nat.lt_of_lt_of_le hopened (hgrows hs)
      · exact absurd hs (by simp)) ⟨hrun, hlost, Nat.le_refl _⟩
  rcases hanswer with hopened | ⟨⟨hreach, hlost', -⟩, hle⟩
  · exact Or.inl hopened
  · have hadds : (as.map (fun _ => 0)).sum = 0 := by simp
    rw [hadds] at hle
    exact Or.inr ⟨by omega, hlost'.goesOn hreach⟩

/-- A link drop: a while after it the worker waits out its pause. -/
theorem session_recovers_dropped : ∃ w w' wakeAt, Reachable {} w ∧ Lost w ∧ w.wk.pc.inSession = true ∧
    Path (step {}) w (works 7 (obliging 0xB104)) w' ∧ w'.wk.pc = .backoff wakeAt ∧
    w'.clock < wakeAt ∧ wakeAt ≤ w'.clock + ms 30000 := by
  obtain ⟨w, hrun, hw⟩ := exists_run_of_exec {} (fun _ _ => True) (readying ++ [.status false false])
    (fun w => w.wk.pc ≠ .idle ∧ w.shared.stopRequested = false ∧ w.shared.linkDropLatched ∧
      w.wk.pc.inSession ∧
      (execGuarded (step {}) (fun _ _ => True) (works 7 (obliging 0xB104)) w).any
        (fun w' => w'.trace.count .sessionOpened = w.trace.count .sessionOpened ∧
          (step {} (.worker (obliging 0xB104)) w').isNone)) (by decide +kernel)
  obtain ⟨hstarted, hrunning, hdropped, hin, hend⟩ := of_decide_eq_true hw
  obtain ⟨w', hex, hopen⟩ := (Option.any_eq_true _ _).mp hend
  obtain ⟨hcount, hclosed⟩ := of_decide_eq_true hopen
  have hpath := path_of_execGuarded _ hex
  have hlost : Lost w := ⟨hstarted, hrunning, fun _ => hdropped⟩
  have hgood : ∀ a ∈ works 7 (obliging 0xB104), a.obliges = true := by decide
  rcases session_recovers hrun hlost hpath hgood with hopened | ⟨-, hopen | ⟨wakeAt, hpc, hlt, hle⟩⟩
  · exact absurd hopened (by rw [hcount]; exact Nat.lt_irrefl _)
  · obtain ⟨w'', hs⟩ := hopen (obliging 0xB104)
    exact absurd hclosed (by simp [hs])
  · exact ⟨w, w', wakeAt, hrun, hlost, hin, hpath, hpc, hlt, hle⟩

end HypertronBridge.Runtime
