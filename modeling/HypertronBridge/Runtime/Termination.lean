import HypertronBridge.Lib.Ranking
import HypertronBridge.Runtime.Promises

namespace HypertronBridge.Runtime

open TransitionSystem

/-!
# The worker goes on, and returns

Nothing but its two timed waits ever keeps the worker from its next step, and once `stop()` has set
`stop_requested_` neither of these does: the worker returns after a bounded number of steps, whatever the
clients and the status callbacks do in between, so that the `join()` of `stop()` comes back as soon as the
SDK calls on the way do.

* `worker_goes_on` — what the worker's next step needs;
* `Pc.stepsToReturn`, `World.stopRank` — the steps that are left once a stop is requested;
* `stop_returns` — the result.
-/

variable {cfg : RuntimeConfig} {w w' : World} {a : Action} {ans : Answer} {as : List Action}

/-- The worker's actions. -/
def Action.isWorker : Action → Bool
  | .worker _ => true
  | _ => false

/-- The worker is at one of its two timed waits, and what it waits for has not happened. -/
def World.sleeps (w : World) : Bool :=
  match w.wk.pc with
  | .wait => !w.woken && decide (w.clock < w.wk.waitDeadline)
  | .backoff wakeAt => !w.shared.stopRequested && decide (w.clock < wakeAt)
  | _ => false

/-- **The worker goes on.** Whatever the call that it makes is answered, it takes its next step, unless it
    sleeps, has not been started or has returned. -/
theorem worker_goes_on (hsession : SessionInv w) (hidle : w.wk.pc ≠ .idle)
    (hreturned : w.wk.pc ≠ .returned) (hsleeps : w.sleeps = false) (ans : Answer) :
    ∃ w', step cfg (.worker ans) w = some w' := by
  show ∃ w', workerStep cfg ans w w.wk.pc = some w'
  have hslot := hsession.estop
  unfold World.sleeps at hsleeps
  cases hpc : w.wk.pc
  all_goals rw [hpc] at hsleeps
  case idle => exact absurd hpc hidle
  case returned => exact absurd hpc hreturned
  case estopCheck =>
    -- the mark and its promise go together, so the worker never takes a mark without a promise
    cases hp : w.shared.estopPromise with
    | none => simp [workerStep, hslot, hp]
    | some p => simp [workerStep, hslot, hp]
  case estopDrain p =>
    simp only [workerStep]
    repeat' split
    all_goals exact ⟨_, rfl⟩
  case wait =>
    simp only [Bool.and_eq_false_iff, Bool.not_eq_false', decide_eq_false_iff_not, Nat.not_lt] at hsleeps
    simp only [workerStep]
    rcases hsleeps with hwoken | hdue
    · rw [if_pos hwoken]
      exact ⟨_, rfl⟩
    · rw [if_pos hdue]
      split
      · exact ⟨_, rfl⟩
      · exact ⟨_, rfl⟩
  case backoff wakeAt =>
    simp only [Bool.and_eq_false_iff, Bool.not_eq_false', decide_eq_false_iff_not, Nat.not_lt] at hsleeps
    simp only [workerStep, Bool.or_eq_true, decide_eq_true_eq]
    rw [if_pos hsleeps]
    exact ⟨_, rfl⟩
  all_goals simp only [workerStep]
  all_goals repeat' split
  all_goals exact ⟨_, rfl⟩

/-! ### The way to the return -/

/-- The steps from here to the return, once a stop is requested, besides those that the queue adds. -/
def Pc.stepsToReturn : Pc → Nat
  | .idle | .returned => 0
  | .checkStop | .checkStopAfterPreflight | .checkStopAfterSession => 1
  | .backoff _ => 2
  | .deinit _ => 3
  | .invalidateConnection _ | .checkStopAfterInit | .checkStopAfterSubscribe => 4
  | .invalidateStatus _ => 5
  | .invalidateCaches _ => 6
  | .drain | .preflight | .initReturn | .subscribeLidar => 7
  | .stopDamp _ | .initCall | .subscribeSport => 8
  | .stopZero | .clearLatch | .subscribeImu => 9
  | .stopRead => 10
  -- the wait, or what follows it, sees the stop
  | .wait | .recheck => 11
  | .loopStart | .readNow | .checkTimeout | .checkComplete _ => 12
  | .connect | .checkRead _ => 13
  | .pollReady _ => 14
  | .pollOrphanFail _ => 15
  | .pollOrphanRead _ => 16
  | .pollApply _ => 17
  | .pollSnapshot => 18
  | .pollDue => 19
  | .settle => 20
  | .settleDue => 21
  | .tickMove _ => 22
  | .tickRead => 23
  | .tickDue => 24
  | .heartbeat => 25
  | .heartbeatDue => 26
  | .refreshRead => 27
  | .execThrow _ _ | .execFail _ _ _ => 28
  | .execSetMode _ _ | .execAuthority _ _ => 29
  | .execZero _ _ => 30
  | .execMode _ _ => 31
  | .pop => 32
  | .orphanFail => 33
  | .orphanRead => 34
  | .estopDamp _ _ => 35
  | .estopZero _ => 36
  | .estopRead _ => 37
  | .estopDrain _ => 38
  | .estopUndo _ _ | .estopAbort _ => 39
  | .estopCheck => 40

/-- The steps that are left: an emergency stop on the way takes two for each command in the queue. -/
def World.stopRank (w : World) : Nat := w.wk.pc.stepsToReturn + 2 * w.queue.items.length

theorem Pc.stepsToReturn_le (pc : Pc) : pc.stepsToReturn ≤ 40 := by
  unfold Pc.stepsToReturn
  split <;> omega

/-- A stopped worker that may still go on. -/
structure Stopped (cfg : RuntimeConfig) (w : World) : Prop where
  reachable : Reachable cfg w
  requested : w.shared.stopRequested = true
  started : w.wk.pc ≠ .idle

/-- Taking a command shortens the queue by one. -/
theorem tryPop_length {policy : OverflowPolicy} {q q' : ThreadSafeQueue policy Command} {c : Command}
    (h : q.tryPop = (some c, q')) : q.items.length = q'.items.length + 1 := by
  rw [ThreadSafeQueue.tryPop_some h, List.length_cons]

/-- **What a worker step leaves.** The stop request stays as it is and a started worker stays started; once a
    stop is requested, the worker comes nearer to the return. -/
theorem workerStep_leaves (hs : workerStep cfg ans w w.wk.pc = some w') :
    w'.shared.stopRequested = w.shared.stopRequested ∧ w'.wk.pc ≠ .idle ∧
      (w.shared.stopRequested = true → 1 + w'.stopRank ≤ w.stopRank) := by
  cases hpc : w.wk.pc
  all_goals rw [hpc] at hs
  all_goals simp only [workerStep] at hs
  all_goals repeat' split at hs
  all_goals simp only [Option.some.injEq, reduceCtorEq] at hs
  all_goals subst hs
  all_goals refine ⟨by simp, by simp, fun hstop => ?_⟩
  -- a stop wakes the worker, and no check overlooks it
  all_goals have hwoken : w.woken = true := by simp [World.woken, hstop]
  all_goals first
    | contradiction
    | simp [World.stopRank, hpc, Pc.stepsToReturn]
  -- what is left is arithmetic; a popped command counts for two steps
  all_goals first
    | omega
    | (rename_i hpop
       have hlength := tryPop_length hpop
       omega)

/-- Clients never take a stop back. -/
theorem clientStep_stop (hs : step cfg a w = some w') (ha : w.workerAt a = none)
    (hstop : w.shared.stopRequested = true) : w'.shared.stopRequested = true := by
  cases a
  case worker ans => exact absurd ha (by simp)
  all_goals simp only [step, World.start, World.markEstop, World.requestAuthority, World.requestMode,
    World.acceptMode, World.enqueueMode, World.handleStatus] at hs
  all_goals repeat' split at hs
  all_goals simp only [Option.some.injEq, reduceCtorEq] at hs
  all_goals subst hs
  all_goals simp [hstop]

/-- **Step lemma, the others.** Once a stop is requested, nothing is enqueued. -/
theorem clientStep_stopRank (hstop : w.shared.stopRequested = true) (hs : step cfg a w = some w')
    (ha : w.workerAt a = none) :
    w'.shared.stopRequested = true ∧ w'.queue = w.queue ∧ w'.wk = w.wk := by
  have hdown : w.shared.sessionDown = true := by simp [Shared.sessionDown, hstop]
  cases a
  case worker ans => exact absurd ha (by simp)
  all_goals simp only [step, World.start, World.markEstop, World.requestAuthority,
    World.requestMode, World.acceptMode, World.enqueueMode, World.handleStatus] at hs
  all_goals repeat' split at hs
  all_goals simp only [Option.some.injEq, reduceCtorEq] at hs
  all_goals subst hs
  all_goals simp_all

theorem Stopped.step (h : Stopped cfg w) (hs : step cfg a w = some w') :
    Stopped cfg w' ∧ a.isWorker.toNat + w'.stopRank ≤ w.stopRank := by
  have hreach : Reachable cfg w' := h.reachable.tail trivial hs
  rcases w.worker_or_client a with ⟨ans, rfl⟩ | ha
  · obtain ⟨hstop, hstarted, hrank⟩ := workerStep_leaves hs
    exact ⟨⟨hreach, hstop.trans h.requested, hstarted⟩, hrank h.requested⟩
  · obtain ⟨hstop, hqueue, hwk⟩ := clientStep_stopRank h.requested hs ha
    have hworker : a.isWorker = false := by
      cases a with
      | worker ans => exact absurd ha (by simp)
      | _ => rfl
    refine ⟨⟨hreach, hstop, hwk ▸ h.started⟩, ?_⟩
    rw [World.stopRank, World.stopRank, hqueue, hwk, hworker]
    exact Nat.le_of_eq (Nat.zero_add _)

/-- **A stop ends the worker.** From any state of a run in which a stop is requested and the worker has been
    started, whatever the clients, the status callbacks and the clock do in between: the worker takes no more
    steps than 40 and two for each command in the queue, each of them at most one SDK call; and until it has
    returned its next step is open to it, whatever the SDK answers. -/
theorem stop_returns (hrun : Reachable cfg w) (hstop : w.shared.stopRequested = true)
    (hstarted : w.wk.pc ≠ .idle) (hpath : Path (step cfg) w as w') :
    as.countP Action.isWorker ≤ 40 + 2 * w.queue.items.length ∧
      (w'.wk.pc = .returned ∨ ∀ ans, ∃ w'', step cfg (.worker ans) w' = some w'') := by
  have hrank : False ∨ Stopped cfg w' ∧
      as.countP Action.isWorker + w'.stopRank ≤ w.stopRank + (as.map (fun _ => 0)).sum :=
    hpath.answers (I := Stopped cfg) (Q := fun _ => False) Action.isWorker (fun _ => 0) World.stopRank
      (fun _ _ _ hI hs => Or.inr (hI.step hs)) (fun _ _ _ h _ => h) ⟨hrun, hstop, hstarted⟩
  obtain ⟨hstopped, hle⟩ := hrank.resolve_left id
  have hadds : (as.map (fun _ => 0)).sum = 0 := by simp
  have hplace := w.wk.pc.stepsToReturn_le
  rw [hadds] at hle
  unfold World.stopRank at hle
  refine ⟨by omega, ?_⟩
  by_cases hreturned : w'.wk.pc = .returned
  · exact Or.inl hreturned
  · -- both timed waits end with a stop
    have hsleeps : w'.sleeps = false := by
      unfold World.sleeps
      split
      · simp [World.woken, hstopped.requested]
      · simp [hstopped.requested]
      · rfl
    exact Or.inr (worker_goes_on hstopped.reachable.session hstopped.started hreturned hsleeps)

/-- A stop in a session with a queued command: the worker returns within those steps. -/
theorem stop_returns_connected : ∃ w w', Reachable {} w ∧
    w.queue.items.length = 1 ∧ Path (step {}) w (works 10 (obliging 0xB104)) w' ∧
    w'.wk.pc = .returned ∧ (works 10 (obliging 0xB104)).countP Action.isWorker ≤ 42 := by
  obtain ⟨w, hrun, hw⟩ := exists_run_of_exec {} (fun _ _ => True)
    (readying ++ [.requestAuthority true, .stop])
    (fun w => w.shared.stopRequested ∧ w.wk.pc ≠ .idle ∧ w.queue.items.length = 1 ∧
      (execGuarded (step {}) (fun _ _ => True) (works 10 (obliging 0xB104)) w).any
        (fun w' => w'.wk.pc = .returned)) (by decide +kernel)
  obtain ⟨hstop, hstarted, hqueue, hend⟩ := of_decide_eq_true hw
  obtain ⟨w', hex, hreturned⟩ := (Option.any_eq_true _ _).mp hend
  have hpath := path_of_execGuarded _ hex
  have hbound := (stop_returns hrun hstop hstarted hpath).1
  rw [hqueue] at hbound
  exact ⟨w, w', hrun, hqueue, hpath, of_decide_eq_true hreturned, hbound⟩

end HypertronBridge.Runtime
