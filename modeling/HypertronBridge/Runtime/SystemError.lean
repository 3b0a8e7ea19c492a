import HypertronBridge.Adapter.Snapshot
import HypertronBridge.Runtime.Links

namespace HypertronBridge.Runtime

open TransitionSystem History RobotController Adapter

/-!
# System errors

The error code of a state poll comes from the adapter's snapshot, which holds zero when
`get_system_status` failed.  The poll takes that zero for a report of a healthy robot and lifts
the gate: `failed_query_lifts_error_gate`.  While no such query fails after a reported error, the
error keeps velocities and modes out until a report of zero.

* `Sampled` — the runtime over the adapter's snapshots, with the outcomes of its polls;
* `ErrorInForce` — a reported error has reached the controller in this session, and no zero was
  reported since;
* `Sampled.losesError` — the condition; `reported_error_gates` — the result under it.
-/

/-- What the state polls did, as the error gate sees it. -/
inductive PollEvent
  /-- A session was opened. -/
  | opened
  /-- A snapshot was taken; with the error code if `get_system_status` succeeded. -/
  | polled (reported : Option UInt32)
  /-- The snapshot reached the caches and the controller. -/
  | applied
deriving DecidableEq

/-- The runtime over the adapter: the world of the runtime, the adapter's caches, and the events
    of the state polls, newest first. -/
structure Sampled where
  world : World
  caches : Caches := {}
  polls : List PollEvent := []

/-- The actions of the runtime over the adapter. -/
inductive SampledAction
  /-- A step of the runtime other than a snapshot. -/
  | runtime (a : Action)
  /-- The snapshot of a state poll, with the outcomes of the vendor getters. -/
  | poll (getters : Getters)
  /-- The adapter's own section of a status callback, before it calls the runtime. -/
  | deliverStatus (linked authority : Bool)
  /-- The same of a sport callback. -/
  | deliverSport (sample : SportSample)

/-- What `init` and `deinit` do to the adapter's caches: `init` resets them, and a failed `init`
    and a `deinit` clear the status. -/
def cachesAfter (ans : Answer) (c : Caches) : Pc → Caches
  | .initCall => {}
  | .initReturn =>
      if ans.result.success then c else { c with statusLinked := false, statusAuthority := false }
  | .deinit _ => { c with statusLinked := false, statusAuthority := false }
  | _ => c

/-- The poll events of a worker step other than a snapshot. -/
def pollEvents : Pc → List PollEvent
  | .connect => [.opened]
  | .pollApply _ => [.applied]
  | _ => []

variable {cfg : RuntimeConfig} {s s' s₀ : Sampled} {b : SampledAction} {w w' : World}
  {a : Action} {ans : Answer} {h : List PollEvent} {ok : Sampled → SampledAction → Prop}

namespace Sampled

/-- One atomic step of the runtime over the adapter. -/
def step (cfg : RuntimeConfig) (b : SampledAction) (s : Sampled) : Option Sampled :=
  match b with
  | .runtime (.worker ans) =>
      if s.world.wk.pc = .pollSnapshot then none
      else (Runtime.step cfg (.worker ans) s.world).map fun w =>
        { world := w
          caches := cachesAfter ans s.caches s.world.wk.pc
          polls := pollEvents s.world.wk.pc ++ s.polls }
  | .runtime a => (Runtime.step cfg a s.world).map fun w => { s with world := w }
  | .poll g =>
      -- A connected session has an initialized adapter.
      if s.world.wk.pc = .pollSnapshot then
        (Runtime.step cfg (.worker { snapshot := (snapshot true s.caches g).toSdkSnapshot })
          s.world).map fun w => { s with world := w, polls := .polled g.reportedError :: s.polls }
      else none
  | .deliverStatus linked authority =>
      if sdkUp s.world.trace then
        some { s with caches.statusLinked := linked, caches.statusAuthority := authority }
      else none
  | .deliverSport sample =>
      if sdkUp s.world.trace then some { s with caches.latestSport := sample } else none

/-- The states of the runs whose every step meets the guard `ok`. -/
def Run (cfg : RuntimeConfig) (ok : Sampled → SampledAction → Prop) (s : Sampled) : Prop :=
  Reaches (step cfg) ok { world := World.initial cfg } s

/-- Every run over the adapter is a run of the runtime. -/
theorem Run.reachable (h : Run cfg ok s) : Reachable cfg s.world := by
  have hreach : Reaches (step cfg) ok { world := World.initial cfg } s := h
  refine hreach.project world (fun t b t' hok hs => ?_)
  clear hok
  cases b
  case runtime a =>
    cases a
    all_goals simp only [step] at hs
    case worker ans =>
      split at hs
      · exact absurd hs (by simp)
      · obtain ⟨w, hw, rfl⟩ := Option.map_eq_some_iff.mp hs
        exact Or.inr ⟨_, trivial, hw⟩
    all_goals
      obtain ⟨w, hw, rfl⟩ := Option.map_eq_some_iff.mp hs
      exact Or.inr ⟨_, trivial, hw⟩
  case poll g =>
    simp only [step] at hs
    split at hs
    · obtain ⟨w, hw, rfl⟩ := Option.map_eq_some_iff.mp hs
      exact Or.inr ⟨_, trivial, hw⟩
    · exact absurd hs (by simp)
  all_goals
    simp only [step] at hs
    split at hs
    · rw [← Option.some.inj hs]
      exact Or.inl rfl
    · exact absurd hs (by simp)

end Sampled

/-! ### The error in force -/

/-- The last error code that a poll of this session reported. -/
def standingError : List PollEvent → Option UInt32
  | [] | .opened :: _ => none
  | .polled (some code) :: _ => some code
  | _ :: older => standingError older

/-- A poll that reported a nonzero error code has just been applied. -/
def ErrorApplied (h : List PollEvent) : Prop :=
  ∃ code older, h = .applied :: .polled (some code) :: older ∧ code ≠ 0

/-- Neither a new session nor a report of zero. -/
def PollEvent.keepsError (e : PollEvent) : Prop := e ≠ .opened ∧ e ≠ .polled (some 0)

/-- A nonzero error code that a poll of this session reported has reached the controller, and no poll has
    reported zero since. -/
def ErrorInForce (h : List PollEvent) : Prop := Since PollEvent.keepsError ErrorApplied h

/-- Velocities and modes are rejected, whatever they are. -/
structure Rejecting (w : World) : Prop where
  velocity : ∀ v, (w.ctl.acceptVelocity w.clock v).1.accepted = false
  mode : ∀ name, (w.ctl.requestMode w.clock name).1.accepted = false

/-- A nonzero error code in the controller's status rejects both. -/
theorem Rejecting.of_errorCode (h : w.ctl.status.errorCode ≠ 0) : Rejecting w := by
  have hsick : w.ctl.status.healthy = false := by simp [ControllerStatus.healthy, h]
  constructor
  · intro v
    have hnot : w.ctl.movementReady = false := by
      by_contra hready
      have hhealthy := (movementReady_iff.mp (by simpa using hready)).2.2.2.1
      rw [hsick] at hhealthy
      exact absurd hhealthy (by simp)
    unfold acceptVelocity rejection
    rw [hnot]
    repeat' split
    all_goals simp_all
  · intro name
    rcases requestMode_cases w.clock name w.ctl with ⟨_, -, -, -, hhealthy, -⟩ | ⟨hrej, -⟩
    · rw [hsick] at hhealthy
      exact absurd hhealthy (by simp)
    · exact hrej

/-! ### The defect -/

/-- The getters of a robot in Move, whose `get_system_status` reports `error` or fails. -/
def getters (error : Option UInt32) : Getters where
  systemStatus := match error with
    | some code => some (sdkResSuccess, { errorCode := code })
    | none => some (sdkResFailed, {})
  powerStatus := none
  sportStatus := some 0xB104

/-- The loop iteration that polls the state, `error` being reported. -/
def polling (error : Option UInt32) : List SampledAction :=
  .runtime (.advance (ms 500)) :: (works 13 (obliging 0xB104)).map .runtime ++
    .poll (getters error) :: (works 4 (obliging 0xB104)).map .runtime

/-- Start, connect, and report link and authority. -/
def connecting : List SampledAction :=
  (Action.start :: works 13 (obliging 0xB104)).map .runtime ++
    [.deliverStatus true true, .runtime (.status true true)]

/-- What a schedule's end shows, a guarded run over the adapter shows. -/
theorem Sampled.exists_run_of_exec (cfg : RuntimeConfig) (ok : Sampled → SampledAction → Prop)
    [∀ s b, Decidable (ok s b)] (schedule : List SampledAction) (P : Sampled → Bool)
    (h : (execGuarded (Sampled.step cfg) ok schedule { world := World.initial cfg }).any P = true) :
    ∃ s, Sampled.Run cfg ok s ∧ P s = true := by
  exact exists_reaches_of_execGuarded schedule P h

/-- **The defect.** A poll reports error 7, the `get_system_status` of the next one fails, and a
    mode request is accepted. -/
theorem failed_query_lifts_error_gate :
    ¬ ∀ cfg s, Sampled.Run cfg (fun _ _ => True) s → s.world.shared.connected = true →
      ErrorInForce s.polls → Rejecting s.world := by
  intro hall
  obtain ⟨s, hrun, hs⟩ := Sampled.exists_run_of_exec {} (fun _ _ => True)
    (connecting ++ polling (some 7) ++ polling none)
    (fun s => s.world.shared.connected &&
      decide (s.polls = [.applied, .polled none, .applied, .polled (some 7), .opened]) &&
      (s.world.ctl.requestMode s.world.clock "stand").1.accepted) (by decide +kernel)
  simp only [Bool.and_eq_true, decide_eq_true_eq] at hs
  obtain ⟨⟨hconn, hpolls⟩, hacc⟩ := hs
  have hforce : ErrorInForce s.polls := by
    rw [hpolls]
    refine Since.cons (Since.cons (Since.now ⟨7, [.opened], rfl, by decide⟩) ?_) ?_
    · simp [PollEvent.keepsError]
    · simp [PollEvent.keepsError]
  rw [(hall {} s hrun hconn hforce).mode] at hacc
  exact absurd hacc (by simp)

/-! ### Without the lost report -/

/-- A poll whose `get_system_status` reports nothing, after this session's last report was of an
    error. -/
def Sampled.losesError (s : Sampled) : SampledAction → Bool
  | .poll g => g.reportedError.isNone && (standingError s.polls).any (· != 0)
  | _ => false

/-- An error in force is the last one reported. -/
theorem ErrorInForce.standingError (hforce : ErrorInForce h) :
    ∃ code, standingError h = some code ∧ code ≠ 0 := by
  induction h with
  | nil =>
    obtain ⟨_, _, hnil, -⟩ := hforce
    exact absurd hnil (by simp)
  | cons e h ih =>
    rcases hforce with ⟨code, older, heq, hne⟩ | ⟨hkeep, hforce⟩
    · exact ⟨code, by rw [heq]; rfl, hne⟩
    · obtain ⟨code, hcode, hne⟩ := ih hforce
      cases e with
      | opened => exact absurd rfl hkeep.1
      | applied => exact ⟨code, hcode, hne⟩
      | polled r =>
        cases r with
        | none => exact ⟨code, hcode, hne⟩
        | some c => exact ⟨c, rfl, fun hc => hkeep.2 (by rw [hc])⟩

/-- A snapshot alone puts no error into force, and keeps one only if it reports none. -/
theorem ErrorInForce.of_polled {r : Option UInt32} (hforce : ErrorInForce (.polled r :: h)) :
    ErrorInForce h ∧ r ≠ some 0 := by
  rcases hforce with ⟨_, _, heq, -⟩ | ⟨hkeep, hforce⟩
  · exact absurd heq (by simp)
  · exact ⟨hforce, fun hr => hkeep.2 (by rw [hr])⟩

/-- A new session starts without an error. -/
theorem not_errorInForce_opened : ¬ ErrorInForce (.opened :: h) := by
  rintro (⟨_, _, heq, -⟩ | ⟨hkeep, -⟩)
  · exact absurd heq (by simp)
  · exact hkeep.1 rfl

/-- Controller and runtime hold a nonzero error code while one is in force, and a snapshot on its
    way to them holds what its poll reported. -/
structure ErrorInv (s : Sampled) : Prop where
  gated : s.world.shared.connected = true → ErrorInForce s.polls →
    s.world.ctl.status.errorCode ≠ 0 ∧ s.world.shared.lastSnapshotErrorCode ≠ 0
  applying : ∀ snap, s.world.wk.pc = .pollApply snap → ∃ r older, s.polls = .polled r :: older ∧
    snap.errorCode = r.getD 0 ∧ (r = none → ∀ code, standingError older = some code → code = 0)

/-- Where a worker step of a session changes the cached error code, and where a snapshot comes
    from. -/
theorem workerStep_errorCode (hs : workerStep cfg ans w w.wk.pc = some w') :
    (w.wk.pc.inSession = true → (∀ snap, w.wk.pc ≠ .pollApply snap) →
        w'.shared.lastSnapshotErrorCode = w.shared.lastSnapshotErrorCode) ∧
      (∀ snap, w'.wk.pc = .pollApply snap → w.wk.pc = .pollSnapshot ∧ ans.snapshot = snap) := by
  cases hpc : w.wk.pc
  all_goals rw [hpc] at hs
  all_goals simp only [workerStep] at hs
  all_goals repeat' split at hs
  all_goals simp only [Option.some.injEq, reduceCtorEq] at hs
  all_goals subst hs
  all_goals simp [Pc.inSession]

/-- Status reports, and no other client steps, write the controller's error code: the cached one. -/
theorem clientStep_errorCode (hs : Runtime.step cfg a w = some w') (ha : w.workerAt a = none) :
    w'.shared.connected = w.shared.connected ∧
      w'.shared.lastSnapshotErrorCode = w.shared.lastSnapshotErrorCode ∧
      (w'.ctl.status.errorCode = w.ctl.status.errorCode ∨
        w'.ctl.status.errorCode = w.shared.lastSnapshotErrorCode) := by
  cases a
  case worker ans => exact absurd ha (by simp)
  case status linked authority =>
    simp only [Runtime.step, Option.some.injEq] at hs
    subst hs
    have hstatus := updateRobotState_status w.clock ⟨linked, authority,
      w.shared.lastSnapshotSportStatus, w.shared.lastSnapshotErrorCode⟩ w.ctl
    exact ⟨by simp, by simp, Or.inr (by simp [Operation.apply, hstatus])⟩
  all_goals
    have hlink : w'.ctl.status = w.ctl.status := (Extends.link (step_extends hs) (fun e he => by
      by_contra hnot
      exact absurd (he.link (by simpa using hnot)) (by simp [World.aboutLink]))).1
    simp only [Runtime.step, World.start, World.markEstop, World.requestAuthority,
      World.requestMode, World.acceptMode, World.enqueueMode] at hs
    repeat' split at hs
  all_goals simp only [Option.some.injEq, reduceCtorEq] at hs
  all_goals refine ⟨?_, ?_, Or.inl (congrArg _ hlink)⟩
  all_goals clear hlink
  all_goals subst hs
  all_goals simp

/-- **Step lemma, worker.** -/
theorem ErrorInv.worker_step (hi : ErrorInv s) (hsession : SessionInv s.world)
    (hpoll : s.world.wk.pc ≠ .pollSnapshot)
    (hs : workerStep cfg ans s.world s.world.wk.pc = some w') (c : Caches) :
    ErrorInv { world := w', caches := c, polls := pollEvents s.world.wk.pc ++ s.polls } := by
  obtain ⟨hcode, hsnap⟩ := workerStep_errorCode hs
  refine ⟨fun hconn hforce => ?_, fun snap hpc => absurd (hsnap snap hpc).1 hpoll⟩
  have hconn' : w'.shared.connected = true := hconn
  rw [workerStep_connected hsession.connected hs] at hconn'
  rcases workerStep_inSession hs hconn' with hpc | ⟨hin, -⟩
  · rw [hpc] at hforce
    exact absurd hforce not_errorInForce_opened
  by_cases happly : ∃ snap, s.world.wk.pc = .pollApply snap
  · obtain ⟨snap, hpc⟩ := happly
    obtain ⟨r, older, hpolls, hsnap', hlost⟩ := hi.applying snap hpc
    have hforce' : ErrorInForce (.applied :: .polled r :: older) := by
      rw [hpc, hpolls] at hforce
      exact hforce
    -- The snapshot carries the error: it was just reported, or it is none that may be lost.
    have hne : snap.errorCode ≠ 0 := by
      rcases hforce' with ⟨code, _, heq, hne⟩ | ⟨-, hforce'⟩
      · simp only [List.cons.injEq, PollEvent.polled.injEq, true_and] at heq
        rw [hsnap', heq.1]
        exact hne
      · obtain ⟨hold, hr⟩ := ErrorInForce.of_polled hforce'
        cases r with
        | some code => exact fun hzero => hr (by rw [← hzero, hsnap']; rfl)
        | none =>
          obtain ⟨code, hstanding, hne⟩ := hold.standingError
          exact absurd (hlost rfl code hstanding) hne
    rw [hpc] at hs
    simp only [workerStep, Option.some.injEq] at hs
    subst hs
    have hstatus := updateRobotState_status s.world.clock ⟨s.world.shared.sdkLinked,
      s.world.shared.controlAuthority, snap.sportStatus, snap.errorCode⟩ s.world.ctl
    exact ⟨by simpa [Operation.apply, hstatus] using hne, by simpa using hne⟩
  · have hnot : ∀ snap, s.world.wk.pc ≠ .pollApply snap := fun snap hpc => happly ⟨snap, hpc⟩
    -- No other step of a session polls, or writes the controller's status.
    have hpolls : pollEvents s.world.wk.pc ++ s.polls = s.polls := by
      revert hin hnot
      cases s.world.wk.pc <;> simp [pollEvents, Pc.inSession]
    have hlink : w'.ctl.status = s.world.ctl.status := by
      refine (Extends.link (workerStep_extends hs) (fun e he => ?_)).1
      by_contra hlink
      have hat := he.link (by simpa using hlink)
      revert hat hin hnot
      cases hpc : s.world.wk.pc <;> simp [World.aboutLink, Pc.inSession, hpc]
    have hold := hi.gated (by rw [hsession.connected]; exact hin) (hpolls ▸ hforce)
    exact ⟨by simpa [hlink] using hold.1, by simpa [hcode hin hnot] using hold.2⟩

/-- **Step lemma, clients.** -/
theorem ErrorInv.client_step (hi : ErrorInv s) (hs : Runtime.step cfg a s.world = some w')
    (ha : s.world.workerAt a = none) : ErrorInv { s with world := w' } := by
  obtain ⟨hconn, hcode, hstatus⟩ := clientStep_errorCode hs ha
  refine ⟨fun hconn' hforce => ?_, fun snap hpc => ?_⟩
  · obtain ⟨hctl, hcached⟩ := hi.gated (hconn ▸ hconn') hforce
    refine ⟨?_, by simpa [hcode] using hcached⟩
    -- A status report writes the cached code, which is nonzero as well.
    rcases hstatus with heq | heq
    · simpa [heq] using hctl
    · simpa [heq] using hcached
  · refine hi.applying snap ?_
    rcases step_wk hs ha with hwk | ⟨-, hwk⟩
    · exact hwk ▸ hpc
    · have hpc' : w'.wk.pc = .pollApply snap := hpc
      rw [hwk] at hpc'
      exact absurd hpc' (by simp)

/-- **Step lemma, snapshots.** A poll that loses no error keeps the invariant. -/
theorem ErrorInv.poll_step {g : Getters} (hi : ErrorInv s) (hok : s.losesError (.poll g) = false)
    (hpc : s.world.wk.pc = .pollSnapshot)
    (hs : workerStep cfg { snapshot := (snapshot true s.caches g).toSdkSnapshot } s.world
      s.world.wk.pc = some w') :
    ErrorInv { s with world := w', polls := .polled g.reportedError :: s.polls } := by
  rw [hpc] at hs
  simp only [workerStep, Option.some.injEq] at hs
  subst hs
  refine ⟨fun hconn hforce => hi.gated hconn hforce.of_polled.1, fun snap hpc' => ?_⟩
  have hsnap : (snapshot true s.caches g).toSdkSnapshot = snap := Pc.pollApply.inj hpc'
  refine ⟨g.reportedError, s.polls, rfl, by rw [← hsnap, snapshot_errorCode], ?_⟩
  intro hr code hstanding
  simpa [Sampled.losesError, hr, hstanding] using hok

/-- **Step lemma.** -/
theorem ErrorInv.step (hi : ErrorInv s) (hsession : SessionInv s.world)
    (hok : s.losesError b = false) (hs : Sampled.step cfg b s = some s') : ErrorInv s' := by
  cases b
  case runtime a =>
    rcases s.world.worker_or_client a with ⟨ans, rfl⟩ | ha
    · simp only [Sampled.step] at hs
      split at hs
      · exact absurd hs (by simp)
      · rename_i hpoll
        obtain ⟨w, hw, rfl⟩ := Option.map_eq_some_iff.mp hs
        exact hi.worker_step hsession hpoll hw _
    · cases a
      case worker ans => exact absurd ha (by simp)
      all_goals
        simp only [Sampled.step] at hs
        obtain ⟨w, hw, rfl⟩ := Option.map_eq_some_iff.mp hs
        exact hi.client_step hw rfl
  case poll g =>
    simp only [Sampled.step] at hs
    split at hs
    · rename_i hpc
      obtain ⟨w, hw, rfl⟩ := Option.map_eq_some_iff.mp hs
      exact hi.poll_step hok hpc hw
    · exact absurd hs (by simp)
  all_goals
    simp only [Sampled.step] at hs
    split at hs
    · rw [← Option.some.inj hs]
      exact ⟨hi.gated, hi.applying⟩
    · exact absurd hs (by simp)

/-- **Run lemma.** -/
theorem Sampled.Run.errorInv (hrun : Sampled.Run cfg (fun s b => s.losesError b = false) s) :
    ErrorInv s := by
  have hreach : Reaches (Sampled.step cfg) (fun s b => s.losesError b = false)
    { world := World.initial cfg } s := hrun
  refine hreach.invariant ⟨fun hconn => absurd hconn (by simp [World.initial]),
    fun snap hpc => absurd hpc (by simp [World.initial])⟩ (fun t b t' ht hi hok hs => ?_)
  exact hi.step (Sampled.Run.reachable ht).session hok hs

/-! ### The result -/

/-- **A reported error stays in force.** In every run in which no poll loses a reported error, every
    velocity and every mode request of the session is rejected from the step that applies the polled
    snapshot, with its nonzero error code, to the controller, until a poll reports zero.  Between the
    getters and that step the controller goes by the snapshot before. -/
theorem reported_error_gates (hrun : Sampled.Run cfg (fun s b => s.losesError b = false) s)
    (hconn : s.world.shared.connected = true) (hforce : ErrorInForce s.polls) :
    Rejecting s.world :=
  Rejecting.of_errorCode (hrun.errorInv.gated hconn hforce).1

/-- Error 7, and then error 9. -/
theorem reported_error_gates_twice :
    ∃ s, Sampled.Run {} (fun s b => s.losesError b = false) s ∧ ErrorInForce s.polls ∧
      Rejecting s.world := by
  obtain ⟨s, hrun, hs⟩ := Sampled.exists_run_of_exec {} (fun s b => s.losesError b = false)
    (connecting ++ polling (some 7) ++ polling (some 9))
    (fun s => s.world.shared.connected &&
      decide (s.polls = [.applied, .polled (some 9), .applied, .polled (some 7), .opened]))
    (by decide +kernel)
  simp only [Bool.and_eq_true, decide_eq_true_eq] at hs
  obtain ⟨hconn, hpolls⟩ := hs
  have hforce : ErrorInForce s.polls := by
    rw [hpolls]
    exact Since.now ⟨9, _, rfl, by decide⟩
  exact ⟨s, hrun, hforce, reported_error_gates hrun hconn hforce⟩

end HypertronBridge.Runtime
