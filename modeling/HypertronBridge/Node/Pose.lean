import HypertronBridge.Node.Step

namespace HypertronBridge.Node

open TransitionSystem History HypertronBridge.Adapter HypertronBridge.Runtime

/-!
# The broadcast pose

`on_imu` stores the pose of its sample, and both `on_imu` and `on_state` broadcast the stored one.
Only a report of a lost link clears it; a session that ends otherwise leaves it behind, and the
first state poll of the next session broadcasts it: `old_pose_is_broadcast`.

* `OwnPose` — the pose of an IMU sample of this connection attempt;
* `carried` — the stored pose is left over from an earlier attempt;
* `System.inTime` — what the SDK promises about its callbacks;
* `System.readsCarried` — the condition; `own_poses_only` — the result under it.
-/

variable {cfg : NodeConfig} {s s' : System} {b : Action} {ok : System → Action → Prop}
  {h new : List NodeEvent} {p : Pose} {c : ObserverCall} {v : Vars}

/-! ### Attempts and poses in the history -/

/-- A connection attempt is under way. -/
def attemptUp : List NodeEvent → Bool
  | [] => false
  | .attemptStarted :: _ => true
  | .attemptEnded :: _ => false
  | _ :: older => attemptUp older

/-- Neither the start nor the end of an attempt. -/
def NodeEvent.sameAttempt (e : NodeEvent) : Prop := e ≠ .attemptStarted ∧ e ≠ .attemptEnded

/-- An IMU sample of pose `p` is delivered, in an attempt. -/
def Delivered (p : Pose) (h : List NodeEvent) : Prop :=
  ∃ sample older, h = .imuDelivered sample :: older ∧ poseOf sample = p ∧ attemptUp older = true

/-- `p` is the pose of an IMU sample delivered in the attempt that is under way. -/
def OwnPose (p : Pose) (h : List NodeEvent) : Prop := Since NodeEvent.sameAttempt (Delivered p) h

/-- Every transform was the pose of an IMU sample of the attempt in which it was broadcast. -/
def OwnTransforms (h : List NodeEvent) : Prop :=
  Historically (fun e older => ∀ p, e = .transform p → OwnPose p older) h

/-- The last section that touched the stored pose stored one. -/
def poseHeld : List NodeEvent → Bool
  | [] => false
  | .poseStored _ :: _ => true
  | .poseCleared :: _ => false
  | _ :: older => poseHeld older

/-- The attempt began with a stored pose, and no section has touched it since. -/
def carried : List NodeEvent → Bool
  | [] => false
  | .poseStored _ :: _ => false
  | .poseCleared :: _ => false
  | .attemptStarted :: older => poseHeld older
  | _ :: older => carried older

/-- The SDK delivers reports and samples only between the start of an `init` and the return of the
    following `deinit`, which waits for the callbacks in progress. -/
def System.inTime (s : System) : Action → Bool
  | .runtime (.status _ _) | .imu _ => sdkUp s.world.trace
  | .runtime (.worker _) =>
      match s.world.wk.pc with
      | .deinit _ => (List.range s.nextCall).all (fun i => (s.calls i).isNone)
      | _ => true
  | _ => true

/-! ### The defect -/

/-- A sample one metre ahead. -/
def oneAhead : ImuSample := { odomX := .one, quaternion := #v[.one, .zero, .zero, .zero] }

/-- A session with one IMU sample that ends with a failed heartbeat; the next session has none, and
    its first state poll is broadcast. -/
def leftBehind : List Action :=
  runtimeSteps (.start :: works 13 (obliging 0xB104)) ++ [.imu oneAhead, .call 0, .call 0, .call 0] ++
    runtimeSteps (.advance (ms 100) :: works 8 (obliging 0xB104) ++
      [.worker { result := .failure sdkResTimeout "timeout" }] ++ works 6 (obliging 0xB104) ++
      [.advance (ms 1000)] ++ works 14 (obliging 0xB104) ++ [.advance (ms 500)] ++
      works 13 (obliging 0xB104)) ++
    [.poll .empty] ++ runtimeSteps (works 4 (obliging 0xB104)) ++ List.replicate 5 .onState

/-- An IMU sample was delivered in the attempt that is under way. -/
def imuInAttempt : List NodeEvent → Bool
  | [] => false
  | .imuDelivered _ :: _ => true
  | .attemptStarted :: _ | .attemptEnded :: _ => false
  | _ :: older => imuInAttempt older

theorem OwnPose.imuInAttempt (hown : OwnPose p h) : imuInAttempt h = true := by
  induction h with
  | nil =>
    obtain ⟨_, _, hnil, -⟩ := hown
    exact absurd hnil (by simp)
  | cons e h ih =>
    rcases hown with ⟨sample, older, heq, -⟩ | ⟨hkeep, hown⟩
    · simp only [List.cons.injEq] at heq
      rw [heq.1]
      rfl
    · cases e with
      | attemptStarted => exact absurd rfl hkeep.1
      | attemptEnded => exact absurd rfl hkeep.2
      | imuDelivered _ => rfl
      | _ => exact ih hown

/-- The newest event is a transform, and no IMU sample was delivered in its attempt. -/
def strayTransform : List NodeEvent → Bool
  | .transform _ :: older => !imuInAttempt older
  | _ => false

/-- **The defect.** The transform of the second session is the pose of the first. -/
theorem old_pose_is_broadcast :
    ¬ ∀ cfg s, System.Run cfg (fun s b => s.inTime b = true) s → OwnTransforms s.history := by
  intro hall
  obtain ⟨s, hrun, hs⟩ := System.exists_run_of_exec .plain (fun s b => s.inTime b = true) leftBehind
    (fun s => strayTransform s.history) (by decide +kernel)
  have hown := hall _ s hrun
  unfold strayTransform at hs
  split at hs
  · rename_i pose older htrace
    rw [htrace] at hown
    rw [(hown.1 pose rfl).imuInAttempt] at hs
    exact absurd hs (by simp)
  · exact absurd hs (by simp)

/-! ### Where no pose is carried over -/

/-- `on_state` reads the stored pose while it is left over from an earlier attempt. -/
def System.readsCarried (s : System) : Action → Bool
  | .onState => s.onState == some .tfRead && carried s.history
  | _ => false

/-- Events within an attempt leave it up. -/
theorem attemptUp_append (hnew : ∀ e ∈ new, e.sameAttempt) : attemptUp (new ++ h) = attemptUp h := by
  induction new with
  | nil => rfl
  | cons e new ih =>
    have htail := ih (fun x hx => hnew x (by simp [hx]))
    have he := hnew e (by simp)
    cases e with
    | attemptStarted => exact absurd rfl he.1
    | attemptEnded => exact absurd rfl he.2
    | _ => exact htail

/-- Events within an attempt carry no pose over. -/
theorem carried_append (hnew : ∀ e ∈ new, e.sameAttempt) (hc : carried h = false) :
    carried (new ++ h) = false := by
  induction new with
  | nil => exact hc
  | cons e new ih =>
    have htail := ih (fun x hx => hnew x (by simp [hx]))
    have he := hnew e (by simp)
    cases e with
    | attemptStarted => exact absurd rfl he.1
    | poseStored _ | poseCleared => rfl
    | _ => exact htail

/-- What a call needs before its next section: the pose in its hands, or the stored one, is of this
    attempt. -/
def ObserverCall.Own (h : List NodeEvent) : ObserverCall → Prop
  | .poseStore sample => OwnPose (poseOf sample) h
  | .tfRead => carried h = false
  | .tfSend pose => OwnPose pose h
  | _ => True

/-- Events within an attempt take nothing from a call. -/
theorem ObserverCall.Own.append (hown : c.Own h) (hnew : ∀ e ∈ new, e.sameAttempt) :
    c.Own (new ++ h) := by
  cases c with
  | poseStore sample => exact Since.append hown hnew
  | tfRead => exact carried_append hnew hown
  | tfSend pose => exact Since.append hown hnew
  | _ => trivial

/-- The stored pose against the history. -/
structure PoseInv (v : Vars) (h : List NodeEvent) : Prop where
  held : poseHeld h = v.lastPose.isSome
  own : ∀ p, v.lastPose = some p → carried h = false → attemptUp h = true → OwnPose p h
  transforms : OwnTransforms h

/-- Every section's events are within an attempt. -/
theorem ObserverCall.run_sameAttempt : ∀ e ∈ (c.run cfg v).events, e.sameAttempt := by
  cases c <;> simp [run, NodeEvent.sameAttempt]

/-- Events that touch neither attempts nor poses keep the invariant. -/
theorem PoseInv.quiet {v' : Vars} (hi : PoseInv v h) (hpose : v'.lastPose = v.lastPose)
    (hnew : ∀ e ∈ new, (∃ msg, e = .robotState msg) ∨ ∃ sample, e = .imuDelivered sample) :
    PoseInv v' (new ++ h) := by
  induction new with
  | nil => exact ⟨by rw [hpose]; exact hi.held, by rw [hpose]; exact hi.own, hi.transforms⟩
  | cons e new ih =>
    have hrest := ih (fun x hx => hnew x (by simp [hx]))
    obtain ⟨hheld, hown, htransforms⟩ := hrest
    rcases hnew e (by simp) with ⟨msg, rfl⟩ | ⟨sample, rfl⟩
    · refine ⟨hheld, fun p hp hc hup => ?_, fun p hp => absurd hp (by simp), htransforms⟩
      exact (hown p hp hc hup).cons (by simp [NodeEvent.sameAttempt])
    · refine ⟨hheld, fun p hp hc hup => ?_, fun p hp => absurd hp (by simp), htransforms⟩
      exact (hown p hp hc hup).cons (by simp [NodeEvent.sameAttempt])

/-- **Section lemma.** A section that has what it needs keeps the invariant. -/
theorem PoseInv.section (hi : PoseInv v h) (hown : c.Own h) :
    PoseInv (c.run cfg v).vars ((c.run cfg v).events ++ h) := by
  cases c with
  | poseReset changed =>
    exact ⟨rfl, fun p hp => absurd hp (by simp [ObserverCall.run]),
      fun p hp => absurd hp (by simp), hi.transforms⟩
  | poseStore sample =>
    refine ⟨rfl, fun p hp _ _ => ?_, fun p hp => absurd hp (by simp), hi.transforms⟩
    rw [← Option.some.inj hp]
    exact Since.cons hown (by simp [NodeEvent.sameAttempt])
  | tfSend pose =>
    refine ⟨hi.held, fun p hp hc hup => ?_, fun p hp => ?_, hi.transforms⟩
    · exact (hi.own p hp hc hup).cons (by simp [NodeEvent.sameAttempt])
    · rw [← NodeEvent.transform.inj hp]
      exact hown
  | publishChanged | publishState => exact hi.quiet rfl (by simp [ObserverCall.run])
  | statusWrite _ _ | dropSample _ | stateWrite _ | poseCheck | tfRead =>
    exact hi.quiet rfl (by simp [ObserverCall.run])

/-- **Next lemma.** What a section hands on has what it needs, but for the read that `on_state`
    goes on to. -/
theorem ObserverCall.Own.next {c' : ObserverCall} (hown : c.Own h) (hi : PoseInv v h)
    (hup : attemptUp h = true) (hnext : (c.run cfg v).next = some c') (hcheck : c ≠ .poseCheck) :
    c'.Own ((c.run cfg v).events ++ h) := by
  cases c
  all_goals simp only [run] at hnext
  all_goals repeat' split at hnext
  all_goals simp only [Option.some.injEq, Option.map_eq_some_iff, reduceCtorEq] at hnext
  case poseCheck => exact absurd rfl hcheck
  case tfRead =>
    -- the pose that was read is the stored one
    obtain ⟨p, hp, rfl⟩ := hnext
    exact hi.own p hp hown hup
  all_goals rw [← hnext]
  all_goals trivial

/-- A section that only `on_state` has. -/
def ObserverCall.onlyState : ObserverCall → Bool
  | .stateWrite _ | .publishState | .poseCheck => true
  | _ => false

theorem ObserverCall.onlyState_next {c' : ObserverCall} (hc : c.onlyState = false)
    (hnext : (c.run cfg v).next = some c') : c'.onlyState = false := by
  cases c
  all_goals simp only [onlyState, Bool.true_eq_false] at hc
  all_goals simp only [run] at hnext
  all_goals repeat' split at hnext
  all_goals simp only [Option.some.injEq, Option.map_eq_some_iff, reduceCtorEq] at hnext
  case tfRead =>
    obtain ⟨p, -, rfl⟩ := hnext
    rfl
  all_goals rw [← hnext]; rfl

theorem onImu_onlyState (sample : ImuSample) : (onImu cfg sample).onlyState = false := by
  unfold onImu
  repeat' split
  all_goals rfl

/-- A sample delivered in an attempt makes its pose the attempt's own. -/
theorem onImu_own (sample : ImuSample) (hup : attemptUp h = true) :
    (onImu cfg sample).Own (.imuDelivered sample :: h) := by
  unfold onImu
  repeat' split
  · trivial
  · trivial
  · exact Since.now ⟨sample, h, rfl, rfl, hup⟩

/-- Attempts, calls and poses: callbacks are in progress only in an attempt, and every call but
    `on_state` at its read has in its hands, or finds stored, a pose of the attempt. -/
structure InAttempt (s : System) : Prop where
  up : attemptUp s.history = sdkUp s.world.trace
  quiet : sdkUp s.world.trace = false → ∀ i, s.calls i = none
  calls : ∀ i c, s.calls i = some c → c.onlyState = false ∧ c.Own s.history
  onState : ∀ c, s.onState = some c → c ≠ .tfRead → c.Own s.history
  pose : PoseInv s.vars s.history

/-- A worker step starts or ends an attempt in the node's history as it does in the runtime's. -/
theorem worker_attempt {w w' : World} {ans : Runtime.Answer} (hs : workerStep cfg.runtime ans w w.wk.pc = some w')
    (hup : attemptUp h = sdkUp w.trace) :
    attemptUp (attemptEvents w.wk.pc ++ h) = sdkUp w'.trace := by
  by_cases hinit : w.wk.pc = .initCall
  · rw [hinit] at hs ⊢
    simp only [workerStep, Option.some.injEq] at hs
    subst hs
    rfl
  · by_cases hdeinit : ∃ k, w.wk.pc = .deinit k
    · obtain ⟨k, hk⟩ := hdeinit
      rw [hk] at hs ⊢
      simp only [workerStep, Option.some.injEq] at hs
      subst hs
      cases k <;> rfl
    · rw [workerStep_sdkUp hs hinit (fun k hk => hdeinit ⟨k, hk⟩), ← hup]
      cases hpc : w.wk.pc
      all_goals first
        | rfl
        | exact absurd hpc hinit
        | exact absurd ⟨_, hpc⟩ hdeinit

/-- **Step lemma, a call begins.** -/
theorem InAttempt.begin {e : List NodeEvent} {w : World} {n : Nat} (hi : InAttempt s)
    (hup : attemptUp (e ++ s.history) = sdkUp w.trace) (hsdk : sdkUp w.trace = true)
    (he : ∀ x ∈ e, ∃ sample, x = .imuDelivered sample) (hstate : c.onlyState = false)
    (hown : c.Own (e ++ s.history)) :
    InAttempt ({ s with world := w, newest := n, history := e ++ s.history }.begin c) := by
  have hsame : ∀ x ∈ e, x.sameAttempt := by
    intro x hx
    obtain ⟨sample, rfl⟩ := he x hx
    simp [NodeEvent.sameAttempt]
  refine ⟨hup, fun hdown => absurd hdown (by simp [hsdk]), fun i c' hc' => ?_,
    fun c' hc' hne => (hi.onState c' hc' hne).append hsame,
    hi.pose.quiet rfl (fun x hx => Or.inr (he x hx))⟩
  simp only [System.begin_calls, Function.update_apply] at hc'
  split at hc'
  · rw [← Option.some.inj hc']
    exact ⟨hstate, hown⟩
  · obtain ⟨hstate', hown'⟩ := hi.calls i c' hc'
    exact ⟨hstate', hown'.append hsame⟩

/-- **Step lemma, the worker.** An attempt starts and ends with no call in progress. -/
theorem InAttempt.worker_step {w : World} {ans : Runtime.Answer} {o : Option ObserverCall}
    (hi : InAttempt s) (hdown : s.world.wk.pc.sdkDown = true → sdkUp s.world.trace = false)
    (hfresh : Fresh s) (htime : s.inTime (.runtime (.worker ans)) = true)
    (ho : ∀ c, o = some c → ∃ snapshot, c = .stateWrite snapshot)
    (hs : workerStep cfg.runtime ans s.world s.world.wk.pc = some w) :
    InAttempt { s with
      world := w
      onState := o
      history := attemptEvents s.world.wk.pc ++ s.history } := by
  have hup := worker_attempt hs hi.up
  have hstate : ∀ c h, o = some c → c.Own h := by
    intro c h hc
    obtain ⟨snapshot, rfl⟩ := ho c hc
    trivial
  by_cases hinit : s.world.wk.pc = .initCall
  · -- an attempt starts: no callback is in progress, and a stored pose is carried over
    have hnone := hi.quiet (hdown (by rw [hinit]; rfl))
    rw [hinit] at hup ⊢
    refine ⟨hup, fun _ => hnone, fun i c hc => ?_, fun c hc _ => hstate c _ hc, hi.pose.held, ?_, ?_⟩
    · rw [hnone i] at hc
      exact absurd hc (by simp)
    · intro p hp hcarried
      rw [show carried (attemptEvents .initCall ++ s.history) = poseHeld s.history from rfl,
        hi.pose.held, hp] at hcarried
      exact absurd hcarried (by simp)
    · exact ⟨fun p hp => absurd hp (by simp), hi.pose.transforms⟩
  · by_cases hdeinit : ∃ k, s.world.wk.pc = .deinit k
    · -- an attempt ends: `deinit` returns after the last callback
      obtain ⟨k, hk⟩ := hdeinit
      have hnone : ∀ i, s.calls i = none := by
        intro i
        rcases Nat.lt_or_ge i s.nextCall with hlt | hge
        · simp only [System.inTime, hk, List.all_eq_true, List.mem_range,
            Option.isNone_iff_eq_none] at htime
          exact htime i hlt
        · exact hfresh i hge
      rw [hk] at hup ⊢
      refine ⟨hup, fun _ => hnone, fun i c hc => ?_, fun c hc _ => hstate c _ hc, hi.pose.held, ?_, ?_⟩
      · rw [hnone i] at hc
        exact absurd hc (by simp)
      · exact fun p _ _ hattempt => absurd hattempt (by simp [attemptEvents, attemptUp])
      · exact ⟨fun p hp => absurd hp (by simp), hi.pose.transforms⟩
    · -- any other step leaves the attempt as it is
      have hnil : attemptEvents s.world.wk.pc = [] := by
        cases hpc : s.world.wk.pc
        all_goals first
          | rfl
          | exact absurd hpc hinit
          | exact absurd ⟨_, hpc⟩ hdeinit
      rw [hnil] at hup ⊢
      refine ⟨hup, fun hsdk => hi.quiet ?_, hi.calls, fun c hc _ => hstate c _ hc, hi.pose⟩
      rwa [← workerStep_sdkUp hs hinit (fun k hk => hdeinit ⟨k, hk⟩)]

/-- **Step lemma, sections on SDK threads.** -/
theorem InAttempt.call_step {i : Nat} (hi : InAttempt s) (hc : s.calls i = some c) :
    InAttempt { s with
      vars := (c.run cfg s.vars).vars
      calls := Function.update s.calls i (c.run cfg s.vars).next
      history := (c.run cfg s.vars).events ++ s.history } := by
  obtain ⟨hstate, hown⟩ := hi.calls i c hc
  have hsame : ∀ e ∈ (c.run cfg s.vars).events, e.sameAttempt := ObserverCall.run_sameAttempt
  have hsdk : sdkUp s.world.trace = true := by
    by_contra hdown
    rw [hi.quiet (by simpa using hdown) i] at hc
    exact absurd hc (by simp)
  refine ⟨(attemptUp_append hsame).trans hi.up, fun hdown => absurd hdown (by simp [hsdk]),
    fun j c' hc' => ?_, fun c' hc' hne => (hi.onState c' hc' hne).append hsame,
    hi.pose.section hown⟩
  simp only [Function.update_apply] at hc'
  split at hc'
  · refine ⟨ObserverCall.onlyState_next hstate hc',
      hown.next hi.pose (hi.up.trans hsdk) hc' (fun hcheck => ?_)⟩
    rw [hcheck] at hstate
    exact absurd hstate (by simp [ObserverCall.onlyState])
  · obtain ⟨hstate', hown'⟩ := hi.calls j c' hc'
    exact ⟨hstate', hown'.append hsame⟩

/-- **Step lemma, sections of `on_state`.** -/
theorem InAttempt.onState_step (hi : InAttempt s) (hsdk : sdkUp s.world.trace = true)
    (hc : s.onState = some c) (hread : s.readsCarried .onState = false) :
    InAttempt { s with
      vars := (c.run cfg s.vars).vars
      onState := (c.run cfg s.vars).next
      history := (c.run cfg s.vars).events ++ s.history } := by
  -- at its read `on_state` has what it needs by the condition, elsewhere by the invariant
  have hown : c.Own s.history := by
    by_cases hpc : c = .tfRead
    · subst hpc
      show carried s.history = false
      simpa [System.readsCarried, hc] using hread
    · exact hi.onState c hc hpc
  have hsame : ∀ e ∈ (c.run cfg s.vars).events, e.sameAttempt := ObserverCall.run_sameAttempt
  refine ⟨(attemptUp_append hsame).trans hi.up, hi.quiet, fun j c' hc' => ?_,
    fun c' hc' hne => ?_, hi.pose.section hown⟩
  · obtain ⟨hstate', hown'⟩ := hi.calls j c' hc'
    exact ⟨hstate', hown'.append hsame⟩
  · refine hown.next hi.pose (hi.up.trans hsdk) hc' (fun hcheck => hne ?_)
    rw [hcheck] at hc'
    simp only [ObserverCall.run, Option.ite_none_right_eq_some, Option.some.injEq] at hc'
    exact hc'.2.symm

/-- **Step lemma.** -/
theorem InAttempt.step (hi : InAttempt s) (hrun : System.Run cfg ok s) (htime : s.inTime b = true)
    (hread : s.readsCarried b = false) (hs : Stepped cfg s b s') : InAttempt s' := by
  have hreach := hrun.reachable
  cases hs with
  | @worker ans w hidle hpoll hw =>
    refine hi.worker_step hreach.sdkDown hrun.fresh htime (fun c hc => ?_) hw
    simp only [Option.ite_none_right_eq_some, Option.some.injEq] at hc
    exact ⟨s.polled, hc.2.symm⟩
  | poll hpc hw =>
    have hkept := workerStep_sdkUp hw (by simp [hpc]) (by simp [hpc])
    exact ⟨hi.up.trans hkept.symm, fun hdown => hi.quiet (hkept.symm.trans hdown), hi.calls,
      hi.onState, hi.pose⟩
  | @client a w ha hstatus hw =>
    have hkept : sdkUp w.trace = sdkUp s.world.trace := by
      refine (step_link hw ?_).2.2
      cases a with
      | worker ans => exact absurd ha (by simp)
      | status linked authority => exact absurd rfl (hstatus linked authority)
      | _ => rfl
    exact ⟨hi.up.trans hkept.symm, fun hdown => hi.quiet (hkept.symm.trans hdown), hi.calls,
      hi.onState, hi.pose⟩
  | status =>
    have hsdk : sdkUp s.world.trace = true := htime
    exact hi.begin (e := []) hi.up hsdk (by simp) rfl trivial
  | @imu sample =>
    have hsdk : sdkUp s.world.trace = true := htime
    exact hi.begin (e := [.imuDelivered sample]) hi.up hsdk (by simp) (onImu_onlyState sample)
      (onImu_own sample (hi.up.trans hsdk))
  | other events hstatus hpose hevents =>
    have hsame : ∀ e ∈ events, e.sameAttempt := by
      intro e he
      obtain ⟨msg, rfl⟩ := hevents e he
      simp [NodeEvent.sameAttempt]
    refine ⟨(attemptUp_append hsame).trans hi.up, hi.quiet, fun i c hc => ?_,
      fun c hc hne => (hi.onState c hc hne).append hsame,
      hi.pose.quiet hpose (fun e he => Or.inl (hevents e he))⟩
    obtain ⟨hstate, hown⟩ := hi.calls i c hc
    exact ⟨hstate, hown.append hsame⟩
  | call hc => exact hi.call_step hc
  | onState hc =>
    have hpc : s.world.wk.pc = .wait := hrun.onWorker.waiting (by simp [hc])
    exact hi.onState_step (hreach.sdkUp (by rw [hpc]; rfl)) hc hread

/-- **Own poses only.** In every run whose callbacks come in time and in which `on_state` reads no
    pose that an earlier attempt left behind, every transform is the pose of an IMU sample of the
    attempt in which it is broadcast. -/
theorem own_poses_only
    (hrun : System.Run cfg (fun s b => s.inTime b = true ∧ s.readsCarried b = false) s) :
    OwnTransforms s.history := by
  have hreach : Reaches (System.step cfg) (fun s b => s.inTime b = true ∧ s.readsCarried b = false)
      (System.initial cfg) s := hrun
  have hattempt : InAttempt s := hreach.invariant
    ⟨rfl, fun _ _ => rfl, by simp [System.initial], by simp [System.initial],
      ⟨rfl, by simp [System.initial], trivial⟩⟩
    (fun t b t' (ht : System.Run cfg _ t) hi hok hs => hi.step ht hok.1 hok.2 (stepped hs))
  exact hattempt.pose.transforms

/-- The same two sessions, with a sample of the second one before its first state poll. -/
def storedAnew : List Action :=
  runtimeSteps (.start :: works 13 (obliging 0xB104)) ++ [.imu oneAhead, .call 0, .call 0, .call 0] ++
    runtimeSteps (.advance (ms 100) :: works 8 (obliging 0xB104) ++
      [.worker { result := .failure sdkResTimeout "timeout" }] ++ works 6 (obliging 0xB104) ++
      [.advance (ms 1000)] ++ works 14 (obliging 0xB104)) ++
    [.imu {}, .call 1] ++ runtimeSteps (.advance (ms 500) :: works 13 (obliging 0xB104)) ++
    [.poll .empty] ++ runtimeSteps (works 4 (obliging 0xB104)) ++ List.replicate 5 .onState

/-- The second session broadcasts the pose of its own sample, no longer the first one's. -/
theorem own_poses_only_stored :
    ∃ s, System.Run .plain (fun s b => s.inTime b = true ∧ s.readsCarried b = false) s ∧
      s.history.head? = some (.transform (poseOf {})) ∧ .transform (poseOf oneAhead) ∈ s.history ∧
      OwnTransforms s.history := by
  obtain ⟨s, hrun, hs⟩ := System.exists_run_of_exec .plain
    (fun s b => s.inTime b = true ∧ s.readsCarried b = false) storedAnew
    (fun s => decide (s.history.head? = some (.transform (poseOf {}))) &&
      decide (.transform (poseOf oneAhead) ∈ s.history)) (by decide +kernel)
  simp only [Bool.and_eq_true, decide_eq_true_eq] at hs
  exact ⟨s, hrun, hs.1, hs.2, own_poses_only hrun⟩

end HypertronBridge.Node
