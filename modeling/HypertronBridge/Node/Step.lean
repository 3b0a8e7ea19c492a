import HypertronBridge.Adapter.Snapshot
import HypertronBridge.Runtime.Links

namespace HypertronBridge.Node

open TransitionSystem History HypertronBridge.Adapter HypertronBridge.Runtime

/-!
# The driver node over its runtime (`driver_node.cpp`)

The node observes the runtime: SDK threads carry its status and IMU reports into `on_status` and
`on_imu`, the worker carries each state poll into `on_state`.  Every section under `state_mutex_`
or `pose_mutex_`, and every broadcast, is one atomic step; any number of observer calls are in
progress at once.

* `Vars` — what the two mutexes guard; `robotState` — the message composed from it;
* `ObserverCall` — an observer call between two of its sections, `ObserverCall.run` the next one;
* `System` — the runtime's world, the node, and its calls in progress;
* `System.step` — one atomic step of it all.
-/

/-! ### Messages -/

/-- `finite_float(x) ? x : 0.0F`. -/
def finiteOrZero (x : Binary32) : Binary32 := if x.isFinite then x else .zero

/-- The pose that an odometry message carries: a position in the plane, and the rotation by the
    yaw about the vertical axis. -/
structure Pose where
  x : Binary32
  y : Binary32
  yaw : Binary32
deriving DecidableEq

/-- The pose of an IMU sample. -/
def poseOf (sample : ImuSample) : Pose := ⟨sample.odomX, sample.odomY, sample.yaw⟩

/-- `RobotState`, without its time stamp. -/
structure RobotStateMsg where
  frameId : String
  sshConnected : Bool := false
  agentConnected : Bool := false
  sdkLinked : Bool
  controlAuthority : Bool
  emergencyStop : Bool
  jointInterfaceAvailable : Bool := false
  cameraAvailable : Bool := false
  odometryScaleVerified : Bool
  systemStatus : UInt8
  errorCode : UInt32
  warningCode : UInt32
  sportStatus : UInt16
  batteryPercentage : Binary32
  batteryTemperature : Binary32
  batteryVoltage : Binary32
  batteryCycleCount : UInt16
  chargeStatus : UInt16
  wheelSpeed : Vector Binary32 4
  protocolRxDrops : UInt32 := 0
  rejectedJointCommands : UInt32
  lastError : String
deriving DecidableEq

/-- The parameters that the observer and the publishers read. -/
structure NodeConfig where
  runtime : RuntimeConfig := {}
  /-- `tf_broadcaster_` exists. -/
  broadcastsTf : Bool := true
  baseFrame : String := "base_link"
  odometryScaleVerified : Bool := true
  /-- `orientation_quaternion` finds a norm it can divide by (its float arithmetic is not
      modelled). -/
  orientationUsable : Vector Binary32 4 → Bool

/-- Default parameters, and orientations that are all usable. -/
def NodeConfig.plain : NodeConfig := { orientationUsable := fun _ => true }

/-- What `state_mutex_` and `pose_mutex_` guard. -/
structure Vars where
  snapshot : Snapshot := .empty
  statusLinked : Bool := false
  statusAuthority : Bool := false
  estopLatched : Bool := false
  lastError : String := ""
  rejectedJointCommands : UInt32 := 0
  lastPose : Option Pose := none

/-- `status_linked_` and `status_authority_`. -/
def Vars.status (v : Vars) : Bool × Bool := (v.statusLinked, v.statusAuthority)

/-- The message that `publish_robot_state` composes. -/
def robotState (cfg : NodeConfig) (v : Vars) : RobotStateMsg where
  frameId := cfg.baseFrame
  sdkLinked := v.statusLinked
  controlAuthority := v.statusAuthority
  emergencyStop := v.estopLatched
  odometryScaleVerified := cfg.odometryScaleVerified
  systemStatus := v.snapshot.systemStatus
  errorCode := v.snapshot.errorCode
  warningCode := v.snapshot.warningCode
  sportStatus := v.snapshot.sportStatus
  batteryPercentage := finiteOrZero v.snapshot.batteryPercentage
  batteryTemperature := finiteOrZero v.snapshot.batteryTemperature
  batteryVoltage := finiteOrZero v.snapshot.batteryVoltage
  batteryCycleCount := v.snapshot.batteryCycleCount
  chargeStatus := v.snapshot.chargeStatus
  wheelSpeed := v.snapshot.wheelSpeed.map finiteOrZero
  rejectedJointCommands := v.rejectedJointCommands
  lastError := v.lastError

/-- `imu_sample_finite`. -/
def imuSampleFinite (sample : ImuSample) : Bool :=
  sample.accelerometer.all Binary32.isFinite && sample.gyroscope.all Binary32.isFinite &&
    sample.quaternion.all Binary32.isFinite && sample.pitch.isFinite && sample.roll.isFinite &&
    sample.yaw.isFinite && sample.odomX.isFinite && sample.odomY.isFinite

/-! ### Observer calls -/

/-- What the node did, as far as link state and poses go. -/
inductive NodeEvent
  /-- A connection attempt: `init` starts, `deinit` has returned. -/
  | attemptStarted
  | attemptEnded
  /-- The SDK delivered an IMU sample. -/
  | imuDelivered (sample : ImuSample)
  | poseStored (pose : Pose)
  | poseCleared
  /-- A robot state was composed for publication. -/
  | robotState (msg : RobotStateMsg)
  /-- The odom to base transform was broadcast. -/
  | transform (pose : Pose)
deriving DecidableEq

/-- An observer call before its next section. -/
inductive ObserverCall
  -- on_status
  | statusWrite (linked authority : Bool)
  | poseReset (changed : Bool)
  | publishChanged
  -- on_imu
  | dropSample (reason : String)
  | poseStore (sample : ImuSample)
  -- on_state
  | stateWrite (snapshot : Snapshot)
  | publishState
  | poseCheck
  -- publish_tf
  | tfRead
  | tfSend (pose : Pose)
deriving DecidableEq

/-- What one section leaves: the guarded fields, the rest of the call, and what it did. -/
structure Section where
  vars : Vars
  next : Option ObserverCall
  events : List NodeEvent := []

/-- The next section of an observer call. -/
def ObserverCall.run (cfg : NodeConfig) (v : Vars) : ObserverCall → Section
  | .statusWrite linked authority =>
      let changed := v.statusLinked != linked || v.statusAuthority != authority
      { vars := { v with statusLinked := linked, statusAuthority := authority }
        next :=
          if !linked then some (.poseReset changed)
          else if changed then some .publishChanged else none }
  | .poseReset changed =>
      { vars := { v with lastPose := none }
        next := if changed then some .publishChanged else none
        events := [.poseCleared] }
  | .publishChanged => { vars := v, next := none, events := [.robotState (robotState cfg v)] }
  | .dropSample reason => { vars := { v with lastError := reason }, next := none }
  | .poseStore sample =>
      { vars := { v with lastPose := some (poseOf sample) }
        next := if cfg.broadcastsTf then some .tfRead else none
        events := [.poseStored (poseOf sample)] }
  | .stateWrite snapshot => { vars := { v with snapshot := snapshot }, next := some .publishState }
  | .publishState =>
      { vars := v
        next := if cfg.broadcastsTf then some .poseCheck else none
        events := [.robotState (robotState cfg v)] }
  | .poseCheck => { vars := v, next := if v.lastPose.isSome then some .tfRead else none }
  | .tfRead => { vars := v, next := v.lastPose.map .tfSend }
  | .tfSend pose => { vars := v, next := none, events := [.transform pose] }

/-- The first section of `on_imu`, by its checks of the sample. -/
def onImu (cfg : NodeConfig) (sample : ImuSample) : ObserverCall :=
  if !imuSampleFinite sample then
    .dropSample "dropped sample: IMU telemetry contained a non-finite value"
  else if !cfg.orientationUsable sample.quaternion then
    .dropSample "dropped sample: IMU orientation norm was zero"
  else .poseStore sample

/-- The call belongs to `on_status`. -/
def ObserverCall.ofStatus : ObserverCall → Bool
  | .statusWrite _ _ | .poseReset _ | .publishChanged => true
  | _ => false

/-! ### The system -/

/-- The runtime, the node, and the observer calls in progress. -/
structure System where
  world : World
  vars : Vars := {}
  /-- The observer calls in progress on SDK threads, by serial number. -/
  calls : Nat → Option ObserverCall := fun _ => none
  nextCall : Nat := 0
  /-- The serial number of the call that carries the newest status report. -/
  newest : Nat := 0
  /-- `on_state`, in progress on the worker. -/
  onState : Option ObserverCall := none
  /-- The snapshot of the state poll in progress. -/
  polled : Snapshot := .empty
  /-- What the node did, newest first. -/
  history : List NodeEvent := []

/-- The actions of the system. -/
inductive Action
  /-- A step of the runtime other than a snapshot; a status report goes on to `on_status`. -/
  | runtime (a : Runtime.Action)
  /-- The snapshot of a state poll. -/
  | poll (snapshot : Snapshot)
  /-- The SDK delivers an IMU sample. -/
  | imu (sample : ImuSample)
  /-- `on_sport`. -/
  | sport (sample : SportSample)
  /-- `update_last_error`, as events and rejected commands call it. -/
  | lastError (message : String)
  | rejectJointCommand
  /-- The write of the emergency-stop service. -/
  | estop (latched : Bool)
  /-- `publish_robot_state`, as events, services and the constructor call it. -/
  | publish
  /-- The next section of an observer call on an SDK thread. -/
  | call (i : Nat)
  /-- The next section of `on_state`. -/
  | onState

/-- Steps of the runtime, in a schedule. -/
def runtimeSteps (as : List Runtime.Action) : List Action := as.map .runtime

/-- The attempt that a worker step starts or ends. -/
def attemptEvents : Pc → List NodeEvent
  | .initCall => [.attemptStarted]
  | .deinit _ => [.attemptEnded]
  | _ => []

/-- A worker step ends a state poll, which hands its snapshot to `on_state`. -/
def endsPoll (before after : Pc) : Bool :=
  match before with
  | .checkRead _ | .checkComplete _ | .checkTimeout => after == .wait
  | _ => false

namespace System

/-- A new observer call on an SDK thread. -/
@[simps] def begin (c : ObserverCall) (s : System) : System :=
  { s with calls := Function.update s.calls s.nextCall (some c), nextCall := s.nextCall + 1 }

/-- One atomic step. -/
def step (cfg : NodeConfig) (b : Action) (s : System) : Option System :=
  match b with
  | .runtime (.worker ans) =>
      if s.onState.isSome || s.world.wk.pc == .pollSnapshot then none
      else (Runtime.step cfg.runtime (.worker ans) s.world).map fun w =>
        { s with
          world := w
          onState := if endsPoll s.world.wk.pc w.wk.pc then some (.stateWrite s.polled) else none
          history := attemptEvents s.world.wk.pc ++ s.history }
  | .runtime (.status linked authority) =>
      (Runtime.step cfg.runtime (.status linked authority) s.world).map fun w =>
        { s with world := w, newest := s.nextCall }.begin (.statusWrite linked authority)
  | .runtime a => (Runtime.step cfg.runtime a s.world).map fun w => { s with world := w }
  | .poll snapshot =>
      if s.world.wk.pc = .pollSnapshot then
        (Runtime.step cfg.runtime (.worker { snapshot := snapshot.toSdkSnapshot }) s.world).map
          fun w => { s with world := w, polled := snapshot }
      else none
  | .imu sample =>
      some ({ s with history := .imuDelivered sample :: s.history }.begin (onImu cfg sample))
  | .sport sample =>
      some (if sample.wheelSpeed.all Binary32.isFinite then
          { s with vars.snapshot.wheelSpeed := sample.wheelSpeed }
        else
          { s with vars.lastError :=
            "dropped sport sample: wheel speed contained a non-finite value" })
  | .lastError message => some { s with vars.lastError := message }
  | .rejectJointCommand =>
      some { s with vars.rejectedJointCommands := s.vars.rejectedJointCommands + 1 }
  | .estop latched => some { s with vars.estopLatched := latched }
  | .publish => some { s with history := .robotState (robotState cfg s.vars) :: s.history }
  | .call i => (s.calls i).map fun c =>
      { s with
        vars := (c.run cfg s.vars).vars
        calls := Function.update s.calls i (c.run cfg s.vars).next
        history := (c.run cfg s.vars).events ++ s.history }
  | .onState => s.onState.map fun c =>
      { s with
        vars := (c.run cfg s.vars).vars
        onState := (c.run cfg s.vars).next
        history := (c.run cfg s.vars).events ++ s.history }

/-- A constructed node over a runtime before `start()`. -/
def initial (cfg : NodeConfig) : System := { world := World.initial cfg.runtime }

/-- The states of the runs whose every step meets the guard `ok`. -/
def Run (cfg : NodeConfig) (ok : System → Action → Prop) (s : System) : Prop :=
  Reaches (step cfg) ok (initial cfg) s

/-- Run a schedule from the start, under a guard. -/
def exec (cfg : NodeConfig) (ok : System → Action → Prop) [∀ s b, Decidable (ok s b)]
    (schedule : List Action) : Option System :=
  execGuarded (step cfg) ok schedule (initial cfg)

/-- What a schedule's end shows, a guarded run shows. -/
theorem exists_run_of_exec (cfg : NodeConfig) (ok : System → Action → Prop)
    [∀ s b, Decidable (ok s b)] (schedule : List Action) (P : System → Bool)
    (h : (exec cfg ok schedule).any P = true) : ∃ s, Run cfg ok s ∧ P s = true := by
  exact exists_reaches_of_execGuarded schedule P h

end System

/-! ### What a step does -/

variable {cfg : NodeConfig} {s s' : System} {b : Action} {ok : System → Action → Prop}

/-- **What one step does.** The worker steps and may start or end an attempt; a client of the
    runtime steps; a status report or an IMU sample begins its observer call; an observer call
    runs its next section; or other fields of the node change. -/
inductive Stepped (cfg : NodeConfig) (s : System) : Action → System → Prop
  | worker {ans : Runtime.Answer} {w : World} (hidle : s.onState = none)
      (hpoll : s.world.wk.pc ≠ .pollSnapshot)
      (hs : workerStep cfg.runtime ans s.world s.world.wk.pc = some w) :
      Stepped cfg s (.runtime (.worker ans))
        { s with
          world := w
          onState := if endsPoll s.world.wk.pc w.wk.pc then some (.stateWrite s.polled) else none
          history := attemptEvents s.world.wk.pc ++ s.history }
  | poll {snapshot : Snapshot} {w : World} (hpc : s.world.wk.pc = .pollSnapshot)
      (hs : workerStep cfg.runtime { snapshot := snapshot.toSdkSnapshot } s.world
        s.world.wk.pc = some w) :
      Stepped cfg s (.poll snapshot) { s with world := w, polled := snapshot }
  | client {a : Runtime.Action} {w : World} (ha : s.world.workerAt a = none)
      (hstatus : ∀ linked authority, a ≠ .status linked authority)
      (hs : Runtime.step cfg.runtime a s.world = some w) :
      Stepped cfg s (.runtime a) { s with world := w }
  | status {linked authority : Bool} :
      Stepped cfg s (.runtime (.status linked authority))
        ({ s with world := s.world.handleStatus cfg.runtime linked authority
                  newest := s.nextCall }.begin (.statusWrite linked authority))
  | imu {sample : ImuSample} :
      Stepped cfg s (.imu sample)
        ({ s with history := .imuDelivered sample :: s.history }.begin (onImu cfg sample))
  | other {v : Vars} {b : Action} (events : List NodeEvent) (hstatus : v.status = s.vars.status)
      (hpose : v.lastPose = s.vars.lastPose)
      (hevents : ∀ e ∈ events, ∃ msg, e = .robotState msg) :
      Stepped cfg s b { s with vars := v, history := events ++ s.history }
  | call {i : Nat} {c : ObserverCall} (hc : s.calls i = some c) :
      Stepped cfg s (.call i)
        { s with
          vars := (c.run cfg s.vars).vars
          calls := Function.update s.calls i (c.run cfg s.vars).next
          history := (c.run cfg s.vars).events ++ s.history }
  | onState {c : ObserverCall} (hc : s.onState = some c) :
      Stepped cfg s .onState
        { s with
          vars := (c.run cfg s.vars).vars
          onState := (c.run cfg s.vars).next
          history := (c.run cfg s.vars).events ++ s.history }

/-- **Inversion.** -/
theorem stepped (hs : System.step cfg b s = some s') : Stepped cfg s b s' := by
  cases b
  case runtime a =>
    cases a
    all_goals simp only [System.step] at hs
    case worker ans =>
      split at hs
      · exact absurd hs (by simp)
      · rename_i hfree
        obtain ⟨w, hw, rfl⟩ := Option.map_eq_some_iff.mp hs
        simp only [Bool.or_eq_true, beq_iff_eq, not_or, Bool.not_eq_true,
          Option.isSome_eq_false_iff, Option.isNone_iff_eq_none] at hfree
        exact .worker hfree.1 hfree.2 hw
    case status linked authority =>
      obtain ⟨w, hw, rfl⟩ := Option.map_eq_some_iff.mp hs
      simp only [Runtime.step, Option.some.injEq] at hw
      rw [← hw]
      exact .status
    all_goals
      obtain ⟨w, hw, rfl⟩ := Option.map_eq_some_iff.mp hs
      exact .client rfl (by simp) hw
  case poll snapshot =>
    simp only [System.step] at hs
    split at hs
    · rename_i hpc
      obtain ⟨w, hw, rfl⟩ := Option.map_eq_some_iff.mp hs
      exact .poll hpc hw
    · exact absurd hs (by simp)
  case imu sample =>
    rw [← Option.some.inj hs]
    exact .imu
  case call i =>
    obtain ⟨c, hc, rfl⟩ := Option.map_eq_some_iff.mp hs
    exact .call hc
  case onState =>
    obtain ⟨c, hc, rfl⟩ := Option.map_eq_some_iff.mp hs
    exact .onState hc
  case publish =>
    rw [← Option.some.inj hs]
    exact .other [_] rfl rfl (by simp)
  all_goals
    simp only [System.step] at hs
    rw [← Option.some.inj hs]
    first
      | exact .other [] rfl rfl (by simp)
      | (split <;> exact .other [] rfl rfl (by simp))

/-- Every run of the system is a run of its runtime. -/
theorem System.Run.reachable (h : System.Run cfg ok s) : Reachable cfg.runtime s.world := by
  have hreach : Reaches (System.step cfg) ok (System.initial cfg) s := h
  refine hreach.project System.world (fun t b t' hok hs => ?_)
  clear hok
  cases stepped hs with
  | worker _ _ hw | poll _ hw => exact Or.inr ⟨.worker _, trivial, hw⟩
  | client _ _ hw => exact Or.inr ⟨_, trivial, hw⟩
  | @status linked authority => exact Or.inr ⟨.status linked authority, trivial, rfl⟩
  | imu | other _ _ _ _ | call _ | onState _ => exact Or.inl rfl

/-- Serial numbers not yet given out have no call. -/
def Fresh (s : System) : Prop := ∀ i, s.nextCall ≤ i → s.calls i = none

theorem Fresh.begin (h : Fresh s) (c : ObserverCall) : Fresh (s.begin c) := by
  intro i hi
  have hlt : s.nextCall < i := hi
  simp only [System.begin_calls, Function.update_apply, if_neg (Nat.ne_of_gt hlt)]
  exact h i (Nat.le_of_lt hlt)

/-- **Step lemma.** -/
theorem Fresh.step (h : Fresh s) (hs : Stepped cfg s b s') : Fresh s' := by
  cases hs with
  | worker _ _ _ | poll _ _ | client _ _ _ | other _ _ _ _ | onState _ => exact h
  | status => exact Fresh.begin (s := { s with world := _, newest := _ }) h _
  | imu => exact Fresh.begin (s := { s with history := _ }) h _
  | @call i c hc =>
    intro j hj
    have hne : j ≠ i := by
      rintro rfl
      rw [h j hj] at hc
      exact absurd hc (by simp)
    show Function.update s.calls i _ j = none
    rw [Function.update_of_ne hne]
    exact h j hj

/-- **Run lemma.** -/
theorem System.Run.fresh (h : System.Run cfg ok s) : Fresh s := by
  have hreach : Reaches (System.step cfg) ok (System.initial cfg) s := h
  exact hreach.invariant (fun _ _ => rfl) (fun _ _ _ _ hi _ hs => hi.step (stepped hs))

/-- The call belongs to `on_state`. -/
def ObserverCall.ofState : ObserverCall → Bool
  | .stateWrite _ | .publishState | .poseCheck | .tfRead | .tfSend _ => true
  | _ => false

/-- A section of `on_state` is followed by one of `on_state`. -/
theorem ObserverCall.ofState_next {c c' : ObserverCall} {v : Vars} (hc : c.ofState = true)
    (hnext : (c.run cfg v).next = some c') : c'.ofState = true := by
  cases c
  all_goals simp only [ofState, Bool.false_eq_true] at hc
  all_goals simp only [run] at hnext
  all_goals repeat' split at hnext
  all_goals simp only [Option.some.injEq, Option.map_eq_some_iff, reduceCtorEq] at hnext
  case tfRead =>
    obtain ⟨p, -, rfl⟩ := hnext
    rfl
  all_goals rw [← hnext]; rfl

/-- What runs on the worker is `on_state`, while the worker waits for it before its next
    iteration. -/
structure OnWorker (s : System) : Prop where
  ofState : ∀ c, s.onState = some c → c.ofState = true
  waiting : s.onState ≠ none → s.world.wk.pc = .wait

/-- **Step lemma.** -/
theorem OnWorker.step (h : OnWorker s) (hs : Stepped cfg s b s') : OnWorker s' := by
  cases hs with
  | worker hidle hpoll hw =>
    constructor
    · intro c hc
      simp only [Option.ite_none_right_eq_some, Option.some.injEq] at hc
      rw [← hc.2]
      rfl
    · intro hc
      simp only [ne_eq, ite_eq_right_iff, reduceCtorEq, imp_false, Bool.not_eq_true,
        Bool.not_eq_false] at hc
      unfold endsPoll at hc
      split at hc
      · simpa using hc
      · simpa using hc
      · simpa using hc
      · exact absurd hc (by simp)
  | poll hpc hw =>
    refine ⟨h.ofState, fun hc => ?_⟩
    rw [h.waiting hc] at hpc
    exact absurd hpc (by simp)
  | client ha _ hw =>
    refine ⟨h.ofState, fun hc => ?_⟩
    rcases step_wk hw ha with hwk | ⟨hidle, -⟩
    · rw [hwk]
      exact h.waiting hc
    · rw [h.waiting hc] at hidle
      exact absurd hidle (by simp)
  | status => exact ⟨h.ofState, h.waiting⟩
  | imu | other _ _ _ _ | call _ => exact ⟨h.ofState, h.waiting⟩
  | onState hc =>
    refine ⟨fun c' hc' => ObserverCall.ofState_next (h.ofState _ hc) hc', fun _ => ?_⟩
    exact h.waiting (by simp [hc])

/-- **Run lemma.** -/
theorem System.Run.onWorker (h : System.Run cfg ok s) : OnWorker s := by
  have hreach : Reaches (System.step cfg) ok (System.initial cfg) s := h
  exact hreach.invariant ⟨by simp [System.initial], by simp [System.initial]⟩
    (fun _ _ _ _ hi _ hs => hi.step (stepped hs))

end HypertronBridge.Node
