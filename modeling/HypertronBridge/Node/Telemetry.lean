import HypertronBridge.Lib.Ranking
import HypertronBridge.Node.Pose
import HypertronBridge.Node.Step

namespace HypertronBridge.Node

open TransitionSystem HypertronBridge.Adapter HypertronBridge.Runtime

/-!
# Where the published telemetry comes from (`driver_node.cpp`)

State polls write the whole snapshot, sport samples its wheel speeds, and IMU samples the pose; messages and
transforms are composed from what is there, on any thread and at any time, after checks of some floats on
the way in and of others on the way out.

* `Polled`, `Telemetry`, `Located` — snapshots and poses that go back to what was delivered;
* `Sourced` — everything that the node holds does, and everything that it published;
* `published_telemetry_is_measured` — the result.
-/

variable {cfg : NodeConfig} {as : List Action} {s s' : System} {b : Action} {c : ObserverCall} {v : Vars}

/-! ### What goes back to a delivery -/

/-- The snapshot of a state poll, or the empty one before the first. -/
def Polled (as : List Action) (snapshot : Snapshot) : Prop := snapshot = .empty ∨ Action.poll snapshot ∈ as

/-- A sport sample that `on_sport` takes. -/
def Driven (as : List Action) (wheelSpeed : Vector Binary32 4) : Prop :=
  ∃ sample, Action.sport sample ∈ as ∧ sample.wheelSpeed.all Binary32.isFinite = true ∧
    sample.wheelSpeed = wheelSpeed

/-- A polled snapshot, its wheel speeds perhaps those of a sport sample. -/
def Telemetry (as : List Action) (snapshot : Snapshot) : Prop :=
  ∃ polled, Polled as polled ∧
    (snapshot = polled ∨ ∃ wheelSpeed, Driven as wheelSpeed ∧ snapshot = { polled with wheelSpeed })

/-- The pose of an IMU sample that `on_imu` takes. -/
def Located (cfg : NodeConfig) (as : List Action) (pose : Pose) : Prop :=
  ∃ sample, Action.imu sample ∈ as ∧ imuSampleFinite sample = true ∧
    cfg.orientationUsable sample.quaternion = true ∧ poseOf sample = pose

/-- What an observer call carries. -/
def ObserverCall.Sourced (cfg : NodeConfig) (as : List Action) : ObserverCall → Prop
  | .poseStore sample => Located cfg as (poseOf sample)
  | .stateWrite snapshot => Polled as snapshot
  | .tfSend pose => Located cfg as pose
  | _ => True

/-- What the mutexes guard. -/
structure Vars.Sourced (cfg : NodeConfig) (as : List Action) (v : Vars) : Prop where
  snapshot : Telemetry as v.snapshot
  lastPose : ∀ pose, v.lastPose = some pose → Located cfg as pose

/-- What was published. -/
def NodeEvent.Sourced (cfg : NodeConfig) (as : List Action) : NodeEvent → Prop
  | .robotState msg => ∃ v : Vars, Telemetry as v.snapshot ∧ msg = Node.robotState cfg v
  | .transform pose => Located cfg as pose
  | _ => True

/-- Everything that the node holds and published goes back to one of these actions. -/
structure Sourced (cfg : NodeConfig) (as : List Action) (s : System) : Prop where
  polled : Polled as s.polled
  vars : s.vars.Sourced cfg as
  calls : ∀ i c, s.calls i = some c → c.Sourced cfg as
  onState : ∀ c, s.onState = some c → c.Sourced cfg as
  history : ∀ e ∈ s.history, e.Sourced cfg as

/-! ### Every step keeps it -/

/-- The message composed now. -/
theorem Vars.Sourced.robotState (hv : v.Sourced cfg as) :
    (NodeEvent.robotState (Node.robotState cfg v)).Sourced cfg as :=
  ⟨v, hv.snapshot, rfl⟩

/-- What a section writes. -/
theorem ObserverCall.Sourced.vars (hc : c.Sourced cfg as) (hv : v.Sourced cfg as) :
    (c.run cfg v).vars.Sourced cfg as := by
  cases c with
  | poseStore sample => exact ⟨hv.snapshot, fun pose hpose => Option.some.inj hpose ▸ hc⟩
  | stateWrite snapshot => exact ⟨⟨snapshot, hc, Or.inl rfl⟩, hv.lastPose⟩
  | poseReset changed => exact ⟨hv.snapshot, fun pose hpose => absurd hpose (by simp [run])⟩
  | statusWrite _ _ | dropSample _ => exact ⟨hv.snapshot, hv.lastPose⟩
  | publishChanged | publishState | poseCheck | tfRead | tfSend _ => exact hv

/-- What a section hands on: only the read of the pose has something to carry. -/
theorem ObserverCall.Sourced.next {c' : ObserverCall} (hv : v.Sourced cfg as)
    (hnext : (c.run cfg v).next = some c') : c'.Sourced cfg as := by
  cases c
  all_goals simp only [run] at hnext
  all_goals repeat' split at hnext
  all_goals simp only [Option.some.injEq, Option.map_eq_some_iff, reduceCtorEq] at hnext
  case tfRead =>
    obtain ⟨pose, hpose, rfl⟩ := hnext
    exact hv.lastPose pose hpose
  all_goals rw [← hnext]
  all_goals trivial

/-- What a section publishes. -/
theorem ObserverCall.Sourced.events (hc : c.Sourced cfg as) (hv : v.Sourced cfg as) :
    ∀ e ∈ (c.run cfg v).events, e.Sourced cfg as := by
  intro e he
  cases c with
  | statusWrite _ _ | dropSample _ | stateWrite _ | poseCheck | tfRead => exact absurd he List.not_mem_nil
  | poseReset _ | poseStore _ =>
    rw [List.mem_singleton.mp he]
    trivial
  | publishChanged | publishState =>
    rw [List.mem_singleton.mp he]
    exact hv.robotState
  | tfSend pose =>
    rw [List.mem_singleton.mp he]
    exact hc

/-- The call that an IMU sample begins. -/
theorem onImu_sourced {sample : ImuSample} (hsample : Action.imu sample ∈ as) :
    (onImu cfg sample).Sourced cfg as := by
  unfold onImu
  split_ifs with hfinite husable
  · trivial
  · trivial
  · exact ⟨sample, hsample, by simpa using hfinite, by simpa using husable, rfl⟩

/-- A new observer call. -/
theorem Sourced.begin (h : Sourced cfg as s) (hc : c.Sourced cfg as) : Sourced cfg as (s.begin c) := by
  refine ⟨h.polled, h.vars, fun i c' hc' => ?_, h.onState, h.history⟩
  simp only [System.begin, Function.update_apply] at hc'
  split_ifs at hc'
  · rw [← Option.some.inj hc']
    exact hc
  · exact h.calls i c' hc'

/-- Events that are not about telemetry. -/
theorem attemptEvents_sourced {pc : Pc} : ∀ e ∈ attemptEvents pc, e.Sourced cfg as := by
  intro e he
  cases pc
  case initCall =>
    rw [List.mem_singleton.mp he]
    trivial
  case deinit =>
    rw [List.mem_singleton.mp he]
    trivial
  all_goals exact absurd he List.not_mem_nil

/-- **Step lemma.** -/
theorem Sourced.step (h : Sourced cfg as s) (hb : b ∈ as) (hs : System.step cfg b s = some s') :
    Sourced cfg as s' := by
  have happend : ∀ events : List NodeEvent, (∀ e ∈ events, e.Sourced cfg as) →
      ∀ e ∈ events ++ s.history, e.Sourced cfg as := by
    intro events hevents e he
    exact (List.mem_append.mp he).elim (hevents e) (h.history e)
  cases b with
  | runtime a =>
    cases a
    all_goals simp only [System.step] at hs
    case worker ans =>
      split_ifs at hs
      obtain ⟨w, -, rfl⟩ := Option.map_eq_some_iff.mp hs
      refine ⟨h.polled, h.vars, h.calls, fun c hc => ?_, happend _ attemptEvents_sourced⟩
      -- the poll that ends hands its snapshot on
      obtain ⟨-, hcall⟩ := Option.ite_none_right_eq_some.mp hc
      rw [← Option.some.inj hcall]
      exact h.polled
    case status linked authority =>
      obtain ⟨w, -, rfl⟩ := Option.map_eq_some_iff.mp hs
      exact Sourced.begin ⟨h.polled, h.vars, h.calls, h.onState, h.history⟩ trivial
    all_goals
      obtain ⟨w, -, rfl⟩ := Option.map_eq_some_iff.mp hs
      exact ⟨h.polled, h.vars, h.calls, h.onState, h.history⟩
  | poll snapshot =>
    simp only [System.step] at hs
    split_ifs at hs
    obtain ⟨w, -, rfl⟩ := Option.map_eq_some_iff.mp hs
    exact ⟨Or.inr hb, h.vars, h.calls, h.onState, h.history⟩
  | imu sample =>
    obtain rfl := Option.some.inj hs
    refine Sourced.begin ⟨h.polled, h.vars, h.calls, h.onState, ?_⟩ (onImu_sourced hb)
    exact happend [_] (fun e he => by rw [List.mem_singleton.mp he]; trivial)
  | sport sample =>
    obtain rfl := Option.some.inj hs
    split_ifs with hfinite
    · refine ⟨h.polled, ⟨?_, h.vars.lastPose⟩, h.calls, h.onState, h.history⟩
      -- earlier wheel speeds are overwritten
      obtain ⟨polled, hpolled, hsnapshot⟩ := h.vars.snapshot
      refine ⟨polled, hpolled, Or.inr ⟨sample.wheelSpeed, ⟨sample, hb, hfinite, rfl⟩, ?_⟩⟩
      show { s.vars.snapshot with wheelSpeed := sample.wheelSpeed } = _
      rcases hsnapshot with hsnapshot | ⟨wheelSpeed, -, hsnapshot⟩
      · rw [hsnapshot]
      · rw [hsnapshot]
    · exact ⟨h.polled, ⟨h.vars.snapshot, h.vars.lastPose⟩, h.calls, h.onState, h.history⟩
  | lastError message | rejectJointCommand | estop latched =>
    obtain rfl := Option.some.inj hs
    exact ⟨h.polled, ⟨h.vars.snapshot, h.vars.lastPose⟩, h.calls, h.onState, h.history⟩
  | publish =>
    obtain rfl := Option.some.inj hs
    refine ⟨h.polled, h.vars, h.calls, h.onState, happend [_] (fun e he => ?_)⟩
    rw [List.mem_singleton.mp he]
    exact h.vars.robotState
  | call i =>
    obtain ⟨c, hc, rfl⟩ := Option.map_eq_some_iff.mp hs
    have hcall := h.calls i c hc
    refine ⟨h.polled, hcall.vars h.vars, fun j c' hc' => ?_, h.onState, happend _ (hcall.events h.vars)⟩
    simp only [Function.update_apply] at hc'
    split_ifs at hc'
    · exact ObserverCall.Sourced.next h.vars hc'
    · exact h.calls j c' hc'
  | onState =>
    obtain ⟨c, hc, rfl⟩ := Option.map_eq_some_iff.mp hs
    have hcall := h.onState c hc
    exact ⟨h.polled, hcall.vars h.vars, h.calls, fun c' hnext => ObserverCall.Sourced.next h.vars hnext,
      happend _ (hcall.events h.vars)⟩

/-- **Run lemma.** -/
theorem sourced_of_path (h : Path (System.step cfg) (System.initial cfg) as s) : Sourced cfg as s := by
  refine h.reaches_mem.invariant ?_ (fun s b s' _ hI hb hs => hI.step hb hs)
  refine ⟨Or.inl rfl, ⟨⟨.empty, Or.inl rfl, Or.inl rfl⟩, fun pose hpose => nomatch hpose⟩, ?_, ?_, ?_⟩
  · exact fun i c hc => nomatch hc
  · exact fun c hc => nomatch hc
  · exact fun e he => absurd he List.not_mem_nil

/-! ### The result -/

/-- A message reports a snapshot: codes and counts as they are, the battery's floats if they are finite. -/
structure Reports (snapshot : Snapshot) (msg : RobotStateMsg) : Prop where
  systemStatus : msg.systemStatus = snapshot.systemStatus
  errorCode : msg.errorCode = snapshot.errorCode
  warningCode : msg.warningCode = snapshot.warningCode
  sportStatus : msg.sportStatus = snapshot.sportStatus
  batteryPercentage : msg.batteryPercentage = finiteOrZero snapshot.batteryPercentage
  batteryTemperature : msg.batteryTemperature = finiteOrZero snapshot.batteryTemperature
  batteryVoltage : msg.batteryVoltage = finiteOrZero snapshot.batteryVoltage
  batteryCycleCount : msg.batteryCycleCount = snapshot.batteryCycleCount
  chargeStatus : msg.chargeStatus = snapshot.chargeStatus

/-- The floats of a message are finite. -/
def RobotStateMsg.Finite (msg : RobotStateMsg) : Prop :=
  msg.batteryPercentage.isFinite = true ∧ msg.batteryTemperature.isFinite = true ∧
    msg.batteryVoltage.isFinite = true ∧ msg.wheelSpeed.all Binary32.isFinite = true

theorem finiteOrZero_isFinite (x : Binary32) : (finiteOrZero x).isFinite = true := by
  unfold finiteOrZero
  split_ifs with hx
  · exact hx
  · rfl

/-- Finite floats pass the check unchanged. -/
theorem map_finiteOrZero {xs : Vector Binary32 4} (h : xs.all Binary32.isFinite = true) :
    xs.map finiteOrZero = xs := by
  rw [Vector.all_eq_true] at h
  ext i hi
  rw [Vector.getElem_map, finiteOrZero, if_pos (h i hi)]

/-- **What is published was measured.**  In every run, whatever threads interleave: each robot state reports
    the snapshot of one state poll (or the empty one), with its wheel speeds or those of one sport sample,
    and finite floats only; and each transform has the pose of one IMU sample with finite readings and a
    usable orientation. -/
theorem published_telemetry_is_measured (h : Path (System.step cfg) (System.initial cfg) as s) :
    (∀ msg, NodeEvent.robotState msg ∈ s.history → msg.Finite ∧
      ∃ polled, Polled as polled ∧ Reports polled msg ∧
        (msg.wheelSpeed = polled.wheelSpeed.map finiteOrZero ∨ Driven as msg.wheelSpeed)) ∧
    ∀ pose, NodeEvent.transform pose ∈ s.history →
      (pose.x.isFinite = true ∧ pose.y.isFinite = true ∧ pose.yaw.isFinite = true) ∧ Located cfg as pose := by
  have hsourced := sourced_of_path h
  constructor
  · intro msg hmsg
    obtain ⟨v, ⟨polled, hpolled, hsnapshot⟩, rfl⟩ := hsourced.history _ hmsg
    refine ⟨⟨finiteOrZero_isFinite _, finiteOrZero_isFinite _, finiteOrZero_isFinite _, ?_⟩, polled, hpolled, ?_⟩
    · show (v.snapshot.wheelSpeed.map finiteOrZero).all Binary32.isFinite = true
      rw [Vector.all_eq_true]
      intro i hi
      rw [Vector.getElem_map]
      exact finiteOrZero_isFinite _
    · rcases hsnapshot with hsnapshot | ⟨wheelSpeed, hdriven, hsnapshot⟩
      · refine ⟨?_, Or.inl (congrArg (fun x => x.wheelSpeed.map finiteOrZero) hsnapshot)⟩
        constructor <;> rw [← hsnapshot] <;> rfl
      · refine ⟨?_, Or.inr ?_⟩
        · unfold Node.robotState
          rw [hsnapshot]
          constructor <;> rfl
        · obtain ⟨sample, hmem, hfinite, rfl⟩ := hdriven
          refine ⟨sample, hmem, hfinite, ?_⟩
          show sample.wheelSpeed = v.snapshot.wheelSpeed.map finiteOrZero
          rw [hsnapshot]
          exact (map_finiteOrZero hfinite).symm
  · intro pose hpose
    obtain ⟨sample, hmem, hfinite, husable, rfl⟩ := hsourced.history _ hpose
    have hall := hfinite
    simp only [imuSampleFinite, Bool.and_eq_true] at hall
    exact ⟨⟨hall.1.2, hall.2, hall.1.1.2⟩, sample, hmem, hfinite, husable, rfl⟩

/-- A snapshot whose battery percentage is an infinity. -/
def overcharged : Snapshot := { Snapshot.empty with systemStatus := 2, batteryPercentage := ⟨false, 255, 0⟩ }

/-- An IMU sample and its transform, and a state poll; a sport sample comes before its robot state. -/
def polledOnce : List Action :=
  runtimeSteps (.start :: works 13 (obliging 0xB104)) ++
    [.imu oneAhead, .call 0, .call 0, .call 0] ++
    runtimeSteps (.advance (ms 500) :: works 13 (obliging 0xB104)) ++ [.poll overcharged] ++
    runtimeSteps (works 4 (obliging 0xB104)) ++
    [.onState, .sport { wheelSpeed := .replicate 4 .one }, .onState]

/-- The robot state has the polled status, no percentage, and the sampled wheel speeds. -/
theorem published_telemetry_is_measured_sport : ∃ s msg,
    Path (System.step .plain) (System.initial .plain) polledOnce s ∧ .robotState msg ∈ s.history ∧
      msg.systemStatus = 2 ∧ msg.wheelSpeed = .replicate 4 .one ∧ msg.Finite ∧
      ∃ polled, Polled polledOnce polled ∧ Reports polled msg := by
  have hex : (execGuarded (System.step .plain) (fun _ _ => True) polledOnce (System.initial .plain)).any
      (fun s => s.history.any (fun e => match e with
        | .robotState msg => msg.systemStatus == 2 && msg.wheelSpeed == .replicate 4 .one
        | _ => false)) = true := by decide +kernel
  obtain ⟨s, hs, hany⟩ := (Option.any_eq_true _ _).mp hex
  obtain ⟨e, he, hshows⟩ := List.any_eq_true.mp hany
  split at hshows
  · rename_i msg
    simp only [Bool.and_eq_true, beq_iff_eq] at hshows
    have hpath := path_of_execGuarded polledOnce hs
    obtain ⟨hfinite, polled, hpolled, hreports, -⟩ := (published_telemetry_is_measured hpath).1 msg he
    exact ⟨s, msg, hpath, he, hshows.1, hshows.2, hfinite, polled, hpolled, hreports⟩
  · exact absurd hshows Bool.false_ne_true

end HypertronBridge.Node
