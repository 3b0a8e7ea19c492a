import HypertronBridge.Sdk
import Mathlib.Data.List.Basic

namespace HypertronBridge

/-!
# The safety gate (`robot_controller.cpp`)

`RobotController` decides which velocity and mode requests may go on.  Every public
operation is one critical section under the controller's own mutex, so each is a pure
function from the controller before it to its decision and the controller after it; the
clock reading it makes is an argument.

* `acceptVelocity` … `updateRobotState` — the operations, in the source's order;
* `Operation` / `Operation.apply` — the nine mutating or deciding operations as data;
* `Call` / `Performed` — the log of a sequence of operations with their outcomes.
-/

/-- `BridgeError`. -/
inductive BridgeError
  | protocol | featureUnavailable | invalidCommand | timeout | sdkDisconnected
  | noControlAuthority | emergencyStopLatched | robotSystemError | sdkCallFailed
deriving DecidableEq, Repr

/-- `ControllerStatus`. -/
structure ControllerStatus where
  sdkLinked : Bool := false
  controlAuthority : Bool := false
  sportStatus : UInt16 := 0
  errorCode : UInt32 := 0
deriving DecidableEq, Repr

/-- The link, the authority and a zero error code: what a status must report for a pending
    transition and an open motion gate to survive it. -/
def ControllerStatus.healthy (s : ControllerStatus) : Bool :=
  s.sdkLinked && s.controlAuthority && s.errorCode == 0

/-- `VelocityDecision`. -/
structure VelocityDecision where
  accepted : Bool
  value : Velocity
  error : BridgeError
  reason : String

/-- `ModeDecision`. -/
structure ModeDecision where
  accepted : Bool
  mode : UInt16
  error : BridgeError
  reason : String

/-- `kSportStateMove`. -/
def sportStateMove : UInt16 := 0xB104
/-- The mode code of `damping`. -/
def modeDamping : UInt16 := 0xA101
/-- The mode code of `move`. -/
def modeMove : UInt16 := 0xA104

/-! ### Mode names -/

/-- `std::isspace` in the C locale. -/
def isSpace (c : Char) : Bool :=
  c = ' ' || c = '\t' || c = '\n' || c = '\x0b' || c = '\x0c' || c = '\r'

/-- `normalized_mode`: trim white space on both sides, then lower-case. -/
def normalizedMode (input : String) : String :=
  let first := input.toList.dropWhile isSpace
  let last := (first.reverse.dropWhile isSpace).reverse
  String.ofList (last.map Char.toLower)

/-- `kModes`. -/
def kModes : List (String × UInt16) :=
  [("damping", 0xA101), ("stand", 0xA102), ("down", 0xA103), ("move", 0xA104),
   ("auto_charge", 0xA105), ("exit_charge", 0xA106), ("recover", 0xA1FF), ("recovery", 0xA1FF)]

/-- `kModes.find(normalized_mode(name))`. -/
def modeOf (name : String) : Option UInt16 := kModes.lookup (normalizedMode name)

/-! ### The controller -/

/-- The fields of `RobotController`, with their initial values. -/
structure RobotController where
  status : ControllerStatus := {}
  latestVelocity : Velocity := .zero
  lastVelocityTime : Time := 0
  hasVelocity : Bool := false
  estopLatched : Bool := false
  driverReady : Bool := false
  motionTransitionGate : Bool := false
  modeTransitionPending : Bool := false
  pendingMode : UInt16 := 0
deriving DecidableEq, Repr

namespace RobotController

/-- `movement_ready_locked`. -/
def movementReady (c : RobotController) : Bool :=
  c.driverReady && !c.motionTransitionGate && !c.modeTransitionPending && c.status.sdkLinked &&
    c.status.controlAuthority && c.status.sportStatus == sportStateMove &&
    c.status.errorCode == 0 && !c.estopLatched

/-- `force_zero_locked`. -/
def forceZero (now : Time) (c : RobotController) : RobotController :=
  { c with latestVelocity := .zero, hasVelocity := false, lastVelocityTime := now }

/-- `rejection_locked`. -/
def rejection (c : RobotController) : VelocityDecision :=
  if !c.driverReady then
    ⟨false, .zero, .protocol, "driver readiness gate is not armed"⟩
  else if !c.status.sdkLinked then
    ⟨false, .zero, .sdkDisconnected, "ASTRALL SDK is disconnected"⟩
  else if c.status.errorCode != 0 then
    ⟨false, .zero, .robotSystemError, "robot system error is active"⟩
  else if !c.status.controlAuthority then
    ⟨false, .zero, .noControlAuthority, "ASTRALL control authority is unavailable"⟩
  else if c.estopLatched then
    ⟨false, .zero, .emergencyStopLatched, "software emergency stop is latched"⟩
  else if c.motionTransitionGate || c.modeTransitionPending then
    ⟨false, .zero, .invalidCommand, "motion is gated by a mode transition"⟩
  else
    ⟨false, .zero, .invalidCommand, "robot is not in all-terrain Move state"⟩

/-- `accept_velocity`. -/
def acceptVelocity (now : Time) (command : Velocity) (c : RobotController) :
    VelocityDecision × RobotController :=
  if !command.isFinite then
    (⟨false, .zero, .invalidCommand, "velocity contains a non-finite value"⟩, c.forceZero now)
  else if !c.movementReady then
    (c.rejection, c.forceZero now)
  else
    (⟨true, command.clamp, .protocol, ""⟩,
      { c with latestVelocity := command.clamp, lastVelocityTime := now, hasVelocity := true })

/-- `velocity_for_tick`. -/
def velocityForTick (deadman now : Time) (c : RobotController) : VelocityDecision :=
  if !c.movementReady || !c.hasVelocity || now - c.lastVelocityTime > deadman then
    ⟨false, .zero, .timeout, "velocity deadman or safety gate"⟩
  else
    ⟨true, c.latestVelocity, .protocol, ""⟩

/-- `trigger_estop`. -/
def triggerEstop (now : Time) (c : RobotController) : RobotController :=
  forceZero now { c with estopLatched := true }

/-- `clear_estop`. -/
def clearEstop (now : Time) (c : RobotController) : RobotController :=
  forceZero now { c with estopLatched := false }

/-- `request_mode`. -/
def requestMode (now : Time) (name : String) (c : RobotController) :
    ModeDecision × RobotController :=
  match modeOf name with
  | none => (⟨false, 0, .invalidCommand, "unknown robot mode: " ++ normalizedMode name⟩, c)
  | some mode =>
    if !c.driverReady then
      (⟨false, mode, .protocol, "driver readiness gate is not armed"⟩, c)
    else if c.modeTransitionPending then
      (⟨false, mode, .invalidCommand, "another mode transition is pending"⟩, c)
    else if !c.status.sdkLinked then
      (⟨false, mode, .sdkDisconnected, "ASTRALL SDK is disconnected"⟩, c)
    else if c.status.errorCode != 0 then
      (⟨false, mode, .robotSystemError, "robot system error is active"⟩, c)
    else if !c.status.controlAuthority then
      (⟨false, mode, .noControlAuthority, "ASTRALL control authority is unavailable"⟩, c)
    else if c.estopLatched && mode != modeDamping then
      (⟨false, mode, .emergencyStopLatched, "software emergency stop is latched"⟩, c)
    else
      (⟨true, mode, .protocol, ""⟩,
        forceZero now { c with
          modeTransitionPending := true, pendingMode := mode, motionTransitionGate := true })

/-- `entered_move` of `complete_mode_transition(success)`. -/
def enteredMove (success : Bool) (c : RobotController) : Bool :=
  success && c.modeTransitionPending && c.pendingMode == modeMove

/-- `complete_mode_transition`. -/
def completeModeTransition (now : Time) (success : Bool) (c : RobotController) :
    RobotController :=
  forceZero now { c with
    modeTransitionPending := false, pendingMode := 0,
    motionTransitionGate := !c.enteredMove success }

/-- `set_driver_ready`. -/
def setDriverReady (now : Time) (ready : Bool) (c : RobotController) : RobotController :=
  if ready then { c with driverReady := true }
  else forceZero now { c with
    driverReady := false, modeTransitionPending := false, pendingMode := 0,
    motionTransitionGate := true }

/-- `invalidate_connection`.  The emergency-stop latch is deliberately preserved. -/
def invalidateConnection (now : Time) (c : RobotController) : RobotController :=
  forceZero now { c with
    driverReady := false, modeTransitionPending := false, pendingMode := 0,
    motionTransitionGate := true }

/-- The first half of `update_robot_state`: store the status, and when it is unhealthy drop
    the pending transition and close the motion gate. -/
def storeStatus (state : ControllerStatus) (c : RobotController) : RobotController :=
  let c₁ := { c with status := state }
  if !state.healthy then
    { c₁ with modeTransitionPending := false, pendingMode := 0, motionTransitionGate := true }
  else c₁

/-- `update_robot_state`. -/
def updateRobotState (now : Time) (state : ControllerStatus) (c : RobotController) :
    RobotController :=
  let wasReady := c.movementReady
  let c₂ := c.storeStatus state
  if wasReady != c₂.movementReady || !c₂.movementReady then c₂.forceZero now else c₂

/-! ### What the operations do to the gate -/

variable {c : RobotController} {now : Time}

/-- **Mode acceptance.** A mode request is accepted exactly when the name is known, the
    driver is ready, nothing is pending, the status is healthy and a latched stop sees only
    damping; it then owns the pending transition and closes the motion gate.  A rejected
    request leaves the controller as it was. -/
theorem requestMode_cases (now : Time) (name : String) (c : RobotController) :
    (∃ mode, modeOf name = some mode ∧ c.driverReady = true ∧ c.modeTransitionPending = false ∧
        c.status.healthy = true ∧ (c.estopLatched = true → mode = modeDamping) ∧
        c.requestMode now name = (⟨true, mode, .protocol, ""⟩, forceZero now { c with
          modeTransitionPending := true, pendingMode := mode, motionTransitionGate := true })) ∨
      ((c.requestMode now name).1.accepted = false ∧ (c.requestMode now name).2 = c) := by
  unfold requestMode
  cases hm : modeOf name with
  | none => exact Or.inr ⟨rfl, rfl⟩
  | some mode =>
    by_cases hr : c.driverReady <;> by_cases hp : c.modeTransitionPending <;>
      by_cases hl : c.status.sdkLinked <;> by_cases he : c.status.errorCode = 0 <;>
      by_cases ha : c.status.controlAuthority <;> by_cases hs : c.estopLatched <;>
      by_cases hd : mode = modeDamping <;>
      simp [hr, hp, hl, he, ha, hs, hd, ControllerStatus.healthy]

/-- A ready controller has every gate open. -/
theorem movementReady_iff : c.movementReady = true ↔
    c.driverReady = true ∧ c.motionTransitionGate = false ∧ c.modeTransitionPending = false ∧
      c.status.healthy = true ∧ c.status.sportStatus = sportStateMove ∧
      c.estopLatched = false := by
  simp only [movementReady, ControllerStatus.healthy, Bool.and_eq_true, Bool.not_eq_true',
    beq_iff_eq]
  tauto

/-- Storing a status touches only the status, the pending transition and the gate. -/
theorem storeStatus_fields (state : ControllerStatus) (c : RobotController) :
    (c.storeStatus state).status = state ∧
      (c.storeStatus state).hasVelocity = c.hasVelocity ∧
      (c.storeStatus state).latestVelocity = c.latestVelocity ∧
      (c.storeStatus state).lastVelocityTime = c.lastVelocityTime ∧
      (c.storeStatus state).estopLatched = c.estopLatched ∧
      (c.storeStatus state).driverReady = c.driverReady := by
  unfold storeStatus
  split <;> exact ⟨rfl, rfl, rfl, rfl, rfl, rfl⟩

/-- A status update stores the status; it also zeroes the velocity unless the controller is
    ready after it. -/
theorem updateRobotState_cases (now : Time) (state : ControllerStatus) (c : RobotController) :
    c.updateRobotState now state = (c.storeStatus state).forceZero now ∨
      (c.updateRobotState now state = c.storeStatus state ∧
        (c.storeStatus state).movementReady = true) := by
  simp only [updateRobotState]
  split
  · exact Or.inl rfl
  · rename_i hkeep
    simp only [Bool.or_eq_true, Bool.not_eq_true', not_or, Bool.not_eq_false] at hkeep
    exact Or.inr ⟨rfl, hkeep.2⟩

/-- A status update stores the status. -/
theorem updateRobotState_status (now : Time) (state : ControllerStatus) (c : RobotController) :
    (c.updateRobotState now state).status = state := by
  have hstore := (storeStatus_fields state c).1
  rcases updateRobotState_cases now state c with heq | ⟨heq, _⟩
  · rw [heq]
    exact hstore
  · rw [heq]
    exact hstore

end RobotController

/-! ### Operations as data, and their log -/

/-- The operations of the controller that change it or decide about motion. -/
inductive Operation
  | acceptVelocity (command : Velocity)
  | velocityForTick
  | triggerEstop
  | clearEstop
  | requestMode (name : String)
  | completeModeTransition (success : Bool)
  | setDriverReady (ready : Bool)
  | invalidateConnection
  | updateRobotState (state : ControllerStatus)
deriving DecidableEq, Repr

open RobotController in
/-- Run one operation: its outcome and the controller after it.  The outcome is the
    decision's `accepted`; of a completion it is the source's `entered_move`; the remaining
    operations always go through. -/
def Operation.apply (deadman now : Time) (c : RobotController) : Operation → Bool × RobotController
  | .acceptVelocity command =>
      ((c.acceptVelocity now command).1.accepted, (c.acceptVelocity now command).2)
  | .velocityForTick => ((c.velocityForTick deadman now).accepted, c)
  | .triggerEstop => (true, c.triggerEstop now)
  | .clearEstop => (true, c.clearEstop now)
  | .requestMode name => ((c.requestMode now name).1.accepted, (c.requestMode now name).2)
  | .completeModeTransition success =>
      (c.enteredMove success, c.completeModeTransition now success)
  | .setDriverReady ready => (true, c.setDriverReady now ready)
  | .invalidateConnection => (true, c.invalidateConnection now)
  | .updateRobotState state => (true, c.updateRobotState now state)

/-- One performed operation: when, which, and with what outcome. -/
structure Call where
  time : Time
  op : Operation
  outcome : Bool
deriving DecidableEq, Repr

/-- The call that performing `op` on `c` at `now` logs. -/
def Operation.call (deadman now : Time) (c : RobotController) (op : Operation) : Call :=
  ⟨now, op, (op.apply deadman now c).1⟩

/-- `Performed deadman c log`: some finite sequence of operations takes a new controller
    to `c` and leaves the log `log`, newest call first. -/
inductive Performed (deadman : Time) : RobotController → List Call → Prop
  | nil : Performed deadman {} []
  | perform {c : RobotController} {log : List Call} (now : Time) (op : Operation) :
      Performed deadman c log →
      Performed deadman (op.apply deadman now c).2 (op.call deadman now c :: log)

/-- The calls that write the motion gate and the pending transition: accepted mode requests,
    completions, losses of readiness, invalidations and unhealthy statuses. -/
def Call.gateEvent (e : Call) : Bool :=
  match e.op with
  | .requestMode _ => e.outcome
  | .completeModeTransition _ => true
  | .setDriverReady ready => !ready
  | .invalidateConnection => true
  | .updateRobotState state => !state.healthy
  | _ => false

/-- The gate events that leave the motion gate closed: all but a completion that confirms a
    pending move. -/
def Call.closesGate (e : Call) : Bool :=
  match e.op with
  | .completeModeTransition _ => !e.outcome
  | _ => e.gateEvent

/-- The calls after which no velocity accepted earlier is left: every further velocity
    submission, the emergency-stop operations, accepted mode requests, completions, losses
    of readiness, invalidations, and statuses that are unhealthy or not in Move. -/
def Call.revokesVelocity (e : Call) : Bool :=
  match e.op with
  | .acceptVelocity _ => true
  | .triggerEstop => true
  | .clearEstop => true
  | .updateRobotState state => !(state.healthy && state.sportStatus == sportStateMove)
  | _ => e.gateEvent

namespace RobotController

variable {deadman now : Time} {c : RobotController} {op : Operation}

/-- An operation that is no gate event keeps the gate and the pending transition. -/
theorem apply_frame (h : (op.call deadman now c).gateEvent = false) :
    (op.apply deadman now c).2.motionTransitionGate = c.motionTransitionGate ∧
      (op.apply deadman now c).2.modeTransitionPending = c.modeTransitionPending ∧
      (op.apply deadman now c).2.pendingMode = c.pendingMode := by
  cases op with
  | acceptVelocity command =>
    simp only [Operation.apply, acceptVelocity]
    split
    · exact ⟨rfl, rfl, rfl⟩
    · split
      · exact ⟨rfl, rfl, rfl⟩
      · exact ⟨rfl, rfl, rfl⟩
  | velocityForTick => exact ⟨rfl, rfl, rfl⟩
  | triggerEstop => exact ⟨rfl, rfl, rfl⟩
  | clearEstop => exact ⟨rfl, rfl, rfl⟩
  | requestMode name =>
    simp only [Operation.call, Call.gateEvent, Operation.apply] at h
    rcases requestMode_cases now name c with ⟨mode, _, _, _, _, _, heq⟩ | ⟨_, heq⟩
    · exact absurd h (by simp [heq])
    · simp only [Operation.apply, heq, and_self]
  | completeModeTransition success => exact absurd h (by simp [Operation.call, Call.gateEvent])
  | setDriverReady ready =>
    cases ready with
    | true => exact ⟨rfl, rfl, rfl⟩
    | false => exact absurd h (by simp [Operation.call, Call.gateEvent])
  | invalidateConnection => exact absurd h (by simp [Operation.call, Call.gateEvent])
  | updateRobotState state =>
    have hst : state.healthy = true := by simpa [Operation.call, Call.gateEvent] using h
    have hstore : c.storeStatus state = { c with status := state } := by simp [storeStatus, hst]
    rcases updateRobotState_cases now state c with heq | ⟨heq, _⟩ <;>
      simp only [Operation.apply, heq, hstore, forceZero, and_self]

/-- A gate event that is no accepted request leaves nothing pending, and it leaves the gate
    open exactly when it confirms a pending move. -/
theorem apply_gateEvent (h : (op.call deadman now c).gateEvent = true)
    (hop : ∀ name, op ≠ .requestMode name) :
    (op.apply deadman now c).2.modeTransitionPending = false ∧
      ((op.apply deadman now c).2.motionTransitionGate = false →
        op = .completeModeTransition true ∧ c.modeTransitionPending = true ∧
          c.pendingMode = modeMove) := by
  cases op with
  | acceptVelocity command => exact absurd h (by simp [Operation.call, Call.gateEvent])
  | velocityForTick => exact absurd h (by simp [Operation.call, Call.gateEvent])
  | triggerEstop => exact absurd h (by simp [Operation.call, Call.gateEvent])
  | clearEstop => exact absurd h (by simp [Operation.call, Call.gateEvent])
  | requestMode name => exact absurd rfl (hop name)
  | completeModeTransition success =>
    refine ⟨rfl, fun hg => ?_⟩
    have he : c.enteredMove success = true := by
      simpa [Operation.apply, completeModeTransition, forceZero] using hg
    simp only [enteredMove, Bool.and_eq_true, beq_iff_eq] at he
    exact ⟨by rw [he.1.1], he.1.2, he.2⟩
  | setDriverReady ready =>
    cases ready with
    | true => exact absurd h (by simp [Operation.call, Call.gateEvent])
    | false => exact ⟨rfl, fun hg => absurd hg (by simp [Operation.apply, setDriverReady, forceZero])⟩
  | invalidateConnection =>
    exact ⟨rfl, fun hg => absurd hg (by simp [Operation.apply, invalidateConnection, forceZero])⟩
  | updateRobotState state =>
    have hst : state.healthy = false := by simpa [Operation.call, Call.gateEvent] using h
    rcases updateRobotState_cases now state c with heq | ⟨heq, _⟩ <;>
      simp [Operation.apply, heq, storeStatus, hst, forceZero]

/-- **Who writes what.** Only a status update writes the status, only the two emergency-stop
    operations write the latch, and only `set_driver_ready(true)` arms the readiness. -/
theorem apply_other (op : Operation) :
    ((∀ s, op ≠ .updateRobotState s) → (op.apply deadman now c).2.status = c.status) ∧
      ((op ≠ .triggerEstop ∧ op ≠ .clearEstop) →
        (op.apply deadman now c).2.estopLatched = c.estopLatched) ∧
      (op ≠ .setDriverReady true → c.driverReady = false →
        (op.apply deadman now c).2.driverReady = false) := by
  cases op with
  | acceptVelocity command =>
    simp only [Operation.apply, acceptVelocity]
    split
    · simp [forceZero]
    · split <;> simp [forceZero]
  | requestMode name =>
    rcases requestMode_cases now name c with ⟨_, _, _, _, _, _, heq⟩ | ⟨_, heq⟩ <;>
      simp [Operation.apply, heq, forceZero]
  | setDriverReady ready => cases ready <;> simp [Operation.apply, setDriverReady, forceZero]
  | updateRobotState state =>
    obtain ⟨_, _, _, _, hs, hd⟩ := storeStatus_fields state c
    rcases updateRobotState_cases now state c with heq | ⟨heq, _⟩ <;>
      simp [Operation.apply, heq, forceZero, hs, hd]
  | _ => simp [Operation.apply, triggerEstop, clearEstop, completeModeTransition,
      invalidateConnection, forceZero]

/-- Without readiness, no operation but `set_driver_ready(true)` arms it. -/
theorem apply_driverReady (hop : op ≠ .setDriverReady true) (h : c.driverReady = false) :
    (op.apply deadman now c).2.driverReady = false :=
  (apply_other op).2.2 hop h

/-- An operation stamps the velocity with its own time or leaves the stamp. -/
theorem apply_lastVelocityTime (op : Operation) :
    (op.apply deadman now c).2.lastVelocityTime = now ∨
      (op.apply deadman now c).2.lastVelocityTime = c.lastVelocityTime := by
  cases op with
  | acceptVelocity command =>
    simp only [Operation.apply, acceptVelocity]
    split
    · exact Or.inl rfl
    · split
      · exact Or.inl rfl
      · exact Or.inl rfl
  | requestMode name =>
    rcases requestMode_cases now name c with ⟨_, _, _, _, _, _, heq⟩ | ⟨_, heq⟩ <;>
      simp [Operation.apply, heq, forceZero]
  | setDriverReady ready => cases ready <;> simp [Operation.apply, setDriverReady, forceZero]
  | updateRobotState state =>
    have ht := (storeStatus_fields state c).2.2.2.1
    rcases updateRobotState_cases now state c with heq | ⟨heq, _⟩ <;>
      simp [Operation.apply, heq, forceZero, ht]
  | _ => simp [Operation.apply, triggerEstop, clearEstop, completeModeTransition,
      invalidateConnection, forceZero]

/-- **What keeps a velocity.** If a velocity is stored after an operation, then either the
    operation is the accepted submission that stored it, or it was stored before and the
    operation is none of those that revoke a velocity. -/
theorem apply_hasVelocity
    (h : (op.apply deadman now c).2.hasVelocity = true) :
    (∃ command, op = .acceptVelocity command ∧ command.isFinite = true ∧
        (op.apply deadman now c).1 = true ∧
        (op.apply deadman now c).2.latestVelocity = command.clamp ∧
        (op.apply deadman now c).2.lastVelocityTime = now) ∨
      (c.hasVelocity = true ∧ (op.call deadman now c).revokesVelocity = false ∧
        (op.apply deadman now c).2.latestVelocity = c.latestVelocity ∧
        (op.apply deadman now c).2.lastVelocityTime = c.lastVelocityTime) := by
  cases op with
  | acceptVelocity command =>
    refine Or.inl ⟨command, rfl, ?_⟩
    simp only [Operation.apply, acceptVelocity] at h ⊢
    split at h
    · exact absurd h (by simp [forceZero])
    · rename_i hfin
      split at h
      · exact absurd h (by simp [forceZero])
      · rename_i hr
        rw [if_neg hfin, if_neg hr]
        exact ⟨by simpa using hfin, rfl, rfl, rfl⟩
  | velocityForTick => exact Or.inr ⟨h, rfl, rfl, rfl⟩
  | triggerEstop => exact absurd h (by simp [Operation.apply, triggerEstop, forceZero])
  | clearEstop => exact absurd h (by simp [Operation.apply, clearEstop, forceZero])
  | requestMode name =>
    rcases requestMode_cases now name c with ⟨mode, _, _, _, _, _, heq⟩ | ⟨hrej, heq⟩
    · exact absurd h (by simp [Operation.apply, heq, forceZero])
    · simp only [Operation.apply, heq] at h ⊢
      exact Or.inr ⟨h, by simp [Operation.call, Call.revokesVelocity, Call.gateEvent,
        Operation.apply, hrej], trivial, trivial⟩
  | completeModeTransition success =>
    exact absurd h (by simp [Operation.apply, completeModeTransition, forceZero])
  | setDriverReady ready =>
    cases ready with
    | true => exact Or.inr ⟨h, rfl, rfl, rfl⟩
    | false => exact absurd h (by simp [Operation.apply, setDriverReady, forceZero])
  | invalidateConnection =>
    exact absurd h (by simp [Operation.apply, invalidateConnection, forceZero])
  | updateRobotState state =>
    obtain ⟨hst, hv, hl, ht, _⟩ := storeStatus_fields state c
    rcases updateRobotState_cases now state c with heq | ⟨heq, hr⟩
    · exact absurd h (by simp [Operation.apply, heq, forceZero])
    · -- The stored status is one the controller is ready under, so it revokes nothing.
      obtain ⟨_, _, _, hh, hs, _⟩ := movementReady_iff.mp hr
      rw [hst] at hh hs
      simp only [Operation.apply, heq] at h ⊢
      exact Or.inr ⟨hv ▸ h, by simp [Operation.call, Call.revokesVelocity, hh, hs], hl, ht⟩

/-- **A stored velocity has every gate open.** The operations keep this. -/
theorem apply_ready (hready : c.hasVelocity = true → c.movementReady = true)
    (h : (op.apply deadman now c).2.hasVelocity = true) :
    (op.apply deadman now c).2.movementReady = true := by
  cases op with
  | acceptVelocity command =>
    simp only [Operation.apply, acceptVelocity] at h ⊢
    split at h
    · exact absurd h (by simp [forceZero])
    · rename_i hfin
      split at h
      · exact absurd h (by simp [forceZero])
      · rename_i hr
        rw [if_neg hfin, if_neg hr]
        simpa [movementReady] using hr
  | velocityForTick => exact hready h
  | triggerEstop => exact absurd h (by simp [Operation.apply, triggerEstop, forceZero])
  | clearEstop => exact absurd h (by simp [Operation.apply, clearEstop, forceZero])
  | requestMode name =>
    rcases requestMode_cases now name c with ⟨mode, _, _, _, _, _, heq⟩ | ⟨_, heq⟩
    · exact absurd h (by simp [Operation.apply, heq, forceZero])
    · simp only [Operation.apply, heq] at h ⊢
      exact hready h
  | completeModeTransition success =>
    exact absurd h (by simp [Operation.apply, completeModeTransition, forceZero])
  | setDriverReady ready =>
    cases ready with
    | true =>
      have hc := movementReady_iff.mp (hready h)
      exact movementReady_iff.mpr ⟨rfl, hc.2⟩
    | false => exact absurd h (by simp [Operation.apply, setDriverReady, forceZero])
  | invalidateConnection =>
    exact absurd h (by simp [Operation.apply, invalidateConnection, forceZero])
  | updateRobotState state =>
    rcases updateRobotState_cases now state c with heq | ⟨heq, hr⟩
    · exact absurd h (by simp [Operation.apply, heq, forceZero])
    · simpa only [Operation.apply, heq] using hr

end RobotController

end HypertronBridge
