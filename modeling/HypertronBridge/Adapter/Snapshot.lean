import HypertronBridge.Sdk

namespace HypertronBridge.Adapter

/-!
# Snapshots of the robot state (`DirectAstrallSdk::snapshot`)

The adapter composes a snapshot from its own caches and three vendor getters.  What a getter
does not deliver keeps its default: `snapshot_errorCode` says what that means for the error code.
-/

/-- `RawSystemStatus`. -/
structure RawSystemStatus where
  sysStatus : UInt8 := 0
  errorCode : UInt32 := 0
  warnCode : UInt32 := 0
deriving DecidableEq

/-- `RawPowerStatus`. -/
structure RawPowerStatus where
  soc : Binary32 := .zero
  temp : Binary32 := .zero
  voltage : Binary32 := .zero
  cycleCount : UInt16 := 0
  charged : UInt16 := 0
deriving DecidableEq

/-- The cached telemetry of the adapter. -/
structure Caches where
  statusLinked : Bool := false
  statusAuthority : Bool := false
  latestSport : SportSample := {}
deriving DecidableEq

/-- How the vendor getters come back, `none` where the vendor function is not bound: a result code
    with what was written, or the sport status itself. -/
structure Getters where
  systemStatus : Option (UInt16 × RawSystemStatus)
  powerStatus : Option (UInt16 × RawPowerStatus)
  sportStatus : Option UInt16
deriving DecidableEq

/-- `SdkSnapshot`, with all its fields. -/
structure Snapshot extends SdkSnapshot where
  controlAuthority : Bool := false
  systemStatus : UInt8 := 0
  warningCode : UInt32 := 0
  batteryPercentage : Binary32 := .zero
  batteryTemperature : Binary32 := .zero
  batteryVoltage : Binary32 := .zero
  batteryCycleCount : UInt16 := 0
  chargeStatus : UInt16 := 0
  wheelSpeed : Vector Binary32 4 := .replicate 4 .zero
deriving DecidableEq

/-- `SdkSnapshot{}`. -/
def Snapshot.empty : Snapshot := { sdkLinked := false, errorCode := 0, sportStatus := 0 }

/-- What the caches contribute to a snapshot; all that a re-entrant call returns. -/
def cachedSnapshot (c : Caches) : Snapshot :=
  { Snapshot.empty with
    sdkLinked := c.statusLinked
    controlAuthority := c.statusAuthority
    wheelSpeed := c.latestSport.wheelSpeed }

/-- The system status enters a snapshot when its getter succeeds. -/
def Snapshot.addSystem (out : Snapshot) : Option (UInt16 × RawSystemStatus) → Snapshot
  | some (code, system) =>
      if code = sdkResSuccess then
        { out with
          systemStatus := system.sysStatus
          errorCode := system.errorCode
          warningCode := system.warnCode }
      else out
  | none => out

/-- The power status enters a snapshot when its getter succeeds. -/
def Snapshot.addPower (out : Snapshot) : Option (UInt16 × RawPowerStatus) → Snapshot
  | some (code, power) =>
      if code = sdkResSuccess then
        { out with
          batteryPercentage := power.soc
          batteryTemperature := power.temp
          batteryVoltage := power.voltage
          batteryCycleCount := power.cycleCount
          chargeStatus := power.charged }
      else out
  | none => out

/-- The sport status enters a snapshot unless it is a failure code (`0x8000..`). -/
def Snapshot.addSport (out : Snapshot) : Option UInt16 → Snapshot
  | some sport => if sport &&& 0xF000 ≠ 0x8000 then { out with sportStatus := sport } else out
  | none => out

/-- `DirectAstrallSdk::snapshot` outside callbacks, by whether the adapter is initialized. -/
def snapshot (initialized : Bool) (c : Caches) (g : Getters) : Snapshot :=
  if initialized then
    (((cachedSnapshot c).addSystem g.systemStatus).addPower g.powerStatus).addSport g.sportStatus
  else Snapshot.empty

/-- The error code of a successful `get_system_status`. -/
def Getters.reportedError (g : Getters) : Option UInt32 :=
  match g.systemStatus with
  | some (code, system) => if code = sdkResSuccess then some system.errorCode else none
  | none => none

@[simp] theorem Snapshot.addPower_errorCode (out : Snapshot) (p : Option (UInt16 × RawPowerStatus)) :
    (out.addPower p).errorCode = out.errorCode := by
  unfold addPower
  repeat' split
  all_goals rfl

@[simp] theorem Snapshot.addSport_errorCode (out : Snapshot) (p : Option UInt16) :
    (out.addSport p).errorCode = out.errorCode := by
  unfold addSport
  repeat' split
  all_goals rfl

/-- The error code of a snapshot is the reported one; without a report it is zero. -/
theorem snapshot_errorCode (c : Caches) (g : Getters) :
    (snapshot true c g).errorCode = g.reportedError.getD 0 := by
  simp only [snapshot, if_true, Snapshot.addSport_errorCode, Snapshot.addPower_errorCode,
    Getters.reportedError]
  unfold Snapshot.addSystem
  repeat' split
  all_goals rfl

end HypertronBridge.Adapter
