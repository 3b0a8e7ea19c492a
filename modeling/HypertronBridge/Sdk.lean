import HypertronBridge.Lib.Binary32

namespace HypertronBridge

/-!
# The SDK boundary (`astrall_sdk.hpp`)

The vendor-free value types that the runtime exchanges with `IAstrallSdk`: result codes,
velocities and state snapshots.  The SDK itself is not modelled; every call returns an
arbitrary value of its result type.
-/

/-- A reading of the monotonic clock, in nanoseconds. -/
abbrev Time := Nat

/-- `std::chrono::milliseconds` as a duration of the monotonic clock. -/
def ms (n : Nat) : Time := 1000000 * n

/-! ### Result codes -/

/-- `kSdkResFailed`. -/
def sdkResFailed : UInt16 := 0x8004
/-- `kSdkResTimeout`. -/
def sdkResTimeout : UInt16 := 0x8005
/-- `kSdkResRunning`. -/
def sdkResRunning : UInt16 := 0x8006
/-- `kSdkResSuccess`. -/
def sdkResSuccess : UInt16 := 0x8008
/-- `kSdkResInvalidParam`. -/
def sdkResInvalidParam : UInt16 := 0x8010
/-- `kSdkResNotInit`. -/
def sdkResNotInit : UInt16 := 0x8011
/-- `kSdkResRcNoRelease`. -/
def sdkResRcNoRelease : UInt16 := 0x8020
/-- `kSdkResBeenObtained`. -/
def sdkResBeenObtained : UInt16 := 0x8021
/-- `kSdkResWithoutAuth`. -/
def sdkResWithoutAuth : UInt16 := 0x8022

/-- Uniform SDK call outcome: the raw vendor code plus a readable message. -/
structure Result where
  code : UInt16
  message : String
deriving DecidableEq, Repr

namespace Result

/-- `Result::success`. -/
def success (r : Result) : Bool := r.code == sdkResSuccess

/-- `Result::ok`. -/
def ok (message : String) : Result := ⟨sdkResSuccess, message⟩

/-- `Result::failure`. -/
def failure (code : UInt16) (message : String) : Result := ⟨code, message⟩

@[simp] theorem success_ok (m : String) : (ok m).success = true := rfl

end Result

/-! ### Velocities and snapshots -/

/-- A planar velocity command (`Velocity`, and the controller's `VelocityPayload`). -/
structure Velocity where
  vx : Binary32
  vy : Binary32
  vyaw : Binary32
deriving DecidableEq, Repr

namespace Velocity

/-- `Velocity{}`. -/
def zero : Velocity := ⟨.zero, .zero, .zero⟩

/-- Every component is finite. -/
def isFinite (v : Velocity) : Bool := v.vx.isFinite && v.vy.isFinite && v.vyaw.isFinite

/-- The runtime's `target_nonzero`: some component compares unequal to `0.0F`. -/
def nonzero (v : Velocity) : Bool := v.vx.ne .zero || v.vy.ne .zero || v.vyaw.ne .zero

/-- Component-wise clamp to `[-1, 1]`. -/
def clamp (v : Velocity) : Velocity :=
  ⟨v.vx.clamp .negOne .one, v.vy.clamp .negOne .one, v.vyaw.clamp .negOne .one⟩

@[simp] theorem nonzero_zero : zero.nonzero = false := by decide

end Velocity

/-- The fields of `SdkSnapshot` that the runtime reads. -/
structure SdkSnapshot where
  sdkLinked : Bool
  errorCode : UInt32
  sportStatus : UInt16
deriving DecidableEq, Repr

/-! ### Telemetry samples -/

/-- `ImuSample`. -/
structure ImuSample where
  timestamp : Int64 := 0
  accelerometer : Vector Binary32 3 := .replicate 3 .zero
  gyroscope : Vector Binary32 3 := .replicate 3 .zero
  quaternion : Vector Binary32 4 := .replicate 4 .zero
  pitch : Binary32 := .zero
  roll : Binary32 := .zero
  yaw : Binary32 := .zero
  odomX : Binary32 := .zero
  odomY : Binary32 := .zero
deriving DecidableEq

/-- `SportSample`. -/
structure SportSample where
  timestamp : Int64 := 0
  wheelSpeed : Vector Binary32 4 := .replicate 4 .zero
deriving DecidableEq

end HypertronBridge
