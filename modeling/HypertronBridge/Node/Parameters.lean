import HypertronBridge.Lib.Binary64
import HypertronBridge.Lidar.Assembler
import HypertronBridge.Runtime.State

namespace HypertronBridge.Node

open HypertronBridge.Runtime (SubscriptionFrequency)

/-!
# The node's parameters (`driver_node.cpp`)

Integer parameters are 64 bits wide.  `validate_parameters` converts them to `int` and checks what it
gets; the configurations that are handed on convert the same parameters anew, to types of their own.

* `IntParameter`, `Parameters` — what is declared;
* `validateParameters` — the checks, with their messages;
* `createReceivers`, `assembleRuntime`, `construct` — what is handed on.

The warnings that are only logged are left out, as are the names that no check reads.
-/

/-! ### The declared parameters -/

/-- The integer parameters. -/
inductive IntParameter
  | sdkInitTimeoutMs
  | sdkCallTimeoutMs
  | sdkHeartbeatCallTimeoutMs
  | sdkHeartbeatMaxFailures
  | timingHeartbeatPeriodMs
  | timingMotionRefreshPeriodMs
  | timingStatePollPeriodMs
  | timingModeTimeoutMs
  | timingReconnectInitialDelayMs
  | timingReconnectMaxDelayMs
  | safetyCommandDeadmanMs
  | safetyQueueCapacity
  | subscriptionsImuFrequencyHz
  | subscriptionsSportFrequencyHz
  | subscriptionsLidarFrequencyHz
  | lidarPointCloudPort
  | lidarOdometryPort
  | lidarFrameTimeoutMs
  | lidarMaxParallelFrames
  | lidarMaxPointsPerFrame
  | lidarMaxPacketsPerFrame
deriving DecidableEq

/-- The name under which a parameter is declared. -/
def IntParameter.name : IntParameter → String
  | .sdkInitTimeoutMs => "sdk.init_timeout_ms"
  | .sdkCallTimeoutMs => "sdk.call_timeout_ms"
  | .sdkHeartbeatCallTimeoutMs => "sdk.heartbeat_call_timeout_ms"
  | .sdkHeartbeatMaxFailures => "sdk.heartbeat_max_failures"
  | .timingHeartbeatPeriodMs => "timing.heartbeat_period_ms"
  | .timingMotionRefreshPeriodMs => "timing.motion_refresh_period_ms"
  | .timingStatePollPeriodMs => "timing.state_poll_period_ms"
  | .timingModeTimeoutMs => "timing.mode_timeout_ms"
  | .timingReconnectInitialDelayMs => "timing.reconnect_initial_delay_ms"
  | .timingReconnectMaxDelayMs => "timing.reconnect_max_delay_ms"
  | .safetyCommandDeadmanMs => "safety.command_deadman_ms"
  | .safetyQueueCapacity => "safety.queue_capacity"
  | .subscriptionsImuFrequencyHz => "subscriptions.imu_frequency_hz"
  | .subscriptionsSportFrequencyHz => "subscriptions.sport_frequency_hz"
  | .subscriptionsLidarFrequencyHz => "subscriptions.lidar_frequency_hz"
  | .lidarPointCloudPort => "lidar.point_cloud_port"
  | .lidarOdometryPort => "lidar.odometry_port"
  | .lidarFrameTimeoutMs => "lidar.frame_timeout_ms"
  | .lidarMaxParallelFrames => "lidar.max_parallel_frames"
  | .lidarMaxPointsPerFrame => "lidar.max_points_per_frame"
  | .lidarMaxPacketsPerFrame => "lidar.max_packets_per_frame"

/-- The value that it is declared with. -/
def IntParameter.default : IntParameter → Int64
  | .sdkInitTimeoutMs => 60000
  | .sdkCallTimeoutMs => 5000
  | .sdkHeartbeatCallTimeoutMs => 500
  | .sdkHeartbeatMaxFailures => 1
  | .timingHeartbeatPeriodMs => 100
  | .timingMotionRefreshPeriodMs => 20
  | .timingStatePollPeriodMs => 500
  | .timingModeTimeoutMs => 5000
  | .timingReconnectInitialDelayMs => 1000
  | .timingReconnectMaxDelayMs => 30000
  | .safetyCommandDeadmanMs => 100
  | .safetyQueueCapacity => 16
  | .subscriptionsImuFrequencyHz => 50
  | .subscriptionsSportFrequencyHz => 50
  | .subscriptionsLidarFrequencyHz => 1
  | .lidarPointCloudPort => 6100
  | .lidarOdometryPort => 6101
  | .lidarFrameTimeoutMs => 300
  | .lidarMaxParallelFrames => 4
  | .lidarMaxPointsPerFrame => 2000000
  | .lidarMaxPacketsPerFrame => 4096

/-! `1.0e-3`, `1.0e-6` and the coefficients `0.01`, `0.02`, `0.05`, `0.10` and `0.20`. -/

def thousandth : Binary64 := .positive 0x3F5 0x0624DD2F1A9FC
def millionth : Binary64 := .positive 0x3EB 0x0C6F7A0B5ED8D
def hundredth : Binary64 := .positive 0x3F8 0x47AE147AE147B
def hundredths2 : Binary64 := .positive 0x3F9 0x47AE147AE147B
def hundredths5 : Binary64 := .positive 0x3FA 0x999999999999A
def tenth : Binary64 := .positive 0x3FB 0x999999999999A
def tenths2 : Binary64 := .positive 0x3FC 0x999999999999A

/-- What `get_parameter` gives, as far as `validate_parameters` checks it or hands it on. -/
structure Parameters where
  int : IntParameter → Int64 := IntParameter.default
  lidarEnabled : Bool := true
  bindIp : String := "0.0.0.0"
  sourceIp : String := "10.18.0.100"
  pointPositionScale : Binary64 := thousandth
  odomPositionScale : Binary64 := millionth
  odomQuaternionScale : Binary64 := .one
  odomQuaternionOrder : String := "xyzw"
  imuQuaternionOrder : String := "xyzw"
  framesImu : String := "imu_link"
  framesOdom : String := "odom"
  framesBase : String := "base_link"
  orientationCovarianceDiagonal : List Binary64 := [hundredths2, hundredths2, hundredths5]
  angularVelocityCovarianceDiagonal : List Binary64 := [hundredth, hundredth, hundredths2]
  linearAccelerationCovarianceDiagonal : List Binary64 := [tenth, tenth, tenths2]
  poseCovarianceDiagonal : List Binary64 :=
    [hundredths5, hundredths5, hundredths5, hundredth, hundredth, hundredth]

/-- `as_int`, converted to `int`: the low 32 bits. -/
def Parameters.asInt (p : Parameters) (k : IntParameter) : Int := (p.int k).toInt32.toInt

/-! ### Checks -/

/-- A check that throws its message. -/
def check (invalid : Bool) (message : String) : Except String Unit :=
  if invalid then .error message else .ok ()

/-- A check of every element in turn. -/
def checkAll {α : Type} (f : α → Except String Unit) : List α → Except String Unit
  | [] => .ok ()
  | x :: xs => do
      f x
      checkAll f xs

/-- One of the four numbers of an address: decimal, at most 255, without a leading zero. -/
def validOctet (digits : List Char) : Bool :=
  !digits.isEmpty && digits.all Char.isDigit && decide (digits.length ≤ 3) &&
    (digits.length == 1 || digits.head? != some '0') &&
    decide (digits.foldl (fun n c => 10 * n + (c.toNat - '0'.toNat)) 0 ≤ 255)

/-- `valid_ipv4`: `inet_pton` reads the characters before the first null. -/
def validIpv4 (value : String) : Bool :=
  let octets := (value.toList.takeWhile (fun c => c != '\x00')).splitOn '.'
  octets.length == 4 && octets.all validOctet

/-- `validate_covariance_diagonal`. -/
def validateCovarianceDiagonal (name : String) (diag : List Binary64) : Except String Unit :=
  checkAll (fun (x, i) => check (!x.isFinite || x.lt .zero)
    (name ++ " coefficient " ++ Nat.repr i ++ " (" ++ x.toString ++ ") must be finite and >= 0"))
    diag.zipIdx

/-- `frequency_from_hz`. -/
def frequencyFromHz (hz : Int) : Except String SubscriptionFrequency :=
  if hz = 0 then .ok .disabled
  else if hz = 1 then .ok .hz1
  else if hz = 25 then .ok .hz25
  else if hz = 50 then .ok .hz50
  else if hz = 125 then .ok .hz125
  else if hz = 250 then .ok .hz250
  else .error ("subscription frequency " ++ toString hz ++
    " Hz is not valid (must be one of 0/1/25/50/125/250)")

namespace Parameters

variable (p : Parameters)

/-- A range check of an integer parameter. -/
def checkRange (k : IntParameter) (lo hi : Int) (range : String) : Except String Unit :=
  check (decide (p.asInt k < lo) || decide (hi < p.asInt k))
    (k.name ++ "=" ++ toString (p.asInt k) ++ " is outside " ++ range)

/-- Ports. -/
def checkPort (k : IntParameter) : Except String Unit :=
  p.checkRange k 1 65535 "the valid port range [1, 65535]"

/-- The timings and timeouts that are checked to be positive. -/
def timings : List IntParameter :=
  [.sdkInitTimeoutMs, .sdkCallTimeoutMs, .sdkHeartbeatCallTimeoutMs, .timingHeartbeatPeriodMs,
    .timingMotionRefreshPeriodMs, .timingStatePollPeriodMs, .timingModeTimeoutMs,
    .timingReconnectInitialDelayMs, .timingReconnectMaxDelayMs, .safetyCommandDeadmanMs,
    .lidarFrameTimeoutMs]

/-- A timing or timeout. -/
def checkTiming (k : IntParameter) : Except String Unit :=
  check (decide (p.asInt k ≤ 0))
    (k.name ++ "=" ++ toString (p.asInt k) ++ " must be strictly positive")

/-- A scale coefficient. -/
def checkScale (name : String) (scale : Binary64) : Except String Unit :=
  check (!scale.isFinite || scale.le .zero || Binary64.billion.lt scale)
    (name ++ "=" ++ scale.toString ++ " must be finite and within (0, 1e9]")

/-- `total_point_budget`; both factors are within 32 bits. -/
def totalPointBudget : Int := p.asInt .lidarMaxParallelFrames * p.asInt .lidarMaxPointsPerFrame

end Parameters

/-! ### Validation -/

/-- `LidarParams`. -/
structure LidarParams where
  pointCloudPort : UInt16
  odometryPort : UInt16
  frameTimeoutMs : Int32
  maxParallelFrames : UInt64
  maxPointsPerFrame : UInt64
  maxPacketsPerFrame : UInt64

/-- What `validate_parameters` resolves and later steps of the construction use. -/
structure Validated where
  imuFreq : SubscriptionFrequency
  sportFreq : SubscriptionFrequency
  lidarFreq : SubscriptionFrequency
  lidarEnabled : Bool
  lidar : LidarParams

namespace Parameters

variable (p : Parameters)

/-- The values of `lidar_` that are converted from 64 bits. -/
def lidarParams : LidarParams where
  pointCloudPort := (p.int .lidarPointCloudPort).toUInt64.toUInt16
  odometryPort := (p.int .lidarOdometryPort).toUInt64.toUInt16
  frameTimeoutMs := (p.int .lidarFrameTimeoutMs).toInt32
  maxParallelFrames := (p.int .lidarMaxParallelFrames).toUInt64
  maxPointsPerFrame := (p.int .lidarMaxPointsPerFrame).toUInt64
  maxPacketsPerFrame := (p.int .lidarMaxPacketsPerFrame).toUInt64

/-- `validate_parameters`, up to the frequencies. -/
def checkIntegers : Except String Unit := do
  p.checkPort .lidarPointCloudPort
  p.checkPort .lidarOdometryPort
  check (p.asInt .lidarPointCloudPort == p.asInt .lidarOdometryPort)
    "lidar.point_cloud_port and lidar.odometry_port must differ"
  check (!validIpv4 p.bindIp) ("lidar.bind_ip='" ++ p.bindIp ++ "' is not a valid IPv4 address")
  check (p.sourceIp != "" && !validIpv4 p.sourceIp)
    ("lidar.source_ip='" ++ p.sourceIp ++ "' is not a valid IPv4 address")
  checkAll p.checkTiming timings
  p.checkRange .safetyQueueCapacity 1 1024 "[1, 1024]"
  p.checkRange .lidarMaxParallelFrames 1 64 "[1, 64]"
  p.checkRange .lidarMaxPointsPerFrame 1 50000000 "[1, 50000000]"
  p.checkRange .lidarMaxPacketsPerFrame 1 65536 "[1, 65536]"
  check (decide (20000000 < p.totalPointBudget))
    ("lidar.max_parallel_frames * lidar.max_points_per_frame = " ++ toString p.totalPointBudget ++
      " exceeds the 20,000,000 point memory budget")
  checkScale "lidar.point_position_scale" p.pointPositionScale
  checkScale "lidar.odom_position_scale" p.odomPositionScale
  checkScale "lidar.odom_quaternion_scale" p.odomQuaternionScale
  check (p.odomQuaternionOrder != "xyzw" && p.odomQuaternionOrder != "wxyz")
    ("lidar.odom_quaternion_order='" ++ p.odomQuaternionOrder ++ "' is not 'xyzw' or 'wxyz'")
  check (decide (p.asInt .sdkHeartbeatMaxFailures < 1))
    ("sdk.heartbeat_max_failures=" ++ toString (p.asInt .sdkHeartbeatMaxFailures) ++ " must be >= 1")
  check (decide (p.asInt .timingReconnectMaxDelayMs < p.asInt .timingReconnectInitialDelayMs))
    ("timing.reconnect_initial_delay_ms (" ++ toString (p.asInt .timingReconnectInitialDelayMs) ++
      ") exceeds timing.reconnect_max_delay_ms (" ++ toString (p.asInt .timingReconnectMaxDelayMs) ++
      ")")

/-- `validate_parameters`. -/
def validateParameters : Except String Validated := do
  p.checkIntegers
  let imuFreq ← frequencyFromHz (p.asInt .subscriptionsImuFrequencyHz)
  let sportFreq ← frequencyFromHz (p.asInt .subscriptionsSportFrequencyHz)
  let lidarFreq ← frequencyFromHz (p.asInt .subscriptionsLidarFrequencyHz)
  check (p.imuQuaternionOrder != "wxyz" && p.imuQuaternionOrder != "xyzw")
    ("imu.quaternion_order='" ++ p.imuQuaternionOrder ++ "' is not 'xyzw' or 'wxyz'")
  check (p.framesImu == "" || p.framesOdom == "" || p.framesBase == "")
    "frame names must not be empty"
  validateCovarianceDiagonal "imu.orientation_covariance_diagonal" p.orientationCovarianceDiagonal
  validateCovarianceDiagonal "imu.angular_velocity_covariance_diagonal"
    p.angularVelocityCovarianceDiagonal
  validateCovarianceDiagonal "imu.linear_acceleration_covariance_diagonal"
    p.linearAccelerationCovarianceDiagonal
  validateCovarianceDiagonal "odom_lidar.pose_covariance_diagonal" p.poseCovarianceDiagonal
  return { imuFreq, sportFreq, lidarFreq, lidarEnabled := p.lidarEnabled, lidar := p.lidarParams }

end Parameters

/-! ### What is handed on -/

/-- The ports and the assembler configuration that `create_receivers` hands to the receivers. -/
structure Receivers where
  pointCloudPort : UInt16
  odometryPort : UInt16
  assembler : Lidar.AssemblerConfig

/-- `create_receivers`: none where the stream is disabled. -/
def createReceivers (v : Validated) : Option Receivers :=
  if v.lidarEnabled then
    some {
      pointCloudPort := v.lidar.pointCloudPort
      odometryPort := v.lidar.odometryPort
      assembler := {
        frameTimeout := v.lidar.frameTimeoutMs.toInt
        maxParallelFrames := v.lidar.maxParallelFrames.toNat
        maxPointsPerFrame := v.lidar.maxPointsPerFrame.toNat
        maxPacketsPerFrame := v.lidar.maxPacketsPerFrame.toNat } }
  else none

/-- The numbers of `RuntimeConfig`; durations are in milliseconds, of 64 bits. -/
structure RuntimeNumbers where
  initTimeoutMs : UInt32
  sdkCallTimeoutMs : UInt32
  heartbeatCallTimeoutMs : UInt32
  heartbeatMaxFailures : UInt32
  heartbeatPeriod : Int64
  motionRefreshPeriod : Int64
  statePollPeriod : Int64
  modeTimeoutMs : Int64
  reconnectInitialDelayMs : Int64
  reconnectMaxDelayMs : Int64
  deadmanMs : Int64
  queueCapacity : UInt64
  imuFreq : SubscriptionFrequency
  sportFreq : SubscriptionFrequency
  lidarFreq : SubscriptionFrequency
  enableLidarStream : Bool

/-- `assemble_runtime`. -/
def assembleRuntime (p : Parameters) (v : Validated) : RuntimeNumbers where
  initTimeoutMs := (p.int .sdkInitTimeoutMs).toUInt64.toUInt32
  sdkCallTimeoutMs := (p.int .sdkCallTimeoutMs).toUInt64.toUInt32
  heartbeatCallTimeoutMs := (p.int .sdkHeartbeatCallTimeoutMs).toUInt64.toUInt32
  heartbeatMaxFailures := (p.int .sdkHeartbeatMaxFailures).toUInt64.toUInt32
  heartbeatPeriod := p.int .timingHeartbeatPeriodMs
  motionRefreshPeriod := p.int .timingMotionRefreshPeriodMs
  statePollPeriod := p.int .timingStatePollPeriodMs
  modeTimeoutMs := p.int .timingModeTimeoutMs
  reconnectInitialDelayMs := p.int .timingReconnectInitialDelayMs
  reconnectMaxDelayMs := p.int .timingReconnectMaxDelayMs
  deadmanMs := p.int .safetyCommandDeadmanMs
  queueCapacity := (p.int .safetyQueueCapacity).toUInt64
  imuFreq := v.imuFreq
  sportFreq := v.sportFreq
  lidarFreq := v.lidarFreq
  enableLidarStream := v.lidarEnabled

/-- What the construction of the node hands on. -/
structure HandedOn where
  receivers : Option Receivers
  runtime : RuntimeNumbers

/-- The construction of the node, as far as the parameters go. -/
def construct (p : Parameters) : Except String HandedOn := do
  let v ← p.validateParameters
  return { receivers := createReceivers v, runtime := assembleRuntime p v }

end HypertronBridge.Node
