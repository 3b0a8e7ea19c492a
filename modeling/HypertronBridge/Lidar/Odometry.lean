import HypertronBridge.Lidar.Buffer

namespace HypertronBridge.Lidar

open Reading

/-!
# The odometry parser (`ParseOdometryPacket`, `lidar_stream.cpp`)

An odometry datagram has a head marker, eight integers in one of two layouts, and a tail marker.  The
parser scales the position, and scales and normalises the quaternion.

* `OdometryArithmetic` — the arithmetic of `double` that does this, left open;
* `Buffer.parseOdomWithLayout`, `Buffer.parseOdometryPacket` — the parser, read by read;
* `RawOdometry`, `RawOdometry.scale` — the integers of a datagram, and what becomes of them;
* `parseOdometryPacket_eq` — which datagrams are accepted, and what is returned;
* `parsers_read_within` — neither parser reads past the length or behind a null pointer.
-/

/-! ### Results and configuration -/

/-- `LidarOdometry`. -/
structure LidarOdometry where
  timestampNs : UInt64 := 0
  x : Binary64 := .zero
  y : Binary64 := .zero
  z : Binary64 := .zero
  qx : Binary64 := .zero
  qy : Binary64 := .zero
  qz : Binary64 := .zero
  qw : Binary64 := .zero
deriving DecidableEq

/-- `OdometryPacketResult`. -/
structure OdometryPacketResult where
  ok : Bool := false
  reason : String := ""
  odometry : LidarOdometry := {}

/-- A failure, with its reason. -/
def OdometryPacketResult.fail (what : String) (result : OdometryPacketResult) :
    Bool × OdometryPacketResult := (false, { result with reason := makeReason what })

/-- The arithmetic that the parser uses: it is that of the processor. -/
structure OdometryArithmetic where
  /-- `static_cast<double>(n) * scale`. -/
  scaled : Int64 → Binary64 → Binary64
  /-- `std::sqrt(qx * qx + qy * qy + qz * qz + qw * qw)`. -/
  norm : Binary64 → Binary64 → Binary64 → Binary64 → Binary64
  /-- `x / y`. -/
  quotient : Binary64 → Binary64 → Binary64

/-- `LidarParseConfig`, with the order that only this parser reads. -/
structure OdometryConfig extends LidarParseConfig where
  odomQuaternionOrder : String := "xyzw"

/-- `ValidQuaternionOrder`. -/
def validQuaternionOrder (order : String) : Bool := order == "xyzw" || order == "wxyz"

/-- `OdomLayout`: the length, and where the fields are. -/
structure OdomLayout where
  len : Nat
  timestampAt : Nat
  xAt : Nat
  tailAt : Nat
deriving DecidableEq

/-- `kPackedOdom`. -/
def packedOdom : OdomLayout := ⟨68, 2, 10, 66⟩

/-- `kAlignedOdom`. -/
def alignedOdom : OdomLayout := ⟨80, 8, 16, 72⟩

/-- The layouts of the parser. -/
def OdomLayout.Known (layout : OdomLayout) : Prop := layout = packedOdom ∨ layout = alignedOdom

/-! ### The parser -/

namespace Buffer

variable (fp : OdometryArithmetic) (data : Buffer) (len : Nat) (config : OdometryConfig)

/-- `ParseOdomWithLayout`: whether it succeeds, and what it leaves in the result. -/
def parseOdomWithLayout (layout : OdomLayout) (result : OdometryPacketResult) :
    Reading (Bool × OdometryPacketResult) := do
  if len ≠ layout.len then return (false, result)
  let head ← data.readU16LE 0
  if head ≠ headMarker then return result.fail "head marker is not 0xAA55"
  let tail ← data.readU16LE layout.tailAt
  if tail ≠ tailMarker then return result.fail "tail marker is not 0xFF00"
  let timestampNs ← data.readU64LE layout.timestampAt
  let sx := config.odomPositionScale
  let x := fp.scaled (← data.readI64LE layout.xAt) sx
  let y := fp.scaled (← data.readI64LE (layout.xAt + 8)) sx
  let z := fp.scaled (← data.readI64LE (layout.xAt + 16)) sx
  if !x.isFinite || !y.isFinite || !z.isFinite then
    return result.fail "odometry position scaled to non-finite"
  if !validQuaternionOrder config.odomQuaternionOrder then
    return result.fail "odom_quaternion_order must be 'xyzw' or 'wxyz'"
  let sq := config.odomQuaternionScale
  let raw0 := fp.scaled (← data.readI64LE (layout.xAt + 24)) sq
  let raw1 := fp.scaled (← data.readI64LE (layout.xAt + 32)) sq
  let raw2 := fp.scaled (← data.readI64LE (layout.xAt + 40)) sq
  let raw3 := fp.scaled (← data.readI64LE (layout.xAt + 48)) sq
  let (qx, qy, qz, qw) :=
    if config.odomQuaternionOrder = "wxyz" then (raw1, raw2, raw3, raw0) else (raw0, raw1, raw2, raw3)
  let norm := fp.norm qx qy qz qw
  if !norm.isFinite || norm.eq .zero then return result.fail "odometry quaternion norm is zero"
  return (true, { result with
    ok := true
    odometry := {
      timestampNs, x, y, z
      qx := fp.quotient qx norm
      qy := fp.quotient qy norm
      qz := fp.quotient qz norm
      qw := fp.quotient qw norm } })

/-- `ParseOdometryPacket`. -/
def parseOdometryPacket : Reading OdometryPacketResult := do
  let result : OdometryPacketResult := {}
  if !validateScales config.toLidarParseConfig then
    return (result.fail "invalid scale coefficients").2
  if data.isNone ∨ len < 2 then return (result.fail "datagram too short").2
  if len < packedOdom.len ∧ len < alignedOdom.len then return (result.fail "datagram too short").2
  let head ← data.readU16LE 0
  if head ≠ headMarker then return (result.fail "head marker is not 0xAA55").2
  let (parsed, result) ← parseOdomWithLayout fp data len config packedOdom result
  if parsed then return result
  let (parsed, result) ← parseOdomWithLayout fp data len config alignedOdom result
  if parsed then return result
  if result.reason.isEmpty then
    return (result.fail "datagram length matches neither layout").2
  return result

end Buffer

/-- `ParseOdometryPacket` on a byte string. -/
def parseOdometryPacket (fp : OdometryArithmetic) (data : List UInt8) (config : OdometryConfig) :
    OdometryPacketResult :=
  (Buffer.parseOdometryPacket fp (.ofBytes data) data.length config).value

/-! ### What is accepted -/

/-- `ReadI64LE` on a byte string. -/
def readI64LE (data : List UInt8) (p : Nat) : Int64 := (readU64LE data p).toInt64

/-- The integers of an odometry datagram, the quaternion in the order of the datagram. -/
structure RawOdometry where
  timestampNs : UInt64
  x : Int64
  y : Int64
  z : Int64
  q0 : Int64
  q1 : Int64
  q2 : Int64
  q3 : Int64
deriving DecidableEq

/-- Where a layout has them. -/
def OdomLayout.raw (layout : OdomLayout) (data : List UInt8) : RawOdometry where
  timestampNs := readU64LE data layout.timestampAt
  x := readI64LE data layout.xAt
  y := readI64LE data (layout.xAt + 8)
  z := readI64LE data (layout.xAt + 16)
  q0 := readI64LE data (layout.xAt + 24)
  q1 := readI64LE data (layout.xAt + 32)
  q2 := readI64LE data (layout.xAt + 40)
  q3 := readI64LE data (layout.xAt + 48)

/-- The markers of a datagram in a layout. -/
def OdomLayout.marks (layout : OdomLayout) (data : List UInt8) : Prop :=
  data.length = layout.len ∧ readU16LE data 0 = headMarker ∧ readU16LE data layout.tailAt = tailMarker

instance (layout : OdomLayout) (data : List UInt8) : Decidable (layout.marks data) :=
  inferInstanceAs (Decidable (_ ∧ _))

section accepted

variable (fp : OdometryArithmetic) (config : OdometryConfig)

/-- The scaled quaternion, in the order of the configuration. -/
def RawOdometry.quaternion (raw : RawOdometry) : Binary64 × Binary64 × Binary64 × Binary64 :=
  let raw0 := fp.scaled raw.q0 config.odomQuaternionScale
  let raw1 := fp.scaled raw.q1 config.odomQuaternionScale
  let raw2 := fp.scaled raw.q2 config.odomQuaternionScale
  let raw3 := fp.scaled raw.q3 config.odomQuaternionScale
  if config.odomQuaternionOrder = "wxyz" then (raw1, raw2, raw3, raw0) else (raw0, raw1, raw2, raw3)

/-- Its norm. -/
def RawOdometry.norm (raw : RawOdometry) : Binary64 :=
  let (qx, qy, qz, qw) := raw.quaternion fp config
  fp.norm qx qy qz qw

/-- The integers can be scaled and normalised. -/
structure RawOdometry.Scales (raw : RawOdometry) : Prop where
  x : (fp.scaled raw.x config.odomPositionScale).isFinite = true
  y : (fp.scaled raw.y config.odomPositionScale).isFinite = true
  z : (fp.scaled raw.z config.odomPositionScale).isFinite = true
  order : validQuaternionOrder config.odomQuaternionOrder = true
  finite : (raw.norm fp config).isFinite = true
  nonzero : (raw.norm fp config).eq .zero = false

/-- What they become. -/
def RawOdometry.scale (raw : RawOdometry) : LidarOdometry :=
  let (qx, qy, qz, qw) := raw.quaternion fp config
  { timestampNs := raw.timestampNs
    x := fp.scaled raw.x config.odomPositionScale
    y := fp.scaled raw.y config.odomPositionScale
    z := fp.scaled raw.z config.odomPositionScale
    qx := fp.quotient qx (raw.norm fp config)
    qy := fp.quotient qy (raw.norm fp config)
    qz := fp.quotient qz (raw.norm fp config)
    qw := fp.quotient qw (raw.norm fp config) }

end accepted

section results

variable {fp : OdometryArithmetic} {config : OdometryConfig} {data : List UInt8} {layout : OdomLayout}
  {result : OdometryPacketResult}

/-- What one layout leaves, in terms of the integers. -/
theorem parseOdomWithLayout_value (layout : OdomLayout) (result : OdometryPacketResult) :
    (Buffer.parseOdomWithLayout fp (.ofBytes data) data.length config layout result).value =
      let raw := layout.raw data
      if data.length ≠ layout.len then (false, result)
      else if readU16LE data 0 ≠ headMarker then result.fail "head marker is not 0xAA55"
      else if readU16LE data layout.tailAt ≠ tailMarker then result.fail "tail marker is not 0xFF00"
      else if !(fp.scaled raw.x config.odomPositionScale).isFinite ||
          !(fp.scaled raw.y config.odomPositionScale).isFinite ||
          !(fp.scaled raw.z config.odomPositionScale).isFinite then
        result.fail "odometry position scaled to non-finite"
      else if !validQuaternionOrder config.odomQuaternionOrder then
        result.fail "odom_quaternion_order must be 'xyzw' or 'wxyz'"
      else if !(raw.norm fp config).isFinite || (raw.norm fp config).eq .zero then
        result.fail "odometry quaternion norm is zero"
      else (true, { result with ok := true, odometry := raw.scale fp config }) := by
  unfold Buffer.parseOdomWithLayout
  simp only [value_ite, value_bind, value_pure]
  rfl

/-- **One layout.** It accepts what has its length and markers and can be scaled, and returns this;
    anything else it leaves as it was, but for the reason. -/
theorem parseOdomWithLayout_cases (fp : OdometryArithmetic) (config : OdometryConfig)
    (data : List UInt8) (layout : OdomLayout) (result : OdometryPacketResult) :
    (layout.marks data ∧ (layout.raw data).Scales fp config ∧
      (Buffer.parseOdomWithLayout fp (.ofBytes data) data.length config layout result).value =
        (true, { result with ok := true, odometry := (layout.raw data).scale fp config })) ∨
    (¬ (layout.marks data ∧ (layout.raw data).Scales fp config) ∧ ∃ reason,
      (Buffer.parseOdomWithLayout fp (.ofBytes data) data.length config layout result).value =
        (false, { result with reason })) := by
  rw [parseOdomWithLayout_value]
  dsimp only
  split_ifs with hlen hhead htail hposition horder hnorm
  · exact .inr ⟨fun h => hlen h.1.1, result.reason, rfl⟩
  · exact .inr ⟨fun h => hhead h.1.2.1, _, rfl⟩
  · exact .inr ⟨fun h => htail h.1.2.2, _, rfl⟩
  · refine .inr ⟨fun h => ?_, _, rfl⟩
    simp [h.2.x, h.2.y, h.2.z] at hposition
  · refine .inr ⟨fun h => ?_, _, rfl⟩
    simp [h.2.order] at horder
  · refine .inr ⟨fun h => ?_, _, rfl⟩
    simp [h.2.finite, h.2.nonzero] at hnorm
  · simp only [Bool.or_eq_true, Bool.not_eq_true', not_or, Bool.not_eq_false, Bool.not_eq_true]
      at hposition horder hnorm
    obtain ⟨⟨hx, hy⟩, hz⟩ := hposition
    exact .inl ⟨⟨not_not.mp hlen, not_not.mp hhead, not_not.mp htail⟩,
      ⟨hx, hy, hz, horder, hnorm.1, hnorm.2⟩, rfl⟩

/-- A datagram that a layout accepts. -/
theorem parseOdometryPacket_accepts (hscales : validateScales config.toLidarParseConfig = true)
    (hl : layout.Known) (hmarks : layout.marks data) (hraw : (layout.raw data).Scales fp config) :
    ∃ reason, parseOdometryPacket fp data config =
      { ok := true, reason, odometry := (layout.raw data).scale fp config } := by
  have hlen : 68 ≤ data.length := by
    rw [hmarks.1]
    rcases hl with rfl | rfl <;> decide
  have hshort : ¬ ((Buffer.ofBytes data).isNone ∨ data.length < 2) := by
    rintro (h | h)
    · exact absurd h (by simp [Buffer.ofBytes])
    · omega
  have hpacked : ¬ (data.length < packedOdom.len ∧ data.length < alignedOdom.len) :=
    fun h => absurd h.1 (Nat.not_lt.mpr hlen)
  have hhead : ¬ ((Buffer.ofBytes data).readU16LE 0).value ≠ headMarker := not_not.mpr hmarks.2.1
  unfold parseOdometryPacket Buffer.parseOdometryPacket
  simp only [value_ite, value_bind, value_pure, hscales, Bool.not_true, Bool.false_eq_true, if_false]
  rw [if_neg hshort, if_neg hpacked, if_neg hhead]
  rcases parseOdomWithLayout_cases fp config data packedOdom {} with
    ⟨hmarks', -, hvalue⟩ | ⟨hno, reason, hvalue⟩
  · -- no datagram has both lengths
    have hsame : layout = packedOdom := by
      rcases hl with rfl | rfl
      · rfl
      · exact absurd (hmarks.1.symm.trans hmarks'.1) (by decide)
    rw [hvalue, hsame]
    exact ⟨_, rfl⟩
  · obtain rfl : layout = alignedOdom := by
      rcases hl with rfl | rfl
      · exact absurd ⟨hmarks, hraw⟩ hno
      · rfl
    rw [hvalue]
    simp only [Bool.false_eq_true, if_false]
    rcases parseOdomWithLayout_cases fp config data alignedOdom
      { reason } with ⟨-, -, hvalue'⟩ | ⟨hno', -⟩
    · rw [hvalue']
      exact ⟨_, rfl⟩
    · exact absurd ⟨hmarks, hraw⟩ hno'

/-- **What is accepted.** -/
theorem parseOdometryPacket_ok (hok : (parseOdometryPacket fp data config).ok = true) :
    validateScales config.toLidarParseConfig = true ∧ ∃ layout : OdomLayout, layout.Known ∧
      layout.marks data ∧ (layout.raw data).Scales fp config := by
  -- whatever a layout accepts is such a datagram
  have hlayout : ∀ (layout : OdomLayout) (result : OdometryPacketResult), layout.Known →
      (Buffer.parseOdomWithLayout fp (.ofBytes data) data.length config layout result).value.1 = true →
      ∃ layout : OdomLayout, layout.Known ∧ layout.marks data ∧ (layout.raw data).Scales fp config := by
    intro layout result hl h
    rcases parseOdomWithLayout_cases fp config data layout result with
      ⟨hmarks, hraw, -⟩ | ⟨-, reason, hvalue⟩
    · exact ⟨layout, hl, hmarks, hraw⟩
    · rw [hvalue] at h
      exact absurd h Bool.false_ne_true
  have hkept : ∀ (layout : OdomLayout) (result : OdometryPacketResult),
      (Buffer.parseOdomWithLayout fp (.ofBytes data) data.length config layout result).value.1 ≠ true →
      (Buffer.parseOdomWithLayout fp (.ofBytes data) data.length config layout result).value.2.ok =
        result.ok := by
    intro layout result h
    rcases parseOdomWithLayout_cases fp config data layout result with
      ⟨-, -, hvalue⟩ | ⟨-, reason, hvalue⟩
    · rw [hvalue] at h
      exact absurd rfl h
    · rw [hvalue]
  unfold parseOdometryPacket Buffer.parseOdometryPacket at hok
  simp only [value_ite, value_bind, value_pure] at hok
  split_ifs at hok with hscales hshort hlen hhead hpacked haligned hreason
  iterate 4 exact absurd hok (by simp [OdometryPacketResult.fail])
  all_goals refine ⟨by simpa using hscales, ?_⟩
  · exact hlayout packedOdom _ (.inl rfl) hpacked
  · exact hlayout alignedOdom _ (.inr rfl) haligned
  · simp only [OdometryPacketResult.fail] at hok
    rw [hkept _ _ haligned, hkept _ _ hpacked] at hok
    exact absurd hok Bool.false_ne_true
  · rw [hkept _ _ haligned, hkept _ _ hpacked] at hok
    exact absurd hok Bool.false_ne_true

end results

/-! ### Within the length -/

namespace Buffer

variable {fp : OdometryArithmetic} {data : Buffer} {len : Nat} {config : OdometryConfig}
  {layout : OdomLayout} {result : OdometryPacketResult}

/-- **One layout.** A datagram of its length has all fields and the tail marker. -/
theorem parseOdomWithLayout_within (hl : layout.Known) :
    Within len (parseOdomWithLayout fp data len config layout result) := by
  have hfields : layout.timestampAt + 8 ≤ layout.len ∧ layout.xAt + 56 ≤ layout.len ∧
      layout.tailAt + 2 ≤ layout.len ∧ 2 ≤ layout.len := by
    rcases hl with rfl | rfl <;> decide
  obtain ⟨htimestamp, hx, htail, hhead⟩ := hfields
  unfold parseOdomWithLayout
  refine within_ite (fun _ => within_pure) (fun hlen => ?_)
  have hlen : len = layout.len := not_not.mp hlen
  refine within_bind (within_readU16LE (by omega)) ?_
  refine within_ite (fun _ => within_pure) (fun _ => ?_)
  refine within_bind (within_readU16LE (by omega)) ?_
  refine within_ite (fun _ => within_pure) (fun _ => ?_)
  refine within_bind (within_readU64LE (by omega)) ?_
  refine within_bind (within_readI64LE (by omega)) (within_bind (within_readI64LE (by omega))
    (within_bind (within_readI64LE (by omega)) ?_))
  refine within_ite (fun _ => within_pure) (fun _ => ?_)
  refine within_ite (fun _ => within_pure) (fun _ => ?_)
  refine within_bind (within_readI64LE (by omega)) (within_bind (within_readI64LE (by omega))
    (within_bind (within_readI64LE (by omega)) (within_bind (within_readI64LE (by omega)) ?_)))
  exact within_ite (fun _ => within_pure) (fun _ => within_pure)

/-- **The whole parser**, which reads nothing behind a null pointer. -/
theorem parseOdometryPacket_within :
    Within (if data.isNone then 0 else len) (parseOdometryPacket fp data len config) := by
  unfold parseOdometryPacket
  refine within_ite (fun _ => within_pure) (fun _ => ?_)
  refine within_ite (fun _ => within_pure) (fun hdata => ?_)
  obtain ⟨hsome, hlen⟩ := not_or.mp hdata
  rw [if_neg hsome]
  refine within_ite (fun _ => within_pure) (fun _ => ?_)
  refine within_bind (within_readU16LE (by omega)) ?_
  refine within_ite (fun _ => within_pure) (fun _ => ?_)
  refine within_bind (parseOdomWithLayout_within (.inl rfl)) ?_
  refine within_ite (fun _ => within_pure) (fun _ => ?_)
  refine within_bind (parseOdomWithLayout_within (.inr rfl)) ?_
  refine within_ite (fun _ => within_pure) (fun _ => ?_)
  exact within_ite (fun _ => within_pure) (fun _ => within_pure)

end Buffer

/-- **No read out of bounds.** For every memory behind the pointer, every length and every
    configuration, each position that the two parsers read is below the length, and behind a null
    pointer they read nothing. -/
theorem parsers_read_within (fp : DoubleArithmetic) (fp' : OdometryArithmetic) (data : Buffer)
    (len : Nat) (config : LidarParseConfig) (config' : OdometryConfig) :
    (∀ i ∈ (data.parsePointCloudPacket fp len config).positions, i < len) ∧
      (∀ i ∈ (data.parseOdometryPacket fp' len config').positions, i < len) ∧
      (Buffer.parsePointCloudPacket fp none len config).positions = [] ∧
      (Buffer.parseOdometryPacket fp' none len config').positions = [] := by
  have hbound : ∀ {data : Buffer} {i : Nat}, i < (if data.isNone then 0 else len) → i < len := by
    intro data i hi
    split_ifs at hi
    · exact absurd hi (Nat.not_lt_zero i)
    · exact hi
  refine ⟨fun i hi => ?_, fun i hi => ?_, ?_, ?_⟩
  · exact hbound (Buffer.parsePointCloudPacket_within i hi)
  · exact hbound (Buffer.parseOdometryPacket_within i hi)
  · have hnull : Within 0 (Buffer.parsePointCloudPacket fp none len config) :=
      Buffer.parsePointCloudPacket_within
    exact hnull.positions_eq_nil
  · have hnull : Within 0 (Buffer.parseOdometryPacket fp' none len config') :=
      Buffer.parseOdometryPacket_within
    exact hnull.positions_eq_nil

end HypertronBridge.Lidar
