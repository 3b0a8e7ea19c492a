import HypertronBridge.Lib.Bytes
import HypertronBridge.Lidar.Assembler
import HypertronBridge.Node.ClockMapper

namespace HypertronBridge.Node

open Bytes Lidar

/-!
# The point-cloud message (`on_lidar_frame`, `driver_node.cpp`)

A complete frame is published as a `sensor_msgs/PointCloud2`: its fields say where the coordinates and the
colour of a point are in the message's data, and whoever goes by them reads the frame's points.

* `PointCloud2`, `onLidarFrame` — the message, and how it is filled;
* `PointCloud2.WellFormed`, `PointCloud2.float32`, `PointCloud2.uint32` — what the message type asks, and
  how a subscriber reads a field of a point;
* `point_cloud_message` — the result.
-/

/-! ### The message -/

/-- `sensor_msgs::msg::PointField`. -/
structure PointField where
  name : String
  offset : UInt32
  datatype : UInt8
  count : UInt32
deriving DecidableEq

/-- `PointField::UINT32`. -/
def PointField.UINT32 : UInt8 := 6

/-- `PointField::FLOAT32`. -/
def PointField.FLOAT32 : UInt8 := 7

/-- `sensor_msgs::msg::PointCloud2`, with the stamp in nanoseconds. -/
structure PointCloud2 where
  stampNs : Int
  frameId : String
  height : UInt32
  width : UInt32
  fields : List PointField
  isBigendian : Bool
  pointStep : UInt32
  rowStep : UInt32
  data : List UInt8
  isDense : Bool

/-- `std::memcpy` to a position. -/
def memcpy (data : List UInt8) (dst : Nat) (bytes : List UInt8) : List UInt8 :=
  data.take dst ++ (bytes ++ data.drop (dst + bytes.length))

/-- The loop over the points, from point `i` on. -/
def packPoints (pointStep : Nat) : List LidarPoint → Nat → List UInt8 → List UInt8
  | [], _, data => data
  | p :: points, i, data =>
      let dst := i * pointStep
      let data := memcpy data (dst + 0) (ofValue 4 p.x.bits)
      let data := memcpy data (dst + 4) (ofValue 4 p.y.bits)
      let data := memcpy data (dst + 8) (ofValue 4 p.z.bits)
      let data := memcpy data (dst + 12) (ofValue 4 p.rgba.toNat)
      packPoints pointStep points (i + 1) data

/-- The fields `x`, `y`, `z` and `rgba`. -/
def pointFields : List PointField :=
  [⟨"x", 0, PointField.FLOAT32, 1⟩, ⟨"y", 4, PointField.FLOAT32, 1⟩, ⟨"z", 8, PointField.FLOAT32, 1⟩,
    ⟨"rgba", 12, PointField.UINT32, 1⟩]

/-- `on_lidar_frame` with a publisher, on a processor with the least significant byte first: the message,
    unless the mapping of its stamp leaves the range. -/
def onLidarFrame (frameId : String) (mapper : LidarDeviceClockMapper) (receiveNs : Int)
    (frame : PointCloudFrame) : Option PointCloud2 := do
  let stampNs ← mapper.mapCloud frame.timestampNs receiveNs
  let width := UInt32.ofNat frame.points.length
  let pointStep : UInt32 := 16
  return {
    stampNs
    frameId
    height := 1
    width
    fields := pointFields
    isBigendian := false
    pointStep
    rowStep := pointStep * width
    data := packPoints pointStep.toNat frame.points 0
      (List.replicate (pointStep.toNat * frame.points.length) 0)
    isDense := true }

/-! ### What a message says -/

namespace PointCloud2

/-- The bytes of a field's element, for the types that occur here. -/
def elementSize (datatype : UInt8) : Nat :=
  if datatype = PointField.UINT32 ∨ datatype = PointField.FLOAT32 then 4 else 0

/-- The place of a field in a point. -/
def place (f : PointField) : Nat × Nat :=
  (f.offset.toNat, f.offset.toNat + elementSize f.datatype * f.count.toNat)

/-- What the message type asks: rows of points, and fields that lie in a point and do not overlap. -/
structure WellFormed (msg : PointCloud2) : Prop where
  rows : msg.rowStep.toNat = msg.pointStep.toNat * msg.width.toNat
  size : msg.data.length = msg.rowStep.toNat * msg.height.toNat
  inside : ∀ f ∈ msg.fields, (place f).1 < (place f).2 ∧ (place f).2 ≤ msg.pointStep.toNat
  apart : msg.fields.Pairwise (fun f g => (place f).2 ≤ (place g).1)

/-- The number that a field of one element has in a point of the first row. -/
def number (msg : PointCloud2) (i : Nat) (f : PointField) : Nat :=
  let bytes := slice (i * msg.pointStep.toNat + f.offset.toNat) (elementSize f.datatype) msg.data
  value (if msg.isBigendian then bytes.reverse else bytes)

/-- The field of this name, if it has one element of this type. -/
def field (msg : PointCloud2) (name : String) (datatype : UInt8) : Option PointField :=
  msg.fields.find? (fun f => f.name == name && f.datatype == datatype && f.count == 1)

/-- A `FLOAT32` field of point `i`. -/
def float32 (msg : PointCloud2) (name : String) (i : Nat) : Option Binary32 :=
  (msg.field name PointField.FLOAT32).map (fun f => .ofBits (msg.number i f))

/-- A `UINT32` field of point `i`. -/
def uint32 (msg : PointCloud2) (name : String) (i : Nat) : Option UInt32 :=
  (msg.field name PointField.UINT32).map (fun f => .ofNat (msg.number i f))

end PointCloud2

/-! ### What is packed -/

/-- The sixteen bytes of a point. -/
def pointRecord (p : LidarPoint) : List UInt8 :=
  ofValue 4 p.x.bits ++ (ofValue 4 p.y.bits ++ (ofValue 4 p.z.bits ++ ofValue 4 p.rgba.toNat))

theorem length_pointRecord (p : LidarPoint) : (pointRecord p).length = 16 := by
  simp [pointRecord]

/-- Bytes that are replaced by as many others. -/
theorem memcpy_middle {before old after bytes : List UInt8} {dst : Nat} (hdst : before.length = dst)
    (hlength : bytes.length = old.length) :
    memcpy (before ++ (old ++ after)) dst bytes = before ++ bytes ++ after := by
  subst hdst
  unfold memcpy
  rw [List.take_left, hlength, ← List.drop_drop, List.drop_left, List.drop_left, List.append_assoc]

/-- **The loop.** It puts the records of the points one after the other. -/
theorem packPoints_eq (points : List LidarPoint) :
    ∀ (i : Nat) (before : List UInt8), before.length = i * 16 →
      packPoints 16 points i (before ++ List.replicate (16 * points.length) 0) =
        before ++ points.flatMap pointRecord := by
  induction points with
  | nil =>
    intro i before _
    rfl
  | cons p points ih =>
    intro i before hbefore
    have hzeros : List.replicate (16 * (p :: points).length) (0 : UInt8) =
        List.replicate 4 0 ++ (List.replicate 4 0 ++ (List.replicate 4 0 ++ (List.replicate 4 0 ++
          List.replicate (16 * points.length) 0))) := by
      rw [List.replicate_append_replicate, List.replicate_append_replicate,
        List.replicate_append_replicate, List.replicate_append_replicate, List.length_cons]
      exact congrArg (fun n => List.replicate n 0) (by omega)
    rw [packPoints, hzeros]
    rw [memcpy_middle (by omega) (by simp), memcpy_middle (by simp; omega) (by simp),
      memcpy_middle (by simp; omega) (by simp), memcpy_middle (by simp; omega) (by simp),
      ih (i + 1) _ (by simp; omega), List.flatMap_cons]
    unfold pointRecord
    simp only [List.append_assoc]

/-! ### What a subscriber reads -/

section message

variable {frameId : String} {mapper : LidarDeviceClockMapper} {receiveNs : Int} {frame : PointCloudFrame}
  {msg : PointCloud2} {i : Nat} {p : LidarPoint}

theorem data_of_onLidarFrame (hmsg : onLidarFrame frameId mapper receiveNs frame = some msg) :
    msg.data = frame.points.flatMap pointRecord := by
  obtain ⟨stampNs, _, heq⟩ := Option.bind_eq_some_iff.mp hmsg
  obtain rfl := Option.some.inj heq
  exact packPoints_eq frame.points 0 [] rfl

/-- A field of a point is where the point's record has it. -/
theorem number_of_record {before bytes after : List UInt8} {f : PointField}
    (hmsg : onLidarFrame frameId mapper receiveNs frame = some msg) (hp : frame.points[i]? = some p)
    (hrecord : pointRecord p = before ++ (bytes ++ after)) (hoffset : before.length = f.offset.toNat)
    (hbytes : bytes.length = 4) (hsize : PointCloud2.elementSize f.datatype = 4) :
    msg.number i f = value bytes := by
  have hfit : f.offset.toNat + 4 ≤ 16 := by
    have hlength := congrArg List.length hrecord
    rw [length_pointRecord, List.length_append, List.length_append] at hlength
    omega
  have hdata := data_of_onLidarFrame hmsg
  obtain ⟨stampNs, _, heq⟩ := Option.bind_eq_some_iff.mp hmsg
  obtain rfl := Option.some.inj heq
  show value (slice (i * 16 + f.offset.toNat) _ _) = _
  rw [hsize, hdata, ← slice_slice hfit, slice_flatMap length_pointRecord hp, hrecord,
    slice_append hoffset hbytes]

/-- The numbers in the four fields of a point. -/
theorem numbers_of_point (hmsg : onLidarFrame frameId mapper receiveNs frame = some msg)
    (hp : frame.points[i]? = some p) :
    msg.number i ⟨"x", 0, PointField.FLOAT32, 1⟩ = p.x.bits ∧
      msg.number i ⟨"y", 4, PointField.FLOAT32, 1⟩ = p.y.bits ∧
      msg.number i ⟨"z", 8, PointField.FLOAT32, 1⟩ = p.z.bits ∧
      msg.number i ⟨"rgba", 12, PointField.UINT32, 1⟩ = p.rgba.toNat := by
  have hbound : 2 ^ 32 = 256 ^ 4 := by decide
  have hx : pointRecord p = [] ++ (ofValue 4 p.x.bits ++ (ofValue 4 p.y.bits ++
      (ofValue 4 p.z.bits ++ ofValue 4 p.rgba.toNat))) := (List.nil_append _).symm
  have hy : pointRecord p = ofValue 4 p.x.bits ++ (ofValue 4 p.y.bits ++
      (ofValue 4 p.z.bits ++ ofValue 4 p.rgba.toNat)) := rfl
  have hz : pointRecord p = (ofValue 4 p.x.bits ++ ofValue 4 p.y.bits) ++
      (ofValue 4 p.z.bits ++ ofValue 4 p.rgba.toNat) := by
    rw [List.append_assoc, hy]
  have hrgba : pointRecord p = (ofValue 4 p.x.bits ++ ofValue 4 p.y.bits ++ ofValue 4 p.z.bits) ++
      (ofValue 4 p.rgba.toNat ++ []) := by
    rw [List.append_nil, List.append_assoc _ _ (ofValue 4 p.rgba.toNat), hz]
  refine ⟨?_, ?_, ?_, ?_⟩
  · rw [number_of_record hmsg hp hx rfl (length_ofValue ..) rfl,
      value_ofValue (p.x.bits_lt.trans_eq hbound)]
  · rw [number_of_record hmsg hp hy rfl (length_ofValue ..) rfl,
      value_ofValue (p.y.bits_lt.trans_eq hbound)]
  · rw [number_of_record hmsg hp hz rfl (length_ofValue ..) rfl,
      value_ofValue (p.z.bits_lt.trans_eq hbound)]
  · rw [number_of_record hmsg hp hrgba rfl (length_ofValue ..) rfl,
      value_ofValue (p.rgba.toNat_lt.trans_eq hbound)]

/-- **The message of a frame**, of fewer than 2^28 points, which are 16 bytes each.  It is laid out as the
    message type asks and has the points of the frame, and with its fields and its byte order a subscriber
    reads the coordinates and the colour of each of them. -/
theorem point_cloud_message (hcount : frame.points.length < 2 ^ 28)
    (hmsg : onLidarFrame frameId mapper receiveNs frame = some msg) :
    msg.WellFormed ∧ msg.height.toNat * msg.width.toNat = frame.points.length ∧
      ∀ i p, frame.points[i]? = some p →
        msg.float32 "x" i = some p.x ∧ msg.float32 "y" i = some p.y ∧ msg.float32 "z" i = some p.z ∧
          msg.uint32 "rgba" i = some p.rgba := by
  have hlength : msg.data.length = 16 * frame.points.length := by
    rw [data_of_onLidarFrame hmsg, List.length_flatMap,
      List.map_congr_left (fun p _ => length_pointRecord p), List.map_const', List.sum_replicate,
      smul_eq_mul, Nat.mul_comm]
  have hwidth : (UInt32.ofNat frame.points.length).toNat = frame.points.length := by
    rw [UInt32.toNat_ofNat']
    exact Nat.mod_eq_of_lt (by omega)
  have hrow : ((16 : UInt32) * UInt32.ofNat frame.points.length).toNat = 16 * frame.points.length := by
    rw [UInt32.toNat_mul, hwidth]
    exact Nat.mod_eq_of_lt (by show 16 * _ < 2 ^ 32; omega)
  have hpoints : ∀ i p, frame.points[i]? = some p → _ := fun _ _ hp => numbers_of_point hmsg hp
  obtain ⟨stampNs, _, heq⟩ := Option.bind_eq_some_iff.mp hmsg
  obtain rfl := Option.some.inj heq
  refine ⟨⟨?_, ?_, ?_, ?_⟩, ?_, ?_⟩
  · show ((16 : UInt32) * UInt32.ofNat frame.points.length).toNat = 16 * _
    rw [hrow, hwidth]
  · rw [hlength, ← hrow]
    exact (Nat.mul_one _).symm
  · show ∀ f ∈ pointFields, (PointCloud2.place f).1 < (PointCloud2.place f).2 ∧ (PointCloud2.place f).2 ≤ 16
    decide
  · show pointFields.Pairwise (fun f g => (PointCloud2.place f).2 ≤ (PointCloud2.place g).1)
    decide
  · show 1 * (UInt32.ofNat frame.points.length).toNat = _
    rw [hwidth, Nat.one_mul]
  · intro i p hp
    obtain ⟨hx, hy, hz, hrgba⟩ := hpoints i p hp
    refine ⟨congrArg some ?_, congrArg some ?_, congrArg some ?_, congrArg some ?_⟩
    · show Binary32.ofBits (PointCloud2.number _ i ⟨"x", 0, PointField.FLOAT32, 1⟩) = p.x
      rw [hx, Binary32.ofBits_bits]
    · show Binary32.ofBits (PointCloud2.number _ i ⟨"y", 4, PointField.FLOAT32, 1⟩) = p.y
      rw [hy, Binary32.ofBits_bits]
    · show Binary32.ofBits (PointCloud2.number _ i ⟨"z", 8, PointField.FLOAT32, 1⟩) = p.z
      rw [hz, Binary32.ofBits_bits]
    · show UInt32.ofNat (PointCloud2.number _ i ⟨"rgba", 12, PointField.UINT32, 1⟩) = p.rgba
      rw [hrgba, UInt32.ofNat_toNat]

end message

/-- A frame of two points, one of them coloured, before any odometry. -/
theorem point_cloud_message_two :
    let frame : PointCloudFrame :=
      ⟨7, 2, [{ x := .one, y := .negOne, rgba := 0xFF00FF00 }, { z := .one }]⟩
    ∃ msg, onLidarFrame "lidar" {} 1000 frame = some msg ∧ msg.WellFormed ∧
      msg.float32 "y" 0 = some .negOne ∧ msg.uint32 "rgba" 0 = some 0xFF00FF00 ∧
      msg.float32 "z" 1 = some .one := by
  intro frame
  have hmsg : onLidarFrame "lidar" {} 1000 frame = some _ := rfl
  obtain ⟨hformed, -, hread⟩ := point_cloud_message (by decide) hmsg
  refine ⟨_, hmsg, ?_⟩
  exact ⟨hformed, (hread 0 _ rfl).2.1, (hread 0 _ rfl).2.2.2, (hread 1 _ rfl).2.2.1⟩

end HypertronBridge.Node
