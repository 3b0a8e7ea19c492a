import HypertronBridge.Lib.Reading
import HypertronBridge.Lidar.Datagram

namespace HypertronBridge.Lidar

open Reading

/-!
# The point-cloud parser on a pointer

The parsers are given a pointer, which may be null, and a length.  Here they read byte by byte, and
each read is recorded, so that a read past the length, or behind a null pointer, would show.

* `Buffer` — a pointer; `Buffer.readU16LE` and its kin — the explicit reads;
* `Buffer.parsePointCloudPacket` — the point-cloud parser;
* `Buffer.parsePointCloudPacket_value` — it returns what the parser on byte strings returns;
* `Buffer.parsePointCloudPacket_within` — it reads within the length.
-/

/-- `const std::uint8_t*`: the bytes behind it, up to any position; nothing behind `nullptr`. -/
abbrev Buffer := Option (Nat → UInt8)

namespace Buffer

/-- A byte string in memory. -/
def ofBytes (data : List UInt8) : Buffer := some (byteAt data)

/-! ### Reads -/

section reads

variable (data : Buffer) (p : Nat)

/-- `p[i]`. -/
def byte (i : Nat) : Reading UInt8 := read (fun i => (data.map (fun bytes => bytes i)).getD 0) i

/-- `ReadU16LE`. -/
def readU16LE : Reading UInt16 := do
  let b0 ← data.byte p
  let b1 ← data.byte (p + 1)
  return (b0.toUInt16 &&& (0xFF : UInt16)) ||| (b1.toUInt16 <<< (8 : UInt16))

/-- `ReadU32LE`. -/
def readU32LE : Reading UInt32 := do
  let b0 ← data.byte (p + 0)
  let b1 ← data.byte (p + 1)
  let b2 ← data.byte (p + 2)
  let b3 ← data.byte (p + 3)
  let low (b : UInt8) : UInt32 := b.toUInt32 &&& (0xFF : UInt32)
  return low b0 ||| (low b1 <<< (8 : UInt32)) ||| (low b2 <<< (16 : UInt32)) |||
    (low b3 <<< (24 : UInt32))

/-- `ReadU64LE`. -/
def readU64LE : Reading UInt64 := do
  let lo ← data.readU32LE p
  let hi ← data.readU32LE (p + 4)
  return lo.toUInt64 ||| hi.toUInt64 <<< 32

/-- `ReadI32LE`. -/
def readI32LE : Reading Int32 := do
  let v ← data.readU32LE p
  return v.toInt32

/-- `ReadI64LE`. -/
def readI64LE : Reading Int64 := do
  let lo ← data.readU32LE p
  let hi ← data.readU32LE (p + 4)
  return (lo.toUInt64 ||| hi.toUInt64 <<< 32).toInt64

end reads

section within

variable {data : Buffer} {p n : Nat}

theorem within_readU16LE (h : p + 2 ≤ n) : Within n (data.readU16LE p) :=
  within_bind (within_read _ (by omega)) (within_bind (within_read _ (by omega)) within_pure)

theorem within_readU32LE (h : p + 4 ≤ n) : Within n (data.readU32LE p) :=
  within_bind (within_read _ (by omega)) (within_bind (within_read _ (by omega))
    (within_bind (within_read _ (by omega)) (within_bind (within_read _ (by omega)) within_pure)))

theorem within_readU64LE (h : p + 8 ≤ n) : Within n (data.readU64LE p) :=
  within_bind (within_readU32LE (by omega))
    (within_bind (within_readU32LE (by omega)) within_pure)

theorem within_readI32LE (h : p + 4 ≤ n) : Within n (data.readI32LE p) :=
  within_bind (within_readU32LE h) within_pure

theorem within_readI64LE (h : p + 8 ≤ n) : Within n (data.readI64LE p) :=
  within_bind (within_readU32LE (by omega))
    (within_bind (within_readU32LE (by omega)) within_pure)

end within

/-! ### The parser -/

section parser

variable (fp : DoubleArithmetic) (data : Buffer) (len : Nat) (config : LidarParseConfig)

/-- One point: the coordinates first, and the rest only if they are finite. -/
def decodePoint (p : Nat) : Reading (Option LidarPoint) := do
  let x := fp.scaled (← data.readI32LE p) config.pointPositionScale
  let y := fp.scaled (← data.readI32LE (p + 4)) config.pointPositionScale
  let z := fp.scaled (← data.readI32LE (p + 8)) config.pointPositionScale
  if !x.isFinite || !y.isFinite || !z.isFinite then return none
  let c0 ← data.readU32LE (p + 12)
  let c1 ← data.readU32LE (p + 16)
  let c2 ← data.readU32LE (p + 20)
  let c3 ← data.readU32LE (p + 24)
  return some {
    x := fp.toFloat x
    y := fp.toFloat y
    z := fp.toFloat z
    rgba := c0
    rgbaChannels := #v[c0, c1, c2, c3] }

/-- The points with these numbers, up to the first one that fails. -/
def decodePoints (layout : CloudLayout) : List Nat → Reading (Option (List LidarPoint))
  | [] => return some []
  | i :: rest => do
      match ← decodePoint fp data config (layout.posAt + i * pointBytes) with
      | none => return none
      | some point =>
          let points ← decodePoints layout rest
          return points.map (fun points => point :: points)

/-- `ParsePointCloudWithLayout`. -/
def parsePointCloudWithLayout (layout : CloudLayout) (result : PointCloudPacketResult) :
    Reading (Bool × PointCloudPacketResult) := do
  if len < layout.posnumAt + 2 then return result.fail "datagram too short for header"
  let posNum ← data.readU16LE layout.posnumAt
  if posNum = 0 then return result.fail "pos_num is zero"
  if maxPosNum < posNum then return result.fail "pos_num exceeds the 50-point bound"
  match layout.tailAt len posNum with
  | none => return result.fail "datagram length matches no valid tail"
  | some tailAt =>
      let tail ← data.readU16LE tailAt
      if tail ≠ tailMarker then return result.fail "tail marker is not 0xFF00"
      let timestampNs ← data.readU64LE layout.timestampAt
      let total ← data.readU32LE layout.totalAt
      let index ← data.readU32LE layout.indexAt
      let result : PointCloudPacketResult :=
        { result with timestampNs, total := total.toUInt64, index, posNum }
      if result.total = 0 then return result.fail "total point count is zero"
      match ← decodePoints fp data config layout (List.range posNum.toNat) with
      | none => return result.fail "point coordinate scaled to non-finite"
      | some points => return (true, { result with points, ok := true })

/-- `ParsePointCloudPacket`. -/
def parsePointCloudPacket : Reading PointCloudPacketResult := do
  let result : PointCloudPacketResult := {}
  if !validateScales config then return (result.fail "invalid scale coefficients").2
  if data.isNone ∨ len < 2 then return (result.fail "datagram too short").2
  let head ← data.readU16LE 0
  if head ≠ headMarker then return (result.fail "head marker is not 0xAA55").2
  let (parsed, result) ← parsePointCloudWithLayout fp data len config packedCloud result
  if parsed then return result
  let packedReason := result.reason
  let (parsed, result) ← parsePointCloudWithLayout fp data len config alignedCloud result
  if parsed then return result
  return { result with
    reason := if packedReason.isEmpty then result.reason else packedReason
    ok := false }

end parser

/-! ### The same results -/

section value

variable (fp : DoubleArithmetic) (data : List UInt8) (config : LidarParseConfig)

theorem decodePoint_value (p : Nat) :
    (decodePoint fp (ofBytes data) config p).value = Lidar.decodePoint fp data config p := by
  unfold decodePoint Lidar.decodePoint
  dsimp only
  rw [value_bind, value_bind, value_bind, value_ite]
  rfl

theorem decodePoints_value (layout : CloudLayout) (is : List Nat) :
    (decodePoints fp (ofBytes data) config layout is).value =
      is.mapM (fun i => Lidar.decodePoint fp data config (layout.posAt + i * pointBytes)) := by
  induction is with
  | nil => rfl
  | cons i is ih =>
    rw [decodePoints, value_bind, decodePoint_value, List.mapM_cons]
    cases Lidar.decodePoint fp data config (layout.posAt + i * pointBytes) with
    | none => rfl
    | some point =>
      show Option.map _ (decodePoints fp (ofBytes data) config layout is).value = _
      rw [ih]
      cases is.mapM (fun i => Lidar.decodePoint fp data config (layout.posAt + i * pointBytes)) <;> rfl

theorem parsePointCloudWithLayout_value (layout : CloudLayout) (result : PointCloudPacketResult) :
    (parsePointCloudWithLayout fp (ofBytes data) data.length config layout result).value =
      Lidar.parsePointCloudWithLayout fp data config layout result := by
  have hposNum : ((ofBytes data).readU16LE layout.posnumAt).value = Lidar.readU16LE data layout.posnumAt :=
    rfl
  unfold parsePointCloudWithLayout Lidar.parsePointCloudWithLayout
  simp only [value_ite, value_bind, value_pure, hposNum]
  cases layout.tailAt data.length (Lidar.readU16LE data layout.posnumAt) with
  | none => rfl
  | some tailAt =>
    have htail : ((ofBytes data).readU16LE tailAt).value = Lidar.readU16LE data tailAt := rfl
    simp only [value_ite, value_bind, value_pure, htail]
    rw [decodePoints_value]
    show _ = if _ then _ else if _ then _ else if _ then _ else _
    rw [← Lidar.decodePoints]
    cases Lidar.decodePoints fp data config layout (Lidar.readU16LE data layout.posnumAt) <;> rfl

/-- **The same results.** -/
theorem parsePointCloudPacket_value :
    (parsePointCloudPacket fp (ofBytes data) data.length config).value =
      Lidar.parsePointCloudPacket fp data config := by
  have hhead : ((ofBytes data).readU16LE 0).value = Lidar.readU16LE data 0 := rfl
  have hsome : (ofBytes data).isNone ∨ data.length < 2 ↔ data.length < 2 := by simp [ofBytes]
  unfold parsePointCloudPacket Lidar.parsePointCloudPacket
  simp only [value_ite, value_bind, value_pure, hhead, hsome, parsePointCloudWithLayout_value]

end value

/-! ### Within the length -/

section bounds

variable {fp : DoubleArithmetic} {data : Buffer} {len : Nat} {config : LidarParseConfig}
  {layout : CloudLayout} {result : PointCloudPacketResult}

theorem decodePoint_within {p : Nat} (h : p + 28 ≤ len) : Within len (decodePoint fp data config p) := by
  unfold decodePoint
  refine within_bind (within_readI32LE (by omega)) (within_bind (within_readI32LE (by omega))
    (within_bind (within_readI32LE (by omega)) ?_))
  refine within_ite (fun _ => within_pure) (fun _ => ?_)
  exact within_bind (within_readU32LE (by omega)) (within_bind (within_readU32LE (by omega))
    (within_bind (within_readU32LE (by omega)) (within_bind (within_readU32LE (by omega))
      within_pure)))

/-- The points lie one after the other, so those below a number lie within its place. -/
theorem decodePoints_within {n : Nat} (h : layout.posAt + 28 * n ≤ len) (is : List Nat)
    (his : ∀ i ∈ is, i < n) : Within len (decodePoints fp data config layout is) := by
  induction is with
  | nil => exact within_pure
  | cons i is ih =>
    obtain ⟨hi, hrest⟩ := List.forall_mem_cons.mp his
    rw [decodePoints]
    refine within_bind (decodePoint_within ?_) ?_
    · unfold pointBytes
      omega
    · split
      · exact within_pure
      · exact within_bind (ih hrest) within_pure

/-- **One layout.** The header is within the length by the first check, and the points and the tail
    marker by the one that finds the tail. -/
theorem parsePointCloudWithLayout_within (hl : layout.Known) :
    Within len (parsePointCloudWithLayout fp data len config layout result) := by
  have hheader : layout.timestampAt + 8 ≤ layout.posnumAt ∧ layout.totalAt + 4 ≤ layout.posnumAt ∧
      layout.indexAt + 4 ≤ layout.posnumAt ∧ layout.fixedLen = layout.posAt + 28 * 50 + 2 := by
    rcases hl with rfl | rfl <;> decide
  obtain ⟨htimestamp, htotal, hindex, hfixed⟩ := hheader
  unfold parsePointCloudWithLayout
  refine within_ite (fun _ => within_pure) (fun hlen => ?_)
  refine within_bind (within_readU16LE (by omega)) ?_
  generalize (data.readU16LE layout.posnumAt).value = posNum
  refine within_ite (fun _ => within_pure) (fun _ => ?_)
  refine within_ite (fun _ => within_pure) (fun hmax => ?_)
  have hposNum : posNum.toNat ≤ 50 := UInt16.le_iff_toNat_le.mp (UInt16.not_lt.mp hmax)
  cases htail : layout.tailAt len posNum with
  | none => exact within_pure
  | some tailAt =>
    obtain ⟨hlength, rfl⟩ := CloudLayout.tailAt_eq_some.mp htail
    have hpoints : layout.posAt + 28 * posNum.toNat + 2 ≤ len := by
      rcases hlength with rfl | rfl
      · exact le_refl _
      · omega
    refine within_bind (within_readU16LE (by omega)) ?_
    refine within_ite (fun _ => within_pure) (fun _ => ?_)
    refine within_bind (within_readU64LE (by omega)) (within_bind (within_readU32LE (by omega))
      (within_bind (within_readU32LE (by omega)) ?_))
    refine within_ite (fun _ => within_pure) (fun _ => ?_)
    refine within_bind (decodePoints_within (n := posNum.toNat) (by omega) _
      (fun i hi => List.mem_range.mp hi)) ?_
    split <;> exact within_pure

/-- **The whole parser**, which reads nothing behind a null pointer. -/
theorem parsePointCloudPacket_within :
    Within (if data.isNone then 0 else len) (parsePointCloudPacket fp data len config) := by
  unfold parsePointCloudPacket
  refine within_ite (fun _ => within_pure) (fun _ => ?_)
  refine within_ite (fun _ => within_pure) (fun hdata => ?_)
  obtain ⟨hsome, hlen⟩ := not_or.mp hdata
  rw [if_neg hsome]
  refine within_bind (within_readU16LE (by omega)) ?_
  refine within_ite (fun _ => within_pure) (fun _ => ?_)
  refine within_bind (parsePointCloudWithLayout_within (.inl rfl)) ?_
  refine within_ite (fun _ => within_pure) (fun _ => ?_)
  refine within_bind (parsePointCloudWithLayout_within (.inr rfl)) ?_
  exact within_ite (fun _ => within_pure) (fun _ => within_pure)

end bounds

end Buffer

end HypertronBridge.Lidar
