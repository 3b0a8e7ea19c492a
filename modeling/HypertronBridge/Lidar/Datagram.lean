import HypertronBridge.Lib.Binary64
import HypertronBridge.Lib.Bytes
import HypertronBridge.Lidar.Assembler

namespace HypertronBridge.Lidar

open Bytes

/-!
# The point-cloud parser (`ParsePointCloudPacket`, `lidar_stream.cpp`)

A datagram has a head marker, a header in one of two layouts, up to 50 points of 28 bytes, and a tail
marker after the points or after the place of 50 points.  The parser tries the packed header first.

* `readU16LE`, `readU32LE`, `readU64LE` — the explicit reads, and the bytes that they read;
* `DoubleArithmetic` — the arithmetic of `double` that scales the coordinates, left open;
* `parsePointCloudWithLayout`, `parsePointCloudPacket` — the parser;
* `Accepted`, `parsePointCloudWithLayout_iff` — what one layout accepts;
* `parsePointCloudPacket_parsed` — what is promised of a parsed packet.
-/

/-! ### Little-endian reads -/

/-- `p[i]`. -/
def byteAt (data : List UInt8) (i : Nat) : UInt8 := data.getD i 0

/-- `ReadU16LE`. -/
def readU16LE (data : List UInt8) (p : Nat) : UInt16 :=
  ((byteAt data p).toUInt16 &&& (0xFF : UInt16)) ||| ((byteAt data (p + 1)).toUInt16 <<< (8 : UInt16))

/-- `ReadU32LE`. -/
def readU32LE (data : List UInt8) (p : Nat) : UInt32 :=
  let low (i : Nat) : UInt32 := (byteAt data (p + i)).toUInt32 &&& (0xFF : UInt32)
  low 0 ||| (low 1 <<< (8 : UInt32)) ||| (low 2 <<< (16 : UInt32)) ||| (low 3 <<< (24 : UInt32))

/-- `ReadU64LE`. -/
def readU64LE (data : List UInt8) (p : Nat) : UInt64 :=
  let lo := (readU32LE data p).toUInt64
  let hi := (readU32LE data (p + 4)).toUInt64
  lo ||| hi <<< 32

/-- `ReadI32LE`. -/
def readI32LE (data : List UInt8) (p : Nat) : Int32 := (readU32LE data p).toInt32

section reads

variable {data : List UInt8} {p : Nat}

/-- A byte's number is its low eight bits. -/
theorem and_255 (b : UInt8) : b.toNat &&& 255 = b.toNat :=
  Nat.and_two_pow_sub_one_of_lt_two_pow (n := 8) b.toNat_lt

/-- What lies above the bits of a number is added to it. -/
theorem or_shiftLeft {a : Nat} (b k : Nat) (ha : a < 2 ^ k) : a ||| b <<< k = a + 2 ^ k * b :=
  calc a ||| b <<< k = b <<< k + a := by rw [Nat.shiftLeft_add_eq_or_of_lt ha, Nat.or_comm]
    _ = a + 2 ^ k * b := by rw [Nat.shiftLeft_eq, Nat.add_comm, Nat.mul_comm b]

/-- The byte at a position is the first one of what starts there. -/
theorem slice_byteAt {n : Nat} (h : p < data.length) :
    slice p (n + 1) data = byteAt data p :: slice (p + 1) n data := by
  refine slice_succ ?_
  rw [byteAt, List.getD_eq_getElem?_getD, List.getElem?_eq_getElem h, Option.getD_some]

theorem readU16LE_toNat (h : p + 2 ≤ data.length) :
    (readU16LE data p).toNat = value (slice p 2 data) := by
  rw [slice_byteAt (by omega), slice_byteAt (by omega), slice_zero]
  have h0 := (byteAt data p).toNat_lt
  have h1 := (byteAt data (p + 1)).toNat_lt
  simp only [readU16LE, UInt16.toNat_or, UInt16.toNat_and, UInt16.toNat_shiftLeft,
    UInt8.toNat_toUInt16, UInt16.reduceToNat, Nat.reduceMod, and_255, value]
  rw [Nat.mod_eq_of_lt (by rw [Nat.shiftLeft_eq]; omega), or_shiftLeft _ 8 h0]
  omega

theorem readU32LE_toNat (h : p + 4 ≤ data.length) :
    (readU32LE data p).toNat = value (slice p 4 data) := by
  have hbytes : slice p 4 data =
      [byteAt data p, byteAt data (p + 1), byteAt data (p + 2), byteAt data (p + 3)] := by
    rw [slice_byteAt (by omega), slice_byteAt (by omega), slice_byteAt (by omega),
      slice_byteAt (by omega), slice_zero]
  rw [hbytes]
  have h0 := (byteAt data p).toNat_lt
  have h1 := (byteAt data (p + 1)).toNat_lt
  have h2 := (byteAt data (p + 2)).toNat_lt
  have h3 := (byteAt data (p + 3)).toNat_lt
  simp only [readU32LE, UInt32.toNat_or, UInt32.toNat_and, UInt32.toNat_shiftLeft,
    UInt8.toNat_toUInt32, UInt32.reduceToNat, Nat.reduceMod, Nat.add_zero, and_255, value]
  rw [Nat.mod_eq_of_lt (by rw [Nat.shiftLeft_eq]; omega),
    Nat.mod_eq_of_lt (by rw [Nat.shiftLeft_eq]; omega),
    Nat.mod_eq_of_lt (by rw [Nat.shiftLeft_eq]; omega), or_shiftLeft _ 8 h0,
    or_shiftLeft _ 16 (by omega), or_shiftLeft _ 24 (by omega)]
  omega

theorem readU64LE_toNat (h : p + 8 ≤ data.length) :
    (readU64LE data p).toNat = value (slice p 8 data) := by
  have hlo : (readU32LE data p).toNat = value (slice p 4 data) := readU32LE_toNat (by omega)
  have hhi : (readU32LE data (p + 4)).toNat = value (slice (p + 4) 4 data) :=
    readU32LE_toNat (by omega)
  have h0 := (readU32LE data p).toNat_lt
  have h1 := (readU32LE data (p + 4)).toNat_lt
  have hlength : (slice p 4 data).length = 4 := length_slice (by omega)
  rw [← slice_add (m := 4) (n := 4), value_append, hlength, ← hlo, ← hhi]
  simp only [readU64LE, UInt64.toNat_or, UInt64.toNat_shiftLeft, UInt32.toNat_toUInt64,
    UInt64.reduceToNat, Nat.reduceMod]
  rw [Nat.mod_eq_of_lt (by rw [Nat.shiftLeft_eq]; omega), or_shiftLeft _ 32 h0]
  omega

/-- **What a read tells.** It returns a number if and only if the bytes there are the number's. -/
theorem readU16LE_eq_iff {v : UInt16} (h : p + 2 ≤ data.length) :
    readU16LE data p = v ↔ slice p 2 data = ofValue 2 v.toNat := by
  rw [← UInt16.toNat_inj, readU16LE_toNat h]
  exact value_eq_iff (length_slice h) v.toNat_lt

theorem readU32LE_eq_iff {v : UInt32} (h : p + 4 ≤ data.length) :
    readU32LE data p = v ↔ slice p 4 data = ofValue 4 v.toNat := by
  rw [← UInt32.toNat_inj, readU32LE_toNat h]
  exact value_eq_iff (length_slice h) v.toNat_lt

theorem readU64LE_eq_iff {v : UInt64} (h : p + 8 ≤ data.length) :
    readU64LE data p = v ↔ slice p 8 data = ofValue 8 v.toNat := by
  rw [← UInt64.toNat_inj, readU64LE_toNat h]
  exact value_eq_iff (length_slice h) v.toNat_lt

end reads

/-! ### Configuration -/

/-- The arithmetic that the parser uses: it is that of the processor. -/
structure DoubleArithmetic where
  /-- `static_cast<double>(n) * scale`. -/
  scaled : Int32 → Binary64 → Binary64
  /-- `static_cast<float>(x)`. -/
  toFloat : Binary64 → Binary32

/-- The coefficients of `LidarParseConfig`. -/
structure LidarParseConfig where
  /-- `1e-3`. -/
  pointPositionScale : Binary64 := .positive 0x3F5 0x0624DD2F1A9FC
  /-- `1e-6`. -/
  odomPositionScale : Binary64 := .positive 0x3EB 0x0C6F7A0B5ED8D
  odomQuaternionScale : Binary64 := .one

/-- `IsFinitePositive`. -/
def isFinitePositive (v : Binary64) : Bool := v.isFinite && Binary64.zero.lt v

/-- `ValidateScales`. -/
def validateScales (config : LidarParseConfig) : Bool :=
  isFinitePositive config.pointPositionScale && isFinitePositive config.odomPositionScale &&
    isFinitePositive config.odomQuaternionScale &&
    config.pointPositionScale.abs.le .billion && config.odomPositionScale.abs.le .billion &&
    config.odomQuaternionScale.abs.le .billion

example : validateScales {} = true := by decide +kernel

/-- `kHeadMarker`. -/
def headMarker : UInt16 := 0xAA55

/-- `kTailMarker`. -/
def tailMarker : UInt16 := 0xFF00

/-- `kMaxPosNum`. -/
def maxPosNum : UInt16 := 50

/-- `kPointBytes`. -/
def pointBytes : Nat := 28

/-- `CloudLayout`: where the fields of the header are, and the length with the fixed tail. -/
structure CloudLayout where
  timestampAt : Nat
  totalAt : Nat
  indexAt : Nat
  posnumAt : Nat
  posAt : Nat
  fixedLen : Nat
deriving DecidableEq

/-- `kPackedCloud`. -/
def packedCloud : CloudLayout := ⟨2, 10, 14, 18, 20, 20 + 28 * 50 + 2⟩

/-- `kAlignedCloud`. -/
def alignedCloud : CloudLayout := ⟨8, 16, 20, 24, 28, 28 + 28 * 50 + 2⟩

/-! ### The parser -/

section parser

variable (fp : DoubleArithmetic) (data : List UInt8) (config : LidarParseConfig)

/-- `MakeReason`. -/
def makeReason (what : String) : String := "lidar parse failure: " ++ what

/-- A failure, with its reason. -/
def PointCloudPacketResult.fail (what : String) (result : PointCloudPacketResult) :
    Bool × PointCloudPacketResult := (false, { result with reason := makeReason what })

/-- One point, unless a coordinate is not finite. -/
def decodePoint (p : Nat) : Option LidarPoint :=
  let x := fp.scaled (readI32LE data p) config.pointPositionScale
  let y := fp.scaled (readI32LE data (p + 4)) config.pointPositionScale
  let z := fp.scaled (readI32LE data (p + 8)) config.pointPositionScale
  if !x.isFinite || !y.isFinite || !z.isFinite then none
  else
    some {
      x := fp.toFloat x
      y := fp.toFloat y
      z := fp.toFloat z
      rgba := readU32LE data (p + 12)
      rgbaChannels := #v[readU32LE data (p + 12), readU32LE data (p + 16), readU32LE data (p + 20),
        readU32LE data (p + 24)] }

/-- The points, up to the first one that fails. -/
def decodePoints (layout : CloudLayout) (posNum : UInt16) : Option (List LidarPoint) :=
  (List.range posNum.toNat).mapM (fun i => decodePoint fp data config (layout.posAt + i * pointBytes))

/-- `dynamic_len`. -/
def CloudLayout.dynamicLen (layout : CloudLayout) (posNum : UInt16) : Nat :=
  layout.posAt + pointBytes * posNum.toNat + 2

/-- `tail_at`: after the points, or after the place of 50 points. -/
def CloudLayout.tailAt (layout : CloudLayout) (len : Nat) (posNum : UInt16) : Option Nat :=
  if len = layout.dynamicLen posNum then some (layout.posAt + pointBytes * posNum.toNat)
  else if len = layout.fixedLen then some (layout.fixedLen - 2)
  else none

/-- `ParsePointCloudWithLayout`: whether it succeeds, and what it leaves in the result. -/
def parsePointCloudWithLayout (layout : CloudLayout) (result : PointCloudPacketResult) :
    Bool × PointCloudPacketResult :=
  if data.length < layout.posnumAt + 2 then result.fail "datagram too short for header"
  else
    let posNum := readU16LE data layout.posnumAt
    if posNum = 0 then result.fail "pos_num is zero"
    else if maxPosNum < posNum then result.fail "pos_num exceeds the 50-point bound"
    else
      match layout.tailAt data.length posNum with
      | none => result.fail "datagram length matches no valid tail"
      | some tailAt =>
          if readU16LE data tailAt ≠ tailMarker then result.fail "tail marker is not 0xFF00"
          else
            let result : PointCloudPacketResult := { result with
              timestampNs := readU64LE data layout.timestampAt
              total := (readU32LE data layout.totalAt).toUInt64
              index := readU32LE data layout.indexAt
              posNum }
            if result.total = 0 then result.fail "total point count is zero"
            else
              match decodePoints fp data config layout posNum with
              | none => result.fail "point coordinate scaled to non-finite"
              | some points => (true, { result with points, ok := true })

/-- `ParsePointCloudPacket`; a missing buffer is an empty one. -/
def parsePointCloudPacket : PointCloudPacketResult :=
  let result : PointCloudPacketResult := {}
  if !validateScales config then (result.fail "invalid scale coefficients").2
  else if data.length < 2 then (result.fail "datagram too short").2
  else if readU16LE data 0 ≠ headMarker then (result.fail "head marker is not 0xAA55").2
  else
    let (parsed, result) := parsePointCloudWithLayout fp data config packedCloud result
    if parsed then result
    else
      let packedReason := result.reason
      let (parsed, result) := parsePointCloudWithLayout fp data config alignedCloud result
      if parsed then result
      else
        { result with
          reason := if packedReason.isEmpty then result.reason else packedReason
          ok := false }

end parser

/-! ### What is accepted -/

section accepted

variable {fp : DoubleArithmetic} {data : List UInt8} {config : LidarParseConfig} {layout : CloudLayout}
  {result r : PointCloudPacketResult} {points : List LidarPoint}

/-- What a layout accepts: the header, the length of one of the two tails, the marker at the end, a
    total, and the points. -/
structure Accepted (fp : DoubleArithmetic) (data : List UInt8) (config : LidarParseConfig)
    (layout : CloudLayout) (points : List LidarPoint) : Prop where
  header : layout.posnumAt + 2 ≤ data.length
  posNum_pos : readU16LE data layout.posnumAt ≠ 0
  posNum_le : readU16LE data layout.posnumAt ≤ maxPosNum
  length : data.length = layout.dynamicLen (readU16LE data layout.posnumAt) ∨
    data.length = layout.fixedLen
  tail : readU16LE data (data.length - 2) = tailMarker
  total : readU32LE data layout.totalAt ≠ 0
  points : decodePoints fp data config layout (readU16LE data layout.posnumAt) = some points

/-- What a layout leaves in the result. -/
def filled (data : List UInt8) (layout : CloudLayout) (points : List LidarPoint)
    (result : PointCloudPacketResult) : PointCloudPacketResult :=
  { result with
    ok := true
    timestampNs := readU64LE data layout.timestampAt
    total := (readU32LE data layout.totalAt).toUInt64
    index := readU32LE data layout.indexAt
    posNum := readU16LE data layout.posnumAt
    points }

/-- Either tail marker is at the end. -/
theorem CloudLayout.tailAt_eq_some {len tail : Nat} {posNum : UInt16} :
    layout.tailAt len posNum = some tail ↔
      (len = layout.dynamicLen posNum ∨ len = layout.fixedLen) ∧ tail = len - 2 := by
  unfold tailAt dynamicLen
  split_ifs with hdynamic hfixed
  · rw [Option.some.injEq]
    omega
  · rw [Option.some.injEq]
    omega
  · simp [hdynamic, hfixed]

/-- **One layout.** It succeeds if and only if it accepts the datagram, and then fills in the result. -/
theorem parsePointCloudWithLayout_iff :
    parsePointCloudWithLayout fp data config layout result = (true, r) ↔
      ∃ points, Accepted fp data config layout points ∧ r = filled data layout points result := by
  have hfail : ∀ (what : String) (result : PointCloudPacketResult), result.fail what ≠ (true, r) :=
    fun _ _ h => absurd (congrArg Prod.fst h) (by simp [PointCloudPacketResult.fail])
  have htotal : (readU32LE data layout.totalAt).toUInt64 = 0 ↔ readU32LE data layout.totalAt = 0 := by
    rw [← UInt64.toNat_inj, ← UInt32.toNat_inj, UInt32.toNat_toUInt64]
    rfl
  unfold parsePointCloudWithLayout
  dsimp only
  constructor
  · -- each check that fails returns false
    intro h
    cases htail : layout.tailAt data.length (readU16LE data layout.posnumAt) with
    | none =>
      rw [htail] at h
      split_ifs at h
      all_goals exact absurd h (hfail _ _)
    | some tail =>
      obtain ⟨hlength, rfl⟩ := CloudLayout.tailAt_eq_some.mp htail
      rw [htail] at h
      cases hpoints : decodePoints fp data config layout (readU16LE data layout.posnumAt) with
      | none =>
        rw [hpoints] at h
        dsimp only at h
        split_ifs at h
        all_goals exact absurd h (hfail _ _)
      | some points =>
        rw [hpoints] at h
        dsimp only at h
        split_ifs at h with hheader hzero hmax hmarker hnone
        iterate 5 exact absurd h (hfail _ _)
        refine ⟨points, ⟨Nat.le_of_not_lt hheader, hzero, UInt16.not_lt.mp hmax, hlength,
          not_not.mp hmarker, fun h => hnone (htotal.mpr h), hpoints⟩, ?_⟩
        exact (Prod.ext_iff.mp h).2.symm
  · -- each check passes
    rintro ⟨points, hacc, rfl⟩
    rw [if_neg (Nat.not_lt.mpr hacc.header), if_neg hacc.posNum_pos,
      if_neg (UInt16.not_lt.mpr hacc.posNum_le), CloudLayout.tailAt_eq_some.mpr ⟨hacc.length, rfl⟩]
    dsimp only
    rw [if_neg (not_not.mpr hacc.tail), if_neg (fun h => hacc.total (htotal.mp h)), hacc.points]
    rfl

/-- The layouts of the parser. -/
def CloudLayout.Known (layout : CloudLayout) : Prop := layout = packedCloud ∨ layout = alignedCloud

/-- **No datagram is read in both layouts.** Its length is a number of points away from that of one
    header and marker only. -/
theorem Accepted.unique {layout' : CloudLayout} {points' : List LidarPoint}
    (h : Accepted fp data config layout points) (h' : Accepted fp data config layout' points')
    (hl : layout.Known) (hl' : layout'.Known) : layout = layout' := by
  have hlen : ∀ {layout : CloudLayout} {points : List LidarPoint}, layout.Known →
      Accepted fp data config layout points → ∃ n, data.length = layout.posAt + 28 * n + 2 := by
    intro layout points hl h
    rcases h.length with hlength | hlength
    · exact ⟨_, hlength⟩
    · refine ⟨50, ?_⟩
      rcases hl with rfl | rfl <;> exact hlength
  obtain ⟨n, hn⟩ := hlen hl h
  obtain ⟨n', hn'⟩ := hlen hl' h'
  rcases hl with rfl | rfl <;> rcases hl' with rfl | rfl
  · rfl
  · simp only [packedCloud, alignedCloud] at hn hn'
    omega
  · simp only [packedCloud, alignedCloud] at hn hn'
    omega
  · rfl

/-- What a layout does not accept, it does not read. -/
theorem parsePointCloudWithLayout_false (h : ∀ points, ¬ Accepted fp data config layout points) :
    (parsePointCloudWithLayout fp data config layout result).1 = false := by
  by_contra hok
  obtain ⟨points, hacc, -⟩ := parsePointCloudWithLayout_iff.mp
    (Prod.ext (by simpa using hok) rfl : parsePointCloudWithLayout fp data config layout result =
      (true, (parsePointCloudWithLayout fp data config layout result).2))
  exact h points hacc

/-- A datagram that a layout accepts. -/
theorem Accepted.parse (h : Accepted fp data config layout points) (hl : layout.Known)
    (hscales : validateScales config = true) (hlen : 2 ≤ data.length)
    (hhead : readU16LE data 0 = headMarker) :
    ∃ result, parsePointCloudPacket fp data config = filled data layout points result := by
  have hread : ∀ result, parsePointCloudWithLayout fp data config layout result =
      (true, filled data layout points result) :=
    fun result => parsePointCloudWithLayout_iff.mpr ⟨points, h, rfl⟩
  unfold parsePointCloudPacket
  dsimp only
  rw [hscales, Bool.not_true, if_neg Bool.false_ne_true, if_neg (Nat.not_lt.mpr hlen),
    if_neg (not_not.mpr hhead)]
  rcases hl with rfl | rfl
  · rw [hread, if_pos rfl]
    exact ⟨_, rfl⟩
  · -- the packed header is tried first, and does not accept the datagram
    have hpacked : (parsePointCloudWithLayout fp data config packedCloud {}).1 = false :=
      parsePointCloudWithLayout_false
        (fun points' h' => absurd (h.unique h' (.inr rfl) (.inl rfl)) (by decide))
    rw [hpacked, if_neg Bool.false_ne_true, hread, if_pos rfl]
    exact ⟨_, rfl⟩

/-- **What is accepted.** -/
theorem parsePointCloudPacket_ok (hok : (parsePointCloudPacket fp data config).ok = true) :
    validateScales config = true ∧ 2 ≤ data.length ∧ readU16LE data 0 = headMarker ∧
      ∃ layout points, layout.Known ∧ Accepted fp data config layout points := by
  have hno : ∀ {layout : CloudLayout} {result : PointCloudPacketResult},
      (¬ ∃ layout points, layout.Known ∧ Accepted fp data config layout points) → layout.Known →
      (parsePointCloudWithLayout fp data config layout result).1 = false :=
    fun h hl => parsePointCloudWithLayout_false (fun points hacc => h ⟨_, points, hl, hacc⟩)
  unfold parsePointCloudPacket at hok
  dsimp only at hok
  split_ifs at hok with hscales hlen hhead
  iterate 3 exact absurd hok (by simp [PointCloudPacketResult.fail])
  all_goals
    refine ⟨by simpa using hscales, Nat.le_of_not_lt hlen, not_not.mp hhead, ?_⟩
    by_contra hnot
  · rename_i hpacked
    rw [hno hnot (.inl rfl)] at hpacked
    exact absurd hpacked Bool.false_ne_true
  · rename_i haligned
    rw [hno hnot (.inr rfl)] at haligned
    exact absurd haligned Bool.false_ne_true

/-! ### What is promised of a parsed packet -/

/-- No coordinate is a NaN. -/
def LidarPoint.IsNumber (point : LidarPoint) : Prop :=
  point.x.isNaN = false ∧ point.y.isNaN = false ∧ point.z.isNaN = false

instance (point : LidarPoint) : Decidable point.IsNumber := inferInstanceAs (Decidable (_ ∧ _))

/-- A packet as the parser returns it: 1 to 50 points with numbers for coordinates. -/
structure PointCloudPacketResult.Parsed (packet : PointCloudPacketResult) : Prop where
  ok : packet.ok = true
  points_pos : 1 ≤ packet.points.length
  points_le : packet.points.length ≤ 50
  numbers : ∀ point ∈ packet.points, point.IsNumber

/-- What `mapM` collects. -/
theorem mapM_eq_some {α β : Type} {f : α → Option β} {l : List α} {ys : List β}
    (h : l.mapM f = some ys) : ys.length = l.length ∧ ∀ y ∈ ys, ∃ x ∈ l, f x = some y := by
  induction l generalizing ys with
  | nil =>
    rw [List.mapM_nil] at h
    obtain rfl := Option.some.inj h
    simp
  | cons x l ih =>
    rw [List.mapM_cons] at h
    obtain ⟨y, hy, h⟩ := Option.bind_eq_some_iff.mp h
    obtain ⟨ys', hys', h⟩ := Option.bind_eq_some_iff.mp h
    obtain rfl := Option.some.inj h
    obtain ⟨hlength, hmem⟩ := ih hys'
    refine ⟨by rw [List.length_cons, List.length_cons, hlength], ?_⟩
    intro z hz
    rcases List.mem_cons.mp hz with rfl | hz
    · exact ⟨x, List.mem_cons_self, hy⟩
    · obtain ⟨x', hx', hf⟩ := hmem z hz
      exact ⟨x', List.mem_cons_of_mem _ hx', hf⟩

/-- A decoded point has numbers for coordinates, where a finite `double` has one for a `float`. -/
theorem decodePoint_isNumber (hfloat : ∀ x, x.isFinite = true → (fp.toFloat x).isNaN = false) {p : Nat}
    {point : LidarPoint} (h : decodePoint fp data config p = some point) : point.IsNumber := by
  unfold decodePoint at h
  dsimp only at h
  split_ifs at h with hnot
  simp only [Bool.or_eq_true, Bool.not_eq_true', not_or, Bool.not_eq_false] at hnot
  obtain ⟨⟨hx, hy⟩, hz⟩ := hnot
  obtain rfl := Option.some.inj h
  exact ⟨hfloat _ hx, hfloat _ hy, hfloat _ hz⟩

/-- The points of an accepted datagram. -/
theorem parsePointCloudPacket_points (hok : (parsePointCloudPacket fp data config).ok = true) :
    (1 ≤ (parsePointCloudPacket fp data config).points.length ∧
      (parsePointCloudPacket fp data config).points.length ≤ 50) ∧
    ∀ point ∈ (parsePointCloudPacket fp data config).points,
      ∃ p, decodePoint fp data config p = some point := by
  obtain ⟨hscales, hlen, hhead, layout, points, hl, hacc⟩ := parsePointCloudPacket_ok hok
  obtain ⟨result, hresult⟩ := hacc.parse hl hscales hlen hhead
  obtain ⟨hlength, hmem⟩ := mapM_eq_some hacc.points
  rw [List.length_range] at hlength
  have hpos : (readU16LE data layout.posnumAt).toNat ≠ 0 :=
    fun h => hacc.posNum_pos (UInt16.toNat_inj.mp h)
  have hle : (readU16LE data layout.posnumAt).toNat ≤ 50 := UInt16.le_iff_toNat_le.mp hacc.posNum_le
  rw [hresult]
  refine ⟨⟨?_, ?_⟩, fun point hpoint => ?_⟩
  · show 1 ≤ points.length
    omega
  · show points.length ≤ 50
    omega
  · obtain ⟨i, -, hi⟩ := hmem point hpoint
    exact ⟨_, hi⟩

/-- **Parsed packets.** -/
theorem parsePointCloudPacket_parsed
    (hfloat : ∀ x, x.isFinite = true → (fp.toFloat x).isNaN = false)
    (hok : (parsePointCloudPacket fp data config).ok = true) :
    (parsePointCloudPacket fp data config).Parsed := by
  obtain ⟨⟨hpos, hle⟩, hmem⟩ := parsePointCloudPacket_points hok
  refine ⟨hok, hpos, hle, fun point hpoint => ?_⟩
  obtain ⟨p, hp⟩ := hmem point hpoint
  exact decodePoint_isNumber hfloat hp

/-- `==` finds the packet's points equal to themselves; with a NaN among the coordinates it does not. -/
def PointCloudPacketResult.EqualsItself (packet : PointCloudPacketResult) : Prop :=
  (packet.points == packet.points) = true

/-- A packet of numbers equals its copy. -/
theorem PointCloudPacketResult.Parsed.equalsItself {packet : PointCloudPacketResult} (h : packet.Parsed) :
    packet.EqualsItself := by
  have heq : ∀ x : Binary32, x.isNaN = false → x.eq x = true := by
    intro x hx
    simp [Binary32.eq, Binary32.ne, hx]
  have hpoint : ∀ point : LidarPoint, point.IsNumber → (point == point) = true := by
    rintro point ⟨hx, hy, hz⟩
    show (point.x.eq point.x && point.y.eq point.y && point.z.eq point.z && point.rgba == point.rgba &&
      point.rgbaChannels == point.rgbaChannels) = true
    simp [heq _ hx, heq _ hy, heq _ hz]
  have hlist : ∀ l : List LidarPoint, (∀ point ∈ l, point.IsNumber) → (l == l) = true := by
    intro l hl
    induction l with
    | nil => rfl
    | cons point l ih =>
      obtain ⟨hhead, htail⟩ := List.forall_mem_cons.mp hl
      rw [List.cons_beq_cons, hpoint point hhead, ih htail]
      rfl
  exact hlist _ h.numbers

end accepted

end HypertronBridge.Lidar
