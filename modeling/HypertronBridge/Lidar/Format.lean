import HypertronBridge.Lidar.Datagram

namespace HypertronBridge.Lidar

open Bytes

/-!
# The format of point-cloud datagrams

What a sender writes, in each of the two layouts and with each of the two tails, and that the parser
reads exactly this.

* `CloudDatagram`, `encode` — a datagram, its padding left open, and its bytes;
* `Reads`, `reads_iff` — the fields as they are read in a layout, and that these are the encodings;
* `Reads.accepted`, `Accepted.reads` — the parser accepts what is read so;
* `cloud_datagram_format` — the result.
-/

/-! ### What is sent -/

/-- A point: fixed-point coordinates and four channels. -/
@[ext] structure RawPoint where
  x : Int32
  y : Int32
  z : Int32
  r : UInt32
  g : UInt32
  b : UInt32
  a : UInt32

/-- The 28 bytes of a point. -/
def RawPoint.bytes (point : RawPoint) : List UInt8 :=
  [ofValue 4 point.x.toUInt32.toNat, ofValue 4 point.y.toUInt32.toNat,
    ofValue 4 point.z.toUInt32.toNat, ofValue 4 point.r.toNat, ofValue 4 point.g.toNat,
    ofValue 4 point.b.toNat, ofValue 4 point.a.toNat].flatten

theorem RawPoint.length_bytes (point : RawPoint) : point.bytes.length = pointBytes := by
  simp [bytes, pointBytes]

/-- The point that is made of it. -/
def RawPoint.scaled (fp : DoubleArithmetic) (config : LidarParseConfig) (point : RawPoint) :
    LidarPoint where
  x := fp.toFloat (fp.scaled point.x config.pointPositionScale)
  y := fp.toFloat (fp.scaled point.y config.pointPositionScale)
  z := fp.toFloat (fp.scaled point.z config.pointPositionScale)
  rgba := point.r
  rgbaChannels := #v[point.r, point.g, point.b, point.a]

/-- The packed header, or the one aligned to its types. -/
inductive HeaderStyle
  | packed
  | aligned
deriving DecidableEq

/-- A marker after the points, or after the place of 50 points. -/
inductive TailStyle
  | dynamic
  | fixed50
deriving DecidableEq

def HeaderStyle.layout : HeaderStyle → CloudLayout
  | .packed => packedCloud
  | .aligned => alignedCloud

/-- The fields of a datagram. -/
@[ext] structure CloudFields where
  timestampNs : UInt64
  total : UInt32
  index : UInt32
  points : List RawPoint
  total_ne : total ≠ 0
  points_pos : 1 ≤ points.length
  points_le : points.length ≤ 50

/-- A datagram: its fields, and bytes without a meaning between them. -/
structure CloudDatagram where
  header : HeaderStyle
  tail : TailStyle
  fields : CloudFields
  beforeTimestamp : List UInt8
  beforePoints : List UInt8
  beforeTail : List UInt8
  beforeTimestamp_length : beforeTimestamp.length = header.layout.timestampAt - 2
  beforePoints_length : beforePoints.length = header.layout.posAt - (header.layout.posnumAt + 2)
  beforeTail_length : beforeTail.length =
    match tail with
    | .dynamic => 0
    | .fixed50 => 28 * (50 - fields.points.length)

/-- The bytes of a datagram. -/
def CloudDatagram.encode (d : CloudDatagram) : List UInt8 :=
  [ofValue 2 headMarker.toNat, d.beforeTimestamp, ofValue 8 d.fields.timestampNs.toNat,
    ofValue 4 d.fields.total.toNat, ofValue 4 d.fields.index.toNat, ofValue 2 d.fields.points.length,
    d.beforePoints, d.fields.points.flatMap RawPoint.bytes, d.beforeTail,
    ofValue 2 tailMarker.toNat].flatten

/-! ### What is read -/

variable {fp : DoubleArithmetic} {config : LidarParseConfig} {data : List UInt8} {p n : Nat}
  {point : RawPoint} {points : List RawPoint} {header header' : HeaderStyle} {f f' : CloudFields}

/-- The point at a position. -/
def readPoint (data : List UInt8) (p : Nat) : RawPoint where
  x := readI32LE data p
  y := readI32LE data (p + 4)
  z := readI32LE data (p + 8)
  r := readU32LE data (p + 12)
  g := readU32LE data (p + 16)
  b := readU32LE data (p + 20)
  a := readU32LE data (p + 24)

/-- The points from a position on. -/
def readPoints (data : List UInt8) (p n : Nat) : List RawPoint :=
  (List.range n).map (fun i => readPoint data (p + i * pointBytes))

theorem readI32LE_eq_iff {v : Int32} (h : p + 4 ≤ data.length) :
    readI32LE data p = v ↔ slice p 4 data = ofValue 4 v.toUInt32.toNat := by
  rw [← readU32LE_eq_iff h, readI32LE]
  constructor
  · rintro rfl
    rw [UInt32.toUInt32_toInt32]
  · intro hread
    rw [hread, Int32.toInt32_toUInt32]

/-- **Reading a point.** -/
theorem readPoint_eq_iff (h : p + pointBytes ≤ data.length) :
    readPoint data p = point ↔ slice p pointBytes data = point.bytes := by
  have hpart : ∀ i, i + 4 ≤ 28 → slice i 4 (slice p 28 data) = slice (p + i) 4 data :=
    fun i hi => slice_slice hi
  unfold pointBytes at h ⊢
  rw [RawPoint.ext_iff, eq_comm (b := point.bytes), RawPoint.bytes, flatten_eq_iff]
  simp only [Fits, length_ofValue, readPoint]
  rw [hpart _ (by omega), hpart _ (by omega), hpart _ (by omega), hpart _ (by omega),
    hpart _ (by omega), hpart _ (by omega), hpart _ (by omega), length_slice h,
    readI32LE_eq_iff (by omega), readI32LE_eq_iff (by omega), readI32LE_eq_iff (by omega),
    readU32LE_eq_iff (by omega), readU32LE_eq_iff (by omega), readU32LE_eq_iff (by omega),
    readU32LE_eq_iff (by omega)]
  simp

/-- **Reading the points.** -/
theorem readPoints_eq_iff (h : p + n * pointBytes ≤ data.length) :
    readPoints data p n = points ↔
      points.length = n ∧ slice p (n * pointBytes) data = points.flatMap RawPoint.bytes := by
  have hfits : ∀ {i}, i < n → p + i * pointBytes + pointBytes ≤ data.length := by
    intro i hi
    have hle := Nat.mul_le_mul_right pointBytes (show i + 1 ≤ n from hi)
    rw [Nat.succ_mul] at hle
    omega
  constructor
  · rintro rfl
    refine ⟨by rw [readPoints, List.length_map, List.length_range], ?_⟩
    rw [readPoints, List.flatMap_map, ← flatMap_slice]
    refine List.flatMap_congr (fun i hi => ?_)
    exact (readPoint_eq_iff (hfits (List.mem_range.mp hi))).mp rfl
  · rintro ⟨hlength, hslice⟩
    refine List.ext_getElem? (fun i => ?_)
    by_cases hi : i < n
    · rw [readPoints, List.getElem?_map, List.getElem?_range hi, Option.map_some]
      cases hpoint : points[i]? with
      | none => exact absurd (List.getElem?_eq_none_iff.mp hpoint) (by omega)
      | some point =>
        have hle := Nat.mul_le_mul_right pointBytes (show i + 1 ≤ n from hi)
        rw [Nat.succ_mul] at hle
        refine congrArg some ((readPoint_eq_iff (hfits hi)).mpr ?_)
        rw [← slice_slice hle, hslice]
        exact slice_flatMap RawPoint.length_bytes hpoint
    · have hread : (readPoints data p n).length = n := by
        rw [readPoints, List.length_map, List.length_range]
      rw [List.getElem?_eq_none (by omega), List.getElem?_eq_none (by omega)]

/-! ### The fields of a byte string -/

/-- The fields of a byte string in a layout. -/
structure Reads (header : HeaderStyle) (f : CloudFields) (data : List UInt8) : Prop where
  length : data.length = header.layout.posAt + 28 * f.points.length + 2 ∨
    data.length = header.layout.posAt + 28 * 50 + 2
  head : readU16LE data 0 = headMarker
  timestampNs : readU64LE data header.layout.timestampAt = f.timestampNs
  total : readU32LE data header.layout.totalAt = f.total
  index : readU32LE data header.layout.indexAt = f.index
  posNum : (readU16LE data header.layout.posnumAt).toNat = f.points.length
  points : readPoints data header.layout.posAt f.points.length = f.points
  tail : readU16LE data (data.length - 2) = tailMarker

/-- The order of the fields in a header. -/
theorem HeaderStyle.layout_spec (header : HeaderStyle) :
    2 ≤ header.layout.timestampAt ∧ header.layout.totalAt = header.layout.timestampAt + 8 ∧
      header.layout.indexAt = header.layout.totalAt + 4 ∧
      header.layout.posnumAt = header.layout.indexAt + 4 ∧
      header.layout.posnumAt + 2 ≤ header.layout.posAt ∧
      header.layout.fixedLen = header.layout.posAt + 28 * 50 + 2 := by
  cases header <;> decide

/-- **The fields have one value, in one layout.** -/
theorem Reads.unique (h : Reads header f data) (h' : Reads header' f' data) :
    header = header' ∧ f = f' := by
  -- the lengths of the two layouts differ by 8 at equal counts, and counts change them by 28
  have hheader : header = header' := by
    have hlen := h.length
    have hlen' := h'.length
    cases header <;> cases header' <;>
      simp only [HeaderStyle.layout, packedCloud, alignedCloud] at hlen hlen'
    · rfl
    · omega
    · omega
    · rfl
  subst hheader
  refine ⟨rfl, CloudFields.ext (h.timestampNs.symm.trans h'.timestampNs) (h.total.symm.trans h'.total)
    (h.index.symm.trans h'.index) ?_⟩
  have hlength : f.points.length = f'.points.length := h.posNum.symm.trans h'.posNum
  rw [← h.points, ← h'.points, hlength]

/-- **The parts of an encoding.** -/
theorem CloudDatagram.encode_eq_iff (d : CloudDatagram) :
    d.encode = data ↔
      slice 0 2 data = ofValue 2 headMarker.toNat ∧
      slice 2 (d.header.layout.timestampAt - 2) data = d.beforeTimestamp ∧
      slice d.header.layout.timestampAt 8 data = ofValue 8 d.fields.timestampNs.toNat ∧
      slice d.header.layout.totalAt 4 data = ofValue 4 d.fields.total.toNat ∧
      slice d.header.layout.indexAt 4 data = ofValue 4 d.fields.index.toNat ∧
      slice d.header.layout.posnumAt 2 data = ofValue 2 d.fields.points.length ∧
      slice (d.header.layout.posnumAt + 2) (d.header.layout.posAt - (d.header.layout.posnumAt + 2))
        data = d.beforePoints ∧
      slice d.header.layout.posAt (d.fields.points.length * pointBytes) data =
        d.fields.points.flatMap RawPoint.bytes ∧
      slice (d.header.layout.posAt + d.fields.points.length * pointBytes) d.beforeTail.length data =
        d.beforeTail ∧
      slice (d.header.layout.posAt + d.fields.points.length * pointBytes + d.beforeTail.length) 2 data =
        ofValue 2 tailMarker.toNat ∧
      data.length =
        d.header.layout.posAt + d.fields.points.length * pointBytes + d.beforeTail.length + 2 := by
  obtain ⟨hts, htotal, hindex, hposnum, hpos, -⟩ := d.header.layout_spec
  have hpoints : (d.fields.points.flatMap RawPoint.bytes).length =
      d.fields.points.length * pointBytes := by
    rw [List.length_flatMap]
    simp [RawPoint.length_bytes]
  have hbeforeTimestamp := d.beforeTimestamp_length
  have hbeforePoints := d.beforePoints_length
  have hts' : 0 + 2 + d.beforeTimestamp.length = d.header.layout.timestampAt := by omega
  have hpos' : d.header.layout.posnumAt + 2 + d.beforePoints.length = d.header.layout.posAt := by omega
  rw [encode, flatten_eq_iff]
  simp only [Fits, length_ofValue, hpoints]
  rw [hts', ← htotal, ← hindex, ← hposnum, hpos', hbeforeTimestamp, hbeforePoints, Nat.zero_add,
    eq_comm (b := data.length)]

/-- **The byte strings with fields are the encodings.** -/
theorem reads_iff : Reads header f data ↔
    ∃ d : CloudDatagram, d.header = header ∧ d.fields = f ∧ d.encode = data := by
  obtain ⟨hts, htotal, hindex, hposnum, hpos, -⟩ := header.layout_spec
  have hle := f.points_le
  have hsmall : f.points.length < 65536 := by omega
  have hnum : (UInt16.ofNat f.points.length).toNat = f.points.length := UInt16.toNat_ofNat_of_lt' hsmall
  constructor
  · intro h
    have hlength := h.length
    have hmin : header.layout.posAt + f.points.length * 28 + 2 ≤ data.length := by omega
    -- the padding is what stands there
    refine ⟨{
      header
      tail := if data.length = header.layout.posAt + 28 * f.points.length + 2 then .dynamic else .fixed50
      fields := f
      beforeTimestamp := slice 2 (header.layout.timestampAt - 2) data
      beforePoints :=
        slice (header.layout.posnumAt + 2) (header.layout.posAt - (header.layout.posnumAt + 2)) data
      beforeTail := slice (header.layout.posAt + f.points.length * 28)
        (data.length - 2 - (header.layout.posAt + f.points.length * 28)) data
      beforeTimestamp_length := length_slice (by omega)
      beforePoints_length := length_slice (by omega)
      beforeTail_length := by
        rw [length_slice (by omega)]
        split_ifs with hdynamic
        · dsimp only
          omega
        · dsimp only
          omega }, rfl, rfl, ?_⟩
    rw [CloudDatagram.encode_eq_iff]
    unfold pointBytes
    dsimp only
    rw [length_slice (by omega)]
    refine ⟨(readU16LE_eq_iff (by omega)).mp h.head, rfl, (readU64LE_eq_iff (by omega)).mp h.timestampNs,
      (readU32LE_eq_iff (by omega)).mp h.total, (readU32LE_eq_iff (by omega)).mp h.index, ?_, rfl,
      ((readPoints_eq_iff (by unfold pointBytes; omega)).mp h.points).2, rfl, ?_, by omega⟩
    · -- a count of at most 50 is the 16 bits that were read
      have hread : readU16LE data header.layout.posnumAt = UInt16.ofNat f.points.length :=
        UInt16.toNat_inj.mp (h.posNum.trans hnum.symm)
      rw [readU16LE_eq_iff (by omega), hnum] at hread
      exact hread
    · -- the padding ends where the marker begins
      have hend : header.layout.posAt + f.points.length * 28 +
          (data.length - 2 - (header.layout.posAt + f.points.length * 28)) = data.length - 2 := by omega
      rw [hend]
      exact (readU16LE_eq_iff (by omega)).mp h.tail
  · rintro ⟨d, rfl, rfl, hencode⟩
    obtain ⟨hhead, -, htimestamp, htotal', hindex', hposnum', -, hpoints, -, htail, hlength⟩ :=
      d.encode_eq_iff.mp hencode
    have hfiller := d.beforeTail_length
    unfold pointBytes at *
    refine ⟨?_, (readU16LE_eq_iff (by omega)).mpr hhead, (readU64LE_eq_iff (by omega)).mpr htimestamp,
      (readU32LE_eq_iff (by omega)).mpr htotal', (readU32LE_eq_iff (by omega)).mpr hindex', ?_,
      (readPoints_eq_iff (by unfold pointBytes; omega)).mpr ⟨rfl, hpoints⟩, ?_⟩
    · cases htailStyle : d.tail with
      | dynamic =>
        rw [htailStyle] at hfiller
        dsimp only at hfiller
        omega
      | fixed50 =>
        rw [htailStyle] at hfiller
        dsimp only at hfiller
        omega
    · rw [readU16LE_toNat (by omega), hposnum', value_ofValue (by omega)]
    · have hend : data.length - 2 =
          d.header.layout.posAt + d.fields.points.length * 28 + d.beforeTail.length := by omega
      rw [hend]
      exact (readU16LE_eq_iff (by omega)).mpr htail

/-! ### The parser reads the encodings -/

/-- Where scaling gives a finite number, every point is decoded. -/
theorem decodePoints_of_finite {layout : CloudLayout} {posNum : UInt16}
    (hfinite : ∀ n, (fp.scaled n config.pointPositionScale).isFinite = true) :
    decodePoints fp data config layout posNum =
      some ((readPoints data layout.posAt posNum.toNat).map (RawPoint.scaled fp config)) := by
  have hpoint : ∀ p, decodePoint fp data config p = some ((readPoint data p).scaled fp config) := by
    intro p
    unfold decodePoint
    dsimp only
    rw [hfinite, hfinite, hfinite]
    rfl
  unfold decodePoints readPoints
  simp only [hpoint]
  rw [List.map_map]
  exact List.mapM_pure

/-- What has fields is accepted. -/
theorem Reads.accepted (h : Reads header f data)
    (hfinite : ∀ n, (fp.scaled n config.pointPositionScale).isFinite = true) :
    Accepted fp data config header.layout (f.points.map (RawPoint.scaled fp config)) := by
  obtain ⟨-, -, -, -, hpos, hfixed⟩ := header.layout_spec
  have hlength := h.length
  have hposNum := h.posNum
  have hpos_le := f.points_le
  have hpos_pos := f.points_pos
  constructor
  · omega
  · intro hzero
    rw [hzero] at hposNum
    have : f.points.length = 0 := hposNum.symm
    omega
  · refine UInt16.le_iff_toNat_le.mpr ?_
    show _ ≤ 50
    omega
  · unfold CloudLayout.dynamicLen pointBytes
    omega
  · exact h.tail
  · rw [h.total]
    exact f.total_ne
  · rw [decodePoints_of_finite hfinite, hposNum, h.points]

/-- What is accepted has fields. -/
theorem Accepted.reads {layout : CloudLayout} {points : List LidarPoint}
    (h : Accepted fp data config layout points) (hl : layout.Known)
    (hhead : readU16LE data 0 = headMarker) : ∃ header f, Reads header f data := by
  obtain ⟨header, rfl⟩ : ∃ header : HeaderStyle, header.layout = layout := by
    rcases hl with rfl | rfl
    · exact ⟨.packed, rfl⟩
    · exact ⟨.aligned, rfl⟩
  obtain ⟨-, -, -, -, -, hfixed⟩ := header.layout_spec
  have hlength := h.length
  have hpos_le : (readU16LE data header.layout.posnumAt).toNat ≤ 50 :=
    UInt16.le_iff_toNat_le.mp h.posNum_le
  have hpos_pos : (readU16LE data header.layout.posnumAt).toNat ≠ 0 :=
    fun hzero => h.posNum_pos (UInt16.toNat_inj.mp hzero)
  have hcount : (readPoints data header.layout.posAt
      (readU16LE data header.layout.posnumAt).toNat).length =
        (readU16LE data header.layout.posnumAt).toNat := by
    rw [readPoints, List.length_map, List.length_range]
  refine ⟨header, {
    timestampNs := readU64LE data header.layout.timestampAt
    total := readU32LE data header.layout.totalAt
    index := readU32LE data header.layout.indexAt
    points := readPoints data header.layout.posAt (readU16LE data header.layout.posnumAt).toNat
    total_ne := h.total
    points_pos := by omega
    points_le := by omega }, ⟨?_, hhead, rfl, rfl, rfl, hcount.symm, ?_, h.tail⟩⟩
  · unfold CloudLayout.dynamicLen pointBytes at hlength
    dsimp only
    omega
  · dsimp only
    rw [hcount]

/-- **The format of point-cloud datagrams.** With scaling to finite numbers, every datagram is parsed to
    its fields, with its points scaled; and what is parsed is the encoding of a datagram, in one layout
    and with one value of the fields. -/
theorem cloud_datagram_format (fp : DoubleArithmetic) (config : LidarParseConfig)
    (hscales : validateScales config = true)
    (hfinite : ∀ n, (fp.scaled n config.pointPositionScale).isFinite = true) :
    (∀ d : CloudDatagram,
      (parsePointCloudPacket fp d.encode config).ok = true ∧
      (parsePointCloudPacket fp d.encode config).timestampNs = d.fields.timestampNs ∧
      (parsePointCloudPacket fp d.encode config).total = d.fields.total.toUInt64 ∧
      (parsePointCloudPacket fp d.encode config).index = d.fields.index ∧
      (parsePointCloudPacket fp d.encode config).posNum.toNat = d.fields.points.length ∧
      (parsePointCloudPacket fp d.encode config).points =
        d.fields.points.map (RawPoint.scaled fp config)) ∧
    ∀ data, (parsePointCloudPacket fp data config).ok = true →
      ∃! x : HeaderStyle × CloudFields, ∃ d : CloudDatagram, (d.header, d.fields) = x ∧ d.encode = data := by
  have hknown : ∀ header : HeaderStyle, header.layout.Known := by
    rintro (_ | _)
    · exact Or.inl rfl
    · exact Or.inr rfl
  constructor
  · -- an encoding has fields, so a layout accepts it, and the parser reads that one
    intro d
    have hreads : Reads d.header d.fields d.encode := reads_iff.mpr ⟨d, rfl, rfl, rfl⟩
    have hlen : 2 ≤ d.encode.length := by
      have hlength := hreads.length
      omega
    obtain ⟨result, hresult⟩ := (hreads.accepted hfinite).parse (hknown _) hscales hlen hreads.head
    rw [hresult]
    refine ⟨rfl, hreads.timestampNs, ?_, hreads.index, hreads.posNum, rfl⟩
    show (readU32LE d.encode d.header.layout.totalAt).toUInt64 = _
    rw [hreads.total]
  · -- what is accepted has fields, which are those of one encoding
    intro data hok
    obtain ⟨-, -, hhead, layout, points, hl, hacc⟩ := parsePointCloudPacket_ok hok
    obtain ⟨header, f, hreads⟩ := hacc.reads hl hhead
    obtain ⟨d, rfl, rfl, hencode⟩ := reads_iff.mp hreads
    refine ⟨(d.header, d.fields), ⟨d, rfl, hencode⟩, ?_⟩
    rintro _ ⟨d', rfl, hencode'⟩
    obtain ⟨hheader, hfields⟩ := (reads_iff.mpr ⟨d', rfl, rfl, hencode'⟩ : Reads _ _ _).unique hreads
    exact Prod.ext hheader hfields

/-- Arithmetic that is right for a metre in millimetres, and for nothing. -/
def metreArithmetic : DoubleArithmetic where
  scaled n _ := if n = 1000 then .one else .zero
  toFloat x := if x = .one then .one else .zero

/-- Its products are finite. -/
theorem metreArithmetic_finite (n : Int32) (scale : Binary64) :
    (metreArithmetic.scaled n scale).isFinite = true := by
  show (if n = 1000 then Binary64.one else Binary64.zero).isFinite = true
  split_ifs <;> rfl

/-- Its narrowed values are numbers. -/
theorem metreArithmetic_number (x : Binary64) : (metreArithmetic.toFloat x).isNaN = false := by
  show (if x = .one then Binary32.one else Binary32.zero).isNaN = false
  split_ifs <;> rfl

/-- One point, a metre ahead, in the aligned header and with the fixed tail. -/
def metreAhead : CloudDatagram where
  header := .aligned
  tail := .fixed50
  fields := {
    timestampNs := 7
    total := 3
    index := 2
    points := [⟨1000, 0, 0, 0x00FF0000, 0, 0, 0⟩]
    total_ne := by decide
    points_pos := by decide
    points_le := by decide }
  beforeTimestamp := [1, 2, 3, 4, 5, 6]
  beforePoints := [7, 8]
  beforeTail := List.replicate 1372 9
  beforeTimestamp_length := rfl
  beforePoints_length := rfl
  beforeTail_length := List.length_replicate

/-- It is parsed to one point at `1.0F`. -/
theorem cloud_datagram_format_metre :
    (parsePointCloudPacket metreArithmetic metreAhead.encode {}).ok = true ∧
      (parsePointCloudPacket metreArithmetic metreAhead.encode {}).points.map (fun p => p.x) =
        [Binary32.one] := by
  obtain ⟨hok, -, -, -, -, hpoints⟩ :=
    (cloud_datagram_format metreArithmetic {} (by decide +kernel)
      (fun n => metreArithmetic_finite n _)).1 metreAhead
  refine ⟨hok, ?_⟩
  rw [hpoints]
  decide

end HypertronBridge.Lidar
