import HypertronBridge.Lidar.Calibration

namespace HypertronBridge.Lidar

open Bytes

/-!
# The format of odometry datagrams

What a sender writes, in each of the two layouts, and that the parser reads exactly this.

* `OdometryDatagram`, `encode` — a datagram, its padding left open, and its bytes;
* `OdometryReads`, `odometryReads_iff` — the integers as they are read in a layout, and that these are
  the encodings;
* `RawOdometry.realFirst` — the quaternion in the other order;
* `odometry_datagram_format` — the result.
-/

/-! ### What is sent -/

/-- The packed fields, or those aligned to their types. -/
inductive OdomStyle
  | packed
  | aligned
deriving DecidableEq

def OdomStyle.layout : OdomStyle → OdomLayout
  | .packed => packedOdom
  | .aligned => alignedOdom

/-- The 64 bytes of the integers. -/
def RawOdometry.bytes (raw : RawOdometry) : List UInt8 :=
  [ofValue 8 raw.timestampNs.toNat, ofValue 8 raw.x.toUInt64.toNat, ofValue 8 raw.y.toUInt64.toNat,
    ofValue 8 raw.z.toUInt64.toNat, ofValue 8 raw.q0.toUInt64.toNat, ofValue 8 raw.q1.toUInt64.toNat,
    ofValue 8 raw.q2.toUInt64.toNat, ofValue 8 raw.q3.toUInt64.toNat].flatten

theorem RawOdometry.length_bytes (raw : RawOdometry) : raw.bytes.length = 64 := by
  simp [bytes]

/-- A datagram: its integers, and bytes without a meaning before and after them. -/
structure OdometryDatagram where
  style : OdomStyle
  raw : RawOdometry
  beforeTimestamp : List UInt8
  afterTail : List UInt8
  beforeTimestamp_length : beforeTimestamp.length = style.layout.timestampAt - 2
  afterTail_length : afterTail.length = style.layout.len - (style.layout.tailAt + 2)

/-- The bytes of a datagram. -/
def OdometryDatagram.encode (d : OdometryDatagram) : List UInt8 :=
  [ofValue 2 headMarker.toNat, d.beforeTimestamp, d.raw.bytes, ofValue 2 tailMarker.toNat,
    d.afterTail].flatten

/-- The same rotation, with the real part before the others. -/
def RawOdometry.realFirst (raw : RawOdometry) : RawOdometry :=
  { raw with q0 := raw.q3, q1 := raw.q0, q2 := raw.q1, q3 := raw.q2 }

/-! ### What is read -/

variable {fp : OdometryArithmetic} {config : OdometryConfig} {data : List UInt8} {p : Nat}
  {raw raw' : RawOdometry} {style style' : OdomStyle}

theorem readI64LE_eq_iff {v : Int64} (h : p + 8 ≤ data.length) :
    readI64LE data p = v ↔ slice p 8 data = ofValue 8 v.toUInt64.toNat := by
  rw [← readU64LE_eq_iff h, readI64LE]
  constructor
  · rintro rfl
    rw [UInt64.toUInt64_toInt64]
  · intro hread
    rw [hread, Int64.toInt64_toUInt64]

/-- The order of the fields in a layout. -/
theorem OdomStyle.layout_spec (style : OdomStyle) :
    2 ≤ style.layout.timestampAt ∧ style.layout.xAt = style.layout.timestampAt + 8 ∧
      style.layout.tailAt = style.layout.timestampAt + 64 ∧
      style.layout.tailAt + 2 ≤ style.layout.len := by
  cases style <;> decide

theorem OdomStyle.known (style : OdomStyle) : style.layout.Known := by
  cases style with
  | packed => exact Or.inl rfl
  | aligned => exact Or.inr rfl

/-- **Reading the integers.** -/
theorem OdomStyle.raw_eq_iff (h : style.layout.tailAt ≤ data.length) :
    style.layout.raw data = raw ↔ slice style.layout.timestampAt 64 data = raw.bytes := by
  obtain ⟨-, hx, htail, -⟩ := style.layout_spec
  have hpart : ∀ i, i + 8 ≤ 64 →
      slice i 8 (slice style.layout.timestampAt 64 data) = slice (style.layout.timestampAt + i) 8 data :=
    fun i hi => slice_slice hi
  obtain ⟨timestampNs, x, y, z, q0, q1, q2, q3⟩ := raw
  rw [eq_comm (b := RawOdometry.bytes _), RawOdometry.bytes, flatten_eq_iff, OdomLayout.raw,
    RawOdometry.mk.injEq]
  simp only [Fits, length_ofValue]
  rw [hpart _ (by omega), hpart _ (by omega), hpart _ (by omega), hpart _ (by omega),
    hpart _ (by omega), hpart _ (by omega), hpart _ (by omega), hpart _ (by omega),
    length_slice (by omega), hx, readU64LE_eq_iff (by omega), readI64LE_eq_iff (by omega),
    readI64LE_eq_iff (by omega), readI64LE_eq_iff (by omega), readI64LE_eq_iff (by omega),
    readI64LE_eq_iff (by omega), readI64LE_eq_iff (by omega), readI64LE_eq_iff (by omega)]
  simp [Nat.add_assoc]

/-- The integers of a byte string in a layout. -/
structure OdometryReads (style : OdomStyle) (raw : RawOdometry) (data : List UInt8) : Prop where
  marks : style.layout.marks data
  raw : style.layout.raw data = raw

/-- **The integers have one value, in one layout.** -/
theorem OdometryReads.unique (h : OdometryReads style raw data) (h' : OdometryReads style' raw' data) :
    style = style' ∧ raw = raw' := by
  have hlen : style.layout.len = style'.layout.len := h.marks.1.symm.trans h'.marks.1
  have hstyle : style = style' := by
    cases style <;> cases style'
    · rfl
    · exact absurd hlen (by decide)
    · exact absurd hlen (by decide)
    · rfl
  subst hstyle
  exact ⟨rfl, h.raw.symm.trans h'.raw⟩

/-- **The parts of an encoding.** -/
theorem OdometryDatagram.encode_eq_iff (d : OdometryDatagram) :
    d.encode = data ↔
      slice 0 2 data = ofValue 2 headMarker.toNat ∧
      slice 2 (d.style.layout.timestampAt - 2) data = d.beforeTimestamp ∧
      slice d.style.layout.timestampAt 64 data = d.raw.bytes ∧
      slice d.style.layout.tailAt 2 data = ofValue 2 tailMarker.toNat ∧
      slice (d.style.layout.tailAt + 2) (d.style.layout.len - (d.style.layout.tailAt + 2)) data =
        d.afterTail ∧
      data.length = d.style.layout.len := by
  obtain ⟨hts, -, htail, hlen⟩ := d.style.layout_spec
  have hbefore := d.beforeTimestamp_length
  have hafter := d.afterTail_length
  have hts' : 0 + 2 + d.beforeTimestamp.length = d.style.layout.timestampAt := by omega
  have hend : d.style.layout.tailAt + 2 + d.afterTail.length = d.style.layout.len := by omega
  rw [encode, flatten_eq_iff]
  simp only [Fits, length_ofValue, RawOdometry.length_bytes]
  rw [hts', ← htail, hend, hbefore, hafter, Nat.zero_add, eq_comm (b := data.length)]

/-- **The byte strings with integers are the encodings.** -/
theorem odometryReads_iff : OdometryReads style raw data ↔
    ∃ d : OdometryDatagram, d.style = style ∧ d.raw = raw ∧ d.encode = data := by
  obtain ⟨hts, -, htail, hlen⟩ := style.layout_spec
  constructor
  · rintro ⟨⟨hlength, hhead, hmarker⟩, hraw⟩
    -- the padding is what stands there
    refine ⟨{
      style
      raw
      beforeTimestamp := slice 2 (style.layout.timestampAt - 2) data
      afterTail :=
        slice (style.layout.tailAt + 2) (style.layout.len - (style.layout.tailAt + 2)) data
      beforeTimestamp_length := length_slice (by omega)
      afterTail_length := length_slice (by omega) }, rfl, rfl, ?_⟩
    rw [OdometryDatagram.encode_eq_iff]
    dsimp only
    exact ⟨(readU16LE_eq_iff (by omega)).mp hhead, rfl, (OdomStyle.raw_eq_iff (by omega)).mp hraw,
      (readU16LE_eq_iff (by omega)).mp hmarker, rfl, hlength⟩
  · rintro ⟨d, rfl, rfl, hencode⟩
    obtain ⟨hhead, -, hraw, hmarker, -, hlength⟩ := d.encode_eq_iff.mp hencode
    exact ⟨⟨hlength, (readU16LE_eq_iff (by omega)).mpr hhead, (readU16LE_eq_iff (by omega)).mpr hmarker⟩,
      (OdomStyle.raw_eq_iff (by omega)).mpr hraw⟩

/-! ### The parser reads the encodings -/

/-- What has integers is accepted where they can be scaled, and they are what is scaled. -/
theorem OdometryReads.parse (h : OdometryReads style raw data)
    (hscales : validateScales config.toLidarParseConfig = true) :
    ((parseOdometryPacket fp data config).ok = true ↔ raw.Scales fp config) ∧
      (raw.Scales fp config → (parseOdometryPacket fp data config).odometry = raw.scale fp config) := by
  have hparse : raw.Scales fp config → ∃ reason, parseOdometryPacket fp data config =
      { ok := true, reason, odometry := raw.scale fp config } := by
    intro hraw
    rw [← h.raw] at hraw ⊢
    exact parseOdometryPacket_accepts hscales style.known h.marks hraw
  refine ⟨⟨fun hok => ?_, fun hraw => ?_⟩, fun hraw => ?_⟩
  · obtain ⟨-, layout, hl, hmarks, hraw⟩ := parseOdometryPacket_ok hok
    -- it has the integers of one layout only
    obtain ⟨style', rfl⟩ : ∃ style' : OdomStyle, style'.layout = layout := by
      rcases hl with rfl | rfl
      · exact ⟨.packed, rfl⟩
      · exact ⟨.aligned, rfl⟩
    obtain ⟨-, rfl⟩ := h.unique ⟨hmarks, rfl⟩
    exact hraw
  · obtain ⟨reason, heq⟩ := hparse hraw
    rw [heq]
  · obtain ⟨reason, heq⟩ := hparse hraw
    rw [heq]

/-- The order of the configuration undoes that of the sender. -/
theorem RawOdometry.realFirst_scales (raw : RawOdometry) :
    raw.realFirst.Scales fp { config with odomQuaternionOrder := "wxyz" } ↔
      raw.Scales fp { config with odomQuaternionOrder := "xyzw" } := by
  constructor
  · rintro ⟨hx, hy, hz, -, hfinite, hnonzero⟩
    exact ⟨hx, hy, hz, rfl, hfinite, hnonzero⟩
  · rintro ⟨hx, hy, hz, -, hfinite, hnonzero⟩
    exact ⟨hx, hy, hz, rfl, hfinite, hnonzero⟩

/-- **The format of odometry datagrams.** With valid scales, a datagram is accepted exactly when its
    integers can be scaled, and then it is parsed to these integers, scaled; what is accepted is the
    encoding of a datagram, in one layout and with one value of the integers; and a sender that writes the
    real part first is read alike, in either layout, when the configuration says so. -/
theorem odometry_datagram_format (fp : OdometryArithmetic) (config : OdometryConfig)
    (hscales : validateScales config.toLidarParseConfig = true) :
    (∀ d : OdometryDatagram,
      ((parseOdometryPacket fp d.encode config).ok = true ↔ d.raw.Scales fp config) ∧
      (d.raw.Scales fp config →
        (parseOdometryPacket fp d.encode config).odometry = d.raw.scale fp config)) ∧
    (∀ data, (parseOdometryPacket fp data config).ok = true →
      ∃! x : OdomStyle × RawOdometry, ∃ d : OdometryDatagram, (d.style, d.raw) = x ∧ d.encode = data) ∧
    ∀ d d' : OdometryDatagram, d'.raw = d.raw.realFirst →
      ((parseOdometryPacket fp d'.encode { config with odomQuaternionOrder := "wxyz" }).ok = true ↔
        (parseOdometryPacket fp d.encode { config with odomQuaternionOrder := "xyzw" }).ok = true) ∧
      ((parseOdometryPacket fp d.encode { config with odomQuaternionOrder := "xyzw" }).ok = true →
        (parseOdometryPacket fp d'.encode { config with odomQuaternionOrder := "wxyz" }).odometry =
          (parseOdometryPacket fp d.encode { config with odomQuaternionOrder := "xyzw" }).odometry) := by
  have hreads : ∀ d : OdometryDatagram, OdometryReads d.style d.raw d.encode :=
    fun d => odometryReads_iff.mpr ⟨d, rfl, rfl, rfl⟩
  refine ⟨fun d => (hreads d).parse hscales, fun data hok => ?_, fun d d' hraw => ?_⟩
  · -- what is accepted has integers, which are those of one encoding
    obtain ⟨-, layout, hl, hmarks, -⟩ := parseOdometryPacket_ok hok
    obtain ⟨style, rfl⟩ : ∃ style : OdomStyle, style.layout = layout := by
      rcases hl with rfl | rfl
      · exact ⟨.packed, rfl⟩
      · exact ⟨.aligned, rfl⟩
    have hdata : OdometryReads style (style.layout.raw data) data := ⟨hmarks, rfl⟩
    obtain ⟨d, hstyle, hd, hencode⟩ := odometryReads_iff.mp hdata
    refine ⟨(d.style, d.raw), ⟨d, rfl, hencode⟩, ?_⟩
    rintro _ ⟨d', rfl, hencode'⟩
    obtain ⟨hstyle', hraw'⟩ := (odometryReads_iff.mpr ⟨d', rfl, rfl, hencode'⟩).unique
      (odometryReads_iff.mpr ⟨d, rfl, rfl, hencode⟩)
    exact Prod.ext hstyle' hraw'
  · have hparse : ∀ order, validateScales { config with odomQuaternionOrder := order }.toLidarParseConfig = true :=
      fun _ => hscales
    obtain ⟨hok, hodometry⟩ := @OdometryReads.parse fp _ _ _ _ (hreads d) (hparse "xyzw")
    obtain ⟨hok', hodometry'⟩ := @OdometryReads.parse fp _ _ _ _ (hreads d') (hparse "wxyz")
    rw [hraw] at hok' hodometry'
    refine ⟨hok'.trans (d.raw.realFirst_scales.trans hok.symm), fun h => ?_⟩
    have hscaled := hok.mp h
    rw [hodometry hscaled, hodometry' (d.raw.realFirst_scales.mpr hscaled)]
    rfl

/-- A robot that does not turn, in the aligned layout. -/
def standing : OdometryDatagram where
  style := .aligned
  raw := ⟨9, 0, 0, 0, 0, 0, 0, 1⟩
  beforeTimestamp := [2, 3, 5, 7, 11, 13]
  afterTail := [6, 5, 4, 3, 2, 1]
  beforeTimestamp_length := rfl
  afterTail_length := rfl

/-- It is parsed to the identity. -/
theorem odometry_datagram_format_standing :
    (parseOdometryPacket unitArithmetic standing.encode {}).ok = true ∧
      (parseOdometryPacket unitArithmetic standing.encode {}).odometry =
        { timestampNs := 9, qw := .one } := by
  obtain ⟨hok, hodometry⟩ :=
    (odometry_datagram_format unitArithmetic {} (by decide +kernel)).1 standing
  have hscales : standing.raw.Scales unitArithmetic {} :=
    ⟨by decide +kernel, by decide +kernel, by decide +kernel, by decide +kernel, by decide +kernel,
      by decide +kernel⟩
  refine ⟨hok.mpr hscales, ?_⟩
  rw [hodometry hscales]
  decide +kernel

end HypertronBridge.Lidar
