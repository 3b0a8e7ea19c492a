import HypertronBridge.Lidar.Odometry

namespace HypertronBridge.Lidar

open Bytes

/-!
# The calibration tool (`analyze_odom`, `calibration_analyze.py`)

The tool decodes captured odometry datagrams by its own table of offsets.  It takes the last two bytes
for the tail marker in both layouts; in the aligned one, where padding follows the marker, the driver
looks for it at byte 72.

* `OdomSample`, `analyzeOdom` — what the tool records of a payload;
* `RawOdometry.sample` — the integers that the driver scales, as the tool would record them;
* `SameOdometry`, `MarkersAgree` — tool and driver agree, and when;
* `calibration_reads_the_same` — the result.
-/

/-! ### The tool -/

/-- A sample, of unbounded integers. -/
structure OdomSample where
  ts : Nat
  x : Int
  y : Int
  z : Int
  qx : Int
  qy : Int
  qz : Int
  qw : Int
deriving DecidableEq

/-- `struct.unpack_from("<Q", pl, at)`, within the payload. -/
def unpackQ (pl : List UInt8) (i : Nat) : Nat := value (slice i 8 pl)

/-- One number of `struct.unpack_from("<q..", pl, at)`, in two's complement. -/
def unpackq (pl : List UInt8) (i : Nat) : Int :=
  if 2 * unpackQ pl i < 2 ^ 64 then unpackQ pl i else unpackQ pl i - 2 ^ 64

/-- The sample with its timestamp, position and quaternion at these offsets. -/
def sampleAt (pl : List UInt8) (ts xyz q : Nat) : OdomSample where
  ts := unpackQ pl ts
  x := unpackq pl xyz
  y := unpackq pl (xyz + 8)
  z := unpackq pl (xyz + 16)
  qx := unpackq pl q
  qy := unpackq pl (q + 8)
  qz := unpackq pl (q + 16)
  qw := unpackq pl (q + 24)

/-- `pl[:2] == b"\x55\xaa" and pl[-2:] == b"\x00\xff"`. -/
def marked (pl : List UInt8) : Bool :=
  pl.take 2 == [0x55, 0xaa] && pl.drop (pl.length - 2) == [0x00, 0xff]

/-- `analyze_odom`, on one payload. -/
def analyzeOdom (pl : List UInt8) : Option OdomSample :=
  if pl.length = 68 ∧ marked pl then some (sampleAt pl 2 10 34)
  else if pl.length = 80 ∧ marked pl then some (sampleAt pl 8 16 40)
  else none

/-! ### The driver's integers -/

/-- The integers of a datagram as the tool would record them, in the order `xyzw`. -/
def RawOdometry.sample (raw : RawOdometry) : OdomSample where
  ts := raw.timestampNs.toNat
  x := raw.x.toInt
  y := raw.y.toInt
  z := raw.z.toInt
  qx := raw.q0.toInt
  qy := raw.q1.toInt
  qz := raw.q2.toInt
  qw := raw.q3.toInt

section decoding

variable {data : List UInt8} {p : Nat}

theorem readU64LE_unpackQ (h : p + 8 ≤ data.length) : (readU64LE data p).toNat = unpackQ data p :=
  readU64LE_toNat h

/-- Both take the bytes for a number in two's complement. -/
theorem readI64LE_unpackq (h : p + 8 ≤ data.length) : (readI64LE data p).toInt = unpackq data p := by
  show (readU64LE data p).toBitVec.toInt = _
  rw [BitVec.toInt_eq_toNat_cond]
  show (if 2 * (readU64LE data p).toNat < 2 ^ 64 then ((readU64LE data p).toNat : Int)
    else ((readU64LE data p).toNat : Int) - (2 ^ 64 : Nat)) = _
  rw [readU64LE_unpackQ h]
  rfl

/-- A layout's integers, where the tool has them. -/
theorem OdomLayout.raw_sample (layout : OdomLayout) (hts : layout.timestampAt + 8 ≤ data.length)
    (hx : layout.xAt + 56 ≤ data.length) :
    (layout.raw data).sample = sampleAt data layout.timestampAt layout.xAt (layout.xAt + 24) := by
  unfold RawOdometry.sample OdomLayout.raw sampleAt
  dsimp only
  rw [readU64LE_unpackQ hts, readI64LE_unpackq (by omega), readI64LE_unpackq (by omega),
    readI64LE_unpackq (by omega), readI64LE_unpackq (by omega), readI64LE_unpackq (by omega),
    readI64LE_unpackq (by omega), readI64LE_unpackq (by omega)]

/-- The tool's markers, as the driver reads them. -/
theorem marked_iff (h : 2 ≤ data.length) : marked data = true ↔
    readU16LE data 0 = headMarker ∧ readU16LE data (data.length - 2) = tailMarker := by
  have hhead : data.take 2 = slice 0 2 data := rfl
  have htail : data.drop (data.length - 2) = slice (data.length - 2) 2 data := by
    refine (List.take_of_length_le ?_).symm
    rw [List.length_drop]
    omega
  rw [readU16LE_eq_iff (by omega), readU16LE_eq_iff (by omega), marked, hhead, htail]
  simp only [Bool.and_eq_true, beq_iff_eq]
  rfl

end decoding

/-! ### Agreement -/

section agreement

variable {fp : OdometryArithmetic} {config : OdometryConfig} {data : List UInt8}

/-- The quaternion's integers are not all zero. -/
def RawOdometry.Rotates (raw : RawOdometry) : Prop :=
  raw.q0 ≠ 0 ∨ raw.q1 ≠ 0 ∨ raw.q2 ≠ 0 ∨ raw.q3 ≠ 0

instance (raw : RawOdometry) : Decidable raw.Rotates := inferInstanceAs (Decidable (_ ∨ _))

/-- Scaling and normalising are total: no number is too large, and no quaternion but zero has a norm
    that it cannot be divided by. -/
structure OdometryArithmetic.Total (fp : OdometryArithmetic) (config : OdometryConfig) : Prop where
  scaled : ∀ n, (fp.scaled n config.odomPositionScale).isFinite = true
  norm : ∀ raw : RawOdometry, raw.Rotates →
    (raw.norm fp config).isFinite = true ∧ (raw.norm fp config).eq .zero = false

/-- The payloads of the claim: where a quaternion is, it is not all zero. -/
def Rotating (data : List UInt8) : Prop :=
  ∀ layout : OdomLayout, layout.Known → data.length = layout.len → (layout.raw data).Rotates

/-- Tool and driver agree: the tool takes a sample where the driver accepts the datagram, and records
    the integers that the driver scales. -/
def SameOdometry (fp : OdometryArithmetic) (config : OdometryConfig) (data : List UInt8) : Prop :=
  ((analyzeOdom data).isSome = true ↔ (parseOdometryPacket fp data config).ok = true) ∧
    ∀ sample ∈ analyzeOdom data, ∃ layout : OdomLayout, layout.Known ∧ layout.marks data ∧
      sample = (layout.raw data).sample ∧
      (parseOdometryPacket fp data config).odometry = (layout.raw data).scale fp config

/-- In a payload of 80 bytes with the head marker, the tail marker is at byte 72 and at the end, or at
    neither. -/
def MarkersAgree (data : List UInt8) : Prop :=
  data.length = 80 → readU16LE data 0 = headMarker →
    (readU16LE data 72 = tailMarker ↔ readU16LE data 78 = tailMarker)

/-- What the driver accepts it can scale, and it looks at length and markers only. -/
theorem parse_ok_iff (hscales : validateScales config.toLidarParseConfig = true)
    (horder : config.odomQuaternionOrder = "xyzw") (htotal : fp.Total config) (hrot : Rotating data) :
    (parseOdometryPacket fp data config).ok = true ↔
      ∃ layout : OdomLayout, layout.Known ∧ layout.marks data := by
  constructor
  · intro hok
    obtain ⟨-, layout, hl, hmarks, -⟩ := parseOdometryPacket_ok hok
    exact ⟨layout, hl, hmarks⟩
  · rintro ⟨layout, hl, hmarks⟩
    obtain ⟨hfinite, hnonzero⟩ := htotal.norm _ (hrot layout hl hmarks.1)
    have horder : validQuaternionOrder config.odomQuaternionOrder = true := by
      rw [horder]
      rfl
    have hraw : (layout.raw data).Scales fp config :=
      ⟨htotal.scaled _, htotal.scaled _, htotal.scaled _, horder, hfinite, hnonzero⟩
    obtain ⟨reason, hparse⟩ := parseOdometryPacket_accepts hscales hl hmarks hraw
    rw [hparse]

/-- What it returns then. -/
theorem parse_odometry {layout : OdomLayout} (hl : layout.Known) (hmarks : layout.marks data)
    (hok : (parseOdometryPacket fp data config).ok = true) :
    (parseOdometryPacket fp data config).odometry = (layout.raw data).scale fp config := by
  obtain ⟨hscales, layout', hl', hmarks', hraw⟩ := parseOdometryPacket_ok hok
  have hsame : layout' = layout := by
    have hlen := hmarks.1.symm.trans hmarks'.1
    rcases hl with rfl | rfl <;> rcases hl' with rfl | rfl
    · rfl
    · exact absurd hlen (by decide)
    · exact absurd hlen (by decide)
    · rfl
  rw [hsame] at hraw
  obtain ⟨reason, hparse⟩ := parseOdometryPacket_accepts hscales hl hmarks hraw
  rw [hparse]

/-- What the tool takes a sample from, and which one. -/
theorem analyzeOdom_eq_some {sample : OdomSample} : analyzeOdom data = some sample ↔
    readU16LE data 0 = headMarker ∧
      (data.length = 68 ∧ readU16LE data 66 = tailMarker ∧ sample = (packedOdom.raw data).sample ∨
        data.length = 80 ∧ readU16LE data 78 = tailMarker ∧
          sample = (alignedOdom.raw data).sample) := by
  unfold analyzeOdom
  split_ifs with hpacked haligned
  · obtain ⟨hlen, hmarked⟩ := hpacked
    obtain ⟨hhead, htail⟩ := (marked_iff (by omega)).mp hmarked
    rw [hlen] at htail
    rw [packedOdom.raw_sample (by rw [hlen]; decide) (by rw [hlen]; decide),
      Option.some.injEq]
    constructor
    · rintro rfl
      exact ⟨hhead, .inl ⟨hlen, htail, rfl⟩⟩
    · rintro ⟨-, ⟨-, -, hsample⟩ | ⟨hlen', -⟩⟩
      · exact hsample.symm
      · omega
  · obtain ⟨hlen, hmarked⟩ := haligned
    obtain ⟨hhead, htail⟩ := (marked_iff (by omega)).mp hmarked
    rw [hlen] at htail
    rw [alignedOdom.raw_sample (by rw [hlen]; decide) (by rw [hlen]; decide),
      Option.some.injEq]
    constructor
    · rintro rfl
      exact ⟨hhead, .inr ⟨hlen, htail, rfl⟩⟩
    · rintro ⟨-, ⟨hlen', -⟩ | ⟨-, -, hsample⟩⟩
      · omega
      · exact hsample.symm
  · refine iff_of_false (by simp) ?_
    rintro ⟨hhead, ⟨hlen, htail, -⟩ | ⟨hlen, htail, -⟩⟩
    · refine hpacked ⟨hlen, (marked_iff (by omega)).mpr ⟨hhead, ?_⟩⟩
      rw [hlen]
      exact htail
    · refine haligned ⟨hlen, (marked_iff (by omega)).mpr ⟨hhead, ?_⟩⟩
      rw [hlen]
      exact htail

/-- The payloads that the tool takes a sample from. -/
theorem analyzeOdom_isSome : (analyzeOdom data).isSome = true ↔ readU16LE data 0 = headMarker ∧
    (data.length = 68 ∧ readU16LE data 66 = tailMarker ∨
      data.length = 80 ∧ readU16LE data 78 = tailMarker) := by
  rw [Option.isSome_iff_exists]
  simp only [analyzeOdom_eq_some, exists_and_left, exists_or, exists_eq, and_true]

/-- The payloads that have the length and the markers of a layout. -/
theorem exists_marks_iff : (∃ layout : OdomLayout, layout.Known ∧ layout.marks data) ↔
    readU16LE data 0 = headMarker ∧
      (data.length = 68 ∧ readU16LE data 66 = tailMarker ∨
        data.length = 80 ∧ readU16LE data 72 = tailMarker) := by
  constructor
  · rintro ⟨layout, rfl | rfl, hlen, hhead, htail⟩
    · exact ⟨hhead, .inl ⟨hlen, htail⟩⟩
    · exact ⟨hhead, .inr ⟨hlen, htail⟩⟩
  · rintro ⟨hhead, ⟨hlen, htail⟩ | ⟨hlen, htail⟩⟩
    · exact ⟨packedOdom, .inl rfl, hlen, hhead, htail⟩
    · exact ⟨alignedOdom, .inr rfl, hlen, hhead, htail⟩

/-- **Tool and driver.** For every payload whose quaternion, if it has one, is not all zero, with valid
    scales and the order `xyzw`, they agree if and only if the payload does not have the aligned layout
    with only one of two markers: at byte 72, where the driver looks, and at the end. -/
theorem calibration_reads_the_same (hscales : validateScales config.toLidarParseConfig = true)
    (horder : config.odomQuaternionOrder = "xyzw") (htotal : fp.Total config) (hrot : Rotating data) :
    SameOdometry fp config data ↔ MarkersAgree data := by
  have hok := parse_ok_iff hscales horder htotal hrot
  unfold SameOdometry
  rw [analyzeOdom_isSome, hok, exists_marks_iff]
  constructor
  · rintro ⟨hsame, -⟩ hlen hhead
    constructor
    · intro hmarker
      obtain ⟨-, ⟨hlen', -⟩ | ⟨-, htail⟩⟩ := hsame.mpr ⟨hhead, .inr ⟨hlen, hmarker⟩⟩
      · omega
      · exact htail
    · intro hmarker
      obtain ⟨-, ⟨hlen', -⟩ | ⟨-, htail⟩⟩ := hsame.mp ⟨hhead, .inr ⟨hlen, hmarker⟩⟩
      · omega
      · exact htail
  · intro hagree
    refine ⟨and_congr_right (fun hhead => or_congr_right (and_congr_right fun hlen => ?_)), ?_⟩
    · exact (hagree hlen hhead).symm
    · intro sample hsample
      -- the layout whose integers the sample holds is the one that the driver accepts
      obtain ⟨hhead, ⟨hlen, htail, hraw⟩ | ⟨hlen, htail, hraw⟩⟩ := analyzeOdom_eq_some.mp hsample
      · have hmarks : packedOdom.marks data := ⟨hlen, hhead, htail⟩
        exact ⟨packedOdom, .inl rfl, hmarks, hraw,
          parse_odometry (.inl rfl) hmarks (hok.mpr ⟨_, .inl rfl, hmarks⟩)⟩
      · have hmarks : alignedOdom.marks data := ⟨hlen, hhead, (hagree hlen hhead).mpr htail⟩
        exact ⟨alignedOdom, .inr rfl, hmarks, hraw,
          parse_odometry (.inr rfl) hmarks (hok.mpr ⟨_, .inr rfl, hmarks⟩)⟩

end agreement

/-! ### Payloads of the aligned layout -/

/-- The arithmetic on zero and one, with scale `1.0`. -/
def unitArithmetic : OdometryArithmetic where
  scaled n _ := if n = 0 then .zero else .one
  norm _ _ _ _ := .one
  quotient x _ := x

theorem unitArithmetic_total : unitArithmetic.Total {} := by
  refine ⟨fun n => ?_, fun raw _ => ⟨rfl, rfl⟩⟩
  show (if n = 0 then Binary64.zero else Binary64.one).isFinite = true
  split_ifs <;> rfl

/-- A robot at the origin that does not turn: the quaternion is `(0, 0, 0, 1)`, and the six bytes after
    the tail marker are padding. -/
def atRest (padding : List UInt8) : List UInt8 :=
  [0x55, 0xAA] ++ List.replicate 62 0 ++ [1, 0, 0, 0, 0, 0, 0, 0, 0x00, 0xFF] ++ padding

theorem atRest_rotating {padding : List UInt8} (h : padding.length = 6)
    (hq : (alignedOdom.raw (atRest padding)).Rotates) : Rotating (atRest padding) := by
  rintro layout (rfl | rfl) hlen
  · have hlength : (atRest padding).length = 80 := by simp [atRest, h]
    exact absurd (hlen.symm.trans hlength) (by decide)
  · exact hq

/-- With a marker at the end of the padding, too, both read it. -/
theorem calibration_reads_the_same_padded :
    SameOdometry unitArithmetic {} (atRest [0, 0, 0, 0, 0x00, 0xFF]) := by
  refine (calibration_reads_the_same (by decide +kernel) rfl unitArithmetic_total
    (atRest_rotating rfl (by decide +kernel))).mpr (fun _ _ => ?_)
  exact iff_of_true (by decide +kernel) (by decide +kernel)

/-- With zeros for padding, the driver accepts the datagram and the tool takes no sample. -/
theorem padded_datagram_is_missed : ¬ ∀ (fp : OdometryArithmetic) (config : OdometryConfig)
    (data : List UInt8), validateScales config.toLidarParseConfig = true →
      config.odomQuaternionOrder = "xyzw" → fp.Total config → Rotating data →
      SameOdometry fp config data := by
  intro h
  have hrot : Rotating (atRest [0, 0, 0, 0, 0, 0]) := atRest_rotating rfl (by decide +kernel)
  obtain ⟨hsame, -⟩ := h unitArithmetic {} (atRest [0, 0, 0, 0, 0, 0]) (by decide +kernel) rfl
    unitArithmetic_total hrot
  have hok := (parse_ok_iff (by decide +kernel) rfl unitArithmetic_total hrot).mpr
    ⟨alignedOdom, .inr rfl, by decide +kernel⟩
  exact absurd (hsame.mpr hok) (by decide +kernel)

end HypertronBridge.Lidar
