import HypertronBridge.Node.Parameters

namespace HypertronBridge.Node

open Parameters

/-!
# The configuration that is used

`validate_parameters` sees the low word of an integer parameter.  What is handed on keeps 16, 32 or
64 bits of it, and those of 64 bits are within the checked bounds exactly when the high words that
were not seen are what they should be: `handed_on_in_bounds`.

* `IntChecks` — what the checks of the integers amount to;
* `HandedOn.InBounds` — the same bounds, of the values handed on;
* `SeenWhole` — the condition on the high words.
-/

/-! ### Bounds of what is handed on -/

/-- The checked bounds, of the values that the receivers get. -/
structure Receivers.InBounds (r : Receivers) : Prop where
  pointCloudPort : 1 ≤ r.pointCloudPort.toNat ∧ r.pointCloudPort.toNat ≤ 65535
  odometryPort : 1 ≤ r.odometryPort.toNat ∧ r.odometryPort.toNat ≤ 65535
  distinct : r.pointCloudPort ≠ r.odometryPort
  frameTimeout : 0 < r.assembler.frameTimeout
  maxParallelFrames : 1 ≤ r.assembler.maxParallelFrames ∧ r.assembler.maxParallelFrames ≤ 64
  maxPointsPerFrame : 1 ≤ r.assembler.maxPointsPerFrame ∧ r.assembler.maxPointsPerFrame ≤ 50000000
  pointBudget : r.assembler.maxParallelFrames * r.assembler.maxPointsPerFrame ≤ 20000000
  maxPacketsPerFrame : 1 ≤ r.assembler.maxPacketsPerFrame ∧ r.assembler.maxPacketsPerFrame ≤ 65536

/-- The checked bounds, of the values that the runtime gets. -/
structure RuntimeNumbers.InBounds (r : RuntimeNumbers) : Prop where
  initTimeoutMs : 0 < r.initTimeoutMs.toNat
  sdkCallTimeoutMs : 0 < r.sdkCallTimeoutMs.toNat
  heartbeatCallTimeoutMs : 0 < r.heartbeatCallTimeoutMs.toNat
  heartbeatMaxFailures : 1 ≤ r.heartbeatMaxFailures.toNat
  heartbeatPeriod : 0 < r.heartbeatPeriod.toInt
  motionRefreshPeriod : 0 < r.motionRefreshPeriod.toInt
  statePollPeriod : 0 < r.statePollPeriod.toInt
  modeTimeoutMs : 0 < r.modeTimeoutMs.toInt
  reconnectInitialDelayMs : 0 < r.reconnectInitialDelayMs.toInt
  reconnectMaxDelayMs : 0 < r.reconnectMaxDelayMs.toInt
  deadmanMs : 0 < r.deadmanMs.toInt
  reconnectOrder : r.reconnectInitialDelayMs.toInt ≤ r.reconnectMaxDelayMs.toInt
  queueCapacity : 1 ≤ r.queueCapacity.toNat ∧ r.queueCapacity.toNat ≤ 1024

/-- The configuration is within the checked bounds. -/
structure HandedOn.InBounds (h : HandedOn) : Prop where
  receivers : ∀ r ∈ h.receivers, r.InBounds
  runtime : h.runtime.InBounds

/-! ### The defect -/

/-- The defaults with a heartbeat period whose low word is that of the default. -/
def negativePeriod : Parameters where
  int := Function.update IntParameter.default .timingHeartbeatPeriodMs (100 - 4294967296)

/-- **The defect.** A negative heartbeat period is handed on. -/
theorem negative_period_validates :
    ¬ ∀ (p : Parameters) (h : HandedOn), construct p = .ok h → h.InBounds := by
  intro hall
  have hnegative : (construct negativePeriod).toOption.any
      (fun h => decide (h.runtime.heartbeatPeriod.toInt = -4294967196)) = true := by decide +kernel
  obtain ⟨h, hsome, hperiod⟩ := Option.any_eq_true _ _ |>.mp hnegative
  have hok : construct negativePeriod = .ok h := by
    revert hsome
    cases construct negativePeriod <;> simp [Except.toOption]
  have hpos := (hall _ h hok).runtime.heartbeatPeriod
  rw [of_decide_eq_true hperiod] at hpos
  exact absurd hpos (by decide)

/-! ### What the checks say -/

theorem check_bind_eq_ok {β : Type} {invalid : Bool} {message : String}
    {f : Unit → Except String β} {b : β} :
    (check invalid message >>= f) = .ok b ↔ invalid = false ∧ f () = .ok b := by
  cases invalid <;> simp [check, bind, Except.bind]

theorem check_eq_ok {invalid : Bool} {message : String} :
    check invalid message = .ok () ↔ invalid = false := by
  cases invalid <;> simp [check]

/-- A computation that returns, in a bind that returns. -/
theorem bind_eq_ok {α β : Type} {x : Except String α} {f : α → Except String β} {b : β} :
    (x >>= f) = .ok b ↔ ∃ a, x = .ok a ∧ f a = .ok b := by
  cases x <;> simp [bind, Except.bind]

/-- Every element passes. -/
theorem checkAll_eq_ok {α : Type} {f : α → Except String Unit} {xs : List α} :
    checkAll f xs = .ok () ↔ ∀ x ∈ xs, f x = .ok () := by
  induction xs with
  | nil => simp [checkAll]
  | cons x xs ih =>
    show (f x >>= fun _ => checkAll f xs) = .ok () ↔ _
    rw [bind_eq_ok, List.forall_mem_cons, ← ih]
    exact ⟨fun ⟨_, hx, hxs⟩ => ⟨hx, hxs⟩, fun ⟨hx, hxs⟩ => ⟨(), hx, hxs⟩⟩

namespace Parameters

variable {p : Parameters} {k : IntParameter}

theorem checkRange_bind_eq_ok {β : Type} {lo hi : Int} {range : String}
    {f : Unit → Except String β} {b : β} :
    (p.checkRange k lo hi range >>= f) = .ok b ↔ (lo ≤ p.asInt k ∧ p.asInt k ≤ hi) ∧ f () = .ok b := by
  unfold checkRange
  rw [check_bind_eq_ok, Bool.or_eq_false_iff, decide_eq_false_iff_not, decide_eq_false_iff_not,
    not_lt, not_lt]

/-- What the checks of the integers say of the low words. -/
structure IntChecks (p : Parameters) : Prop where
  pointCloudPort : 1 ≤ p.asInt .lidarPointCloudPort ∧ p.asInt .lidarPointCloudPort ≤ 65535
  odometryPort : 1 ≤ p.asInt .lidarOdometryPort ∧ p.asInt .lidarOdometryPort ≤ 65535
  distinct : p.asInt .lidarPointCloudPort ≠ p.asInt .lidarOdometryPort
  timings : ∀ k ∈ Parameters.timings, 0 < p.asInt k
  queueCapacity : 1 ≤ p.asInt .safetyQueueCapacity ∧ p.asInt .safetyQueueCapacity ≤ 1024
  maxParallelFrames : 1 ≤ p.asInt .lidarMaxParallelFrames ∧ p.asInt .lidarMaxParallelFrames ≤ 64
  maxPointsPerFrame : 1 ≤ p.asInt .lidarMaxPointsPerFrame ∧ p.asInt .lidarMaxPointsPerFrame ≤ 50000000
  maxPacketsPerFrame : 1 ≤ p.asInt .lidarMaxPacketsPerFrame ∧ p.asInt .lidarMaxPacketsPerFrame ≤ 65536
  pointBudget : p.totalPointBudget ≤ 20000000
  heartbeatMaxFailures : 1 ≤ p.asInt .sdkHeartbeatMaxFailures
  reconnectOrder : p.asInt .timingReconnectInitialDelayMs ≤ p.asInt .timingReconnectMaxDelayMs

/-- **Spec of the checks of the integers.** -/
theorem checkIntegers_ok (hok : p.checkIntegers = .ok ()) : p.IntChecks := by
  unfold checkIntegers checkPort at hok
  obtain ⟨hpc, hok⟩ := checkRange_bind_eq_ok.mp hok
  obtain ⟨hodom, hok⟩ := checkRange_bind_eq_ok.mp hok
  obtain ⟨hne, hok⟩ := check_bind_eq_ok.mp hok
  obtain ⟨-, hok⟩ := check_bind_eq_ok.mp hok
  obtain ⟨-, hok⟩ := check_bind_eq_ok.mp hok
  obtain ⟨_, htimings, hok⟩ := bind_eq_ok.mp hok
  obtain ⟨hqueue, hok⟩ := checkRange_bind_eq_ok.mp hok
  obtain ⟨hparallel, hok⟩ := checkRange_bind_eq_ok.mp hok
  obtain ⟨hpoints, hok⟩ := checkRange_bind_eq_ok.mp hok
  obtain ⟨hpackets, hok⟩ := checkRange_bind_eq_ok.mp hok
  obtain ⟨hbudget, hok⟩ := check_bind_eq_ok.mp hok
  -- the three scales and the order of the quaternion
  obtain ⟨-, hok⟩ := check_bind_eq_ok.mp hok
  obtain ⟨-, hok⟩ := check_bind_eq_ok.mp hok
  obtain ⟨-, hok⟩ := check_bind_eq_ok.mp hok
  obtain ⟨-, hok⟩ := check_bind_eq_ok.mp hok
  obtain ⟨hfailures, hok⟩ := check_bind_eq_ok.mp hok
  have horder := check_eq_ok.mp hok
  refine ⟨hpc, hodom, by simpa using hne, fun k hk => ?_, hqueue, hparallel, hpoints, hpackets,
    by simpa using hbudget, by simpa using hfailures, by simpa using horder⟩
  have htiming : p.checkTiming k = .ok () := checkAll_eq_ok.mp htimings k hk
  simpa using check_eq_ok.mp htiming

/-- What validation resolves is what was declared, after the checks. -/
theorem validateParameters_ok {v : Validated} (hok : p.validateParameters = .ok v) :
    p.IntChecks ∧ v.lidarEnabled = p.lidarEnabled ∧ v.lidar = p.lidarParams := by
  unfold validateParameters at hok
  obtain ⟨_, hints, hok⟩ := bind_eq_ok.mp hok
  obtain ⟨imuFreq, -, hok⟩ := bind_eq_ok.mp hok
  obtain ⟨sportFreq, -, hok⟩ := bind_eq_ok.mp hok
  obtain ⟨lidarFreq, -, hok⟩ := bind_eq_ok.mp hok
  obtain ⟨-, hok⟩ := check_bind_eq_ok.mp hok
  obtain ⟨-, hok⟩ := check_bind_eq_ok.mp hok
  obtain ⟨_, -, hok⟩ := bind_eq_ok.mp hok
  obtain ⟨_, -, hok⟩ := bind_eq_ok.mp hok
  obtain ⟨_, -, hok⟩ := bind_eq_ok.mp hok
  obtain ⟨_, -, hok⟩ := bind_eq_ok.mp hok
  obtain rfl : _ = v := Except.ok.inj hok
  exact ⟨checkIntegers_ok hints, rfl, rfl⟩

/-- What is handed on, after the checks. -/
theorem construct_ok {h : HandedOn} (hok : construct p = .ok h) :
    p.IntChecks ∧ ∃ v, v.lidarEnabled = p.lidarEnabled ∧ v.lidar = p.lidarParams ∧
      h = { receivers := createReceivers v, runtime := assembleRuntime p v } := by
  unfold construct at hok
  obtain ⟨v, hv, hok⟩ := bind_eq_ok.mp hok
  obtain ⟨hchecks, henabled, hlidar⟩ := validateParameters_ok hv
  exact ⟨hchecks, v, henabled, hlidar, (Except.ok.inj hok).symm⟩

/-! ### The words of a parameter -/

/-- The high word of a parameter, which the conversion to `int` drops. -/
def highWord (p : Parameters) (k : IntParameter) : Int := (p.int k).toInt / 2 ^ 32

/-- A parameter is its two words. -/
theorem toInt_eq_words (hpos : 0 < p.asInt k) :
    (p.int k).toInt = p.asInt k + 4294967296 * p.highWord k := by
  have hlow : p.asInt k = (p.int k).toInt.bmod (2 ^ 32) := Int64.toInt_toInt32 _
  rw [Int.bmod_def] at hlow
  show _ = _ + 4294967296 * ((p.int k).toInt / 2 ^ 32)
  split at hlow <;> omega

theorem asInt_lt : p.asInt k < 2147483648 := Int32.toInt_lt _

/-- The 64 bits without a sign. -/
theorem toNat_toUInt64 (v : Int64) : (v.toUInt64.toNat : Int) = v.toInt % 18446744073709551616 := by
  have h : v.toInt = (v.toUInt64.toNat : Int).bmod (2 ^ 64) := BitVec.toInt_eq_toNat_bmod v.toBitVec
  have hlt : v.toUInt64.toNat < 18446744073709551616 := v.toUInt64.toNat_lt
  rw [h, Int.bmod_def]
  split <;> omega

/-- 32 bits of a parameter are the low word. -/
theorem toNat_toUInt32 (hpos : 0 < p.asInt k) :
    ((p.int k).toUInt64.toUInt32.toNat : Int) = p.asInt k := by
  have hwords := toInt_eq_words hpos
  have hlt := asInt_lt (p := p) (k := k)
  rw [UInt64.toNat_toUInt32, Int.natCast_mod, toNat_toUInt64]
  omega

/-- 16 bits of it are a port's. -/
theorem toNat_toUInt16 (hpos : 1 ≤ p.asInt k ∧ p.asInt k ≤ 65535) :
    ((p.int k).toUInt64.toUInt16.toNat : Int) = p.asInt k := by
  have hwords := toInt_eq_words (p := p) (k := k) (by omega)
  rw [UInt64.toNat_toUInt16, Int.natCast_mod, toNat_toUInt64]
  omega

/-- 64 bits of it are within a bound on the low word when the high word is zero. -/
theorem toNat_toUInt64_le_iff (bound : Nat) (hbound : bound < 4294967296)
    (hlow : 1 ≤ p.asInt k ∧ p.asInt k ≤ bound) :
    (1 ≤ (p.int k).toUInt64.toNat ∧ (p.int k).toUInt64.toNat ≤ bound) ↔ p.highWord k = 0 := by
  have hwords := toInt_eq_words (p := p) (k := k) (by omega)
  have hnat := toNat_toUInt64 (p.int k)
  have hlt : (p.int k).toInt < 9223372036854775808 := (p.int k).toInt_lt
  have hge := (p.int k).le_toInt
  constructor <;> intro h <;> omega

/-- What a high word of zero keeps. -/
theorem toNat_toUInt64_of_seen (hpos : 0 < p.asInt k) (hseen : p.highWord k = 0) :
    ((p.int k).toUInt64.toNat : Int) = p.asInt k := by
  have hwords := toInt_eq_words hpos
  have hnat := toNat_toUInt64 (p.int k)
  have hlt := asInt_lt (p := p) (k := k)
  omega

/-- A value of 64 bits is positive when the high word is not negative. -/
theorem toInt_pos_iff (hpos : 0 < p.asInt k) : 0 < (p.int k).toInt ↔ 0 ≤ p.highWord k := by
  have hwords := toInt_eq_words hpos
  have hlt := asInt_lt (p := p) (k := k)
  constructor <;> intro h <;> omega

/-- Two values of 64 bits whose low words are ordered. -/
theorem toInt_le_iff {k' : IntParameter} (hpos : 0 < p.asInt k) (hle : p.asInt k ≤ p.asInt k') :
    (p.int k).toInt ≤ (p.int k').toInt ↔ p.highWord k ≤ p.highWord k' := by
  have hwords := toInt_eq_words hpos
  have hwords' := toInt_eq_words (hpos.trans_le hle)
  have hlt := asInt_lt (p := p) (k := k')
  constructor <;> intro h <;> omega

/-! ### The condition -/

/-- The timings that are handed on as durations of 64 bits. -/
def durations : List IntParameter :=
  [.timingHeartbeatPeriodMs, .timingMotionRefreshPeriodMs, .timingStatePollPeriodMs,
    .timingModeTimeoutMs, .timingReconnectInitialDelayMs, .timingReconnectMaxDelayMs,
    .safetyCommandDeadmanMs]

/-- The sizes that the assembler gets. -/
def assemblerSizes : List IntParameter :=
  [.lidarMaxParallelFrames, .lidarMaxPointsPerFrame, .lidarMaxPacketsPerFrame]

/-- The high words are such that checking the low ones was enough. -/
structure SeenWhole (p : Parameters) : Prop where
  durations : ∀ k ∈ Parameters.durations, 0 ≤ p.highWord k
  reconnectOrder : p.highWord .timingReconnectInitialDelayMs ≤ p.highWord .timingReconnectMaxDelayMs
  queueCapacity : p.highWord .safetyQueueCapacity = 0
  assemblerSizes : p.lidarEnabled = true → ∀ k ∈ Parameters.assemblerSizes, p.highWord k = 0

end Parameters

variable {p : Parameters} {v : Validated}

/-- The receivers' part. -/
theorem receivers_inBounds_iff (hchecks : p.IntChecks) (henabled : v.lidarEnabled = p.lidarEnabled)
    (hlidar : v.lidar = p.lidarParams) :
    (∀ r ∈ createReceivers v, r.InBounds) ↔
      (p.lidarEnabled = true → ∀ k ∈ assemblerSizes, p.highWord k = 0) := by
  have hports := toNat_toUInt16 hchecks.pointCloudPort
  have hports' := toNat_toUInt16 hchecks.odometryPort
  have hparallel := toNat_toUInt64_le_iff 64 (by decide) hchecks.maxParallelFrames
  have hpoints := toNat_toUInt64_le_iff 50000000 (by decide) hchecks.maxPointsPerFrame
  have hpackets := toNat_toUInt64_le_iff 65536 (by decide) hchecks.maxPacketsPerFrame
  unfold createReceivers
  rw [henabled, hlidar]
  by_cases henable : p.lidarEnabled = true
  · rw [if_pos henable]
    constructor
    -- each size within its bound has no high word
    · intro hall _ k hk
      have hin := hall _ rfl
      simp only [assemblerSizes, List.mem_cons, List.not_mem_nil, or_false] at hk
      rcases hk with rfl | rfl | rfl
      · exact hparallel.mp hin.maxParallelFrames
      · exact hpoints.mp hin.maxPointsPerFrame
      · exact hpackets.mp hin.maxPacketsPerFrame
    · intro hseen r hr
      obtain rfl := Option.some.inj hr
      have hseen := hseen henable
      have hzero := hseen .lidarMaxParallelFrames (by decide)
      have hzero' := hseen .lidarMaxPointsPerFrame (by decide)
      refine ⟨?_, ?_, ?_, ?_, hparallel.mpr hzero, hpoints.mpr hzero', ?_,
        hpackets.mpr (hseen .lidarMaxPacketsPerFrame (by decide))⟩
      · have hport := hchecks.pointCloudPort
        show 1 ≤ (p.int .lidarPointCloudPort).toUInt64.toUInt16.toNat ∧
          (p.int .lidarPointCloudPort).toUInt64.toUInt16.toNat ≤ 65535
        omega
      · have hport := hchecks.odometryPort
        show 1 ≤ (p.int .lidarOdometryPort).toUInt64.toUInt16.toNat ∧
          (p.int .lidarOdometryPort).toUInt64.toUInt16.toNat ≤ 65535
        omega
      · show (p.int .lidarPointCloudPort).toUInt64.toUInt16 ≠
          (p.int .lidarOdometryPort).toUInt64.toUInt16
        intro heq
        rw [heq, hports'] at hports
        exact hchecks.distinct hports.symm
      · exact hchecks.timings .lidarFrameTimeoutMs (by decide)
      · -- both factors are the ones that the budget was checked with
        show (p.int .lidarMaxParallelFrames).toUInt64.toNat *
          (p.int .lidarMaxPointsPerFrame).toUInt64.toNat ≤ 20000000
        have hbudget := hchecks.pointBudget
        unfold totalPointBudget at hbudget
        rw [← toNat_toUInt64_of_seen (by have := hchecks.maxParallelFrames; omega) hzero,
          ← toNat_toUInt64_of_seen (by have := hchecks.maxPointsPerFrame; omega) hzero'] at hbudget
        rw [← Int.ofNat_le, Int.natCast_mul]
        exact hbudget
  · rw [if_neg henable]
    exact ⟨fun _ h => absurd h henable, fun _ r hr => absurd hr (Option.not_mem_none r)⟩

/-- The runtime's part. -/
theorem runtime_inBounds_iff (hchecks : p.IntChecks) :
    (assembleRuntime p v).InBounds ↔ (∀ k ∈ durations, 0 ≤ p.highWord k) ∧
      p.highWord .timingReconnectInitialDelayMs ≤ p.highWord .timingReconnectMaxDelayMs ∧
      p.highWord .safetyQueueCapacity = 0 := by
  have hduration : ∀ k ∈ durations, 0 < (p.int k).toInt ↔ 0 ≤ p.highWord k :=
    fun k hk => toInt_pos_iff (hchecks.timings k (by revert k; decide))
  have horder := toInt_le_iff (hchecks.timings .timingReconnectInitialDelayMs (by decide))
    hchecks.reconnectOrder
  have hqueue := toNat_toUInt64_le_iff 1024 (by decide) hchecks.queueCapacity
  constructor
  · intro hin
    refine ⟨fun k hk => (hduration k hk).mp ?_, horder.mp hin.reconnectOrder,
      hqueue.mp hin.queueCapacity⟩
    simp only [durations, List.mem_cons, List.not_mem_nil, or_false] at hk
    rcases hk with rfl | rfl | rfl | rfl | rfl | rfl | rfl
    · exact hin.heartbeatPeriod
    · exact hin.motionRefreshPeriod
    · exact hin.statePollPeriod
    · exact hin.modeTimeoutMs
    · exact hin.reconnectInitialDelayMs
    · exact hin.reconnectMaxDelayMs
    · exact hin.deadmanMs
  · rintro ⟨hseen, hseenOrder, hseenQueue⟩
    have hpos : ∀ k ∈ durations, 0 < (p.int k).toInt := fun k hk => (hduration k hk).mpr (hseen k hk)
    -- the values of 32 bits are the ones that were checked
    have hlow : ∀ k ∈ timings, 0 < (p.int k).toUInt64.toUInt32.toNat := by
      intro k hk
      have hlow := hchecks.timings k hk
      have heq := toNat_toUInt32 hlow
      omega
    have hfailures : 1 ≤ (p.int .sdkHeartbeatMaxFailures).toUInt64.toUInt32.toNat := by
      have hlow := hchecks.heartbeatMaxFailures
      have heq := toNat_toUInt32 (p := p) (k := .sdkHeartbeatMaxFailures) (by omega)
      omega
    exact ⟨hlow _ (by decide), hlow _ (by decide), hlow _ (by decide), hfailures, hpos _ (by decide),
      hpos _ (by decide), hpos _ (by decide), hpos _ (by decide), hpos _ (by decide),
      hpos _ (by decide), hpos _ (by decide), horder.mpr hseenOrder, hqueue.mpr hseenQueue⟩

/-- **The configuration that is used.** When the construction does not throw, what it hands on is
    within the checked bounds exactly when no check missed anything in a high word. -/
theorem handed_on_in_bounds {h : HandedOn} (hok : construct p = .ok h) : h.InBounds ↔ p.SeenWhole := by
  obtain ⟨hchecks, v, henabled, hlidar, rfl⟩ := construct_ok hok
  have hreceivers := receivers_inBounds_iff hchecks henabled hlidar
  have hruntime := runtime_inBounds_iff (v := v) hchecks
  constructor
  · rintro ⟨hr, hn⟩
    obtain ⟨hdurations, horder, hqueue⟩ := hruntime.mp hn
    exact ⟨hdurations, horder, hqueue, hreceivers.mp hr⟩
  · rintro ⟨hdurations, horder, hqueue, hsizes⟩
    exact ⟨hreceivers.mpr hsizes, hruntime.mpr ⟨hdurations, horder, hqueue⟩⟩

/-- The declared defaults. -/
theorem handed_on_in_bounds_default :
    ∃ h, construct {} = .ok h ∧ (h.InBounds ↔ ({} : Parameters).SeenWhole) := by
  have hsome : (construct {}).toOption.isSome = true := by decide +kernel
  obtain ⟨h, hh⟩ := Option.isSome_iff_exists.mp hsome
  have hok : construct {} = .ok h := by
    revert hh
    cases construct {} <;> simp [Except.toOption]
  exact ⟨h, hok, handed_on_in_bounds hok⟩

end HypertronBridge.Node
