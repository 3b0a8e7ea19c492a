import HypertronBridge.Lib.Checked
import HypertronBridge.Lib.TransitionSystem
import Mathlib.Data.List.MinMax

namespace HypertronBridge.Node

open Checked TransitionSystem

/-!
# The lidar's clock (`LidarDeviceClockMapper`, `driver_node.cpp`)

Odometry datagrams and point-cloud frames carry the time of a device clock.  The mapper keeps an
offset to the receiver's clock, which it observes at each odometry datagram.  Every operation is one
critical section under the mapper's mutex.

* `observeOdometry`, `mapCloud` — the operations, in arithmetic of 64 bits;
* `observed` — an observation in exact arithmetic; `observeOdometry_eq` — the two agree where the
  operations stay in the range;
* `MapperRun` — a sequence of calls, with what they returned.
-/

/-- `kRestartToleranceNs`. -/
def kRestartToleranceNs : Int := 1000000000

/-- `kOffsetJumpNs`. -/
def kOffsetJumpNs : Int := 2000000000

/-- `LidarDeviceClockMapper`. -/
structure LidarDeviceClockMapper where
  initialized : Bool := false
  offsetNs : Int := 0
  lastDeviceNs : Int := 0

namespace LidarDeviceClockMapper

/-! ### The operations -/

/-- `mapped_time`. -/
def mappedTime (deviceNs receiveNs : Int) (m : LidarDeviceClockMapper) : Option Int := do
  let mappedNs ← add deviceNs m.offsetNs
  return min mappedNs receiveNs

/-- `device_restarted` of `observe_odometry`. -/
def deviceRestarted (device : Int) (m : LidarDeviceClockMapper) : Option Bool :=
  if m.initialized then do
    let latest ← add device kRestartToleranceNs
    return decide (latest < m.lastDeviceNs)
  else some false

/-- `offset_jumped` of `observe_odometry`. -/
def offsetJumped (observedOffset : Int) (m : LidarDeviceClockMapper) : Option Bool :=
  if m.initialized then do
    let difference ← sub observedOffset m.offsetNs
    let distance ← Checked.abs difference
    return decide (kOffsetJumpNs < distance)
  else some false

/-- The branches of `observe_odometry`: a fresh offset, or one that follows the observed offset down at
    once and up by a 64th. -/
def nextOffset (anew : Bool) (observedOffset : Int) (m : LidarDeviceClockMapper) : Option Int :=
  if !m.initialized || anew then some observedOffset
  else if observedOffset < m.offsetNs then some observedOffset
  else do
    let difference ← sub observedOffset m.offsetNs
    add m.offsetNs (difference.tdiv 64)

/-- `observe_odometry`: the stamp it returns and the mapper after it, unless an operation leaves the
    range. -/
def observeOdometry (deviceNs : UInt64) (receiveNs : Int) (m : LidarDeviceClockMapper) :
    Option (Int × LidarDeviceClockMapper) :=
  if int64Max < deviceNs.toNat then some (receiveNs, m)
  else do
    let device : Int := deviceNs.toNat
    let observedOffset ← sub receiveNs device
    let deviceRestarted ← m.deviceRestarted device
    let offsetJumped ← m.offsetJumped observedOffset
    let offsetNs ← m.nextOffset (deviceRestarted || offsetJumped) observedOffset
    let m := { initialized := true, offsetNs, lastDeviceNs := device }
    let stamp ← mappedTime device receiveNs m
    return (stamp, m)

/-- `map_cloud`. -/
def mapCloud (deviceNs : UInt64) (receiveNs : Int) (m : LidarDeviceClockMapper) : Option Int :=
  if !m.initialized || decide (int64Max < deviceNs.toNat) then some receiveNs
  else m.mappedTime deviceNs.toNat receiveNs

/-! ### Observations in exact arithmetic -/

variable {m : LidarDeviceClockMapper} {device observedOffset receiveNs : Int} {deviceNs : UInt64}

/-- The observation starts anew: the first one, a restart of the device or a jump of the offset. -/
def reanchors (device observedOffset : Int) (m : LidarDeviceClockMapper) : Bool :=
  !m.initialized || decide (device + kRestartToleranceNs < m.lastDeviceNs) ||
    decide (kOffsetJumpNs < (observedOffset - m.offsetNs).natAbs)

/-- The mapper after an observation. -/
def observed (device observedOffset : Int) (m : LidarDeviceClockMapper) : LidarDeviceClockMapper where
  initialized := true
  offsetNs :=
    if m.reanchors device observedOffset || decide (observedOffset < m.offsetNs) then observedOffset
    else m.offsetNs + (observedOffset - m.offsetNs) / 64
  lastDeviceNs := device

/-- **What an observation does to the offset.** It takes the observed one, or goes up towards it. -/
theorem observed_offsetNs (device observedOffset : Int) (m : LidarDeviceClockMapper) :
    (m.observed device observedOffset).offsetNs = observedOffset ∨
      m.reanchors device observedOffset = false ∧
        m.offsetNs ≤ (m.observed device observedOffset).offsetNs ∧
        (m.observed device observedOffset).offsetNs ≤ observedOffset := by
  unfold observed
  dsimp only
  split_ifs with h
  · exact Or.inl rfl
  · simp only [Bool.or_eq_true, decide_eq_true_eq, not_or, Bool.not_eq_true] at h
    exact Or.inr ⟨h.1, by omega, by omega⟩

/-- The offset never exceeds the observed one. -/
theorem observed_offsetNs_le (device observedOffset : Int) (m : LidarDeviceClockMapper) :
    (m.observed device observedOffset).offsetNs ≤ observedOffset := by
  rcases m.observed_offsetNs device observedOffset with h | ⟨-, -, h⟩
  · exact h.le
  · exact h

/-! ### Where the operations stay in the range -/

/-- What every run keeps, and what the exact results rest on: the offset is that of two times. -/
structure Bounded (m : LidarDeviceClockMapper) : Prop where
  offset : -int64Max ≤ m.offsetNs ∧ m.offsetNs ≤ int64Max
  last : 0 ≤ m.lastDeviceNs ∧ m.lastDeviceNs ≤ int64Max

/-- The restart test and the jump test of an odometry datagram stay in the range. -/
def TestsFit (device observedOffset : Int) (m : LidarDeviceClockMapper) : Prop :=
  m.initialized = true →
    device ≤ int64Max - kRestartToleranceNs ∧ (observedOffset - m.offsetNs).natAbs ≤ int64Max

theorem deviceRestarted_eq (hdevice : 0 ≤ device)
    (h : m.initialized = true → device ≤ int64Max - kRestartToleranceNs) :
    m.deviceRestarted device =
      some (m.initialized && decide (device + kRestartToleranceNs < m.lastDeviceNs)) := by
  unfold deviceRestarted
  cases hinit : m.initialized with
  | false => rfl
  | true =>
    have hle := h hinit
    have hfits : Fits (device + kRestartToleranceNs) := by
      simp only [Fits, int64Max, kRestartToleranceNs] at hle ⊢
      omega
    simp [add_of_fits hfits]

theorem offsetJumped_eq
    (h : m.initialized = true → (observedOffset - m.offsetNs).natAbs ≤ int64Max) :
    m.offsetJumped observedOffset =
      some (m.initialized && decide (kOffsetJumpNs < (observedOffset - m.offsetNs).natAbs)) := by
  unfold offsetJumped
  cases hinit : m.initialized with
  | false => rfl
  | true =>
    have hdistance : Fits (observedOffset - m.offsetNs).natAbs := by
      have hle := h hinit
      simp only [Fits, int64Max] at hle ⊢
      omega
    simp [sub_of_fits (fits_of_natAbs hdistance), abs_of_fits hdistance]

/-- An observation that does not start anew is near the offset, so the step towards it fits. -/
theorem nextOffset_eq (hm : m.Bounded) (hobserved : Fits observedOffset) :
    m.nextOffset ((m.initialized && decide (device + kRestartToleranceNs < m.lastDeviceNs)) ||
        (m.initialized && decide (kOffsetJumpNs < (observedOffset - m.offsetNs).natAbs)))
      observedOffset = some (m.observed device observedOffset).offsetNs := by
  obtain ⟨hlo, hhi⟩ := hm.offset
  have hanew : (!m.initialized ||
      ((m.initialized && decide (device + kRestartToleranceNs < m.lastDeviceNs)) ||
        (m.initialized && decide (kOffsetJumpNs < (observedOffset - m.offsetNs).natAbs)))) =
      m.reanchors device observedOffset := by
    unfold reanchors
    cases m.initialized <;> simp
  unfold nextOffset observed
  rw [hanew]
  cases hreanchors : m.reanchors device observedOffset with
  | true => simp
  | false =>
    simp only [Bool.false_eq_true, if_false, Bool.false_or, decide_eq_true_eq]
    split_ifs with hless
    · rfl
    · -- Neither the difference nor the 64th of it that is added can overflow.
      have hnear : (observedOffset - m.offsetNs).natAbs ≤ kOffsetJumpNs := by
        simp only [reanchors, Bool.or_eq_false_iff, decide_eq_false_iff_not] at hreanchors
        exact not_lt.mp hreanchors.2
      simp only [Fits, int64Max, kOffsetJumpNs] at hobserved hlo hhi hnear
      have hdifference : Fits (observedOffset - m.offsetNs) := by
        simp only [Fits, int64Max]
        omega
      have hsum : Fits (m.offsetNs + (observedOffset - m.offsetNs) / 64) := by
        simp only [Fits, int64Max]
        omega
      have hdiv : (observedOffset - m.offsetNs).tdiv 64 = (observedOffset - m.offsetNs) / 64 :=
        Int.tdiv_eq_ediv_of_nonneg (by omega)
      simp only [sub_of_fits hdifference, hdiv, add_of_fits hsum, Option.bind_eq_bind,
        Option.bind_some]

/-- **An observation within the range.** -/
theorem observeOdometry_eq (hm : m.Bounded) (hdevice : deviceNs.toNat ≤ int64Max)
    (hreceive : 0 ≤ receiveNs ∧ receiveNs ≤ int64Max)
    (hfits : m.TestsFit deviceNs.toNat (receiveNs - deviceNs.toNat)) :
    m.observeOdometry deviceNs receiveNs =
      some (deviceNs.toNat + (m.observed deviceNs.toNat (receiveNs - deviceNs.toNat)).offsetNs,
        m.observed deviceNs.toNat (receiveNs - deviceNs.toNat)) := by
  have hnonneg : (0 : Int) ≤ deviceNs.toNat := Int.natCast_nonneg _
  generalize hd : (deviceNs.toNat : Int) = device at *
  have hobserved : Fits (receiveNs - device) := by
    simp only [Fits, int64Max] at *
    omega
  have hle := m.observed_offsetNs_le device (receiveNs - device)
  -- The new offset is that of two times, or between the old one and such a one.
  have hsum : Fits (device + (m.observed device (receiveNs - device)).offsetNs) := by
    obtain ⟨hlo, hhi⟩ := hm.offset
    simp only [Fits, int64Max] at *
    rcases m.observed_offsetNs device (receiveNs - device) with heq | ⟨-, hge, -⟩
    · omega
    · omega
  unfold observeOdometry
  rw [if_neg (by rw [hd]; omega)]
  simp only [hd, sub_of_fits hobserved, deviceRestarted_eq hnonneg (fun h => (hfits h).1),
    offsetJumped_eq (fun h => (hfits h).2), nextOffset_eq hm hobserved, mappedTime, Option.bind_eq_bind,
    Option.bind_some, add_of_fits hsum, Option.pure_def, Option.some.injEq, Prod.mk.injEq]
  exact ⟨min_eq_left (by omega), rfl⟩

/-- **An observation out of the range.** -/
theorem observeOdometry_eq_none (hdevice : deviceNs.toNat ≤ int64Max)
    (hfits : ¬ m.TestsFit deviceNs.toNat (receiveNs - deviceNs.toNat)) :
    m.observeOdometry deviceNs receiveNs = none := by
  generalize hd : (deviceNs.toNat : Int) = device at *
  unfold TestsFit at hfits
  simp only [Classical.not_imp, not_and_or, not_le] at hfits
  obtain ⟨hinit, hover⟩ := hfits
  unfold observeOdometry
  rw [if_neg (by rw [hd]; omega)]
  simp only [hd, Option.bind_eq_bind]
  rcases hover with hlate | hfar
  · -- The restart test leaves the range.
    have hnone : m.deviceRestarted device = none := by
      have hnot : ¬ Fits (device + kRestartToleranceNs) := by
        simp only [Fits, int64Max, kRestartToleranceNs] at hlate ⊢
        omega
      simp [deviceRestarted, hinit, add_of_not_fits hnot]
    rw [hnone]
    cases sub receiveNs device <;> rfl
  · -- The jump test does.
    have hnone : ∀ observedOffset, observedOffset = receiveNs - device →
        m.offsetJumped observedOffset = none := by
      rintro _ rfl
      have hnot : ¬ Fits (receiveNs - device - m.offsetNs).natAbs := by
        simp only [Fits, int64Max] at hfar ⊢
        omega
      unfold offsetJumped
      rw [if_pos hinit]
      by_cases hdifference : Fits (receiveNs - device - m.offsetNs)
      · simp [sub_of_fits hdifference, abs_of_not_fits hnot]
      · simp [sub_of_not_fits hdifference]
    by_cases hobserved : Fits (receiveNs - device)
    · rw [sub_of_fits hobserved, Option.bind_some, hnone _ rfl]
      cases m.deviceRestarted device <;> rfl
    · rw [sub_of_not_fits hobserved]
      rfl

/-- **A mapped frame.** -/
theorem mapCloud_isSome (hm : m.Bounded) :
    (m.mapCloud deviceNs receiveNs).isSome = true ↔
      (m.initialized = true → deviceNs.toNat ≤ int64Max →
        deviceNs.toNat ≤ int64Max - m.offsetNs) := by
  obtain ⟨hlo, hhi⟩ := hm.offset
  unfold mapCloud
  cases hinit : m.initialized with
  | false => simp
  | true =>
    by_cases hdevice : int64Max < deviceNs.toNat
    · simp [hdevice]
    · simp only [Bool.not_true, Bool.false_or, decide_eq_true_eq, if_neg hdevice, mappedTime,
        Option.bind_eq_bind]
      by_cases hfits : Fits (deviceNs.toNat + m.offsetNs)
      · simp only [add_of_fits hfits, Option.bind_some, Option.pure_def, Option.isSome_some, true_iff]
        intro _ _
        have hle := hfits.2
        omega
      · simp only [add_of_not_fits hfits, Option.bind_none, Option.isSome_none, Bool.false_eq_true,
          false_iff]
        intro h
        apply hfits
        have hle := h trivial (by omega)
        simp only [Fits, int64Max] at hlo hle ⊢
        omega

/-- The bounds of the offset and of the last device time survive an observation. -/
theorem Bounded.observed (hm : m.Bounded) (hdevice : 0 ≤ device ∧ device ≤ int64Max)
    (hreceive : 0 ≤ receiveNs ∧ receiveNs ≤ int64Max) :
    (m.observed device (receiveNs - device)).Bounded := by
  obtain ⟨hlo, hhi⟩ := hm.offset
  refine ⟨?_, hdevice⟩
  rcases m.observed_offsetNs device (receiveNs - device) with heq | ⟨-, hge, hle⟩
  · omega
  · omega

end LidarDeviceClockMapper

/-! ### Runs -/

/-- The operations of the mapper. -/
inductive ClockOperation
  | observeOdometry
  | mapCloud
deriving DecidableEq

/-- A call: the device time of the datagram or the frame, and the time of its receipt. -/
structure ClockCall where
  operation : ClockOperation
  deviceNs : UInt64
  receiveNs : Int

namespace ClockCall

/-- What the call returns, and the mapper after it. -/
def apply (c : ClockCall) (m : LidarDeviceClockMapper) : Option (Int × LidarDeviceClockMapper) :=
  match c.operation with
  | .observeOdometry => m.observeOdometry c.deviceNs c.receiveNs
  | .mapCloud => (m.mapCloud c.deviceNs c.receiveNs).map (fun stamp => (stamp, m))

/-- The call observes an offset; a device time out of the range is not mapped. -/
def observes (c : ClockCall) : Bool :=
  c.operation == .observeOdometry && decide (c.deviceNs.toNat ≤ int64Max)

/-- The offset that the call observes. -/
def observedOffset (c : ClockCall) : Int := c.receiveNs - c.deviceNs.toNat

/-- The receiver's clock gives a time that is not negative. -/
def Received (c : ClockCall) : Prop := 0 ≤ c.receiveNs ∧ c.receiveNs ≤ int64Max

instance : DecidablePred Received := fun _ => inferInstanceAs (Decidable (_ ∧ _))

end ClockCall

/-- A call that was made. -/
structure ClockReturn where
  call : ClockCall
  /-- It was an observation that started anew. -/
  reanchored : Bool
  stampNs : Int

/-- A mapper, and the calls so far, newest first. -/
structure ClockRun where
  mapper : LidarDeviceClockMapper := {}
  history : List ClockReturn := []

namespace ClockRun

/-- One call, if its operations stay in the range. -/
def step (c : ClockCall) (s : ClockRun) : Option ClockRun :=
  (c.apply s.mapper).map fun (stampNs, mapper) =>
    { mapper
      history := { call := c
                   reanchored := c.observes && s.mapper.reanchors c.deviceNs.toNat c.observedOffset
                   stampNs } :: s.history }

/-- The states of the runs, from a new mapper, whose every call meets the guard `ok`. -/
def Run (ok : ClockRun → ClockCall → Prop) (s : ClockRun) : Prop := Reaches step ok {} s

end ClockRun

open LidarDeviceClockMapper

variable {s s' : ClockRun} {c : ClockCall} {ok : ClockRun → ClockCall → Prop}

/-- **One call.** It leaves the mapper alone, or makes an observation. -/
theorem ClockCall.apply_cases {m m' : LidarDeviceClockMapper} {stampNs : Int} (hm : m.Bounded)
    (hreceived : c.Received) (h : c.apply m = some (stampNs, m')) :
    (c.observes = false ∧ m' = m ∧ stampNs ≤ c.receiveNs) ∨
      (c.observes = true ∧ m' = m.observed c.deviceNs.toNat c.observedOffset ∧
        stampNs = c.deviceNs.toNat + m'.offsetNs) := by
  unfold apply at h
  split at h
  · rename_i hop
    by_cases hdevice : c.deviceNs.toNat ≤ int64Max
    · -- An observation: it returned, so its tests were in the range.
      refine Or.inr ⟨by simp [observes, hop, hdevice], ?_⟩
      by_cases hfits : m.TestsFit c.deviceNs.toNat (c.receiveNs - c.deviceNs.toNat)
      · rw [observeOdometry_eq hm hdevice hreceived hfits, Option.some.injEq, Prod.mk.injEq] at h
        obtain ⟨rfl, rfl⟩ := h
        exact ⟨rfl, rfl⟩
      · rw [observeOdometry_eq_none hdevice hfits] at h
        exact absurd h (by simp)
    · -- A device time above `INT64_MAX` is not mapped.
      unfold observeOdometry at h
      rw [if_pos (not_le.mp hdevice), Option.some.injEq, Prod.mk.injEq] at h
      obtain ⟨rfl, rfl⟩ := h
      exact Or.inl ⟨by simp [observes, hdevice], rfl, le_refl _⟩
  · rename_i hop
    obtain ⟨stamp, hstamp, heq⟩ := Option.map_eq_some_iff.mp h
    obtain ⟨rfl, rfl⟩ := Prod.mk.inj heq
    refine Or.inl ⟨by simp [observes, hop], rfl, ?_⟩
    -- The stamp of a frame is the time of its receipt, or clamped to it.
    unfold mapCloud at hstamp
    split_ifs at hstamp
    · exact (Option.some.inj hstamp).ge
    · obtain ⟨mapped, -, hmin⟩ := Option.bind_eq_some_iff.mp hstamp
      rw [← Option.some.inj hmin]
      exact min_le_right _ _

/-- **Run lemma.** -/
theorem ClockRun.Run.bounded (h : ClockRun.Run ok s) (hok : ∀ s c, ok s c → c.Received) :
    s.mapper.Bounded := by
  have hreach : Reaches ClockRun.step ok {} s := h
  refine hreach.invariant (I := fun s => s.mapper.Bounded) ⟨by decide, by decide⟩ ?_
  intro s c s' _ hm hguard hs
  obtain ⟨⟨stampNs, mapper⟩, happly, rfl⟩ := Option.map_eq_some_iff.mp hs
  rcases c.apply_cases hm (hok s c hguard) happly with ⟨-, hsame, -⟩ | ⟨hobserves, hobserved, -⟩
  · rw [hsame]
    exact hm
  · simp only [ClockCall.observes, Bool.and_eq_true, decide_eq_true_eq] at hobserves
    rw [hobserved]
    exact hm.observed ⟨Int.natCast_nonneg _, hobserves.2⟩ (hok s c hguard)

end HypertronBridge.Node
