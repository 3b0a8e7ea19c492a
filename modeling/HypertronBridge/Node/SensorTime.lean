import HypertronBridge.Lib.Checked
import HypertronBridge.Node.ClockMapper
import Mathlib.Data.List.MinMax

namespace HypertronBridge.Node

open Checked TransitionSystem LidarDeviceClockMapper

/-!
# Stamps of the sensor's time

With times that are far from the ends of the range and a device clock that only goes back to start
anew, the stamps of the odometry go forward and none is later than its receipt.  With device times
as the network brings them, an operation can leave the range: `mapping_overflows`.

* `Steady` — what the two clocks promise; `SensorTime` — what the mapper promises then;
* `sensor_time_is_monotone` — in every run of steady clocks;
* `ClockCall.InRange`, `mapping_stays_in_range` — where exactly the operations stay in the range.
-/

variable {s s' : ClockRun} {c : ClockCall} {ok : ClockRun → ClockCall → Prop}

/-! ### Out of the range -/

/-- The tests of an odometry datagram, and the sum for a frame, stay in the range. -/
def ClockCall.InRange (c : ClockCall) (m : LidarDeviceClockMapper) : Prop :=
  m.initialized = true → c.deviceNs.toNat ≤ int64Max →
    match c.operation with
    | .observeOdometry => c.deviceNs.toNat ≤ int64Max - kRestartToleranceNs ∧
        (c.observedOffset - m.offsetNs).natAbs ≤ int64Max
    | .mapCloud => c.deviceNs.toNat ≤ int64Max - m.offsetNs

/-- The calls of a sequence in turn; none where an operation left the range. -/
def ClockRun.calls : List ClockCall → ClockRun → Option ClockRun
  | [], s => some s
  | c :: cs, s => (ClockRun.step c s).bind (ClockRun.calls cs)

/-- Every call of a sequence is in range of the mapper that it meets. -/
def ClockRun.CallsInRange : List ClockCall → ClockRun → Prop
  | [], _ => True
  | c :: cs, s => c.InRange s.mapper ∧ ∀ s', ClockRun.step c s = some s' → ClockRun.CallsInRange cs s'

/-- **The defect.** The greatest device time that is mapped at all overflows the restart test. -/
theorem mapping_overflows : ¬ ∀ cs : List ClockCall,
    (∀ c ∈ cs, c.Received) → (ClockRun.calls cs {}).isSome = true := by
  intro hall
  have hsome := hall [⟨.observeOdometry, 0, 0⟩, ⟨.observeOdometry, 9223372036854775807, 0⟩] (by decide)
  exact absurd hsome (by decide)

/-- Where a call returns. -/
theorem ClockRun.isSome_step (hm : s.mapper.Bounded) (hc : c.Received) :
    (ClockRun.step c s).isSome = true ↔ c.InRange s.mapper := by
  unfold ClockRun.step ClockCall.apply ClockCall.InRange
  rw [Option.isSome_map]
  cases c.operation with
  | observeOdometry =>
    dsimp only
    by_cases hdevice : c.deviceNs.toNat ≤ int64Max
    · by_cases hfits : s.mapper.TestsFit c.deviceNs.toNat c.observedOffset
      · rw [observeOdometry_eq hm hdevice hc hfits]
        exact ⟨fun _ hinit _ => hfits hinit, fun _ => rfl⟩
      · rw [observeOdometry_eq_none hdevice hfits]
        exact ⟨fun hsome => absurd hsome (by simp), fun h => absurd (fun hinit => h hinit hdevice) hfits⟩
    · unfold observeOdometry
      rw [if_pos (not_le.mp hdevice)]
      exact ⟨fun _ _ hle => absurd hle hdevice, fun _ => rfl⟩
  | mapCloud =>
    dsimp only
    rw [Option.isSome_map]
    exact mapCloud_isSome hm

/-- **Run lemma.** From any state that the calls so far have led to. -/
theorem ClockRun.isSome_calls (cs : List ClockCall) (hrun : ClockRun.Run (fun _ c => c.Received) s)
    (hcs : ∀ c ∈ cs, c.Received) :
    (ClockRun.calls cs s).isSome = true ↔ ClockRun.CallsInRange cs s := by
  induction cs generalizing s with
  | nil => exact ⟨fun _ => trivial, fun _ => rfl⟩
  | cons c cs ih =>
    obtain ⟨hc, hcs⟩ := List.forall_mem_cons.mp hcs
    have hstep := ClockRun.isSome_step (hrun.bounded (fun _ _ h => h)) hc
    show ((ClockRun.step c s).bind (ClockRun.calls cs)).isSome = true ↔
      c.InRange s.mapper ∧ ∀ s', ClockRun.step c s = some s' → ClockRun.CallsInRange cs s'
    rw [← hstep]
    cases hs : ClockRun.step c s with
    | none => exact ⟨fun hsome => absurd hsome (by simp), fun h => absurd h.1 (by simp)⟩
    | some s₁ =>
      have hrest := ih (hrun.tail hc hs) hcs
      refine ⟨fun hsome => ⟨rfl, fun s' hs' => ?_⟩, fun h => hrest.mpr (h.2 s₁ rfl)⟩
      obtain rfl := Option.some.inj hs'
      exact hrest.mp hsome

/-- **The mapper's arithmetic.** A sequence of calls, with any device times and any times of receipt
    that are not negative, stays in the range exactly when the tests and the sum of each call do. -/
theorem mapping_stays_in_range (cs : List ClockCall) (hcs : ∀ c ∈ cs, c.Received) :
    (ClockRun.calls cs {}).isSome = true ↔ ClockRun.CallsInRange cs {} :=
  ClockRun.isSome_calls cs .refl hcs

/-- A datagram a second before the end of the range, after one at the start of the clocks. -/
theorem mapping_stays_in_range_late :
    (ClockRun.calls [⟨.observeOdometry, 0, 0⟩, ⟨.observeOdometry, 9223372035854775807, 0⟩] {}).isSome =
      true ∧
    ClockRun.CallsInRange [⟨.observeOdometry, 0, 0⟩, ⟨.observeOdometry, 9223372035854775807, 0⟩] {} := by
  have hreturns : (ClockRun.calls
    [⟨.observeOdometry, 0, 0⟩, ⟨.observeOdometry, 9223372035854775807, 0⟩] {}).isSome = true := by decide
  exact ⟨hreturns, (mapping_stays_in_range _ (by decide)).mp hreturns⟩

/-! ### Steady clocks -/

/-- The calls of `observe_odometry`, newest first. -/
def odometry (h : List ClockReturn) : List ClockReturn :=
  h.filter (fun r => r.call.operation == .observeOdometry)

/-- The offsets that were observed since an observation last started anew, that one included. -/
def observedOffsets : List ClockReturn → List Int
  | [] => []
  | r :: older =>
      if r.call.observes then
        r.call.observedOffset :: if r.reanchored then [] else observedOffsets older
      else observedOffsets older

/-- Half of the range. -/
def steadyMax : Int := 4611686018427387904

/-- The receiver's clock does not go back, the device clock goes back by more than a second or not at
    all, and both are in the first half of the range. -/
structure Steady (s : ClockRun) (c : ClockCall) : Prop where
  receive : 0 ≤ c.receiveNs ∧ c.receiveNs < steadyMax
  receive_le : ∀ r ∈ s.history.head?, r.call.receiveNs ≤ c.receiveNs
  device : c.deviceNs.toNat < steadyMax
  device_le : c.operation = .observeOdometry → ∀ r ∈ (odometry s.history).head?,
    (r.call.deviceNs.toNat : Int) ≤ c.deviceNs.toNat ∨
      (c.deviceNs.toNat : Int) + kRestartToleranceNs < r.call.deviceNs.toNat

instance : Decidable (Steady s c) :=
  decidable_of_iff ((0 ≤ c.receiveNs ∧ c.receiveNs < steadyMax) ∧
      (∀ r ∈ s.history.head?, r.call.receiveNs ≤ c.receiveNs) ∧ c.deviceNs.toNat < steadyMax ∧
      (c.operation = .observeOdometry → ∀ r ∈ (odometry s.history).head?,
        (r.call.deviceNs.toNat : Int) ≤ c.deviceNs.toNat ∨
          (c.deviceNs.toNat : Int) + kRestartToleranceNs < r.call.deviceNs.toNat))
    ⟨fun ⟨h₁, h₂, h₃, h₄⟩ => ⟨h₁, h₂, h₃, h₄⟩, fun h => ⟨h.receive, h.receive_le, h.device, h.device_le⟩⟩

/-- What is promised of a run. -/
structure SensorTime (s : ClockRun) : Prop where
  stamp_le : ∀ r ∈ s.history, r.stampNs ≤ r.call.receiveNs
  monotone : ((odometry s.history).map (fun r => r.stampNs)).Pairwise (fun newer older => older ≤ newer)
  offset : ∀ lo ∈ (observedOffsets s.history).min?, ∀ hi ∈ (observedOffsets s.history).max?,
    lo ≤ s.mapper.offsetNs ∧ s.mapper.offsetNs ≤ hi
  returns : ∀ c, Steady s c → (ClockRun.step c s).isSome = true

theorem Steady.received (h : Steady s c) : c.Received := by
  have hlt := h.receive
  simp only [steadyMax] at hlt
  simp only [ClockCall.Received, int64Max]
  omega

/-- What a run of steady clocks keeps. -/
structure SteadyInv (s : ClockRun) : Prop where
  initialized : s.mapper.initialized = (odometry s.history).head?.isSome
  /-- The latest odometry stamp is that of the last device time, under the offset. -/
  latest : ∀ r ∈ (odometry s.history).head?, s.mapper.lastDeviceNs = r.call.deviceNs.toNat ∧
    r.stampNs = r.call.deviceNs.toNat + s.mapper.offsetNs
  offset : -steadyMax < s.mapper.offsetNs ∧ s.mapper.offsetNs < steadyMax
  stamp_le : ∀ r ∈ s.history, r.stampNs ≤ r.call.receiveNs
  received : ∀ newest ∈ s.history.head?, ∀ r ∈ s.history, r.call.receiveNs ≤ newest.call.receiveNs
  monotone : ((odometry s.history).map (fun r => r.stampNs)).Pairwise (fun newer older => older ≤ newer)
  unobserved : s.mapper.initialized = false → observedOffsets s.history = []
  observed : s.mapper.initialized = true →
    (∃ lo ∈ observedOffsets s.history, lo ≤ s.mapper.offsetNs) ∧
      ∃ hi ∈ observedOffsets s.history, s.mapper.offsetNs ≤ hi

/-- A steady call stays in the range. -/
theorem SteadyInv.inRange (hinv : SteadyInv s) (hc : Steady s c) : c.InRange s.mapper := by
  intro _ _
  obtain ⟨hlo, hhi⟩ := hinv.offset
  have hreceive := hc.receive
  have hdevice := hc.device
  simp only [steadyMax] at hlo hhi hreceive hdevice
  split
  · simp only [ClockCall.observedOffset, int64Max, kRestartToleranceNs]
    omega
  · simp only [int64Max]
    omega

/-- No call was received later than this one. -/
theorem SteadyInv.received_le (hinv : SteadyInv s) (hc : Steady s c) :
    ∀ r ∈ s.history, r.call.receiveNs ≤ c.receiveNs := by
  intro r hr
  cases hhistory : s.history with
  | nil =>
    rw [hhistory] at hr
    exact absurd hr (by simp)
  | cons newest older =>
    have hhead : newest ∈ s.history.head? := by rw [hhistory]; rfl
    exact (hinv.received newest hhead r hr).trans (hc.receive_le newest hhead)

/-- An observation that follows the old offset comes from a device time that has not gone back. -/
theorem SteadyInv.follows (hinv : SteadyInv s) (hc : Steady s c) (hop : c.operation = .observeOdometry)
    (hreanchors : s.mapper.reanchors c.deviceNs.toNat c.observedOffset = false) :
    ∃ r, (odometry s.history).head? = some r ∧ r.call.deviceNs.toNat ≤ c.deviceNs.toNat := by
  simp only [reanchors, Bool.or_eq_false_iff, Bool.not_eq_false', decide_eq_false_iff_not] at hreanchors
  obtain ⟨⟨hinit, hnot⟩, -⟩ := hreanchors
  rw [hinv.initialized] at hinit
  obtain ⟨r, hr⟩ := Option.isSome_iff_exists.mp hinit
  refine ⟨r, hr, ?_⟩
  rw [(hinv.latest r hr).1] at hnot
  have hle := (hc.device_le hop r hr).resolve_right hnot
  omega

/-- **Step lemma, an observation.** -/
theorem SteadyInv.observe (hinv : SteadyInv s) (hc : Steady s c) (hobserves : c.observes = true)
    {m : LidarDeviceClockMapper} (hm : m = s.mapper.observed c.deviceNs.toNat c.observedOffset)
    {r : ClockReturn} (hcall : r.call = c)
    (hreanchored : r.reanchored = s.mapper.reanchors c.deviceNs.toNat c.observedOffset)
    (hstamp : r.stampNs = c.deviceNs.toNat + m.offsetNs) : SteadyInv ⟨m, r :: s.history⟩ := by
  have hop : c.operation = .observeOdometry := by
    simp only [ClockCall.observes, Bool.and_eq_true, beq_iff_eq] at hobserves
    exact hobserves.1
  have hodometry : odometry (r :: s.history) = r :: odometry s.history :=
    List.filter_cons_of_pos (by rw [hcall, hop]; rfl)
  have hoffset := s.mapper.observed_offsetNs c.deviceNs.toNat c.observedOffset
  have hoffset_le := s.mapper.observed_offsetNs_le c.deviceNs.toNat c.observedOffset
  rw [← hm] at hoffset hoffset_le
  have hobserved : c.observedOffset = c.receiveNs - c.deviceNs.toNat := rfl
  have hle : r.stampNs ≤ c.receiveNs := by omega
  constructor
  -- the mapper is initialized, and this call is the latest one of the odometry
  · show m.initialized = (odometry (r :: s.history)).head?.isSome
    rw [hm, hodometry]
    rfl
  · show ∀ r' ∈ (odometry (r :: s.history)).head?, _
    rw [hodometry]
    rintro r' hr'
    rw [← Option.some.inj hr', hcall, hm]
    exact ⟨rfl, by rw [hstamp, hm]⟩
  -- the offset is that of two steady times, or between the old one and such a one
  · show -steadyMax < m.offsetNs ∧ m.offsetNs < steadyMax
    obtain ⟨hlo, hhi⟩ := hinv.offset
    have hreceive := hc.receive
    have hdevice := hc.device
    rcases hoffset with heq | ⟨-, hge, -⟩
    · omega
    · omega
  · intro r' hr'
    rcases List.mem_cons.mp hr' with rfl | hr'
    · rw [hcall]
      exact hle
    · exact hinv.stamp_le r' hr'
  · rintro newest hhead r' hr'
    rw [← Option.some.inj hhead, hcall]
    rcases List.mem_cons.mp hr' with rfl | hr'
    · rw [hcall]
    · exact hinv.received_le hc r' hr'
  -- no earlier stamp is later than the new one
  · show ((odometry (r :: s.history)).map _).Pairwise _
    rw [hodometry, List.map_cons, List.pairwise_cons]
    refine ⟨fun older hmem => ?_, hinv.monotone⟩
    obtain ⟨r', hr', rfl⟩ := List.mem_map.mp hmem
    have hr'mem : r' ∈ s.history := (List.mem_filter.mp hr').1
    rcases hoffset with heq | ⟨hreanchors, hge, -⟩
    · -- The stamp is the time of receipt.
      have hr'le := (hinv.stamp_le r' hr'mem).trans (hinv.received_le hc r' hr'mem)
      omega
    · -- Both the device time and the offset have gone up.
      obtain ⟨latest, hlatest, hdevice⟩ := hinv.follows hc hop hreanchors
      have hsum := (hinv.latest latest hlatest).2
      have hr'le : r'.stampNs ≤ latest.stampNs := by
        have hsorted := hinv.monotone
        obtain ⟨rest, hrest⟩ := List.head?_eq_some_iff.mp hlatest
        rw [hrest, List.map_cons, List.pairwise_cons] at hsorted
        rw [hrest] at hr'
        rcases List.mem_cons.mp hr' with rfl | hr'
        · exact le_refl _
        · exact hsorted.1 _ (List.mem_map_of_mem hr')
      omega
  · intro hinit
    rw [hm] at hinit
    exact absurd hinit (by simp [LidarDeviceClockMapper.observed])
  -- the offset just observed bounds the new one from above; from below an older one may
  · intro _
    show (∃ lo ∈ observedOffsets (r :: s.history), lo ≤ m.offsetNs) ∧
      ∃ hi ∈ observedOffsets (r :: s.history), m.offsetNs ≤ hi
    have hself : c.observedOffset ∈ observedOffsets (r :: s.history) := by
      rw [observedOffsets, if_pos (hcall ▸ hobserves), hcall]
      exact List.mem_cons_self
    rcases hoffset with heq | ⟨hreanchors, hge, hup⟩
    · exact ⟨⟨_, hself, heq.ge⟩, ⟨_, hself, heq.le⟩⟩
    · have hinit : s.mapper.initialized = true := by
        simp only [reanchors, Bool.or_eq_false_iff, Bool.not_eq_false'] at hreanchors
        exact hreanchors.1.1
      obtain ⟨⟨lo, hlo, hlole⟩, -⟩ := hinv.observed hinit
      refine ⟨⟨lo, ?_, hlole.trans hge⟩, ⟨_, hself, hup⟩⟩
      rw [observedOffsets, if_pos (hcall ▸ hobserves), hreanchored, hreanchors]
      exact List.mem_cons_of_mem _ hlo

/-- **Step lemma, a call that makes no observation.** -/
theorem SteadyInv.quiet (hinv : SteadyInv s) (hc : Steady s c) (hobserves : c.observes = false)
    {r : ClockReturn} (hcall : r.call = c) (hstamp : r.stampNs ≤ c.receiveNs) :
    SteadyInv ⟨s.mapper, r :: s.history⟩ := by
  have hop : (c.operation == .observeOdometry) = false := by
    have hdevice : c.deviceNs.toNat ≤ int64Max := by
      have hlt := hc.device
      simp only [steadyMax] at hlt
      simp only [int64Max]
      omega
    simpa [ClockCall.observes, hdevice] using hobserves
  have hodometry : odometry (r :: s.history) = odometry s.history :=
    List.filter_cons_of_neg (by rw [hcall, hop]; simp)
  have hoffsets : observedOffsets (r :: s.history) = observedOffsets s.history := by
    rw [observedOffsets, hcall, hobserves]
    rfl
  constructor
  · exact hinv.initialized.trans (by rw [← hodometry])
  · show ∀ r' ∈ (odometry (r :: s.history)).head?, _
    rw [hodometry]
    exact hinv.latest
  · exact hinv.offset
  · intro r' hr'
    rcases List.mem_cons.mp hr' with rfl | hr'
    · rw [hcall]
      exact hstamp
    · exact hinv.stamp_le r' hr'
  · rintro newest hhead r' hr'
    rw [← Option.some.inj hhead, hcall]
    rcases List.mem_cons.mp hr' with rfl | hr'
    · rw [hcall]
    · exact hinv.received_le hc r' hr'
  · show ((odometry (r :: s.history)).map _).Pairwise _
    rw [hodometry]
    exact hinv.monotone
  · show _ → observedOffsets (r :: s.history) = []
    rw [hoffsets]
    exact hinv.unobserved
  · show _ → (∃ lo ∈ observedOffsets (r :: s.history), _) ∧ ∃ hi ∈ observedOffsets (r :: s.history), _
    rw [hoffsets]
    exact hinv.observed

/-- **Step lemma.** -/
theorem SteadyInv.step (hinv : SteadyInv s) (hm : s.mapper.Bounded) (hc : Steady s c)
    (hs : ClockRun.step c s = some s') : SteadyInv s' := by
  obtain ⟨⟨stampNs, mapper⟩, happly, rfl⟩ := Option.map_eq_some_iff.mp hs
  rcases c.apply_cases hm hc.received happly with ⟨hobserves, rfl, hle⟩ | ⟨hobserves, heq, hstamp⟩
  · exact hinv.quiet hc hobserves rfl hle
  · exact hinv.observe hc hobserves heq rfl (by rw [hobserves]; rfl) hstamp

/-- **Run lemma.** -/
theorem ClockRun.Run.steadyInv (h : ClockRun.Run Steady s) : SteadyInv s := by
  have hreach : Reaches ClockRun.step Steady {} s := h
  refine hreach.invariant ?_ (fun s c s' (hrun : ClockRun.Run Steady s) hinv hc hs =>
    hinv.step (hrun.bounded (fun _ _ hok => hok.received)) hc hs)
  exact ⟨rfl, by simp [odometry], by decide, by simp, by simp, by simp [odometry], fun _ => rfl, by simp⟩

/-- **Monotone sensor time.** In every run of steady clocks no stamp is later than its receipt, the
    stamps of the odometry never decrease, the offset lies between the observed ones since the last
    one that started anew, and every call returns. -/
theorem sensor_time_is_monotone (hrun : ClockRun.Run Steady s) : SensorTime s := by
  have hinv := hrun.steadyInv
  have hm : s.mapper.Bounded := hrun.bounded (fun _ _ h => h.received)
  refine ⟨hinv.stamp_le, hinv.monotone, fun lo hlo hi hhi => ?_, fun c hc => ?_⟩
  · have hinit : s.mapper.initialized = true := by
      by_contra hnot
      rw [hinv.unobserved (by simpa using hnot)] at hlo
      exact absurd hlo (by simp)
    obtain ⟨⟨lo', hlo', hle⟩, hi', hhi', hge⟩ := hinv.observed hinit
    exact ⟨((List.min?_eq_some_iff.mp hlo).2 lo' hlo').trans hle,
      hge.trans ((List.max?_eq_some_iff.mp hhi).2 hi' hhi')⟩
  · exact (ClockRun.isSome_step hm hc.received).mpr (hinv.inRange hc)

/-- An odometry datagram, a frame, a datagram with less delay, one with more, and one after a restart
    of the device. -/
def restartedClock : List ClockCall :=
  [⟨.observeOdometry, 5000000000, 9000000000⟩, ⟨.mapCloud, 5100000000, 9100000000⟩,
    ⟨.observeOdometry, 5200000000, 9150000000⟩, ⟨.observeOdometry, 5300000000, 9350000000⟩,
    ⟨.observeOdometry, 100000000, 9400000000⟩]

/-- The offset goes down to the smaller delay, up by a 64th, and starts anew. -/
theorem sensor_time_is_monotone_restarted : ∃ s : ClockRun, ClockRun.Run Steady s ∧
    (odometry s.history).map (fun r => (r.stampNs, r.reanchored)) =
      [(9400000000, true), (9251562500, false), (9150000000, false), (9000000000, true)] ∧
    SensorTime s := by
  obtain ⟨s, hex, hs⟩ := Option.any_eq_true _ _ |>.mp (show
    (execGuarded ClockRun.step Steady restartedClock {}).any (fun s =>
      decide ((odometry s.history).map (fun r => (r.stampNs, r.reanchored)) =
        [(9400000000, true), (9251562500, false), (9150000000, false), (9000000000, true)])) = true
    by decide +kernel)
  have hrun : ClockRun.Run Steady s := reaches_of_execGuarded _ .refl hex
  exact ⟨s, hrun, of_decide_eq_true hs, sensor_time_is_monotone hrun⟩

end HypertronBridge.Node
