import HypertronBridge.Lidar.Calibration
import HypertronBridge.Lidar.Delivery
import HypertronBridge.Node.Configuration
import Mathlib.Algebra.Order.BigOperators.Group.List

namespace HypertronBridge.Node

open TransitionSystem Blocks Lidar Parameters

/-!
# The point budget

`validate_parameters` bounds what the point-cloud stream can make the node store, "so a malformed/hostile
stream cannot make the assembler allocate tens of gigabytes through valid parameter combinations".

* `Receivers.pointCloud` — the receiver that `create_receivers` makes;
* `delivered_small`, `slots_small` — no frame has more points, and no slot stores more, than the configuration
  allows;
* `stream_within_budget` — the bound, whatever datagrams come and however threads start and stop it.
-/

universe u

variable {ι : Type u} {p : Parameters} {h : HandedOn} {r : Receivers} {s : Assembler}
  {packet : PointCloudPacketResult} {f : PointCloudFrame}

/-- The point-cloud receiver that `create_receivers` makes, with every callback set. -/
def Receivers.pointCloud (r : Receivers) (points : DoubleArithmetic) (odometry : OdometryArithmetic)
    (parse : OdometryConfig) : Receiver.Setup where
  kind := .pointCloud
  pointDoubles := points
  odometryDoubles := odometry
  config := parse
  assemblerConfig := r.assembler
  onFrame := true
  onOdometry := true
  onParseWarning := true

/-! ### Frames -/

/-- A frame that is returned has no more points than the configuration allows. -/
theorem addPacket_small (now : Time) (hslots : 0 < s.slots.length)
    (hf : (s.addPacket packet now).1 = some f) : f.points.length ≤ s.config.maxPointsPerFrame := by
  obtain ⟨hadded, -⟩ := Assembler.addPacket_added packet now hslots
  rw [hf] at hadded
  generalize (s.addPacket packet now).2.slots = slots at hadded
  cases hadded with
  | @taken i base x _ hadmits hslot htaken =>
    cases htaken with
    | published hmeets hjudge hcomplete =>
      simp only [FrameSlot.complete, Bool.and_eq_true, beq_iff_eq] at hcomplete
      have hlength := scan_length hcomplete.2
      have htotal : ((base.declare packet).store packet).total = packet.total := hmeets.declare_total
      simp only [Assembler.admits, Bool.and_eq_true, decide_eq_true_eq] at hadmits
      have hadmitted := hadmits.1.2
      rw [htotal] at hlength
      show (concat ((base.declare packet).store packet).packets.entries).length ≤ _
      omega

/-- So it is with what calls return. -/
theorem call_small (b : Lidar.Action) (hslots : 0 < s.slots.length) :
    ∀ f ∈ s.emitted [b], f.points.length ≤ s.config.maxPointsPerFrame := by
  intro f hf
  rw [Receiver.emitted_singleton, Option.mem_toList] at hf
  cases b with
  | addPacket packet now => exact addPacket_small now hslots hf
  | expire now => exact absurd hf (by simp [Assembler.call])

/-- **Run lemma.** And with what the receiver calls back with. -/
theorem delivered_small [DecidableEq ι] {setup : Receiver.Setup} {s : Receiver ι}
    (hkind : setup.kind = .pointCloud) (hsink : setup.onFrame = true)
    (hpackets : 1 ≤ setup.assemblerConfig.maxPacketsPerFrame) (hrun : Receiver.Run setup s) :
    ∀ f ∈ s.delivered, f.points.length ≤ setup.assemblerConfig.maxPointsPerFrame := by
  refine Reaches.invariant (I := fun s : Receiver ι => ∀ f ∈ s.delivered,
    f.points.length ≤ setup.assemblerConfig.maxPointsPerFrame) hrun (by simp [Receiver.delivered]) ?_
  intro s a s' hrun hI _ hs
  obtain ⟨feed, hfeed, hsame⟩ := Receiver.Run.feed hkind hsink hrun
  have hinv := hfeed.assemblerInv hpackets
  have hpos := hfeed.slots_pos
  rw [hsame] at hpos
  have hconfig : s.assembler.config.maxPointsPerFrame = setup.assemblerConfig.maxPointsPerFrame := by
    rw [← hsame, hinv.configured]
    unfold Assembler.create
    dsimp only
    split_ifs <;> rfl
  rw [(Receiver.step_refines hkind hsink hs).2]
  intro f hf
  rcases List.mem_append.mp hf with hf | hf
  · rw [List.mem_reverse] at hf
    rcases a.calls_cases setup with hcalls | ⟨b, hcalls, -⟩
    · rw [hcalls] at hf
      exact absurd hf (by simp [Assembler.emitted, Assembler.returned])
    · rw [hcalls] at hf
      rw [← hconfig]
      exact call_small b hpos f hf
  · exact hI f hf

/-! ### Slots -/

/-- Every slot of a receiver's assembler is within the limits. -/
theorem slots_small [DecidableEq ι] {setup : Receiver.Setup} {s : Receiver ι}
    (hkind : setup.kind = .pointCloud) (hsink : setup.onFrame = true)
    (hpackets : 1 ≤ setup.assemblerConfig.maxPacketsPerFrame) (hrun : Receiver.Run setup s) :
    s.assembler.slots.length = max 1 setup.assemblerConfig.maxParallelFrames ∧
      ∀ x ∈ s.assembler.slots, x.stored ≤ setup.assemblerConfig.maxPointsPerFrame ∧
        x.packets.size ≤ setup.assemblerConfig.maxPacketsPerFrame := by
  obtain ⟨feed, hfeed, hsame⟩ := Receiver.Run.feed hkind hsink hrun
  obtain ⟨hconfig, hcount, hslots, -⟩ := hfeed.assemblerInv hpackets
  -- the constructor changes the number of slots only
  have hlimits : feed.assembler.config.maxPacketsPerFrame = setup.assemblerConfig.maxPacketsPerFrame ∧
      feed.assembler.config.maxPointsPerFrame = setup.assemblerConfig.maxPointsPerFrame := by
    rw [hconfig]
    unfold Assembler.create
    dsimp only
    split_ifs
    · exact ⟨rfl, rfl⟩
    · exact ⟨rfl, rfl⟩
  rw [← hsame]
  refine ⟨hcount, fun x hx => ⟨?_, ?_⟩⟩
  · rw [← hlimits.2]
    exact (hslots.each x hx).stored_le
  · rw [← hlimits.1]
    cases hactive : x.active with
    | true =>
      have hholds := ((hslots.each x hx).active hactive).2
      rw [← hholds.unique]
      exact hholds.unique_le
    | false =>
      have hnone := (hslots.each x hx).idle hactive
      rw [OrderedMap.size, hnone]
      exact Nat.zero_le _

/-! ### The result -/

/-- **The stream stays within its budget.** When the construction does not throw, and the sizes of the
    assembler fit in 32 bits, then whatever datagrams come, in whatever order and at whatever times, and
    whatever threads call `start()` and `stop()`: the assembler stores at most 20,000,000 points, in at most
    64 frames of at most 65,536 packets; and no frame that is called back with has more than 20,000,000
    points, so that the bytes of its message are counted without wrapping. -/
theorem stream_within_budget [DecidableEq ι] {s : Receiver ι} (points : DoubleArithmetic)
    (odometry : OdometryArithmetic) (parse : OdometryConfig) (hok : construct p = .ok h)
    (hseen : ∀ k ∈ assemblerSizes, p.highWord k = 0) (hr : r ∈ h.receivers)
    (hrun : Receiver.Run (r.pointCloud points odometry parse) s) :
    (s.assembler.slots.map FrameSlot.stored).sum ≤ 20000000 ∧ s.assembler.slots.length ≤ 64 ∧
      (∀ x ∈ s.assembler.slots, x.packets.size ≤ 65536) ∧
      ∀ f ∈ s.delivered, f.points.length ≤ 20000000 ∧
        (16 * UInt32.ofNat f.points.length).toNat = 16 * f.points.length := by
  obtain ⟨hchecks, v, henabled, hlidar, rfl⟩ := construct_ok hok
  have hin : r.InBounds := (receivers_inBounds_iff hchecks henabled hlidar).mpr (fun _ => hseen) r hr
  obtain ⟨hcount, hslots⟩ := slots_small rfl rfl hin.maxPacketsPerFrame.1 hrun
  have hframes := delivered_small rfl rfl hin.maxPacketsPerFrame.1 hrun
  have hlength : s.assembler.slots.length = r.assembler.maxParallelFrames :=
    hcount.trans (Nat.max_eq_right hin.maxParallelFrames.1)
  have hmost : r.assembler.maxPointsPerFrame ≤ 20000000 :=
    (Nat.le_mul_of_pos_left _ hin.maxParallelFrames.1).trans hin.pointBudget
  refine ⟨?_, hlength ▸ hin.maxParallelFrames.2, fun x hx => ?_, fun f hf => ?_⟩
  · calc (s.assembler.slots.map FrameSlot.stored).sum
        ≤ (s.assembler.slots.map FrameSlot.stored).length • r.assembler.maxPointsPerFrame := by
          refine List.sum_le_card_nsmul _ _ (fun n hn => ?_)
          obtain ⟨x, hx, rfl⟩ := List.mem_map.mp hn
          exact (hslots x hx).1
      _ = r.assembler.maxParallelFrames * r.assembler.maxPointsPerFrame := by
          rw [List.length_map, hlength, smul_eq_mul]
      _ ≤ 20000000 := hin.pointBudget
  · exact (hslots x hx).2.trans hin.maxPacketsPerFrame.2
  · have hsmall := (hframes f hf).trans hmost
    have hsize : f.points.length < UInt32.size := hsmall.trans_lt (by decide)
    refine ⟨hsmall, ?_⟩
    rw [UInt32.toNat_mul, UInt32.toNat_ofNat_of_lt' hsize]
    show 16 * f.points.length % 4294967296 = _
    omega

/-- The declared defaults, and a frame in two datagrams. -/
theorem stream_within_budget_metre : ∃ (h : HandedOn) (r : Receivers) (s : Receiver Unit),
    construct {} = .ok h ∧ r ∈ h.receivers ∧ s.delivered.length = 1 ∧
      (s.assembler.slots.map FrameSlot.stored).sum ≤ 20000000 := by
  have hsome : (construct {}).toOption.any (fun h => h.receivers.any (fun r =>
      (execGuarded (Receiver.step (r.pointCloud metreArithmetic unitArithmetic {})) (fun _ _ => True)
        metreDelivery { assembler := .create r.assembler }).any (fun s => s.delivered.length == 1))) =
      true := by decide +kernel
  obtain ⟨h, hh, hsome⟩ := (Option.any_eq_true _ _).mp hsome
  obtain ⟨r, hr, hsome⟩ := (Option.any_eq_true _ _).mp hsome
  obtain ⟨s, hs, hcount⟩ := (Option.any_eq_true _ _).mp hsome
  have hok : construct {} = .ok h := by
    revert hh
    cases construct {} <;> simp [Except.toOption]
  have hrun : Receiver.Run (r.pointCloud metreArithmetic unitArithmetic {}) s :=
    reaches_of_execGuarded metreDelivery .refl hs
  exact ⟨h, r, s, hok, hr, beq_iff_eq.mp hcount,
    (stream_within_budget metreArithmetic unitArithmetic {} hok (by decide +kernel) hr hrun).1⟩

end HypertronBridge.Node
