import HypertronBridge.Lidar.Slots

namespace HypertronBridge.Lidar

open Blocks TransitionSystem

/-!
# The counters of the assembler add up

Each call of `add_packet` is counted once, by what becomes of its packet, and each frame that is begun
is counted once, by how it ends, or is in flight.

* `Stats.calls`, `Stats.ended` — the two sums;
* `Counted` — by how much they grow from one state to another, with the frames in flight;
* `Assembler.addPacket_counted`, `Assembler.expire_counted` — what a call counts;
* `counters_add_up` — in every run.
-/

variable {s s' s'' : Assembler} {packet : PointCloudPacketResult} {now : Time} {ts : UInt64} {i : Nat}
  {x y : FrameSlot} {config : AssemblerConfig} {m n m' n' : Nat}

/-! ### The two sums -/

/-- The calls of `add_packet` that the counters show. -/
def Stats.calls (stats : Stats) : Nat :=
  stats.packetsAccepted + stats.packetsDuplicated + stats.packetsRejected + stats.framesDroppedConflict

/-- The frames whose end the counters show. -/
def Stats.ended (stats : Stats) : Nat :=
  stats.framesPublished + stats.framesDroppedTimeout + stats.framesDroppedConflict +
    stats.framesDroppedCapacity

/-- The counters show `m` more calls, and with the frames in flight `n` more frames. -/
structure Counted (s s' : Assembler) (m n : Nat) : Prop where
  calls : s'.stats.calls = s.stats.calls + m
  frames : s'.stats.ended + s'.inFlightCount = s.stats.ended + s.inFlightCount + n

theorem Counted.refl : Counted s s 0 0 := ⟨rfl, rfl⟩

theorem Counted.trans (h : Counted s s' m n) (h' : Counted s' s'' m' n') :
    Counted s s'' (m + m') (n + n') :=
  ⟨by rw [h'.calls, h.calls, Nat.add_assoc], by rw [h'.frames, h.frames, Nat.add_assoc]⟩

/-! ### One slot changes -/

/-- The number of active slots, where one changes. -/
theorem countP_active_set {slots : List FrameSlot} (hx : slots[i]? = some x) (y : FrameSlot) :
    (slots.set i y).countP (fun x => x.active) + x.active.toNat =
      slots.countP (fun x => x.active) + y.active.toNat := by
  obtain ⟨hi, rfl⟩ := List.getElem?_eq_some_iff.mp hx
  rw [List.countP_set hi]
  cases hactive : slots[i].active with
  | false => cases y.active <;> simp
  | true =>
    have hpos : 0 < slots.countP (fun x => x.active) :=
      List.countP_pos_iff.mpr ⟨slots[i], List.getElem_mem hi, hactive⟩
    cases y.active
    all_goals
      simp
      omega

/-- A slot that stays as active as it was. -/
theorem Counted.set (hx : s.slots[i]? = some x) (hy : y.active = x.active) :
    Counted s { s with slots := s.slots.set i y } 0 0 := by
  refine ⟨rfl, ?_⟩
  have hcount := countP_active_set hx y
  rw [hy] at hcount
  show s.stats.ended + (s.slots.set i y).countP (fun x => x.active) = _
  unfold Assembler.inFlightCount
  omega

namespace Assembler

/-- A rejected packet. -/
theorem reject_counted (s : Assembler) : Counted s s.reject 1 0 := by
  refine ⟨?_, rfl⟩
  simp only [reject, Stats.calls]
  omega

/-- A frame that is dropped for a conflict: its packet is counted with it. -/
theorem conflict_counted (hx : s.slots[i]? = some x) (hactive : x.active = true) :
    Counted s (s.finalizeSlot i .conflict) 1 0 := by
  have hcount := countP_active_set hx x.clear
  rw [hactive] at hcount
  unfold finalizeSlot
  rw [hx]
  dsimp only
  rw [if_pos hactive]
  constructor
  · simp only [countDrop, Stats.calls]
    omega
  · show (countDrop s.stats .conflict).ended + (s.slots.set i x.clear).countP (fun x => x.active) =
      s.stats.ended + s.slots.countP (fun x => x.active) + 0
    simp only [countDrop, Stats.ended, FrameSlot.clear, Bool.toNat_true, Bool.toNat_false] at hcount ⊢
    omega

/-- A frame that is finalized as published leaves the count to its caller. -/
theorem published_inFlightCount (hx : s.slots[i]? = some x) (hactive : x.active = true) :
    (s.finalizeSlot i .published).stats = s.stats ∧
      (s.finalizeSlot i .published).inFlightCount + 1 = s.inFlightCount := by
  have hcount := countP_active_set hx x.clear
  rw [hactive] at hcount
  unfold finalizeSlot
  rw [hx]
  dsimp only
  rw [if_pos hactive]
  refine ⟨rfl, ?_⟩
  show (s.slots.set i x.clear).countP (fun x => x.active) + 1 = s.slots.countP (fun x => x.active)
  simpa [FrameSlot.clear] using hcount

/-! ### The operations -/

/-- The slot for a new frame is idle, and an evicted frame is counted. -/
theorem chooseSlot_counted (hslots : 0 < s.slots.length) :
    Counted s s.chooseSlot.2 0 0 ∧
      ∃ x, s.chooseSlot.2.slots[s.chooseSlot.1]? = some x ∧ x.active = false := by
  unfold chooseSlot
  split
  · rename_i i hfree
    obtain ⟨hi, hidle, -⟩ := List.findIdx?_eq_some_iff_getElem.mp hfree
    exact ⟨.refl, s.slots[i], List.getElem?_eq_getElem hi, by simpa using hidle⟩
  · rename_i hfull
    obtain ⟨o, ho, hlt⟩ := oldestSlot_lt s.slots 0 none (by simp)
      (Or.inl (List.ne_nil_of_length_pos hslots))
    rw [Nat.zero_add] at hlt
    have hx : s.slots[o.1]? = some s.slots[o.1] := List.getElem?_eq_getElem hlt
    have hactive : s.slots[o.1].active = true := by
      simpa using List.findIdx?_eq_none_iff.mp hfull _ (List.getElem_mem hlt)
    obtain ⟨hstats, hcount⟩ := published_inFlightCount hx hactive
    rw [ho]
    refine ⟨⟨?_, ?_⟩, s.slots[o.1].clear, ?_, rfl⟩
    · show (s.finalizeSlot o.1 .published).stats.calls = s.stats.calls
      rw [hstats]
    · -- the frame leaves the slots and enters the counter
      show (s.finalizeSlot o.1 .published).stats.framesPublished +
          (s.finalizeSlot o.1 .published).stats.framesDroppedTimeout +
          (s.finalizeSlot o.1 .published).stats.framesDroppedConflict +
          ((s.finalizeSlot o.1 .published).stats.framesDroppedCapacity + 1) +
          (s.finalizeSlot o.1 .published).inFlightCount =
        s.stats.framesPublished + s.stats.framesDroppedTimeout + s.stats.framesDroppedConflict +
          s.stats.framesDroppedCapacity + s.inFlightCount
      rw [hstats]
      omega
    · show (s.finalizeSlot o.1 .published).slots[o.1]? = _
      rw [finalizeSlot_active _ hx hactive]
      exact List.getElem?_set_self hlt

/-- A frame is begun where none is found, and then its slot is active. -/
theorem slotForTimestamp_counted (ts : UInt64) (now : Time) (hslots : 0 < s.slots.length) :
    Counted s (s.slotForTimestamp ts now).2 0 (s.findSlot ts).isNone.toNat ∧
      ∃ x, (s.slotForTimestamp ts now).2.slots[(s.slotForTimestamp ts now).1]? = some x ∧
        x.active = true := by
  unfold slotForTimestamp
  split
  · rename_i i hfind
    obtain ⟨x, hx, hactive, -⟩ := findSlot_eq_some hfind
    rw [hfind]
    exact ⟨.refl, x, hx, hactive⟩
  · rename_i hnone
    rw [hnone]
    obtain ⟨hcounted, x, hx, hidle⟩ := s.chooseSlot_counted hslots
    have hmodify : s.chooseSlot.2.slots.modify s.chooseSlot.1 (FrameSlot.activate ts now) =
        s.chooseSlot.2.slots.set s.chooseSlot.1 (x.activate ts now) := by
      rw [List.modify_eq_set_getElem?, hx]
      rfl
    have hcount := countP_active_set hx (x.activate ts now)
    have hactive : (x.activate ts now).active = true := rfl
    rw [hidle, hactive, Bool.toNat_false, Bool.toNat_true] at hcount
    have hframes := hcounted.frames
    dsimp only
    rw [hmodify]
    refine ⟨⟨hcounted.calls, ?_⟩, x.activate ts now, ?_, rfl⟩
    · show s.chooseSlot.2.stats.ended +
        (s.chooseSlot.2.slots.set s.chooseSlot.1 (x.activate ts now)).countP (fun x => x.active) = _
      unfold inFlightCount at hframes ⊢
      simp only [Option.isNone_none, Bool.toNat_true]
      omega
    · exact List.getElem?_set_self (List.getElem?_eq_some_iff.mp hx).1

/-- What happens from the completion check on: a published frame is counted as such, and no other is
    dropped. -/
theorem emit_counted (hx : s.slots[i]? = some x) (hactive : x.active = true) :
    Counted s (s.emit i x).2 0 0 := by
  unfold emit
  split_ifs with hincomplete hsize
  · exact .refl
  · -- the scan has counted the points
    simp only [Bool.not_eq_true', Bool.not_eq_false, FrameSlot.complete, Bool.and_eq_true,
      beq_iff_eq] at hincomplete
    have hlength := scan_length hincomplete.2
    rw [Nat.zero_add] at hlength
    exact absurd hlength.symm hsize
  · obtain ⟨hstats, hcount⟩ := published_inFlightCount
      (s := { s with stats.framesPublished := s.stats.framesPublished + 1 }) hx hactive
    constructor
    · show (finalizeSlot _ i .published).stats.calls = _
      rw [hstats]
      rfl
    · show (finalizeSlot _ i .published).stats.ended + (finalizeSlot _ i .published).inFlightCount = _
      rw [hstats]
      show s.stats.framesPublished + 1 + s.stats.framesDroppedTimeout + s.stats.framesDroppedConflict +
          s.stats.framesDroppedCapacity + _ =
        s.stats.framesPublished + s.stats.framesDroppedTimeout + s.stats.framesDroppedConflict +
          s.stats.framesDroppedCapacity + s.inFlightCount
      have hcount : _ + 1 = s.inFlightCount := hcount
      omega

/-- **From the slot on**, each way out counts the call once. -/
theorem addToSlot_counted (packet : PointCloudPacketResult) (hx : s.slots[i]? = some x)
    (hactive : x.active = true) :
    Counted s (s.addToSlot i x packet).2 1 0 := by
  have hi : i < s.slots.length := (List.getElem?_eq_some_iff.mp hx).1
  have hdeclared : (x.declare packet).active = true := by
    unfold FrameSlot.declare
    split_ifs <;> exact hactive
  have hset : Counted s { s with slots := s.slots.set i (x.declare packet) } 0 0 :=
    .set hx (hdeclared.trans hactive.symm)
  have hget : (s.slots.set i (x.declare packet))[i]? = some (x.declare packet) :=
    List.getElem?_set_self hi
  unfold addToSlot
  split_ifs
  · exact conflict_counted hx hactive
  · dsimp only
    split
    · -- a duplicate
      refine ⟨?_, hset.frames⟩
      simp only [Stats.calls]
      omega
    · exact hset.trans (reject_counted _)
    · exact hset.trans (conflict_counted hget hdeclared)
    · -- an accepted packet is counted before the completion check
      have hstored : Counted s { s with
          slots := (s.slots.set i (x.declare packet)).set i ((x.declare packet).store packet)
          stats.packetsAccepted := s.stats.packetsAccepted + 1 } 1 0 := by
        have hstore := hset.trans (Counted.set (y := (x.declare packet).store packet) hget rfl)
        refine ⟨?_, hstore.frames⟩
        simp only [Stats.calls]
        omega
      refine hstored.trans (emit_counted (x := (x.declare packet).store packet) ?_ hdeclared)
      exact List.getElem?_set_self (by rw [List.length_set]; exact hi)

/-- **A call of `add_packet`.** -/
theorem addPacket_counted (packet : PointCloudPacketResult) (now : Time)
    (hslots : 0 < s.slots.length) :
    Counted s (s.addPacket packet now).2 1 (s.activates packet).toNat := by
  unfold addPacket activates
  split_ifs with hok htotal hrange
  · have hadmits : s.admits packet = false := by
      simp only [Bool.not_eq_true'] at hok
      simp [admits, hok]
    rw [hadmits]
    exact s.reject_counted
  · have hadmits : s.admits packet = false := by
      unfold admits
      rcases htotal with hzero | hlarge
      · simp [hzero]
      · simp [Nat.not_le.mpr hlarge]
    rw [hadmits]
    exact s.reject_counted
  · have hadmits : s.admits packet = false := by simp [admits, hrange]
    rw [hadmits]
    split
    · rename_i i hfind
      obtain ⟨x, hx, hactive, -⟩ := findSlot_eq_some hfind
      exact conflict_counted hx hactive
    · exact s.reject_counted
  · have hadmits : s.admits packet = true := by
      rw [not_or, Nat.not_lt] at htotal
      simp only [Bool.not_eq_true', Bool.not_eq_false, Bool.not_eq_true] at hok hrange
      simp [admits, hok, htotal, hrange]
    rw [hadmits, Bool.true_and]
    obtain ⟨hcounted, x, hx, hactive⟩ := s.slotForTimestamp_counted packet.timestampNs now hslots
    dsimp only
    rw [hx]
    have hcall := hcounted.trans (addToSlot_counted packet hx hactive)
    rwa [Nat.zero_add] at hcall

/-- **A call of `expire`.** -/
theorem expire_counted (s : Assembler) (now : Time) : Counted s (s.expire now) 0 0 := by
  have hcount : ∀ (expired : FrameSlot → Bool) (slots : List FrameSlot),
      (∀ x, expired x = true → x.active = true) →
      (slots.map (fun x => if expired x then x.clear else x)).countP (fun x => x.active) +
        slots.countP expired = slots.countP (fun x => x.active) := by
    intro expired slots hexpired
    induction slots with
    | nil => rfl
    | cons x slots ih =>
      rw [List.map_cons, List.countP_cons, List.countP_cons, List.countP_cons]
      cases hx : expired x with
      | false =>
        simp only [Bool.false_eq_true, if_false]
        omega
      | true =>
        have hclear : x.clear.active = false := rfl
        simp only [hclear, hexpired x hx, Bool.false_eq_true, if_true, if_false]
        omega
  refine ⟨rfl, ?_⟩
  have hsum := hcount (fun x => x.active && decide (1000000 * s.config.frameTimeout ≤
    (now : Int) - x.activatedAt)) s.slots (fun x hx => (Bool.and_eq_true_iff.mp hx).1)
  simp only [expire, inFlightCount, Stats.ended] at hsum ⊢
  omega

end Assembler

/-! ### In every run -/

/-- A call of `add_packet`. -/
def Event.isAdded : Event → Bool
  | .added _ _ _ => true
  | .expired _ => false

/-- A call that began a frame. -/
def Event.begins : Event → Bool
  | .added _ activates _ => activates
  | .expired _ => false

/-- **The counters add up.** For every configuration and every sequence of calls, with any packets: the
    calls of `add_packet` are those that the counters show, and the frames begun are those whose end the
    counters show and those in flight. -/
theorem counters_add_up {s : Feed} {ok : Feed → Action → Prop} (hrun : Feed.Run config ok s) :
    s.history.countP Event.isAdded = s.assembler.stats.packetsAccepted +
        s.assembler.stats.packetsDuplicated + s.assembler.stats.packetsRejected +
        s.assembler.stats.framesDroppedConflict ∧
      s.history.countP Event.begins = s.assembler.stats.framesPublished +
        s.assembler.stats.framesDroppedTimeout + s.assembler.stats.framesDroppedConflict +
        s.assembler.stats.framesDroppedCapacity + s.assembler.inFlightCount := by
  have hreach : Reaches Feed.step ok { assembler := .create config } s := hrun
  refine hreach.invariant (I := fun s => s.history.countP Event.isAdded = s.assembler.stats.calls ∧
    s.history.countP Event.begins = s.assembler.stats.ended + s.assembler.inFlightCount) ?_ ?_
  · refine ⟨rfl, ?_⟩
    have hidle : ∀ x ∈ (Assembler.create config).slots, ¬ x.active = true := by
      intro x hx
      rw [List.eq_of_mem_replicate hx]
      simp
    show 0 = 0 + (Assembler.create config).slots.countP (fun x => x.active)
    rw [List.countP_eq_zero.mpr hidle]
  · rintro s b s' hrun ⟨hcalls, hframes⟩ - hs
    cases b with
    | addPacket packet now =>
      have hcounted := Assembler.addPacket_counted packet now (Feed.Run.slots_pos hrun)
      obtain rfl := Option.some.inj hs
      constructor
      · show (_ :: s.history).countP Event.isAdded = (s.assembler.addPacket packet now).2.stats.calls
        rw [List.countP_cons, hcalls, hcounted.calls]
        rfl
      · show (_ :: s.history).countP Event.begins = (s.assembler.addPacket packet now).2.stats.ended +
          (s.assembler.addPacket packet now).2.inFlightCount
        rw [List.countP_cons, hframes, hcounted.frames]
        simp only [Event.begins]
        cases s.assembler.activates packet <;> rfl
    | expire now =>
      have hcounted := s.assembler.expire_counted now
      obtain rfl := Option.some.inj hs
      exact ⟨hcalls.trans hcounted.calls.symm, hframes.trans hcounted.frames.symm⟩

/-- A packet, its copy, a packet without a frame, a frame that times out, and another frame. -/
def mixedCalls : List Action :=
  let packet : PointCloudPacketResult :=
    { ok := true, timestampNs := 55, total := 5, index := 0, points := [{}, {}] }
  [.addPacket packet 10, .addPacket packet 20, .addPacket {} 30, .expire 400000000,
    .addPacket { packet with timestampNs := 56 } 400000001]

/-- Four calls, and two frames. -/
theorem counters_add_up_mixed : ∃ s : Feed, Feed.Run {} (fun _ _ => True) s ∧
    s.assembler.stats.packetsAccepted + s.assembler.stats.packetsDuplicated +
      s.assembler.stats.packetsRejected + s.assembler.stats.framesDroppedConflict = 4 ∧
    s.assembler.stats.framesPublished + s.assembler.stats.framesDroppedTimeout +
      s.assembler.stats.framesDroppedConflict + s.assembler.stats.framesDroppedCapacity +
      s.assembler.inFlightCount = 2 := by
  obtain ⟨s, hrun, hs⟩ := Feed.exists_run_of_exec {} (fun _ _ => True) mixedCalls
    (fun s => decide (s.history.countP Event.isAdded = 4) &&
      decide (s.history.countP Event.begins = 2)) (by decide +kernel)
  rw [Bool.and_eq_true, decide_eq_true_eq, decide_eq_true_eq] at hs
  obtain ⟨hadded, hbegins⟩ := counters_add_up hrun
  exact ⟨s, hrun, hadded.symm.trans hs.1, hbegins.symm.trans hs.2⟩

end HypertronBridge.Lidar
