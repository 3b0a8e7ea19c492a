import HypertronBridge.Lidar.Datagram
import HypertronBridge.Lidar.Slots
import Mathlib.Algebra.Order.BigOperators.Group.List
import Mathlib.Algebra.Order.Group.Nat

namespace HypertronBridge.Lidar

open Blocks

/-!
# What the checks of a packet decide

`add_packet` looks at two neighbours of a new packet only, and at the sum of the points only.  Since
the packets of a slot are apart and within its frame, the neighbours tell whether the packet overlaps
any packet of the slot, and the sum tells whether the frame is complete.

* `Packed` — what every slot keeps; `Feed.Run.packed` — in every run;
* `neighbours_tell_overlap` — the neighbours;
* `Offered`, `point_sum_decides` — the sum, and the branches that are never taken.
-/

variable {s : Feed} {packet : PointCloudPacketResult} {now : Time} {x : FrameSlot}
  {config : AssemblerConfig} {ok : Feed → Action → Prop}

/-! ### What every slot keeps -/

/-- The stored packets are apart and within the frame, and counted. -/
structure Packed (x : FrameSlot) : Prop where
  apart : x.packets.entries.Pairwise Apart
  inside : ∀ e ∈ x.packets.entries, stop e ≤ x.total.toNat
  sum : x.sumPoints = size x.packets.entries
  unique : x.uniqueIndices = x.packets.size

/-- A slot declares a total before it stores a packet. -/
theorem Packed.declare (hx : Packed x) : Packed (x.declare packet) := by
  unfold FrameSlot.declare
  split_ifs with hfirst
  · have hempty : x.packets.entries = [] := List.eq_nil_of_length_eq_zero (hx.unique.symm.trans hfirst)
    exact { hx with inside := fun e he => absurd he (by simp [hempty]) }
  · exact hx

/-- A packet that passes the two neighbours, beside what is stored. -/
theorem Packed.apart_cons (hx : Packed x) (hnew : x.packets.find? packet.index.toNat = none)
    (hneighbours : x.nextOverlaps packet = false ∧ x.prevOverlaps packet = false) :
    ((packet.index.toNat, packet.points) :: x.packets.entries).Pairwise Apart := by
  obtain ⟨hnext, hprev⟩ := FrameSlot.neighbours_pass_iff.mp hneighbours
  exact List.pairwise_cons.mpr ⟨apart_of_neighbours hx.apart hnew hnext hprev, hx.apart⟩

/-- Storing a packet. -/
theorem Packed.store (hx : Packed x) (htotal : x.total = packet.total)
    (hrange : packet.index.toNat + packet.points.length ≤ packet.total.toNat)
    (hjudge : x.judge config packet = .accept) : Packed (x.store packet) := by
  obtain ⟨hnew, -, hneighbours, -⟩ := FrameSlot.judge_accept_iff.mp hjudge
  have hperm : (x.store packet).packets.entries.Perm
      ((packet.index.toNat, packet.points) :: x.packets.entries) := OrderedMap.perm_emplace hnew
  constructor
  · exact (hperm.pairwise_iff Apart.symm).mpr (hx.apart_cons hnew hneighbours)
  · intro b hb
    rcases List.mem_cons.mp (hperm.mem_iff.mp hb) with rfl | hb
    · show packet.index.toNat + packet.points.length ≤ x.total.toNat
      rw [htotal]
      exact hrange
    · exact hx.inside b hb
  · show x.sumPoints + packet.points.length = _
    rw [size_perm hperm, size_cons, hx.sum, Nat.add_comm]
  · show x.uniqueIndices + 1 = (x.store packet).packets.entries.length
    rw [hperm.length_eq, List.length_cons, hx.unique]
    rfl

/-- What a packet is that comes to ask for a slot. -/
theorem Assembler.admits_iff {s : Assembler} : s.admits packet = true ↔
    packet.ok = true ∧ packet.total ≠ 0 ∧ packet.total.toNat ≤ s.config.maxPointsPerFrame ∧
      packet.index.toNat < packet.total.toNat ∧
      packet.index.toNat + packet.points.length ≤ packet.total.toNat := by
  simp [admits, rangeOutOfFrame, and_assoc]

/-- **In every run.** -/
theorem Feed.Run.packed (hrun : Feed.Run config ok s) : ∀ x ∈ s.assembler.slots, Packed x := by
  refine hrun.forall_slots ?_ (fun _ _ hx => hx.declare) ?_
  · intro x hpackets hunique hsum
    have hentries : x.packets.entries = [] := by
      rw [hpackets]
      rfl
    refine ⟨by rw [hentries]; exact .nil, fun e he => absurd he (by simp [hentries]), ?_, ?_⟩
    · rw [hsum, hentries]
      rfl
    · rw [hunique, hpackets]
      rfl
  · intro s packet now x _ hadmits htotal hx hjudge
    obtain ⟨-, -, -, -, hrange⟩ := Assembler.admits_iff.mp hadmits
    exact hx.store htotal hrange hjudge

/-! ### The neighbours -/

/-- A packet as the parser returns it: it has points if it is well formed. -/
def PointCloudPacketResult.HasPoints (packet : PointCloudPacketResult) : Prop :=
  packet.ok = true → 1 ≤ packet.points.length

instance (packet : PointCloudPacketResult) : Decidable packet.HasPoints :=
  inferInstanceAs (Decidable (_ → _))

/-- The parser's results are such packets. -/
theorem parsePointCloudPacket_hasPoints (fp : DoubleArithmetic) (data : List UInt8)
    (config : LidarParseConfig) : (parsePointCloudPacket fp data config).HasPoints :=
  fun hok => (parsePointCloudPacket_points hok).1.1

/-- The calls whose packets come from the parser. -/
def FromParser (_ : Feed) : Action → Prop
  | .addPacket packet _ => packet.HasPoints
  | .expire _ => True

instance (s : Feed) (b : Action) : Decidable (FromParser s b) := by
  unfold FromParser
  cases b <;> infer_instance

/-- No stored packet is empty then. -/
theorem Feed.Run.filled (hrun : Feed.Run config FromParser s) :
    ∀ x ∈ s.assembler.slots, ∀ e ∈ x.packets.entries, 1 ≤ e.2.length := by
  refine hrun.forall_slots ?_ (fun packet x hx => ?_) ?_
  · intro x hpackets _ _ e he
    rw [hpackets] at he
    exact absurd he (by simp [OrderedMap.empty])
  · unfold FrameSlot.declare
    split_ifs
    all_goals exact hx
  · intro s packet now x hpoints hadmits _ hx hjudge e he
    obtain ⟨hnew, -⟩ := FrameSlot.judge_accept_iff.mp hjudge
    rcases List.mem_cons.mp ((OrderedMap.perm_emplace hnew).mem_iff.mp he) with rfl | he
    · exact hpoints (Assembler.admits_iff.mp hadmits).1
    · exact hx e he

/-- **The neighbours tell.** In every slot that the assembler comes to have, a packet with points and a
    new offset passes the two checks if and only if it overlaps no packet of the slot. -/
theorem neighbours_tell_overlap (hrun : Feed.Run config FromParser s) (hx : x ∈ s.assembler.slots)
    (hpoints : 1 ≤ packet.points.length) (hnew : x.packets.find? packet.index.toNat = none) :
    x.nextOverlaps packet = false ∧ x.prevOverlaps packet = false ↔
      ∀ e ∈ x.packets.entries, Disjoint (range (packet.index.toNat, packet.points)) (range e) := by
  constructor
  · intro hneighbours e he
    have hpairwise := (hrun.packed x hx).apart_cons hnew hneighbours
    exact ((List.pairwise_cons.mp hpairwise).1 e he).disjoint
  · intro hdisjoint
    rw [FrameSlot.neighbours_pass_iff]
    exact neighbours_of_disjoint (hrun.filled x hx) hpoints hdisjoint

/-- A slot with packets at 0 and 3, of two points each. -/
def withGap : List Action :=
  [.addPacket { ok := true, timestampNs := 55, total := 9, index := 3, points := [{}, {}] } 10,
    .addPacket { ok := true, timestampNs := 55, total := 9, index := 0, points := [{}, {}] } 20]

/-- Between them there is room for one point, and not for two. -/
theorem neighbours_tell_overlap_withGap : ∃ s : Feed, Feed.Run {} FromParser s ∧
    ∃ x ∈ s.assembler.slots, x.packets.size = 2 ∧
      (∀ e ∈ x.packets.entries, Disjoint (range (2, [({} : LidarPoint)])) (range e)) ∧
      ¬ ∀ e ∈ x.packets.entries, Disjoint (range (2, [({} : LidarPoint), {}])) (range e) := by
  let gap (x : FrameSlot) : Bool := decide (x.packets.size = 2) &&
    decide (x.packets.find? 2 = none) &&
    !x.nextOverlaps { index := 2, points := [{}] } && !x.prevOverlaps { index := 2, points := [{}] } &&
    x.nextOverlaps { index := 2, points := [{}, {}] }
  obtain ⟨s, hrun, hs⟩ := Feed.exists_run_of_exec {} FromParser withGap
    (fun s => s.assembler.slots.any gap) (by decide +kernel)
  obtain ⟨x, hx, hgap⟩ := List.any_eq_true.mp hs
  simp only [gap, Bool.and_eq_true, decide_eq_true_eq, Bool.not_eq_true'] at hgap
  obtain ⟨⟨⟨⟨hsize, hnew⟩, hnext⟩, hprev⟩, hover⟩ := hgap
  refine ⟨s, hrun, x, hx, hsize, ?_, fun hdisjoint => ?_⟩
  · have hpass : x.nextOverlaps { index := 2, points := [{}] } = false ∧
        x.prevOverlaps { index := 2, points := [{}] } = false := ⟨hnext, hprev⟩
    refine (neighbours_tell_overlap hrun hx ?_ ?_).mp hpass
    · decide
    · exact hnew
  · have hpass : x.nextOverlaps { index := 2, points := [{}, {}] } = false ∧
        x.prevOverlaps { index := 2, points := [{}, {}] } = false :=
      Iff.mpr (neighbours_tell_overlap hrun hx (by decide) hnew) hdisjoint
    exact absurd (hover.symm.trans hpass.1) (by decide)

/-! ### The sum of the points -/

/-- The slot in which `add_packet` judges the packet: it is asked for one, whose total the packet
    meets, and the packet has declared the total. -/
def Offered (s : Assembler) (packet : PointCloudPacketResult) (now : Time) (x : FrameSlot) : Prop :=
  s.admits packet = true ∧ ∃ base,
    (s.slotForTimestamp packet.timestampNs now).2.slots[
      (s.slotForTimestamp packet.timestampNs now).1]? = some base ∧
    base.Meets packet ∧ x = base.declare packet

/-- What such a slot keeps, with room for the packet in its frame and under the cap. -/
theorem Offered.packed {s : Assembler} (h : Offered s packet now x) (hslots : 0 < s.slots.length)
    (hpacked : ∀ x ∈ s.slots, Packed x) :
    Packed x ∧ x.total.toNat ≤ s.config.maxPointsPerFrame ∧
      packet.index.toNat + packet.points.length ≤ x.total.toNat := by
  obtain ⟨hadmits, base, hbase, hmeets, rfl⟩ := h
  obtain ⟨-, -, hcap, -, hrange⟩ := Assembler.admits_iff.mp hadmits
  obtain ⟨slot, hslot, hset, -⟩ := Assembler.slotForTimestamp_spec packet now hslots
  rw [hset, List.getElem?_set_self hslot.lt] at hbase
  obtain rfl := Option.some.inj hbase
  rw [hmeets.declare_total]
  refine ⟨Packed.declare ?_, hcap, hrange⟩
  cases hslot with
  | found _ hx _ _ => exact hpacked slot (List.mem_of_getElem? hx)
  | created => exact ⟨.nil, fun e he => absurd he (by simp [FrameSlot.fresh, OrderedMap.empty]), rfl, rfl⟩

/-- The stored packets leave no gap if and only if they have all points. -/
theorem Packed.sum_iff (hx : Packed x) :
    x.sumPoints = x.total.toNat ↔ scan 0 x.packets.entries = some x.total.toNat := by
  rw [hx.sum]
  exact size_eq_iff_scan (stop_le_of_sorted x.packets.sorted hx.apart) hx.inside

/-- A packet that overlaps none is within the budget. -/
theorem Packed.within_budget (hx : Packed x) (hcap : x.total.toNat ≤ config.maxPointsPerFrame)
    (hrange : packet.index.toNat + packet.points.length ≤ x.total.toNat)
    (hnew : x.packets.find? packet.index.toNat = none)
    (hneighbours : x.nextOverlaps packet = false ∧ x.prevOverlaps packet = false) :
    x.overBudget config packet = false := by
  -- the ranges, in the order of a map that holds them all
  have hperm : (x.store packet).packets.entries.Perm
      ((packet.index.toNat, packet.points) :: x.packets.entries) := OrderedMap.perm_emplace hnew
  have hapart : (x.store packet).packets.entries.Pairwise Apart :=
    (hperm.pairwise_iff Apart.symm).mpr (hx.apart_cons hnew hneighbours)
  have hwithin : ∀ b ∈ (x.store packet).packets.entries, 0 ≤ b.1 ∧ stop b ≤ x.total.toNat := by
    intro b hb
    refine ⟨Nat.zero_le _, ?_⟩
    rcases List.mem_cons.mp (hperm.mem_iff.mp hb) with rfl | hb
    · exact hrange
    · exact hx.inside b hb
  have hsize := size_le_of_within (stop_le_of_sorted (x.store packet).packets.sorted hapart) hwithin
    (Nat.zero_le _)
  have hcons := size_cons (packet.index.toNat, packet.points) x.packets.entries
  rw [size_perm hperm, hcons, ← hx.sum] at hsize
  dsimp only at hsize
  have hfits : x.sumPoints + packet.points.length ≤ x.total.toNat := by omega
  exact FrameSlot.within_budget_iff.mpr ⟨hfits, Nat.le_trans hfits hcap⟩

/-- The budget does not decide. -/
theorem Packed.judge_of_new (hx : Packed x) (hcap : x.total.toNat ≤ config.maxPointsPerFrame)
    (hrange : packet.index.toNat + packet.points.length ≤ x.total.toNat)
    (hnew : x.packets.find? packet.index.toNat = none) :
    x.judge config packet =
      if config.maxPacketsPerFrame ≤ x.packets.size then .reject
      else if x.nextOverlaps packet || x.prevOverlaps packet then .conflict
      else .accept := by
  rw [FrameSlot.judge_of_new hnew]
  cases hnext : x.nextOverlaps packet with
  | true => rfl
  | false =>
    cases hprev : x.prevOverlaps packet with
    | true => rfl
    | false => rw [hx.within_budget hcap hrange hnew ⟨hnext, hprev⟩]; rfl

/-- A complete frame has the points that it declares. -/
theorem FrameSlot.complete_size (h : x.complete = true) : x.frame.points.length = x.total.toNat := by
  simp only [FrameSlot.complete, Bool.and_eq_true, beq_iff_eq] at h
  have hlength := scan_length h.2
  rw [Nat.zero_add] at hlength
  exact hlength.symm

/-- So a complete slot is published. -/
theorem Assembler.emit_eq (s : Assembler) (i : Nat) (x : FrameSlot) :
    s.emit i x =
      if x.complete then
        (some x.frame,
          { s with stats.framesPublished := s.stats.framesPublished + 1 }.finalizeSlot i .published)
      else (none, s) := by
  rw [emit]
  cases hcomplete : x.complete with
  | false => rfl
  | true =>
    rw [Bool.not_true, if_neg Bool.false_ne_true, if_neg (not_not.mpr (FrameSlot.complete_size hcomplete)),
      if_pos rfl]

/-- **The sum decides.** In whatever slot a packet is judged: once it is stored, the sum of the points
    is the total if and only if the ordered scan covers the frame without gaps; if its offset is new and
    its neighbours pass, it is within the budget; and a complete frame has as many points as declared.
    So the verdict on a new offset is that of the number of packets and of the neighbours, and the slot is
    published or stays as it is. -/
theorem point_sum_decides (hrun : Feed.Run config ok s)
    (hoffered : Offered s.assembler packet now x) :
    (x.judge s.assembler.config packet = .accept →
      ((x.store packet).sumPoints = (x.store packet).total.toNat ↔
        scan 0 (x.store packet).packets.entries = some (x.store packet).total.toNat)) ∧
    (x.packets.find? packet.index.toNat = none →
      x.nextOverlaps packet = false ∧ x.prevOverlaps packet = false →
      x.overBudget s.assembler.config packet = false) ∧
    ((x.store packet).complete = true →
      (x.store packet).frame.points.length = (x.store packet).total.toNat) ∧
    (x.packets.find? packet.index.toNat = none →
      x.judge s.assembler.config packet =
        if s.assembler.config.maxPacketsPerFrame ≤ x.packets.size then .reject
        else if x.nextOverlaps packet || x.prevOverlaps packet then .conflict
        else .accept) ∧
    ∀ (after : Assembler) (i : Nat), after.emit i (x.store packet) =
      if (x.store packet).complete then
        (some (x.store packet).frame,
          { after with
            stats.framesPublished := after.stats.framesPublished + 1 }.finalizeSlot i .published)
      else (none, after) := by
  obtain ⟨hx, hcap, hrange⟩ := hoffered.packed hrun.slots_pos hrun.packed
  obtain ⟨hadmits, base, -, hmeets, hdeclared⟩ := hoffered
  have htotal : x.total = packet.total := hdeclared ▸ hmeets.declare_total
  refine ⟨fun hjudge => ?_, hx.within_budget hcap hrange, FrameSlot.complete_size,
    hx.judge_of_new hcap hrange, fun after i => after.emit_eq i _⟩
  rw [htotal] at hrange
  exact (hx.store htotal hrange hjudge).sum_iff

/-- A packet of five points' frame, with two points from the offset on. -/
def ofFive (index : UInt32) : PointCloudPacketResult :=
  { ok := true, timestampNs := 55, total := 5, index, points := [{}, {}] }

/-- After the first and the last packet, the one between them leaves no gap. -/
theorem point_sum_decides_last : ∃ s : Feed, Feed.Run {} (fun _ _ => True) s ∧ ∃ x,
    Offered s.assembler (ofFive 2) 30 x ∧ x.judge s.assembler.config (ofFive 2) = .accept ∧
      scan 0 (x.store (ofFive 2)).packets.entries = some (x.store (ofFive 2)).total.toNat := by
  let last (s : Feed) (base : FrameSlot) : Bool := decide (base.uniqueIndices = 2) &&
    decide (base.total = 5) && decide (base.judge s.assembler.config (ofFive 2) = .accept) &&
    decide ((base.store (ofFive 2)).sumPoints = (base.store (ofFive 2)).total.toNat)
  obtain ⟨s, hrun, hs⟩ := Feed.exists_run_of_exec {} (fun _ _ => True)
    [.addPacket (ofFive 0) 10, .addPacket { ofFive 4 with points := [{}] } 20]
    (fun s => s.assembler.admits (ofFive 2) && (s.assembler.slotForTimestamp 55 30).2.slots[
      (s.assembler.slotForTimestamp 55 30).1]?.any (last s)) (by decide +kernel)
  rw [Bool.and_eq_true] at hs
  obtain ⟨hadmits, hany⟩ := hs
  obtain ⟨base, hbase, hlast⟩ := Option.any_eq_true _ _ |>.mp hany
  simp only [last, Bool.and_eq_true, decide_eq_true_eq] at hlast
  obtain ⟨⟨⟨hunique, htotal⟩, hjudge⟩, hsum⟩ := hlast
  have hdeclare : base.declare (ofFive 2) = base := if_neg (by omega)
  have hoffered : Offered s.assembler (ofFive 2) 30 base :=
    ⟨hadmits, base, hbase, .inr htotal, hdeclare.symm⟩
  exact ⟨s, hrun, base, hoffered, hjudge, ((point_sum_decides hrun hoffered).1 hjudge).mp hsum⟩

end HypertronBridge.Lidar
