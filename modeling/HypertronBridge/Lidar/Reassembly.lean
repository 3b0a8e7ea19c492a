import HypertronBridge.Lib.History
import HypertronBridge.Lidar.Slots
import Mathlib.Algebra.Group.Action.Defs
import Mathlib.Algebra.GroupWithZero.Nat
import Mathlib.Algebra.Order.BigOperators.Group.List
import Mathlib.Algebra.Order.Group.Nat

namespace HypertronBridge.Lidar

open Blocks History TransitionSystem

/-!
# Exact reassembly

Whatever is fed to the assembler, its slots hold packets of distinct frames that do not overlap, and a
frame that it returns is made of packets of its own that were fed since its slot was activated.

* `FedSince` — a packet fed since the last activation for its timestamp;
* `SlotExact`, `FrameExact` — what is promised of a slot and of a frame;
* `Holds`, `Holds.store` — what one slot keeps, and what storing a packet keeps;
* `AssemblerInv`, `assembler_is_exact` — what all slots keep, in every run.
-/

variable {s s' : Feed} {b : Action} {config : AssemblerConfig} {packet : PointCloudPacketResult}
  {now : Time} {ts : UInt64} {i : Nat} {x base : FrameSlot} {h : List Event} {e : Event}

/-! ### What is promised -/

/-- The call activated a slot for this timestamp. -/
def Event.activates (ts : UInt64) : Event → Bool
  | .added p activates _ => activates && p.timestampNs == ts
  | .expired _ => false

/-- The packet has just been fed, with this timestamp. -/
def JustFed (ts : UInt64) (p : PointCloudPacketResult) (h : List Event) : Prop :=
  p.timestampNs = ts ∧ ∃ activates frame, h.head? = some (.added p activates frame)

/-- The packet was fed with this timestamp, and no later call has activated a slot for it. -/
def FedSince (ts : UInt64) (p : PointCloudPacketResult) : List Event → Prop :=
  Since (fun e => e.activates ts = false) (JustFed ts p)

/-- The number of points that a slot stores. -/
def FrameSlot.stored (x : FrameSlot) : Nat := (x.packets.entries.map (fun e => e.2.length)).sum

/-- An active slot: at least one packet, ranges that are disjoint and within the frame, and counts
    that are right and bounded. -/
structure SlotExact (config : AssemblerConfig) (x : FrameSlot) : Prop where
  nonempty : x.packets.entries ≠ []
  disjoint : x.packets.entries.Pairwise (fun e e' => Disjoint (range e) (range e'))
  inside : ∀ e ∈ x.packets.entries, range e ⊆ Set.Ico 0 x.total.toNat
  sum : x.sumPoints = x.stored
  unique : x.uniqueIndices = x.packets.size
  unique_le : x.uniqueIndices ≤ config.maxPacketsPerFrame
  total_le : x.total.toNat ≤ config.maxPointsPerFrame

/-- A frame that has just been returned: as many points as it declares, each of them the one that a
    packet of this frame, fed since the activation, has for its position. -/
structure FrameExact (h : List Event) (f : PointCloudFrame) : Prop where
  size : f.points.length = f.totalPoints.toNat
  points : ∀ i point, f.points[i]? = some point → ∃ p, FedSince f.timestampNs p h ∧
    p.total = f.totalPoints ∧ p.index.toNat ≤ i ∧ p.points[i - p.index.toNat]? = some point

/-- What is promised of an assembler and its calls so far. -/
structure AssemblerExact (config : AssemblerConfig) (s : Feed) : Prop where
  slots : s.assembler.slots.length = max 1 config.maxParallelFrames
  distinct : s.assembler.slots.Pairwise
    (fun x y => x.active = true → y.active = true → x.timestampNs ≠ y.timestampNs)
  active : ∀ x ∈ s.assembler.slots, x.active = true → SlotExact config x
  stored_le : (s.assembler.slots.map FrameSlot.stored).sum ≤
    s.assembler.slots.length * config.maxPointsPerFrame
  frames : ∀ newer p activates f older,
    s.history = newer ++ .added p activates (some f) :: older →
      FrameExact (.added p activates (some f) :: older) f

/-! ### What one slot keeps -/

/-- The stored packets are apart, within the frame, counted, and fed since the activation. -/
structure Holds (config : AssemblerConfig) (h : List Event) (x : FrameSlot) : Prop where
  apart : x.packets.entries.Pairwise Apart
  inside : ∀ e ∈ x.packets.entries, stop e ≤ x.total.toNat
  sum : x.sumPoints = x.stored
  sum_le : x.sumPoints ≤ x.total.toNat
  unique : x.uniqueIndices = x.packets.size
  unique_le : x.uniqueIndices ≤ config.maxPacketsPerFrame
  total_le : x.total.toNat ≤ config.maxPointsPerFrame
  fed : ∀ e ∈ x.packets.entries, ∃ p, FedSince x.timestampNs p h ∧ p.total = x.total ∧
    p.index.toNat = e.1 ∧ p.points = e.2

/-- A slot keeps what it holds over a call that activates none for its timestamp. -/
theorem Holds.cons (hx : Holds config h x) (he : e.activates x.timestampNs = false) :
    Holds config (e :: h) x := by
  refine { hx with fed := fun b hb => ?_ }
  obtain ⟨p, hfed, hp⟩ := hx.fed b hb
  exact ⟨p, hfed.cons he, hp⟩

theorem Holds.slotExact (hx : Holds config h x) (hne : x.packets.entries ≠ []) :
    SlotExact config x where
  nonempty := hne
  disjoint := hx.apart.imp Apart.disjoint
  inside := by
    intro b hb i hi
    have hstop := hx.inside b hb
    exact ⟨Nat.zero_le i, Nat.lt_of_lt_of_le hi.2 hstop⟩
  sum := hx.sum
  unique := hx.unique
  unique_le := hx.unique_le
  total_le := hx.total_le

/-- **Storing a packet.** -/
theorem Holds.store (hx : Holds config h x) (hjudge : x.judge config packet = .accept)
    (htotal : x.total = packet.total) (hts : x.timestampNs = packet.timestampNs)
    (hrange : packet.index.toNat + packet.points.length ≤ packet.total.toNat)
    {activates : Bool} {frame : Option PointCloudFrame}
    (hkept : x.packets.entries ≠ [] →
      (Event.added packet activates frame).activates x.timestampNs = false) :
    Holds config (.added packet activates frame :: h) (x.store packet) := by
  obtain ⟨hfind, hsize, hneighbours, hbudget⟩ := FrameSlot.judge_accept_iff.mp hjudge
  obtain ⟨hnext, hprev⟩ := FrameSlot.neighbours_pass_iff.mp hneighbours
  have hperm : (x.store packet).packets.entries.Perm
      ((packet.index.toNat, packet.points) :: x.packets.entries) := OrderedMap.perm_emplace hfind
  constructor
  · refine (hperm.pairwise_iff Apart.symm).mpr (List.pairwise_cons.mpr ⟨?_, hx.apart⟩)
    exact apart_of_neighbours hx.apart hfind hnext hprev
  · intro b hb
    rcases List.mem_cons.mp (hperm.mem_iff.mp hb) with rfl | hb
    · show packet.index.toNat + packet.points.length ≤ x.total.toNat
      rw [htotal]
      exact hrange
    · exact hx.inside b hb
  · have hstored : (x.store packet).stored = packet.points.length + x.stored := by
      unfold FrameSlot.stored
      rw [(hperm.map _).sum_nat, List.map_cons, List.sum_cons]
    rw [hstored]
    show x.sumPoints + packet.points.length = _
    rw [hx.sum, Nat.add_comm]
  · exact (FrameSlot.within_budget_iff.mp hbudget).1
  · show x.uniqueIndices + 1 = (x.store packet).packets.entries.length
    rw [hperm.length_eq, List.length_cons, hx.unique]
    rfl
  · show x.uniqueIndices + 1 ≤ _
    rw [hx.unique]
    exact hsize
  · exact hx.total_le
  · intro b hb
    rcases List.mem_cons.mp (hperm.mem_iff.mp hb) with rfl | hb
    · exact ⟨packet, Since.now ⟨hts.symm, activates, frame, rfl⟩, htotal.symm, rfl, rfl⟩
    · obtain ⟨p, hfed, hp⟩ := hx.fed b hb
      exact ⟨p, hfed.cons (hkept (List.ne_nil_of_mem hb)), hp⟩

/-- **A complete slot emits its frame.** -/
theorem Holds.frameExact (hx : Holds config h x) (hcomplete : x.complete = true) :
    FrameExact h x.frame := by
  unfold FrameSlot.complete at hcomplete
  simp only [Bool.and_eq_true, beq_iff_eq] at hcomplete
  have hscan := hcomplete.2
  constructor
  · have hlength := scan_length hscan
    rw [Nat.zero_add] at hlength
    exact hlength.symm
  · intro i point hpoint
    obtain ⟨b, hb, hle, hget⟩ := scan_getElem? hscan hpoint
    obtain ⟨p, hfed, htotal, hindex, hpoints⟩ := hx.fed b hb
    rw [Nat.zero_add, ← hindex] at hle hget
    refine ⟨p, hfed, htotal, hle, ?_⟩
    rw [hpoints]
    exact hget

/-! ### The slot of a call -/

/-- A packet without a frame yet meets no active slot of its timestamp. -/
theorem Assembler.activates_of_mem {s : Assembler} {y : FrameSlot} {frame : Option PointCloudFrame}
    (hy : y ∈ s.slots) (hactive : y.active = true) :
    (Event.added packet (s.activates packet) frame).activates y.timestampNs = false := by
  by_contra hact
  simp only [Event.activates, Assembler.activates, Bool.and_eq_true, beq_iff_eq, Bool.not_eq_false,
    Option.isNone_iff_eq_none] at hact
  exact Assembler.findSlot_eq_none.mp hact.1.2 y hy hactive hact.2.symm

/-- Before the packet is judged, its slot holds what it held, under the packet's total. -/
theorem HasSlot.declare {s : Assembler} (hslot : HasSlot s packet now i base)
    (hadmits : s.admits packet = true) (hmeets : base.Meets packet)
    (hactive : ∀ x ∈ s.slots, x.active = true → x.packets.entries ≠ [] ∧ Holds s.config h x) :
    Holds s.config h (base.declare packet) ∧ (base.declare packet).total = packet.total ∧
      (base ∈ s.slots ∧ base.declare packet = base ∨
        (base.declare packet).packets.entries = []) := by
  cases hslot with
  | found _ hx hact _ =>
    -- an active slot has a packet, so it keeps the total that it declared
    have hmem : base ∈ s.slots := List.mem_of_getElem? hx
    obtain ⟨hne, hholds⟩ := hactive base hmem hact
    have hpos : base.uniqueIndices ≠ 0 := by
      rw [hholds.unique]
      exact fun hzero => hne (List.eq_nil_of_length_eq_zero hzero)
    have hsame : base.declare packet = base := if_neg hpos
    rw [hsame]
    exact ⟨hholds, hmeets.resolve_left hpos, Or.inl ⟨hmem, rfl⟩⟩
  | created =>
    -- a new slot is empty, and its total is within the cap
    simp only [Assembler.admits, Bool.and_eq_true, decide_eq_true_eq] at hadmits
    refine ⟨?_, rfl, Or.inr rfl⟩
    constructor
    · exact List.Pairwise.nil
    · exact fun e he => absurd he (by simp [FrameSlot.declare, FrameSlot.fresh, OrderedMap.empty])
    · rfl
    · exact Nat.zero_le _
    · rfl
    · exact Nat.zero_le _
    · exact hadmits.1.2
    · exact fun e he => absurd he (by simp [FrameSlot.declare, FrameSlot.fresh, OrderedMap.empty])

/-- A frame without packets ignores none. -/
theorem judge_of_empty (packet : PointCloudPacketResult) (hempty : x.packets.entries = [])
    (hpackets : 1 ≤ config.maxPacketsPerFrame) :
    x.judge config packet ≠ .duplicate ∧ x.judge config packet ≠ .reject := by
  have hfind : x.packets.find? packet.index.toNat = none :=
    OrderedMap.find?_eq_none.mpr (by simp [hempty])
  have hsize : ¬ config.maxPacketsPerFrame ≤ x.packets.size := by
    simp only [OrderedMap.size, hempty, List.length_nil]
    omega
  rw [FrameSlot.judge_of_new hfind, if_neg hsize]
  split_ifs <;> simp

/-- An idle slot is empty; an active one holds packets of its own frame. -/
structure SlotInv (config : AssemblerConfig) (h : List Event) (x : FrameSlot) : Prop where
  active : x.active = true → x.packets.entries ≠ [] ∧ Holds config h x
  idle : x.active = false → x.packets.entries = []

theorem SlotInv.clear : SlotInv config h x.clear :=
  ⟨fun hactive => absurd hactive (by simp [FrameSlot.clear]), fun _ => rfl⟩

theorem SlotInv.cons (hx : SlotInv config h x)
    (he : x.active = true → e.activates x.timestampNs = false) : SlotInv config (e :: h) x :=
  ⟨fun hactive => ⟨(hx.active hactive).1, (hx.active hactive).2.cons (he hactive)⟩, hx.idle⟩

/-- **What becomes of the slot of a call.** -/
theorem HasSlot.taken {s : Assembler} {frame : Option PointCloudFrame}
    (hslot : HasSlot s packet now i base) (hadmits : s.admits packet = true)
    (hpackets : 1 ≤ s.config.maxPacketsPerFrame) (hslots : ∀ x ∈ s.slots, SlotInv s.config h x)
    (htaken : Taken s.config packet base frame x) :
    SlotInv s.config (.added packet (s.activates packet) frame :: h) x ∧
      (x.active = true → x.timestampNs = packet.timestampNs) ∧
      ∀ f ∈ frame, FrameExact (.added packet (s.activates packet) frame :: h) f := by
  have hactive : ∀ x ∈ s.slots, x.active = true → x.packets.entries ≠ [] ∧ Holds s.config h x :=
    fun x hx => (hslots x hx).active
  have hrange : packet.index.toNat + packet.points.length ≤ packet.total.toNat := by
    simp only [Assembler.admits, Assembler.rangeOutOfFrame, Bool.and_eq_true, Bool.not_eq_true',
      Bool.or_eq_false_iff, decide_eq_false_iff_not, Nat.not_lt] at hadmits
    exact hadmits.2.2
  have hdeclared : (base.declare packet).timestampNs = packet.timestampNs ∧
      (base.declare packet).active = true := by
    unfold FrameSlot.declare
    split_ifs
    all_goals exact ⟨hslot.timestampNs, hslot.active⟩
  -- The packet is stored beside what the slot holds.
  have hstore : base.Meets packet → (base.declare packet).judge s.config packet = .accept →
      Holds s.config (.added packet (s.activates packet) frame :: h)
        ((base.declare packet).store packet) := by
    intro hmeets hjudge
    obtain ⟨hholds, htotal, hbase⟩ := hslot.declare hadmits hmeets hactive
    refine hholds.store hjudge htotal hdeclared.1 hrange (fun hne => ?_)
    obtain ⟨hmem, hsame⟩ := hbase.resolve_right hne
    rw [hsame]
    exact Assembler.activates_of_mem hmem hslot.active
  cases htaken with
  | dropped x => exact ⟨.clear, fun hact => absurd hact (by simp [FrameSlot.clear]), by simp⟩
  | ignored hmeets hjudge =>
    obtain ⟨-, -, hbase⟩ := hslot.declare hadmits hmeets hactive
    -- only a slot that was found ignores a packet
    rcases hbase with ⟨hmem, hsame⟩ | hempty
    · rw [hsame]
      refine ⟨(hslots base hmem).cons (Assembler.activates_of_mem hmem), ?_, by simp⟩
      exact fun _ => hslot.timestampNs
    · obtain ⟨hnotDuplicate, hnotReject⟩ := judge_of_empty packet hempty hpackets
      exact absurd hjudge (not_or.mpr ⟨hnotDuplicate, hnotReject⟩)
  | stored hmeets hjudge =>
    refine ⟨⟨fun _ => ⟨?_, hstore hmeets hjudge⟩, fun hidle => ?_⟩, fun _ => hdeclared.1, by simp⟩
    · have hperm : ((base.declare packet).store packet).packets.entries.Perm _ :=
        OrderedMap.perm_emplace (FrameSlot.judge_accept_iff.mp hjudge).1
      exact fun hnil => absurd (hnil ▸ hperm).nil_eq (by simp)
    · have hact : ((base.declare packet).store packet).active = true := hdeclared.2
      rw [hidle] at hact
      exact absurd hact (by simp)
  | published hmeets hjudge hcomplete =>
    refine ⟨.clear, fun hact => absurd hact (by simp [FrameSlot.clear]), fun f hf => ?_⟩
    rw [← Option.some.inj hf]
    exact (hstore hmeets hjudge).frameExact hcomplete

/-! ### All slots -/

/-- Every slot is sound, and no two active ones have one timestamp. -/
structure SlotsInv (config : AssemblerConfig) (h : List Event) (slots : List FrameSlot) : Prop where
  each : ∀ x ∈ slots, SlotInv config h x
  distinct : ∀ (i j : Nat) (x y : FrameSlot), slots[i]? = some x → slots[j]? = some y →
    x.active = true → y.active = true → x.timestampNs = y.timestampNs → i = j

namespace SlotsInv

variable {slots : List FrameSlot}

theorem cons (hinv : SlotsInv config h slots)
    (he : ∀ x ∈ slots, x.active = true → e.activates x.timestampNs = false) :
    SlotsInv config (e :: h) slots :=
  ⟨fun x hx => (hinv.each x hx).cons (he x hx), hinv.distinct⟩

/-- One slot changes, and has its timestamp to itself. -/
theorem set (hinv : SlotsInv config h slots) (hx : SlotInv config h x)
    (hother : x.active = true → ∀ j y, j ≠ i → slots[j]? = some y → y.active = true →
      y.timestampNs ≠ x.timestampNs) : SlotsInv config h (slots.set i x) := by
  have hget : ∀ {j : Nat} {y : FrameSlot}, (slots.set i x)[j]? = some y →
      j = i ∧ y = x ∨ j ≠ i ∧ slots[j]? = some y := by
    intro j y hy
    rw [List.getElem?_set] at hy
    split_ifs at hy with hj hi
    · exact Or.inl ⟨hj.symm, (Option.some.inj hy).symm⟩
    · exact Or.inr ⟨Ne.symm hj, hy⟩
  constructor
  · intro y hy
    rcases List.mem_or_eq_of_mem_set hy with hmem | rfl
    · exact hinv.each y hmem
    · exact hx
  · intro j k y z hy hz hyact hzact hts
    rcases hget hy with ⟨hj, hyx⟩ | ⟨hj, hy'⟩
    · rcases hget hz with ⟨hk, -⟩ | ⟨hk, hz'⟩
      · exact hj.trans hk.symm
      · rw [hyx] at hyact hts
        exact absurd hts.symm (hother hyact k z hk hz' hzact)
    · rcases hget hz with ⟨hk, hzx⟩ | ⟨hk, hz'⟩
      · rw [hzx] at hzact hts
        exact absurd hts (hother hzact j y hj hy' hyact)
      · exact hinv.distinct j k y z hy' hz' hyact hzact hts

/-- Some slots are cleared. -/
theorem map_clear (hinv : SlotsInv config h slots) (expired : FrameSlot → Bool) :
    SlotsInv config h (slots.map (fun x => if expired x then x.clear else x)) := by
  constructor
  · intro y hy
    obtain ⟨x, hx, rfl⟩ := List.mem_map.mp hy
    split_ifs
    · exact .clear
    · exact hinv.each x hx
  · intro i j x y hx hy hxact hyact hts
    rw [List.getElem?_map, Option.map_eq_some_iff] at hx hy
    obtain ⟨x', hx', rfl⟩ := hx
    obtain ⟨y', hy', rfl⟩ := hy
    split_ifs at hxact hyact hts
    · exact absurd hxact (by simp [FrameSlot.clear])
    · exact absurd hxact (by simp [FrameSlot.clear])
    · exact absurd hyact (by simp [FrameSlot.clear])
    · exact hinv.distinct i j x' y' hx' hy' hxact hyact hts

end SlotsInv

/-- The other active slots have other timestamps. -/
theorem HasSlot.other {s : Assembler} (hslot : HasSlot s packet now i base)
    (hinv : SlotsInv config h s.slots) :
    ∀ j y, j ≠ i → s.slots[j]? = some y → y.active = true → y.timestampNs ≠ packet.timestampNs := by
  intro j y hj hy hact hts
  cases hslot with
  | found _ hx hbase hbasets =>
    exact hj (hinv.distinct j i y base hy hx hact hbase (hts.trans hbasets.symm))
  | created hfind _ =>
    exact Assembler.findSlot_eq_none.mp hfind y (List.mem_of_getElem? hy) hact hts

/-- What an assembler keeps. -/
structure AssemblerInv (config : AssemblerConfig) (s : Feed) : Prop where
  configured : s.assembler.config = (Assembler.create config).config
  count : s.assembler.slots.length = max 1 config.maxParallelFrames
  slots : SlotsInv s.assembler.config s.history s.assembler.slots
  frames : Historically (fun e older => ∀ p activates f, e = .added p activates (some f) →
    FrameExact (e :: older) f) s.history

/-- **Step lemma.** -/
theorem AssemblerInv.step (hinv : AssemblerInv config s) (hpackets : 1 ≤ config.maxPacketsPerFrame)
    (hs : Feed.step b s = some s') : AssemblerInv config s' := by
  obtain ⟨hconfig, hcount, hslots, hframes⟩ := hinv
  have hmax : s.assembler.config.maxPacketsPerFrame = config.maxPacketsPerFrame := by
    rw [hconfig]
    unfold Assembler.create
    dsimp only
    split_ifs <;> rfl
  cases b with
  | addPacket packet now =>
    have hpos : 0 < s.assembler.slots.length := by
      rw [hcount]
      omega
    obtain ⟨hadded, hkept⟩ := Assembler.addPacket_added packet now hpos
    obtain rfl := Option.some.inj hs
    -- What the slots held they hold over this call.
    have hcons : ∀ frame, SlotsInv s.assembler.config
        (.added packet (s.assembler.activates packet) frame :: s.history) s.assembler.slots :=
      fun _ => hslots.cons (fun _ hx hact => Assembler.activates_of_mem hx hact)
    have hresult : SlotsInv s.assembler.config
        (.added packet (s.assembler.activates packet) (s.assembler.addPacket packet now).1 :: s.history)
        (s.assembler.addPacket packet now).2.slots ∧
      (s.assembler.addPacket packet now).2.slots.length = s.assembler.slots.length ∧
      ∀ f ∈ (s.assembler.addPacket packet now).1, FrameExact
        (.added packet (s.assembler.activates packet) (s.assembler.addPacket packet now).1 ::
          s.history) f := by
      generalize (s.assembler.addPacket packet now).1 = frame at hadded ⊢
      generalize (s.assembler.addPacket packet now).2.slots = slots at hadded ⊢
      cases hadded with
      | kept => exact ⟨hcons none, rfl, by simp⟩
      | dropped i x =>
        refine ⟨(hcons none).set .clear (fun hact => ?_), List.length_set, by simp⟩
        exact absurd hact (by simp [FrameSlot.clear])
      | @taken i base x frame hadmits hslot htaken =>
        obtain ⟨hx, hts, hexact⟩ := hslot.taken hadmits (by omega) hslots.each htaken
        refine ⟨(hcons frame).set hx (fun hact j y hj hy hyact => ?_), List.length_set, hexact⟩
        rw [hts hact]
        exact hslot.other hslots j y hj hy hyact
    obtain ⟨hslots', hlength, hexact⟩ := hresult
    refine ⟨hkept.trans hconfig, hlength.trans hcount, ?_, ⟨fun p activates f he => ?_, hframes⟩⟩
    · rw [← hkept] at hslots'
      exact hslots'
    · obtain ⟨-, -, hframe⟩ := Event.added.inj he
      exact hexact f hframe
  | expire now =>
    simp only [Feed.step, Option.some.injEq] at hs
    subst hs
    refine ⟨hconfig, ?_, ?_, ⟨fun p activates f he => absurd he (by simp), hframes⟩⟩
    · exact (List.length_map _).trans hcount
    · exact (hslots.cons (fun _ _ _ => rfl)).map_clear _

/-- **Run lemma.** -/
theorem Feed.Run.assemblerInv {ok : Feed → Action → Prop} (hrun : Feed.Run config ok s)
    (hpackets : 1 ≤ config.maxPacketsPerFrame) : AssemblerInv config s := by
  have hreach : Reaches Feed.step ok { assembler := .create config } s := hrun
  refine hreach.invariant (I := AssemblerInv config) ?_ (fun _ _ _ _ hi _ hs => hi.step hpackets hs)
  have hidle : ∀ x ∈ (Assembler.create config).slots, x = {} :=
    fun x hx => List.eq_of_mem_replicate hx
  refine ⟨rfl, ?_, ⟨fun x hx => ?_, fun i j x y hx _ hact => ?_⟩, trivial⟩
  · unfold Assembler.create
    dsimp only
    split_ifs with hzero
    · simp [hzero]
    · rw [List.length_replicate]
      omega
  · rw [hidle x hx]
    exact ⟨fun hact => absurd hact (by simp), fun _ => rfl⟩
  · rw [hidle x (List.mem_of_getElem? hx)] at hact
    exact absurd hact (by simp)

/-! ### The bound on what is stored -/

/-- No slot stores more than a frame may have. -/
theorem SlotInv.stored_le (hx : SlotInv config h x) : x.stored ≤ config.maxPointsPerFrame := by
  cases hactive : x.active with
  | false =>
    have hempty : x.stored = 0 := by
      unfold FrameSlot.stored
      rw [hx.idle hactive]
      rfl
    omega
  | true =>
    obtain ⟨-, hholds⟩ := hx.active hactive
    have hsum := hholds.sum
    have hsum_le := hholds.sum_le
    have htotal := hholds.total_le
    omega

/-- **Exact reassembly.** For every configuration with room for a packet, every sequence of calls, with
    any packets and any readings of the clock, keeps the assembler exact. -/
theorem assembler_is_exact (hrun : Feed.Run config (fun _ _ => True) s)
    (hpackets : 1 ≤ config.maxPacketsPerFrame) : AssemblerExact config s := by
  obtain ⟨hconfig, hcount, hslots, hframes⟩ := hrun.assemblerInv hpackets
  -- The constructor changes the number of slots only.
  have hlimits : s.assembler.config.maxPacketsPerFrame = config.maxPacketsPerFrame ∧
      s.assembler.config.maxPointsPerFrame = config.maxPointsPerFrame := by
    rw [hconfig]
    unfold Assembler.create
    dsimp only
    split_ifs
    all_goals exact ⟨rfl, rfl⟩
  obtain ⟨hmaxPackets, hmaxPoints⟩ := hlimits
  constructor
  · exact hcount
  · rw [List.pairwise_iff_getElem]
    intro i j hi hj hij hxact hyact hts
    have hsame := hslots.distinct i j _ _ (List.getElem?_eq_getElem hi) (List.getElem?_eq_getElem hj)
      hxact hyact hts
    omega
  · intro x hx hact
    obtain ⟨hne, hholds⟩ := (hslots.each x hx).active hact
    have hexact := hholds.slotExact hne
    exact { hexact with
      unique_le := hmaxPackets ▸ hexact.unique_le
      total_le := hmaxPoints ▸ hexact.total_le }
  · have hbound : ∀ n ∈ s.assembler.slots.map FrameSlot.stored, n ≤ config.maxPointsPerFrame := by
      intro n hn
      obtain ⟨x, hx, rfl⟩ := List.mem_map.mp hn
      rw [← hmaxPoints]
      exact (hslots.each x hx).stored_le
    have hsum := List.sum_le_card_nsmul _ _ hbound
    rw [List.length_map, smul_eq_mul] at hsum
    exact hsum
  · intro newer p activates f older hhistory
    exact historically_iff.mp hframes newer _ older hhistory p activates f rfl

/-- Three packets of a frame of five points, the last one before the middle one. -/
def outOfOrder : List Action :=
  [.addPacket { ok := true, timestampNs := 55, total := 5, index := 0, points := [{}, {}] } 10,
    .addPacket { ok := true, timestampNs := 55, total := 5, index := 4, points := [{}] } 20,
    .addPacket { ok := true, timestampNs := 55, total := 5, index := 2, points := [{}, {}] } 30]

/-- The newest call returned a frame of `n` points. -/
def returnsFrame (n : Nat) : List Event → Bool
  | .added _ _ (some f) :: _ => decide (f.points.length = n)
  | _ => false

/-- The last call returns the frame, and the assembler stays exact. -/
theorem assembler_is_exact_outOfOrder : ∃ s : Feed, Feed.Run {} (fun _ _ => True) s ∧
    (∃ p activates f older, s.history = .added p activates (some f) :: older ∧
      f.points.length = 5) ∧
    AssemblerExact {} s := by
  obtain ⟨s, hrun, hs⟩ := Feed.exists_run_of_exec {} (fun _ _ => True) outOfOrder
    (fun s => returnsFrame 5 s.history) (by decide +kernel)
  refine ⟨s, hrun, ?_, assembler_is_exact hrun (by decide)⟩
  unfold returnsFrame at hs
  split at hs
  · rename_i p activates f older hhistory
    exact ⟨p, activates, f, older, hhistory, of_decide_eq_true hs⟩
  · exact absurd hs (by simp)

end HypertronBridge.Lidar
