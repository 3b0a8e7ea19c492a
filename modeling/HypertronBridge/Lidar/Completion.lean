import HypertronBridge.Lidar.Datagram
import HypertronBridge.Lidar.Table

namespace HypertronBridge.Lidar

open Blocks

/-!
# A frame completes in any order

The packets of a frame, fed in any order and with copies of packets that were fed before, give one
frame, with the last packet that was missing, and nothing before it.  A copy is known by `==` of its points,
so a packet with a NaN among its coordinates conflicts with its own copy.

* `Tiles`, `Tiling` — packets that follow one another and make up a frame;
* `WithCopies` — an order of them, with copies between;
* `Collects` — a slot that holds some of them; `Tiling.duplicate`, `Tiling.stored`,
  `Tiling.completes` — what it does with a copy, with a new packet and with the last one;
* `nan_copy_drops_frame`, `completes_in_any_order` — the copies that drop their frame, and the result.
-/

variable {config : AssemblerConfig} {ts total : UInt64} {ps seen order : List PointCloudPacketResult}
  {p : PointCloudPacketResult} {now : Time} {x : FrameSlot} {s : Assembler}
  {may : PointCloudPacketResult → Prop}

/-! ### The packets of a frame -/

/-- Well-formed packets of one frame, with a point at least, that follow one another, from an offset to the
    end. -/
def Tiles (ts total : UInt64) : Nat → List PointCloudPacketResult → Prop
  | i, [] => i = total.toNat
  | i, p :: ps =>
      (p.ok = true ∧ 1 ≤ p.points.length ∧ p.timestampNs = ts ∧ p.total = total) ∧ p.index.toNat = i ∧
        Tiles ts total (i + p.points.length) ps

/-- The packets of a frame that the configuration admits. -/
structure Tiling (config : AssemblerConfig) (ts total : UInt64) (ps : List PointCloudPacketResult) :
    Prop where
  total_pos : 1 ≤ total.toNat
  total_le : total.toNat ≤ config.maxPointsPerFrame
  packets_le : ps.length ≤ config.maxPacketsPerFrame
  tiles : Tiles ts total 0 ps

/-- The frame that they make up. -/
def frameOf (ts total : UInt64) (ps : List PointCloudPacketResult) : PointCloudFrame where
  timestampNs := ts
  totalPoints := total
  points := ps.flatMap (fun p => p.points)

/-- The packets of `order`, in this order, each with a reading of the clock, and between them copies of
    packets that were fed before and that `may` be copied; after the last one, nothing. -/
inductive WithCopies (may : PointCloudPacketResult → Prop) :
    List PointCloudPacketResult → List PointCloudPacketResult →
      List (PointCloudPacketResult × Time) → Prop
  | nil {seen : List PointCloudPacketResult} : WithCopies may seen [] []
  | next {seen order : List PointCloudPacketResult} {fed : List (PointCloudPacketResult × Time)}
      (p : PointCloudPacketResult) (now : Time) (hrest : WithCopies may (p :: seen) order fed) :
      WithCopies may seen (p :: order) ((p, now) :: fed)
  | copy {seen order : List PointCloudPacketResult} {fed : List (PointCloudPacketResult × Time)}
      (p : PointCloudPacketResult) (now : Time) (hp : p ∈ seen) (hmay : may p) (hmissing : order ≠ [])
      (hrest : WithCopies may seen order fed) : WithCopies may seen order ((p, now) :: fed)

/-- What the calls of `add_packet` return. -/
def Assembler.outputs (s : Assembler) :
    List (PointCloudPacketResult × Time) → List (Option PointCloudFrame)
  | [] => []
  | (p, now) :: fed => (s.addPacket p now).1 :: (s.addPacket p now).2.outputs fed

/-- A packet as a slot stores it. -/
def block (p : PointCloudPacketResult) : Block LidarPoint := (p.index.toNat, p.points)

theorem Tiles.scan {i : Nat} (h : Tiles ts total i ps) : scan i (ps.map block) = some total.toNat := by
  induction ps generalizing i with
  | nil => exact congrArg some h
  | cons p ps ih =>
    obtain ⟨-, hindex, hrest⟩ := h
    rw [List.map_cons, Blocks.scan, if_pos (show (block p).1 = i from hindex)]
    exact ih hrest

theorem Tiles.each {i : Nat} (h : Tiles ts total i ps) :
    ∀ p ∈ ps, p.ok = true ∧ 1 ≤ p.points.length ∧ p.timestampNs = ts ∧ p.total = total := by
  induction ps generalizing i with
  | nil => simp
  | cons p ps ih =>
    obtain ⟨hfirst, -, hrest⟩ := h
    exact List.forall_mem_cons.mpr ⟨hfirst, ih hrest⟩

/-! ### What a slot collects -/

/-- The slot holds these packets of the frame. -/
structure Collects (ts total : UInt64) (seen : List PointCloudPacketResult) (x : FrameSlot) : Prop where
  timestampNs : x.timestampNs = ts
  total : x.total = total
  entries : x.packets.entries.Perm (seen.map block)
  unique : x.uniqueIndices = seen.length
  sum : x.sumPoints = size (seen.map block)

/-- A slot that has just been activated collects nothing, once a packet declares its total. -/
theorem Collects.fresh (htotal : p.total = total) :
    Collects ts total [] ((FrameSlot.fresh ts now).declare p) :=
  ⟨rfl, htotal, .nil, rfl, rfl⟩

/-- A slot that collects declares nothing new. -/
theorem Collects.declare (h : Collects ts total seen x) (hseen : seen ≠ []) : x.declare p = x := by
  refine if_neg ?_
  rw [h.unique]
  exact fun hzero => hseen (List.eq_nil_of_length_eq_zero hzero)

/-- **A copy is a duplicate**, when it compares equal to what is stored. -/
theorem Collects.duplicate (h : Collects ts total seen x) (hseen : p ∈ seen) (hequal : p.EqualsItself) :
    x.judge config p = .duplicate := by
  have hfind : x.packets.find? p.index.toNat = some p.points :=
    OrderedMap.find?_eq_some.mpr (h.entries.mem_iff.mpr (List.mem_map_of_mem hseen))
  rw [FrameSlot.judge_of_stored hfind]
  exact if_pos hequal

/-- Storing a packet. -/
theorem Collects.store (h : Collects ts total seen x) (hnew : x.packets.find? p.index.toNat = none) :
    Collects ts total (p :: seen) (x.store p) where
  timestampNs := h.timestampNs
  total := h.total
  entries := (OrderedMap.perm_emplace hnew).trans (h.entries.cons _)
  unique := congrArg Nat.succ h.unique
  sum := by
    rw [List.map_cons, size_cons, Nat.add_comm, ← h.sum]
    rfl

namespace Tiling

variable (h : Tiling config ts total ps)

include h

/-- No two of the packets overlap. -/
theorem apart (hperm : (seen ++ p :: order).Perm ps) : ∀ q ∈ seen, Apart (block p) (block q) := by
  obtain ⟨hordered, -⟩ := scan_pairwise h.tiles.scan
  have happart : ((seen ++ p :: order).map block).Pairwise Apart :=
    ((hperm.map block).pairwise_iff Apart.symm).mpr (hordered.imp Or.inl)
  rw [List.map_append, List.pairwise_append] at happart
  intro q hq
  exact (happart.2.2 _ (List.mem_map_of_mem hq) _ (List.mem_map_of_mem List.mem_cons_self)).symm

/-- The points that were fed and those that are missing are all points. -/
theorem size_eq (hperm : (seen ++ order).Perm ps) :
    size (seen.map block) + size (order.map block) = total.toNat := by
  have hsize := size_perm (hperm.map block)
  rw [List.map_append, size_append] at hsize
  have hscan := scan_length h.tiles.scan
  rw [← size_eq_length_concat] at hscan
  omega

/-- What is asked of each packet before its slot. -/
theorem admitted (hp : p ∈ ps) : p.ok = true ∧ ¬ (p.total = 0 ∨ config.maxPointsPerFrame < p.total.toNat) ∧
    Assembler.rangeOutOfFrame p = false := by
  obtain ⟨hok, hpoints, -, rfl⟩ := h.tiles.each p hp
  obtain ⟨-, hwithin⟩ := scan_pairwise h.tiles.scan
  obtain ⟨-, hstop⟩ := hwithin _ (List.mem_map_of_mem hp)
  have hpos := h.total_pos
  have hle := h.total_le
  unfold stop block at hstop
  dsimp only at hstop
  refine ⟨hok, ?_, ?_⟩
  · rintro (hzero | hlarge)
    · rw [hzero] at hpos
      exact absurd hpos (by decide)
    · omega
  · unfold Assembler.rangeOutOfFrame
    rw [Bool.or_eq_false_iff, decide_eq_false_iff_not, decide_eq_false_iff_not]
    omega

/-! #### What a slot does with a packet -/


/-- **A new packet is stored.** -/
theorem accept (hx : Collects ts total seen x) (hperm : (seen ++ p :: order).Perm ps) :
    x.packets.find? p.index.toNat = none ∧ x.judge config p = .accept := by
  have hp : p ∈ ps := hperm.mem_iff.mp (by simp)
  have hpoints : ∀ q ∈ ps, 1 ≤ (block q).2.length := fun q hq => (h.tiles.each q hq).2.1
  -- every entry is a packet that ends before this one or begins after it
  have hentry : ∀ e ∈ x.packets.entries, 1 ≤ e.2.length ∧ Apart (block p) e := by
    intro e he
    obtain ⟨q, hq, rfl⟩ := List.mem_map.mp (hx.entries.mem_iff.mp he)
    exact ⟨hpoints q (hperm.mem_iff.mp (List.mem_append_left _ hq)), h.apart hperm q hq⟩
  have hone := hpoints p hp
  have hfind : x.packets.find? p.index.toNat = none := by
    refine OrderedMap.find?_eq_none.mpr (fun e he hkey => ?_)
    obtain ⟨hlen, hapart⟩ := hentry e he
    simp only [Apart, stop, block] at hapart hone
    omega
  -- of at most `maxPacketsPerFrame` packets, one at least is missing
  have hsize : x.packets.size < config.maxPacketsPerFrame := by
    have hlength := hperm.length_eq
    have hentries := hx.entries.length_eq
    rw [List.length_append, List.length_cons] at hlength
    rw [List.length_map] at hentries
    have hle := h.packets_le
    unfold OrderedMap.size
    omega
  -- the two neighbours, by offset, are entries, and none of those overlaps
  have hnext : ∀ e ∈ x.packets.lowerBound p.index.toNat, stop (block p) ≤ e.1 := by
    intro e he
    obtain ⟨hmem, hle, -⟩ := OrderedMap.lowerBound_spec he
    obtain ⟨hlen, hapart⟩ := hentry e hmem
    simp only [Apart, stop, block] at hapart ⊢
    omega
  have hprev : ∀ e ∈ x.packets.predecessor p.index.toNat, stop e ≤ p.index.toNat := by
    intro e he
    obtain ⟨hmem, hle, -⟩ := OrderedMap.predecessor_spec he
    obtain ⟨hlen, hapart⟩ := hentry e hmem
    simp only [Apart, stop, block] at hapart hone ⊢
    omega
  -- what is fed and what is missing make up the total
  have hsum : x.sumPoints + p.points.length ≤ total.toNat := by
    have hsize := h.size_eq hperm
    have hlen : (block p).2.length = p.points.length := rfl
    rw [List.map_cons, size_cons, ← hx.sum] at hsize
    omega
  have hbudget : x.overBudget config p = false :=
    FrameSlot.within_budget_iff.mpr ⟨hx.total ▸ hsum, Nat.le_trans hsum h.total_le⟩
  exact ⟨hfind, FrameSlot.judge_accept_iff.mpr
    ⟨hfind, hsize, FrameSlot.neighbours_pass_iff.mpr ⟨hnext, hprev⟩, hbudget⟩⟩

/-- A slot with all packets has them in order. -/
theorem entries_eq (hx : Collects ts total seen x) (hperm : seen.Perm ps) :
    x.packets.entries = ps.map block := by
  obtain ⟨hordered, -⟩ := scan_pairwise h.tiles.scan
  refine eq_of_perm (hx.entries.trans (hperm.map block)) x.packets.sorted ?_
  refine hordered.imp_of_mem (fun {b c} hb _ hstop => ?_)
  obtain ⟨q, hq, rfl⟩ := List.mem_map.mp hb
  have hone : 1 ≤ (block q).2.length := (h.tiles.each q hq).2.1
  unfold stop at hstop
  omega

/-- **A slot is complete when no packet is missing.** -/
theorem complete_iff (hx : Collects ts total seen x) (hperm : (seen ++ order).Perm ps) :
    x.complete = true ↔ order = [] := by
  have hsize := h.size_eq hperm
  rw [← hx.sum] at hsize
  unfold FrameSlot.complete
  rw [Bool.and_eq_true, Bool.and_eq_true, beq_iff_eq, beq_iff_eq, decide_eq_true_eq, hx.total]
  constructor
  · -- a missing packet has a point, so the sum would be short of the total
    rintro ⟨⟨hsum, -⟩, -⟩
    by_contra hmissing
    obtain ⟨q, rest, rfl⟩ := List.exists_cons_of_ne_nil hmissing
    have hq : q ∈ ps := hperm.mem_iff.mp (by simp)
    have hone : 1 ≤ (block q).2.length := (h.tiles.each q hq).2.1
    rw [List.map_cons, size_cons] at hsize
    omega
  · rintro rfl
    rw [List.append_nil] at hperm
    have hsum : x.sumPoints = total.toNat := hsize
    refine ⟨⟨hsum, ?_⟩, ?_⟩
    · rw [hx.unique]
      refine List.length_pos_iff.mpr (fun hnil => ?_)
      have hpos := h.total_pos
      rw [← hsum, hx.sum, hnil] at hpos
      exact absurd hpos (by decide)
    · rw [h.entries_eq hx hperm]
      exact h.tiles.scan

/-- **The frame.** -/
theorem frame_eq (hx : Collects ts total seen x) (hperm : seen.Perm ps) :
    x.frame = frameOf ts total ps ∧ x.frame.points.length = x.total.toNat := by
  have hpoints : concat (ps.map block) = ps.flatMap (fun p => p.points) := by
    rw [concat, List.flatMap_map]
    rfl
  have hlength := scan_length h.tiles.scan
  rw [Nat.zero_add] at hlength
  unfold FrameSlot.frame frameOf
  rw [h.entries_eq hx hperm, hx.timestampNs, hx.total]
  dsimp only
  rw [← hpoints]
  exact ⟨rfl, hlength.symm⟩

end Tiling

/-! ### The entry of the frame -/

/-- The entry of a timestamp holds these packets. -/
def HoldsSeen (ts total : UInt64) (seen : List PointCloudPacketResult) : Option FrameSlot → Prop
  | none => seen = []
  | some x => seen ≠ [] ∧ Collects ts total seen x

namespace Tiling

variable {entry : Option FrameSlot} (h : Tiling config ts total ps)

include h

/-- The packet comes to the slot of its frame. -/
theorem frameStep_eq (hp : p ∈ ps) (now : Time) (hentry : HoldsSeen ts total seen entry) :
    ∃ base : FrameSlot, base = entry.getD (.fresh ts now) ∧ Collects ts total seen (base.declare p) ∧
      frameStep config p now entry = base.offer config p ∧
      ¬ (0 < base.uniqueIndices ∧ base.total ≠ p.total) := by
  obtain ⟨hok, hcaps, hrange⟩ := h.admitted hp
  obtain ⟨-, -, rfl, htotal⟩ := h.tiles.each p hp
  refine ⟨_, rfl, ?_, ?_, ?_⟩
  · cases entry with
    | none =>
      obtain rfl : seen = [] := hentry
      exact .fresh htotal
    | some x =>
      obtain ⟨hseen, hx⟩ := hentry
      rw [Option.getD_some, hx.declare hseen]
      exact hx
  · unfold frameStep
    rw [hok, hrange]
    exact if_neg hcaps
  · rintro ⟨hpos, hne⟩
    cases entry with
    | none => exact absurd hpos (Nat.lt_irrefl 0)
    | some x => exact hne (hentry.2.total.trans htotal.symm)

/-- **Step lemma, a copy.** It changes nothing. -/
theorem copy (hp : p ∈ ps) (now : Time) (hseen : p ∈ seen) (hequal : p.EqualsItself)
    (hentry : HoldsSeen ts total seen entry) :
    frameStep config p now entry = (none, entry) := by
  obtain ⟨base, hbase, hx, hstep, htotal⟩ := h.frameStep_eq hp now hentry
  cases entry with
  | none => exact absurd (hentry ▸ hseen) (by simp)
  | some x =>
    obtain rfl : base = x := hbase
    rw [hstep, FrameSlot.offer, if_neg htotal]
    dsimp only
    rw [hx.duplicate hseen hequal, hentry.2.declare hentry.1]

/-- **Step lemma, a new packet.** The last one that is missing completes the frame, and nothing of it
    stays. -/
theorem next (now : Time) (hperm : (seen ++ p :: order).Perm ps)
    (hentry : HoldsSeen ts total seen entry) :
    ∃ entry', frameStep config p now entry =
        (if order = [] then some (frameOf ts total ps) else none, entry') ∧
      HoldsSeen ts total (if order = [] then [] else p :: seen) entry' := by
  have hp : p ∈ ps := hperm.mem_iff.mp (by simp)
  obtain ⟨base, -, hx, hstep, htotal⟩ := h.frameStep_eq hp now hentry
  obtain ⟨hnew, haccept⟩ := h.accept hx hperm
  have hstored := hx.store hnew
  have hperm' : (p :: seen ++ order).Perm ps := List.perm_middle.symm.trans hperm
  have hcomplete := h.complete_iff hstored hperm'
  rw [hstep, FrameSlot.offer, if_neg htotal]
  dsimp only
  rw [haccept]
  dsimp only
  by_cases hlast : order = []
  · subst hlast
    rw [List.append_nil] at hperm'
    obtain ⟨hframe, hlength⟩ := h.frame_eq hstored hperm'
    rw [hcomplete.mpr rfl, Bool.not_true, if_neg Bool.false_ne_true, if_neg (not_not.mpr hlength), hframe]
    exact ⟨none, rfl, rfl⟩
  · have hnot : ((base.declare p).store p).complete = false := by
      simpa using fun hdone => hlast (hcomplete.mp hdone)
    rw [hnot, if_neg hlast, if_neg hlast]
    exact ⟨_, rfl, List.cons_ne_nil _ _, hstored⟩

end Tiling

/-! ### Any order -/

/-- While packets are missing, something is fed. -/
theorem WithCopies.ne_nil {fed : List (PointCloudPacketResult × Time)}
    (h : WithCopies may seen order fed) (hmissing : order ≠ []) : fed ≠ [] := by
  cases h with
  | nil => exact absurd rfl hmissing
  | next => exact List.cons_ne_nil _ _
  | copy => exact List.cons_ne_nil _ _

/-- **Run lemma.** From a slot that holds some packets, the last missing one returns the frame, and
    nothing else returns one. -/
theorem Tiling.outputs {fed : List (PointCloudPacketResult × Time)}
    (hfed : WithCopies PointCloudPacketResult.EqualsItself seen order fed) (hperm : (seen ++ order).Perm ps) (hmissing : order ≠ []) :
    ∀ s : Assembler, Tiling s.config ts total ps → s.One ts → HoldsSeen ts total seen (s.held ts) →
      (s.held ts = none → ∃ x ∈ s.slots, x.active = false) →
      s.outputs fed = List.replicate (fed.length - 1) none ++ [some (frameOf ts total ps)] := by
  induction hfed with
  | nil => exact absurd rfl hmissing
  | @next seen order fed p now hrest ih =>
    intro s h hone hholds hroom
    have hp : p ∈ ps := hperm.mem_iff.mp (by simp)
    have hts : p.timestampNs = ts := (h.tiles.each p hp).2.2.1
    obtain ⟨entry', hstep, hafter⟩ := h.next now hperm hholds
    subst hts
    obtain ⟨hout, hreplaces⟩ := Assembler.addPacket_of_frameStep hone hroom hstep
    rw [Assembler.outputs, hout]
    by_cases hlast : order = []
    · -- nothing is fed after the last packet
      subst hlast
      cases hrest with
      | nil => rw [if_pos rfl]; rfl
      | copy _ _ _ _ hmissing => exact absurd rfl hmissing
    · have hseen : HoldsSeen p.timestampNs total (p :: seen) entry' := by
        rwa [if_neg hlast] at hafter
      rw [← hreplaces.held] at hseen
      rw [if_neg hlast, ih (List.perm_middle.symm.trans hperm) hlast _ (hreplaces.config ▸ h)
        hreplaces.one hseen (fun hnone => absurd (hnone ▸ hseen) (List.cons_ne_nil _ _))]
      obtain ⟨c, fed, rfl⟩ := List.exists_cons_of_ne_nil (hrest.ne_nil hlast)
      rfl
  | @copy seen order fed p now hseen hequal _ hrest ih =>
    intro s h hone hholds hroom
    have hp : p ∈ ps := hperm.mem_iff.mp (List.mem_append_left _ hseen)
    have hts : p.timestampNs = ts := (h.tiles.each p hp).2.2.1
    have hstep := h.copy hp now hseen hequal hholds
    subst hts
    obtain ⟨hout, hreplaces⟩ := Assembler.addPacket_of_frameStep hone hroom hstep
    have hheld := hreplaces.held
    rw [Assembler.outputs, hout, ih hperm hmissing _ (hreplaces.config ▸ h) hreplaces.one
      (hheld ▸ hholds) (fun hnone => ?_)]
    · obtain ⟨c, fed, rfl⟩ := List.exists_cons_of_ne_nil (hrest.ne_nil hmissing)
      rfl
    · -- the packet was fed before, so its frame is open
      rw [hheld] at hnone
      rw [hnone] at hholds
      exact absurd (hholds ▸ hseen) (by simp)

/-- A packet of a frame of five points. -/
def piece (index : UInt32) (points : List LidarPoint) : PointCloudPacketResult :=
  { ok := true, timestampNs := 7, total := 5, index, points }

/-- The packets of that frame. -/
def pieces : List PointCloudPacketResult :=
  [piece 0 [{ rgba := 1 }, { rgba := 2 }], piece 2 [{ rgba := 3 }],
    piece 3 [{ rgba := 4 }, { rgba := 5 }]]

/-- Its first packet, with a NaN. -/
def nanPiece : PointCloudPacketResult := piece 0 [{ x := ⟨false, 255, 1⟩ }, { rgba := 2 }]

/-- **A copy may drop its frame.** A packet with a NaN is not equal to its copy, so in a new assembler, all of
    whose slots are free, the copy conflicts with it, and the frame does not complete. -/
theorem nan_copy_drops_frame : ¬ ∀ (ps order : List PointCloudPacketResult)
    (fed : List (PointCloudPacketResult × Time)), Tiling (Assembler.create {}).config 7 5 ps →
      (∀ p ∈ ps, p.points.length ≤ 50) → order.Perm ps → WithCopies (fun _ => True) [] order fed →
      (Assembler.create {}).outputs fed =
        List.replicate (fed.length - 1) none ++ [some (frameOf 7 5 ps)] := by
  intro h
  have hout := h (nanPiece :: pieces.tail) (nanPiece :: pieces.tail)
    [(nanPiece, 10), (nanPiece, 20), (piece 2 [{ rgba := 3 }], 30),
      (piece 3 [{ rgba := 4 }, { rgba := 5 }], 40)]
    { total_pos := by decide
      total_le := by decide
      packets_le := by decide
      tiles := ⟨⟨rfl, by decide, rfl, rfl⟩, rfl, ⟨rfl, by decide, rfl, rfl⟩, rfl,
        ⟨rfl, by decide, rfl, rfl⟩, rfl, rfl⟩ }
    (by decide) .rfl
    (.next _ 10 (.copy _ 20 List.mem_cons_self trivial (List.cons_ne_nil _ _)
      (.next _ 30 (.next _ 40 .nil))))
  exact absurd (congrArg (fun out => out.map Option.isSome) hout) (by decide +kernel)

/-- **A frame completes in any order.** The packets of a frame, in any order and with copies, that equal
    themselves, of packets that were fed before the last one, are fed to an assembler that has no slot for
    its timestamp and a free one.  Every call returns nothing, until the last one returns the frame. -/
theorem completes_in_any_order (s : Assembler) (ts total : UInt64)
    (ps order : List PointCloudPacketResult) (fed : List (PointCloudPacketResult × Time))
    (h : Tiling s.config ts total ps) (hnone : s.findSlot ts = none)
    (hfree : ∃ x ∈ s.slots, x.active = false) (horder : order.Perm ps)
    (hfed : WithCopies PointCloudPacketResult.EqualsItself [] order fed) :
    s.outputs fed = List.replicate (fed.length - 1) none ++ [some (frameOf ts total ps)] := by
  have hheld := Assembler.findSlot_eq_none_iff.mp hnone
  -- no slot has the timestamp, so at most one does
  have hone : s.One ts := by
    intro i j x y hx _ hof _
    exact absurd hof (List.find?_eq_none.mp hheld x (List.mem_of_getElem? hx))
  have hmissing : order ≠ [] := by
    rintro rfl
    obtain rfl := horder.nil_eq
    have htotal : 0 = total.toNat := h.tiles
    have hpos := h.total_pos
    omega
  refine Tiling.outputs hfed horder hmissing s h hone ?_ (fun _ => hfree)
  rw [hheld]
  exact rfl

/-- The last packet first, and once more before the middle one. -/
theorem completes_in_any_order_reversed :
    (Assembler.create {}).outputs
        [(piece 3 [{ rgba := 4 }, { rgba := 5 }], 10), (piece 0 [{ rgba := 1 }, { rgba := 2 }], 20),
          (piece 3 [{ rgba := 4 }, { rgba := 5 }], 30), (piece 2 [{ rgba := 3 }], 40)] =
      [none, none, none, some (frameOf 7 5 pieces)] :=
  completes_in_any_order (Assembler.create {}) 7 5 pieces
    [piece 3 [{ rgba := 4 }, { rgba := 5 }], piece 0 [{ rgba := 1 }, { rgba := 2 }],
      piece 2 [{ rgba := 3 }]] _
    { total_pos := by decide
      total_le := by decide
      packets_le := by decide
      tiles := ⟨⟨rfl, by decide, rfl, rfl⟩, rfl, ⟨rfl, by decide, rfl, rfl⟩, rfl,
        ⟨rfl, by decide, rfl, rfl⟩, rfl, rfl⟩ }
    (by decide) ⟨{}, List.mem_cons_self, rfl⟩
    ((List.Perm.swap _ _ _).trans ((List.Perm.swap _ _ _).cons _))
    (.next _ 10 (.next _ 20 (.copy _ 30 (List.mem_cons_of_mem _ List.mem_cons_self)
      rfl (by simp) (.next _ 40 .nil))))

end HypertronBridge.Lidar
