import HypertronBridge.Lib.Blocks
import HypertronBridge.Lib.TransitionSystem
import HypertronBridge.Sdk

namespace HypertronBridge.Lidar

open Blocks TransitionSystem

/-!
# The frame assembler (`PointCloudFrameAssembler`, `lidar_stream.cpp`)

A point-cloud frame comes in packets, each with the offset of its first point.  The assembler collects
the packets of a few frames at once, one frame a slot, and returns a frame when its packets cover it.
It is used by one thread and reads the clock when a slot is activated.

* `FrameSlot`, `Assembler` — the slots and the counters;
* `slotForTimestamp`, `finalizeSlot`, `addPacket`, `expire` — the operations;
* `Feed.step` — one call, with a history of the calls.
-/

/-! ### Points, packets and frames -/

/-- `LidarPoint`. -/
structure LidarPoint where
  x : Binary32 := .zero
  y : Binary32 := .zero
  z : Binary32 := .zero
  rgba : UInt32 := 0
  rgbaChannels : Vector UInt32 4 := .replicate 4 0

/-- `operator==` of points, with the comparison of `float`. -/
instance : BEq LidarPoint where
  beq a b := a.x.eq b.x && a.y.eq b.y && a.z.eq b.z && a.rgba == b.rgba &&
    a.rgbaChannels == b.rgbaChannels

/-- `PointCloudFrame`. -/
structure PointCloudFrame where
  timestampNs : UInt64
  totalPoints : UInt64
  points : List LidarPoint

/-- `PointCloudPacketResult`. -/
structure PointCloudPacketResult where
  ok : Bool := false
  reason : String := ""
  timestampNs : UInt64 := 0
  total : UInt64 := 0
  index : UInt32 := 0
  posNum : UInt16 := 0
  points : List LidarPoint := []

/-! ### The state -/

/-- `AssemblerConfig`. -/
structure AssemblerConfig where
  maxParallelFrames : Nat := 4
  /-- In milliseconds. -/
  frameTimeout : Int := 300
  maxPointsPerFrame : Nat := 2000000
  maxPacketsPerFrame : Nat := 40000

/-- `PointCloudFrameAssembler::FrameSlot`. -/
structure FrameSlot where
  active : Bool := false
  timestampNs : UInt64 := 0
  total : UInt64 := 0
  /-- The points of the packets, by the offset of the first one. -/
  packets : OrderedMap Nat (List LidarPoint) := .empty
  uniqueIndices : Nat := 0
  sumPoints : Nat := 0
  activatedAt : Time := 0

/-- `PointCloudFrameAssembler::Stats`. -/
structure Stats where
  packetsAccepted : Nat := 0
  packetsDuplicated : Nat := 0
  packetsRejected : Nat := 0
  framesPublished : Nat := 0
  framesDroppedTimeout : Nat := 0
  framesDroppedConflict : Nat := 0
  framesDroppedCapacity : Nat := 0
deriving DecidableEq

/-- `FinalizeReason`. -/
inductive FinalizeReason
  | published
  | timeout
  | conflict
deriving DecidableEq

/-- `PointCloudFrameAssembler`. -/
structure Assembler where
  slots : List FrameSlot
  config : AssemblerConfig
  stats : Stats := {}

namespace Assembler

/-- The constructor. -/
def create (config : AssemblerConfig) : Assembler :=
  let config := if config.maxParallelFrames = 0 then { config with maxParallelFrames := 1 } else config
  { slots := List.replicate config.maxParallelFrames {}, config }

end Assembler

/-! ### One slot -/

namespace FrameSlot

/-- The fields that `finalize_slot` resets. -/
def clear (x : FrameSlot) : FrameSlot :=
  { x with active := false, packets := .empty, uniqueIndices := 0, sumPoints := 0 }

/-- The fields that `slot_for_timestamp` sets when it creates a frame. -/
def activate (timestampNs : UInt64) (now : Time) (x : FrameSlot) : FrameSlot :=
  { x with
    active := true
    timestampNs
    total := 0
    packets := .empty
    uniqueIndices := 0
    sumPoints := 0
    activatedAt := now }

/-- The first packet of a frame declares its total. -/
def declare (packet : PointCloudPacketResult) (x : FrameSlot) : FrameSlot :=
  if x.uniqueIndices = 0 then { x with total := packet.total } else x

/-- What becomes of a packet whose total is that of its slot. -/
inductive Verdict
  | duplicate
  | reject
  | conflict
  | accept
deriving DecidableEq

/-- The packet runs into the first one from its offset on. -/
def nextOverlaps (packet : PointCloudPacketResult) (x : FrameSlot) : Bool :=
  (x.packets.lowerBound packet.index.toNat).any
    (fun next => decide (next.1 < packet.index.toNat + packet.points.length))

/-- The last packet before its offset runs into it. -/
def prevOverlaps (packet : PointCloudPacketResult) (x : FrameSlot) : Bool :=
  (x.packets.predecessor packet.index.toNat).any
    (fun prev => decide (packet.index.toNat < prev.1 + prev.2.length))

/-- The packet would take the sum of the points past the frame's total, or past the cap. -/
def overBudget (config : AssemblerConfig) (packet : PointCloudPacketResult) (x : FrameSlot) : Bool :=
  decide (x.total.toNat < x.sumPoints + packet.points.length) ||
    decide (config.maxPointsPerFrame < x.sumPoints + packet.points.length)

/-- The checks of `add_packet` against what the slot holds. -/
def judge (config : AssemblerConfig) (packet : PointCloudPacketResult) (x : FrameSlot) : Verdict :=
  match x.packets.find? packet.index.toNat with
  | some points => if points == packet.points then .duplicate else .conflict
  | none =>
      if config.maxPacketsPerFrame ≤ x.packets.size then .reject
      else if x.nextOverlaps packet then .conflict
      else if x.prevOverlaps packet then .conflict
      else if x.overBudget config packet then .conflict
      else .accept

/-- An accepted packet is stored. -/
def store (packet : PointCloudPacketResult) (x : FrameSlot) : FrameSlot :=
  { x with
    packets := x.packets.emplace packet.index.toNat packet.points
    uniqueIndices := x.uniqueIndices + 1
    sumPoints := x.sumPoints + packet.points.length }

/-- The completion check: the sum, and an ordered scan without gaps. -/
def complete (x : FrameSlot) : Bool :=
  x.sumPoints == x.total.toNat && decide (0 < x.uniqueIndices) &&
    scan 0 x.packets.entries == some x.total.toNat

/-- The frame that a complete slot emits. -/
def frame (x : FrameSlot) : PointCloudFrame where
  timestampNs := x.timestampNs
  totalPoints := x.total
  points := concat x.packets.entries

end FrameSlot

/-! ### The slots -/

namespace Assembler

/-- The counter that `finalize_slot` increments. -/
def countDrop (stats : Stats) : FinalizeReason → Stats
  | .timeout => { stats with framesDroppedTimeout := stats.framesDroppedTimeout + 1 }
  | .conflict => { stats with framesDroppedConflict := stats.framesDroppedConflict + 1 }
  | .published => stats

/-- `finalize_slot`. -/
def finalizeSlot (s : Assembler) (i : Nat) (reason : FinalizeReason) : Assembler :=
  match s.slots[i]? with
  | some x =>
      if x.active then
        { s with slots := s.slots.set i x.clear, stats := countDrop s.stats reason }
      else s
  | none => s

/-- `slot_for_timestamp` without `create`: the slot that holds a frame with this timestamp. -/
def findSlot (s : Assembler) (timestampNs : UInt64) : Option Nat :=
  s.slots.findIdx? (fun x => x.active && x.timestampNs == timestampNs)

/-- The search for the slot that was activated first: the best one before position `i`, against those
    from there on.  Every reading of the clock is before `time_point::max()`. -/
def oldestSlot : List FrameSlot → Nat → Option (Nat × Time) → Option (Nat × Time)
  | [], _, oldest => oldest
  | x :: xs, i, oldest =>
      oldestSlot xs (i + 1)
        (if oldest.all (fun o => decide (x.activatedAt < o.2)) then some (i, x.activatedAt) else oldest)

/-- A slot for a new frame: a free one, or that of the oldest frame, which is dropped. -/
def chooseSlot (s : Assembler) : Nat × Assembler :=
  match s.slots.findIdx? (fun x => !x.active) with
  | some i => (i, s)
  | none =>
      let i := ((oldestSlot s.slots 0 none).map (fun o => o.1)).getD s.slots.length
      let s := s.finalizeSlot i .published
      (i, { s with stats.framesDroppedCapacity := s.stats.framesDroppedCapacity + 1 })

/-- `slot_for_timestamp` with `create`. -/
def slotForTimestamp (s : Assembler) (timestampNs : UInt64) (now : Time) : Nat × Assembler :=
  match s.findSlot timestampNs with
  | some i => (i, s)
  | none =>
      let (i, s) := s.chooseSlot
      (i, { s with slots := s.slots.modify i (FrameSlot.activate timestampNs now) })

/-- A packet is rejected. -/
def reject (s : Assembler) : Assembler :=
  { s with stats.packetsRejected := s.stats.packetsRejected + 1 }

/-- The packet's points do not lie within its own frame. -/
def rangeOutOfFrame (packet : PointCloudPacketResult) : Bool :=
  decide (packet.total.toNat ≤ packet.index.toNat) ||
    decide (packet.total.toNat < packet.index.toNat + packet.points.length)

/-- `add_packet` from the completion check on. -/
def emit (s : Assembler) (i : Nat) (x : FrameSlot) : Option PointCloudFrame × Assembler :=
  if !x.complete then (none, s)
  else if x.frame.points.length ≠ x.total.toNat then (none, s.finalizeSlot i .conflict)
  else
    let s := { s with stats.framesPublished := s.stats.framesPublished + 1 }
    (some x.frame, s.finalizeSlot i .published)

/-- `add_packet` from the slot on. -/
def addToSlot (s : Assembler) (i : Nat) (x : FrameSlot) (packet : PointCloudPacketResult) :
    Option PointCloudFrame × Assembler :=
  if 0 < x.uniqueIndices ∧ x.total ≠ packet.total then (none, s.finalizeSlot i .conflict)
  else
    let x := x.declare packet
    let s := { s with slots := s.slots.set i x }
    match x.judge s.config packet with
    | .duplicate =>
        (none, { s with stats.packetsDuplicated := s.stats.packetsDuplicated + 1 })
    | .reject => (none, s.reject)
    | .conflict => (none, s.finalizeSlot i .conflict)
    | .accept =>
        let x := x.store packet
        let s := { s with
          slots := s.slots.set i x
          stats.packetsAccepted := s.stats.packetsAccepted + 1 }
        s.emit i x

/-- `add_packet`. -/
def addPacket (s : Assembler) (packet : PointCloudPacketResult) (now : Time) :
    Option PointCloudFrame × Assembler :=
  if !packet.ok then (none, s.reject)
  else if packet.total = 0 ∨ s.config.maxPointsPerFrame < packet.total.toNat then (none, s.reject)
  else if rangeOutOfFrame packet then
    match s.findSlot packet.timestampNs with
    | some i => (none, s.finalizeSlot i .conflict)
    | none => (none, s.reject)
  else
    let (i, s) := s.slotForTimestamp packet.timestampNs now
    match s.slots[i]? with
    | some x => s.addToSlot i x packet
    | none => (none, s.reject)

/-- `expire`. -/
def expire (s : Assembler) (now : Time) : Assembler :=
  let expired (x : FrameSlot) : Bool :=
    x.active && decide (1000000 * s.config.frameTimeout ≤ (now : Int) - x.activatedAt)
  { s with
    slots := s.slots.map (fun x => if expired x then x.clear else x)
    stats.framesDroppedTimeout := s.stats.framesDroppedTimeout + s.slots.countP expired }

/-- `in_flight_count`. -/
def inFlightCount (s : Assembler) : Nat := s.slots.countP (fun x => x.active)

end Assembler

/-! ### Runs -/

/-- A call, as the history records it. -/
inductive Event
  /-- `add_packet`; whether it activated a slot for the packet's timestamp, and what it returned. -/
  | added (packet : PointCloudPacketResult) (activates : Bool) (frame : Option PointCloudFrame)
  | expired (now : Time)

/-- An assembler, and the calls so far, newest first. -/
structure Feed where
  assembler : Assembler
  history : List Event := []

/-- A call with what it reads; `now` is the clock's reading where it activates a slot. -/
inductive Action
  | addPacket (packet : PointCloudPacketResult) (now : Time)
  | expire (now : Time)

/-- `add_packet` comes to ask for a slot. -/
def Assembler.admits (s : Assembler) (packet : PointCloudPacketResult) : Bool :=
  packet.ok && packet.total != 0 && decide (packet.total.toNat ≤ s.config.maxPointsPerFrame) &&
    !rangeOutOfFrame packet

/-- `add_packet` activates a slot for the packet. -/
def Assembler.activates (s : Assembler) (packet : PointCloudPacketResult) : Bool :=
  s.admits packet && (s.findSlot packet.timestampNs).isNone

namespace Feed

/-- One call. -/
def step (b : Action) (s : Feed) : Option Feed :=
  match b with
  | .addPacket packet now =>
      let (frame, assembler) := s.assembler.addPacket packet now
      some { assembler, history := .added packet (s.assembler.activates packet) frame :: s.history }
  | .expire now =>
      some { assembler := s.assembler.expire now, history := .expired now :: s.history }

/-- The states of the runs, from a new assembler, whose every call meets the guard `ok`. -/
def Run (config : AssemblerConfig) (ok : Feed → Action → Prop) (s : Feed) : Prop :=
  Reaches step ok { assembler := .create config } s

/-- Make calls from the start, under a guard. -/
def exec (config : AssemblerConfig) (ok : Feed → Action → Prop) [∀ s b, Decidable (ok s b)]
    (calls : List Action) : Option Feed :=
  execGuarded step ok calls { assembler := .create config }

/-- What the end of a list of calls shows, a guarded run shows. -/
theorem exists_run_of_exec (config : AssemblerConfig) (ok : Feed → Action → Prop)
    [∀ s b, Decidable (ok s b)] (calls : List Action) (P : Feed → Bool)
    (h : (exec config ok calls).any P = true) : ∃ s, Run config ok s ∧ P s = true := by
  exact exists_reaches_of_execGuarded calls P h

end Feed

end HypertronBridge.Lidar
