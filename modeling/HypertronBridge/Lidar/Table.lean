import HypertronBridge.Lidar.Slots

namespace HypertronBridge.Lidar

/-!
# The table of open frames

Which slot holds a frame does not matter: with room for the frames that are open, the assembler is a
table from timestamps to frames, and a call changes the entry of its packet only.

* `FrameSlot.offer`, `frameStep`, `expireStep` — what becomes of one entry;
* `Assembler.held`, `Assembler.One` — the entry that the slots hold, and that it is one;
* `addPacket_refines`, `expire_refines` — a call is a step of one entry, and keeps the others.
-/

variable {s : Assembler} {packet : PointCloudPacketResult} {now : Time} {ts : UInt64} {i : Nat}
  {x base : FrameSlot} {config : AssemblerConfig}

/-! ### One entry -/

/-- A packet is offered to its frame: the frame that is emitted, and the one that stays open. -/
def FrameSlot.offer (config : AssemblerConfig) (packet : PointCloudPacketResult) (base : FrameSlot) :
    Option PointCloudFrame × Option FrameSlot :=
  if 0 < base.uniqueIndices ∧ base.total ≠ packet.total then (none, none)
  else
    let x := base.declare packet
    match x.judge config packet with
    | .duplicate | .reject => (none, some x)
    | .conflict => (none, none)
    | .accept =>
        let x := x.store packet
        if !x.complete then (none, some x)
        else if x.frame.points.length ≠ x.total.toNat then (none, none)
        else (some x.frame, none)

/-- A packet, for the entry of its timestamp. -/
def frameStep (config : AssemblerConfig) (packet : PointCloudPacketResult) (now : Time)
    (entry : Option FrameSlot) : Option PointCloudFrame × Option FrameSlot :=
  if !packet.ok then (none, entry)
  else if packet.total = 0 ∨ config.maxPointsPerFrame < packet.total.toNat then (none, entry)
  else if Assembler.rangeOutOfFrame packet then (none, none)
  else (entry.getD (.fresh packet.timestampNs now)).offer config packet

/-- The frame of an entry is too old. -/
def FrameSlot.outdated (config : AssemblerConfig) (now : Time) (x : FrameSlot) : Bool :=
  decide (1000000 * config.frameTimeout ≤ (now : Int) - x.activatedAt)

/-- `expire`, for one entry. -/
def expireStep (config : AssemblerConfig) (now : Time) (entry : Option FrameSlot) : Option FrameSlot :=
  entry.filter (fun x => !x.outdated config now)

/-! ### The entries that slots hold -/

/-- The slot holds the frame of this timestamp. -/
def FrameSlot.isOf (ts : UInt64) (x : FrameSlot) : Bool := x.active && x.timestampNs == ts

/-- The slot as an entry. -/
def FrameSlot.live (x : FrameSlot) : Option FrameSlot := if x.active then some x else none

namespace Assembler

/-- The entry of a timestamp. -/
def held (s : Assembler) (ts : UInt64) : Option FrameSlot := s.slots.find? (FrameSlot.isOf ts)

/-- At most one slot holds the frame of this timestamp. -/
def One (ts : UInt64) (s : Assembler) : Prop :=
  ∀ (i j : Nat) (x y : FrameSlot), s.slots[i]? = some x → s.slots[j]? = some y →
    x.isOf ts = true → y.isOf ts = true → i = j

/-- A slot is free, if the packet needs one. -/
def Room (s : Assembler) (packet : PointCloudPacketResult) : Prop :=
  s.held packet.timestampNs = none → ∃ x ∈ s.slots, x.active = false

end Assembler

theorem FrameSlot.isOf_iff : x.isOf ts = true ↔ x.active = true ∧ x.timestampNs = ts := by
  rw [isOf, Bool.and_eq_true, beq_iff_eq]

@[simp] theorem FrameSlot.isOf_clear : x.clear.isOf ts = false := rfl

@[simp] theorem FrameSlot.live_clear : x.clear.live = none := rfl

theorem FrameSlot.live_eq_some {y : FrameSlot} : x.live = some y ↔ x.active = true ∧ x = y := by
  unfold live
  split_ifs with h
  · simp [h]
  · simp [h]

/-! ### Replacing a slot -/

/-- The first element with a property, where no other element has it. -/
theorem find?_set_only {α : Type} {p : α → Bool} {l : List α} {i : Nat} {x : α} (hi : i < l.length)
    (h : ∀ j y, j ≠ i → l[j]? = some y → p y = false) :
    (l.set i x).find? p = if p x then some x else none := by
  split_ifs with hx
  · refine List.find?_eq_some_iff_getElem.mpr ⟨hx, i, by simpa using hi, by simp, fun j hj => ?_⟩
    have hget : l[j]? = some l[j] := List.getElem?_eq_getElem (hj.trans hi)
    rw [List.getElem_set_ne (by omega), h j _ (by omega) hget]
    rfl
  · refine List.find?_eq_none.mpr (fun y hy => ?_)
    obtain ⟨j, hj⟩ := List.mem_iff_getElem?.mp hy
    by_cases hij : j = i
    · subst hij
      rw [List.getElem?_set_self hi, Option.some.injEq] at hj
      rw [← hj]
      exact hx
    · rw [List.getElem?_set_ne (Ne.symm hij)] at hj
      simp [h j y hij hj]

/-- The first element with a property, where neither the old nor the new one at the position has it. -/
theorem find?_set_other {α : Type} {p : α → Bool} {l : List α} {i : Nat} {x y : α}
    (hy : l[i]? = some y) (hpy : p y = false) (hpx : p x = false) :
    (l.set i x).find? p = l.find? p := by
  obtain ⟨hi, rfl⟩ := List.getElem?_eq_some_iff.mp hy
  rw [List.set_eq_take_append_cons_drop, if_pos hi]
  conv_rhs => rw [← List.take_append_drop i l, List.drop_eq_getElem_cons hi]
  rw [List.find?_append, List.find?_append, List.find?_cons_of_neg (by simp [hpx]),
    List.find?_cons_of_neg (by simp [hpy])]

/-- The first element with two properties, where one element at most has the first. -/
theorem find?_and_of_only {α : Type} {p q : α → Bool} {l : List α}
    (h : ∀ (i j : Nat) (x y : α), l[i]? = some x → l[j]? = some y → p x = true → p y = true → i = j) :
    l.find? (fun x => p x && q x) = (l.find? p).filter q := by
  cases hfind : l.find? p with
  | none =>
    rw [Option.filter_none, List.find?_eq_none]
    intro x hx
    simp [List.find?_eq_none.mp hfind x hx]
  | some x =>
    obtain ⟨hp, i, hi, hxi, hbefore⟩ := List.find?_eq_some_iff_getElem.mp hfind
    by_cases hq : q x = true
    · rw [Option.filter_some_pos hq]
      refine List.find?_eq_some_iff_getElem.mpr ⟨by simp [hp, hq], i, hi, hxi, fun j hj => ?_⟩
      have hnot := hbefore j hj
      simp only [Bool.not_eq_true'] at hnot
      simp [hnot]
    · rw [Option.filter_some_neg (Bool.eq_false_iff.mpr hq), List.find?_eq_none]
      intro y hy hboth
      rw [Bool.and_eq_true] at hboth
      obtain ⟨j, hj⟩ := List.mem_iff_getElem?.mp hy
      have hget : l[i]? = some x := by rw [List.getElem?_eq_getElem hi, hxi]
      have hij := h i j x y hget hj hp hboth.1
      rw [← hij, hget, Option.some.injEq] at hj
      exact hq (hj ▸ hboth.2)

namespace Assembler

/-- One slot is replaced: the entry of its timestamp is the new one, and the others are kept. -/
structure Replaces (s s' : Assembler) (ts : UInt64) (entry : Option FrameSlot) : Prop where
  config : s'.config = s.config
  length : s'.slots.length = s.slots.length
  held : s'.held ts = entry
  one : s'.One ts
  others : ∀ ts', ts' ≠ ts → s'.held ts' = s.held ts' ∧ (s.One ts' → s'.One ts')

/-- The position of the slot of a timestamp, or of a free one for it. -/
structure At (s : Assembler) (ts : UInt64) (i : Nat) : Prop where
  only : ∀ j y, j ≠ i → s.slots[j]? = some y → y.isOf ts = false
  slot : ∃ y, s.slots[i]? = some y ∧ ∀ ts', ts' ≠ ts → y.isOf ts' = false

theorem At.lt (h : s.At ts i) : i < s.slots.length := by
  obtain ⟨y, hy, -⟩ := h.slot
  exact (List.getElem?_eq_some_iff.mp hy).1

/-- **Replacing the slot of a timestamp.** -/
theorem At.replaces (h : s.At ts i) (hx : x.active = true → x.timestampNs = ts) {s' : Assembler}
    (hconfig : s'.config = s.config) (hslots : s'.slots = s.slots.set i x) :
    Replaces s s' ts x.live := by
  obtain ⟨y, hy, hother⟩ := h.slot
  have hnot : ∀ ts', ts' ≠ ts → x.isOf ts' = false := by
    intro ts' hne
    by_contra hof
    obtain ⟨hactive, hts⟩ := FrameSlot.isOf_iff.mp (by simpa using hof)
    exact hne (hts.symm.trans (hx hactive))
  have hlive : x.live = if x.isOf ts then some x else none := by
    unfold FrameSlot.live
    by_cases hactive : x.active = true
    · rw [if_pos hactive, if_pos (FrameSlot.isOf_iff.mpr ⟨hactive, hx hactive⟩)]
    · rw [if_neg hactive, if_neg (fun hof => hactive (FrameSlot.isOf_iff.mp hof).1)]
  have hget : ∀ j, j ≠ i → (s.slots.set i x)[j]? = s.slots[j]? :=
    fun j hj => List.getElem?_set_ne (Ne.symm hj)
  refine ⟨hconfig, by rw [hslots, List.length_set], ?_, ?_, fun ts' hne => ⟨?_, fun hone => ?_⟩⟩
  · unfold held
    rw [hslots, find?_set_only h.lt h.only, hlive]
  · intro j k a b ha hb hofa hofb
    -- only the replaced slot can be of this timestamp
    have hat : ∀ (j : Nat) (a : FrameSlot), s'.slots[j]? = some a → a.isOf ts = true → j = i := by
      intro j a ha hof
      by_contra hne
      rw [hslots, hget j hne] at ha
      exact absurd hof (by simp [h.only j a hne ha])
    rw [hat j a ha hofa, hat k b hb hofb]
  · unfold held
    rw [hslots, find?_set_other hy (hother ts' hne) (hnot ts' hne)]
  · intro j k a b ha hb hofa hofb
    have hold : ∀ (j : Nat) (a : FrameSlot), s'.slots[j]? = some a → a.isOf ts' = true →
        s.slots[j]? = some a := by
      intro j a ha hof
      by_cases hj : j = i
      · subst hj
        rw [hslots, List.getElem?_set_self h.lt, Option.some.injEq] at ha
        rw [← ha, hnot ts' hne] at hof
        exact absurd hof (by simp)
      · rw [hslots, hget j hj] at ha
        exact ha
    exact hone j k a b (hold j a ha hofa) (hold k b hb hofb) hofa hofb

/-- The entry that is found. -/
theorem held_of_findSlot (h : s.findSlot ts = some i) :
    ∃ x, s.slots[i]? = some x ∧ s.held ts = some x ∧ x.isOf ts = true := by
  unfold findSlot at h
  obtain ⟨hi, hx, hfirst⟩ := List.findIdx?_eq_some_iff_getElem.mp h
  refine ⟨s.slots[i], List.getElem?_eq_getElem hi, ?_, hx⟩
  refine List.find?_eq_some_iff_getElem.mpr ⟨hx, i, hi, rfl, fun j hj => ?_⟩
  exact Bool.not_eq_true' _ |>.mpr (Bool.eq_false_iff.mpr (hfirst j hj))

theorem findSlot_eq_none_iff : s.findSlot ts = none ↔ s.held ts = none := by
  unfold findSlot held
  rw [List.findIdx?_eq_none_iff, List.find?_eq_none]
  refine forall₂_congr (fun x _ => ?_)
  unfold FrameSlot.isOf
  simp

theorem held_isOf (h : s.held ts = some x) : x.active = true ∧ x.timestampNs = ts :=
  FrameSlot.isOf_iff.mp (List.find?_some h)

/-- A found slot. -/
theorem At.of_found (hone : s.One ts) (h : s.findSlot ts = some i) : s.At ts i := by
  obtain ⟨x, hx, -, hof⟩ := held_of_findSlot h
  refine ⟨fun j y hj hy => ?_, x, hx, fun ts' hne => ?_⟩
  · by_contra hy'
    exact hj (hone j i y x hy hx (by simpa using hy') hof)
  · by_contra hof'
    have hts := (FrameSlot.isOf_iff.mp hof).2
    exact hne ((FrameSlot.isOf_iff.mp (by simpa using hof')).2.symm.trans hts)

/-- A free slot, for a timestamp without a frame. -/
theorem At.of_free (hnone : s.held ts = none) (hx : s.slots[i]? = some x) (hfree : x.active = false) :
    s.At ts i := by
  refine ⟨fun j y _ hy => ?_, x, hx, fun ts' _ => by simp [FrameSlot.isOf, hfree]⟩
  exact Bool.eq_false_iff.mpr (List.find?_eq_none.mp hnone y (List.mem_of_getElem? hy))

/-- `slot_for_timestamp` with room. -/
theorem slotForTimestamp_room (now : Time) (hone : s.One ts)
    (hroom : s.held ts = none → ∃ x ∈ s.slots, x.active = false) :
    ∃ i, s.slotForTimestamp ts now = (i, { s with
        slots := s.slots.set i ((s.held ts).getD (.fresh ts now)) }) ∧ s.At ts i := by
  unfold slotForTimestamp
  cases hfind : s.findSlot ts with
  | some i =>
    obtain ⟨x, hx, hheld, -⟩ := held_of_findSlot hfind
    refine ⟨i, ?_, .of_found hone hfind⟩
    obtain ⟨hi, rfl⟩ := List.getElem?_eq_some_iff.mp hx
    rw [hheld, Option.getD_some, List.set_getElem_self]
  | none =>
    have hnone := findSlot_eq_none_iff.mp hfind
    obtain ⟨y, hy, hidle⟩ := hroom hnone
    -- the search for a free slot finds one
    obtain ⟨i, hi⟩ : ∃ i, s.slots.findIdx? (fun x => !x.active) = some i := by
      refine Option.isSome_iff_exists.mp ?_
      rw [List.findIdx?_isSome, List.any_eq_true]
      exact ⟨y, hy, by simp [hidle]⟩
    obtain ⟨hlt, hfree, -⟩ := List.findIdx?_eq_some_iff_getElem.mp hi
    refine ⟨i, ?_, .of_free hnone (List.getElem?_eq_getElem hlt) (by simpa using hfree)⟩
    unfold chooseSlot
    rw [hi, hnone, Option.getD_none]
    dsimp only
    rw [List.modify_eq_set_getElem?, List.getElem?_eq_getElem hlt]
    rfl

/-! ### One call -/

/-- `add_packet` from the completion check on, for a slot that has stored the packet. -/
theorem emit_offer (hx : s.slots[i]? = some x) (hactive : x.active = true) :
    ∃ y : FrameSlot, (s.emit i x).2.slots = s.slots.set i y ∧ (s.emit i x).2.config = s.config ∧
      (y.active = true → y.timestampNs = x.timestampNs) ∧
      ((s.emit i x).1, y.live) =
        if !x.complete then (none, some x)
        else if x.frame.points.length ≠ x.total.toNat then (none, none)
        else (some x.frame, none) := by
  have hcleared : x.clear.active = true → x.clear.timestampNs = x.timestampNs := fun _ => rfl
  unfold emit
  split_ifs with hincomplete hsize
  · refine ⟨x, ?_, rfl, fun _ => rfl, ?_⟩
    · obtain ⟨hi, hget⟩ := List.getElem?_eq_some_iff.mp hx
      rw [← hget]
      exact (List.set_getElem_self hi).symm
    · rw [FrameSlot.live, if_pos hactive]
  · exact ⟨_, finalizeSlot_active _ hx hactive, finalizeSlot_config .., hcleared, rfl⟩
  · exact ⟨_, finalizeSlot_active (s := { s with stats.framesPublished := _ }) _ hx hactive,
      finalizeSlot_config .., hcleared, rfl⟩

/-- `add_packet` from the slot on is the offer to that slot. -/
theorem addToSlot_offer (packet : PointCloudPacketResult) (hx : s.slots[i]? = some base)
    (hactive : base.active = true) :
    ∃ y : FrameSlot, (s.addToSlot i base packet).2.slots = s.slots.set i y ∧
      (s.addToSlot i base packet).2.config = s.config ∧
      (y.active = true → y.timestampNs = base.timestampNs) ∧
      ((s.addToSlot i base packet).1, y.live) = base.offer s.config packet := by
  have hi : i < s.slots.length := (List.getElem?_eq_some_iff.mp hx).1
  have hset : ∀ y : FrameSlot, (s.slots.set i y)[i]? = some y := fun y => List.getElem?_set_self hi
  have hdeclared : (base.declare packet).active = true ∧
      (base.declare packet).timestampNs = base.timestampNs := by
    unfold FrameSlot.declare
    split_ifs <;> exact ⟨hactive, rfl⟩
  have hlive : (base.declare packet).live = some (base.declare packet) :=
    FrameSlot.live_eq_some.mpr ⟨hdeclared.1, rfl⟩
  unfold addToSlot FrameSlot.offer
  split_ifs with htotal
  · exact ⟨_, finalizeSlot_active _ hx hactive, finalizeSlot_config .., fun _ => rfl, rfl⟩
  · dsimp only
    cases (base.declare packet).judge s.config packet with
    | duplicate => exact ⟨_, rfl, rfl, fun _ => hdeclared.2, by rw [hlive]⟩
    | reject => exact ⟨_, rfl, rfl, fun _ => hdeclared.2, by rw [hlive]⟩
    | conflict =>
      refine ⟨(base.declare packet).clear, ?_, finalizeSlot_config .., fun _ => hdeclared.2, rfl⟩
      dsimp only
      rw [finalizeSlot_active (s := { s with slots := s.slots.set i (base.declare packet) }) _
        (hset _) hdeclared.1]
      exact List.set_set ..
    | accept =>
      obtain ⟨y, hslots, hconfig, hts, hoffer⟩ := emit_offer
        (s := { s with
          slots := (s.slots.set i (base.declare packet)).set i ((base.declare packet).store packet)
          stats.packetsAccepted := s.stats.packetsAccepted + 1 })
        (i := i) (x := (base.declare packet).store packet) (by rw [List.set_set]; exact hset _)
        hdeclared.1
      refine ⟨y, ?_, hconfig, fun h => (hts h).trans hdeclared.2, hoffer⟩
      dsimp only
      rw [hslots, List.set_set, List.set_set]

/-- **A packet is a step of its entry.** With room for its frame, it changes the entry of its timestamp
    only, and returns what that entry emits. -/
theorem addPacket_refines (packet : PointCloudPacketResult) (now : Time)
    (hone : s.One packet.timestampNs) (hroom : s.Room packet) :
    (s.addPacket packet now).1 = (frameStep s.config packet now (s.held packet.timestampNs)).1 ∧
      Replaces s (s.addPacket packet now).2 packet.timestampNs
        (frameStep s.config packet now (s.held packet.timestampNs)).2 := by
  have hkept : ∀ {s' : Assembler}, s'.slots = s.slots → s'.config = s.config →
      Replaces s s' packet.timestampNs (s.held packet.timestampNs) := by
    intro s' hslots hconfig
    have hheld : ∀ ts, s'.held ts = s.held ts := fun ts => by rw [held, hslots, held]
    have hones : ∀ ts, s.One ts → s'.One ts := fun ts h => by
      unfold One at h ⊢
      rw [hslots]
      exact h
    exact ⟨hconfig, by rw [hslots], hheld _, hones _ hone, fun ts _ => ⟨hheld ts, hones ts⟩⟩
  unfold addPacket frameStep
  split_ifs with hok htotal hrange
  · exact ⟨rfl, hkept rfl rfl⟩
  · exact ⟨rfl, hkept rfl rfl⟩
  · cases hfind : s.findSlot packet.timestampNs with
    | none =>
      have hnone := findSlot_eq_none_iff.mp hfind
      exact ⟨rfl, hnone ▸ hkept rfl rfl⟩
    | some i =>
      obtain ⟨x, hx, -, hof⟩ := held_of_findSlot hfind
      refine ⟨rfl, ?_⟩
      exact (At.of_found hone hfind).replaces (x := x.clear) (fun _ => (FrameSlot.isOf_iff.mp hof).2)
        (finalizeSlot_config ..) (finalizeSlot_active _ hx (FrameSlot.isOf_iff.mp hof).1)
  · obtain ⟨i, hslot, hat⟩ := slotForTimestamp_room now hone hroom
    have hbase : ∀ base, base = (s.held packet.timestampNs).getD (.fresh packet.timestampNs now) →
        base.active = true ∧ base.timestampNs = packet.timestampNs := by
      rintro base rfl
      cases hheld : s.held packet.timestampNs with
      | none => exact ⟨rfl, rfl⟩
      | some x => exact held_isOf hheld
    obtain ⟨hactive, hts⟩ := hbase _ rfl
    rw [hslot]
    dsimp only
    rw [List.getElem?_set_self hat.lt]
    dsimp only
    obtain ⟨y, hslots, hconfig, hyts, hoffer⟩ := addToSlot_offer (s := { s with
        slots := s.slots.set i ((s.held packet.timestampNs).getD (.fresh packet.timestampNs now)) })
      packet (List.getElem?_set_self hat.lt) hactive
    rw [List.set_set] at hslots
    have hreplaces := hat.replaces (x := y) (fun h => (hyts h).trans hts) hconfig hslots
    rw [Prod.ext_iff] at hoffer
    exact ⟨hoffer.1, hoffer.2 ▸ hreplaces⟩

/-- A call, where the step of its entry is known. -/
theorem addPacket_of_frameStep {out : Option PointCloudFrame} {entry : Option FrameSlot}
    (hone : s.One packet.timestampNs) (hroom : s.Room packet)
    (hstep : frameStep s.config packet now (s.held packet.timestampNs) = (out, entry)) :
    (s.addPacket packet now).1 = out ∧ Replaces s (s.addPacket packet now).2 packet.timestampNs entry := by
  have hrefines := addPacket_refines packet now hone hroom
  rw [hstep] at hrefines
  exact hrefines

/-- What `expire` does to one slot. -/
theorem isOf_expired (x : FrameSlot) :
    (if x.active && x.outdated config now then x.clear else x).isOf ts =
      (x.isOf ts && !x.outdated config now) := by
  unfold FrameSlot.isOf
  split_ifs with h
  · simp only [Bool.and_eq_true] at h
    simp [FrameSlot.clear, h.2]
  · cases hactive : x.active with
    | false => simp
    | true =>
      rw [hactive, Bool.true_and, Bool.not_eq_true] at h
      simp [h]

/-- **A timeout is a step of every entry.** -/
theorem expire_refines (now : Time) (hone : s.One ts) :
    (s.expire now).held ts = expireStep s.config now (s.held ts) ∧ (s.expire now).One ts ∧
      (s.expire now).config = s.config ∧ (s.expire now).slots.length = s.slots.length := by
  have hslots : (s.expire now).slots = s.slots.map
      (fun x => if x.active && x.outdated s.config now then x.clear else x) := rfl
  refine ⟨?_, ?_, rfl, by rw [hslots, List.length_map]⟩
  · have hcomp : (FrameSlot.isOf ts ∘ fun x : FrameSlot =>
        if x.active && x.outdated s.config now then x.clear else x) =
        fun x => x.isOf ts && !x.outdated s.config now := funext isOf_expired
    unfold held
    rw [hslots, List.find?_map, hcomp, find?_and_of_only hone]
    -- what is left was not cleared
    cases hfound : s.slots.find? (FrameSlot.isOf ts) with
    | none => rfl
    | some x =>
      unfold expireStep
      cases hout : x.outdated s.config now with
      | true =>
        rw [Option.filter_some_neg (by simp [hout])]
        rfl
      | false =>
        rw [Option.filter_some_pos (by simp [hout]), Option.map_some, hout, Bool.and_false]
        rfl
  · intro i j x y hx hy hofx hofy
    have hold : ∀ (i : Nat) (x : FrameSlot), (s.expire now).slots[i]? = some x → x.isOf ts = true →
        ∃ x', s.slots[i]? = some x' ∧ x'.isOf ts = true := by
      intro i x hx hof
      rw [hslots, List.getElem?_map, Option.map_eq_some_iff] at hx
      obtain ⟨x', hx', rfl⟩ := hx
      rw [isOf_expired, Bool.and_eq_true] at hof
      exact ⟨x', hx', hof.1⟩
    obtain ⟨x', hx', hofx'⟩ := hold i x hx hofx
    obtain ⟨y', hy', hofy'⟩ := hold j y hy hofy
    exact hone i j x' y' hx' hy' hofx' hofy'

end Assembler

end HypertronBridge.Lidar
