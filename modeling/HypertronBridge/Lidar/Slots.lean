import HypertronBridge.Lidar.Assembler

namespace HypertronBridge.Lidar

open Blocks TransitionSystem

/-!
# What one call does to the slots

A call of `add_packet` touches one slot at most: the one that holds the packet's timestamp, or one
that it activates for it.

* `judge_of_stored`, `judge_of_new`, `judge_accept_iff` — the checks of a packet against a slot;
* `HasSlot` — the slot from which the packet goes on;
* `Taken` — what becomes of that slot;
* `Added`, `addPacket_added` — the whole call;
* `Feed.Run.forall_slots` — what holds of every slot in every run.
-/

variable {s : Assembler} {packet : PointCloudPacketResult} {now : Time} {ts : UInt64} {i : Nat}
  {x base : FrameSlot} {config : AssemblerConfig} {frame : Option PointCloudFrame}

/-! ### The checks of a packet -/

namespace FrameSlot

/-- A packet whose offset is stored is a copy or a conflict. -/
theorem judge_of_stored {points : List LidarPoint}
    (hstored : x.packets.find? packet.index.toNat = some points) :
    x.judge config packet = if points == packet.points then .duplicate else .conflict := by
  rw [judge, hstored]

/-- The checks that a packet with a new offset goes through. -/
theorem judge_of_new (hnew : x.packets.find? packet.index.toNat = none) :
    x.judge config packet =
      if config.maxPacketsPerFrame ≤ x.packets.size then .reject
      else if x.nextOverlaps packet then .conflict
      else if x.prevOverlaps packet then .conflict
      else if x.overBudget config packet then .conflict
      else .accept := by
  rw [judge, hnew]

/-- The two neighbours, as blocks. -/
theorem neighbours_pass_iff :
    x.nextOverlaps packet = false ∧ x.prevOverlaps packet = false ↔
      (∀ e ∈ x.packets.lowerBound packet.index.toNat,
        stop (packet.index.toNat, packet.points) ≤ e.1) ∧
      (∀ e ∈ x.packets.predecessor packet.index.toNat, stop e ≤ packet.index.toNat) := by
  have hany : ∀ (o : Option (Block LidarPoint)) (p : Block LidarPoint → Bool),
      o.any p = false ↔ ∀ e ∈ o, p e = false := by
    intro o p
    cases o <;> simp
  unfold nextOverlaps prevOverlaps
  rw [hany, hany]
  simp only [decide_eq_false_iff_not, Nat.not_lt]
  rfl

/-- The budget, as bounds. -/
theorem within_budget_iff : x.overBudget config packet = false ↔
    x.sumPoints + packet.points.length ≤ x.total.toNat ∧
      x.sumPoints + packet.points.length ≤ config.maxPointsPerFrame := by
  simp only [overBudget, Bool.or_eq_false_iff, decide_eq_false_iff_not, Nat.not_lt]

/-- What an accepted packet has passed. -/
theorem judge_accept_iff : x.judge config packet = .accept ↔
    x.packets.find? packet.index.toNat = none ∧ x.packets.size < config.maxPacketsPerFrame ∧
      (x.nextOverlaps packet = false ∧ x.prevOverlaps packet = false) ∧
      x.overBudget config packet = false := by
  cases hfind : x.packets.find? packet.index.toNat with
  | some points =>
    rw [judge_of_stored hfind]
    split_ifs <;> simp
  | none =>
    rw [judge_of_new hfind]
    split_ifs with hsize hnext hprev hbudget
    all_goals simp_all

end FrameSlot

/-! ### The slot of a packet -/

/-- A slot that has just been activated. -/
def FrameSlot.fresh (timestampNs : UInt64) (now : Time) : FrameSlot :=
  { active := true, timestampNs, activatedAt := now }

/-- The slot of the packet's frame: it holds the timestamp, or it is activated for it. -/
inductive HasSlot (s : Assembler) (packet : PointCloudPacketResult) (now : Time) (i : Nat) :
    FrameSlot → Prop
  | found {x : FrameSlot} (hfind : s.findSlot packet.timestampNs = some i)
      (hx : s.slots[i]? = some x) (hactive : x.active = true)
      (hts : x.timestampNs = packet.timestampNs) : HasSlot s packet now i x
  | created (hfind : s.findSlot packet.timestampNs = none) (hi : i < s.slots.length) :
      HasSlot s packet now i (.fresh packet.timestampNs now)

theorem HasSlot.lt (h : HasSlot s packet now i base) : i < s.slots.length := by
  cases h with
  | found _ hx _ _ => exact (List.getElem?_eq_some_iff.mp hx).1
  | created _ hi => exact hi

theorem HasSlot.active (h : HasSlot s packet now i base) : base.active = true := by
  cases h with
  | found _ _ hactive _ => exact hactive
  | created => rfl

theorem HasSlot.timestampNs (h : HasSlot s packet now i base) :
    base.timestampNs = packet.timestampNs := by
  cases h with
  | found _ _ _ hts => exact hts
  | created => rfl

/-- The packet meets the total of the slot's frame. -/
def FrameSlot.Meets (packet : PointCloudPacketResult) (x : FrameSlot) : Prop :=
  x.uniqueIndices = 0 ∨ x.total = packet.total

/-- The slot is judged under the packet's total. -/
theorem FrameSlot.Meets.declare_total (h : base.Meets packet) :
    (base.declare packet).total = packet.total := by
  unfold FrameSlot.declare
  split_ifs with hfirst
  · rfl
  · exact h.resolve_left hfirst

/-- What becomes of the slot, and what the call returns. -/
inductive Taken (config : AssemblerConfig) (packet : PointCloudPacketResult) (base : FrameSlot) :
    Option PointCloudFrame → FrameSlot → Prop
  | dropped (x : FrameSlot) : Taken config packet base none x.clear
  | ignored (hmeets : base.Meets packet)
      (hjudge : (base.declare packet).judge config packet = .duplicate ∨
        (base.declare packet).judge config packet = .reject) :
      Taken config packet base none (base.declare packet)
  | stored (hmeets : base.Meets packet)
      (hjudge : (base.declare packet).judge config packet = .accept) :
      Taken config packet base none ((base.declare packet).store packet)
  | published (hmeets : base.Meets packet)
      (hjudge : (base.declare packet).judge config packet = .accept)
      (hcomplete : ((base.declare packet).store packet).complete = true) :
      Taken config packet base (some ((base.declare packet).store packet).frame)
        ((base.declare packet).store packet).clear

/-- **What one call of `add_packet` does to the slots.** -/
inductive Added (s : Assembler) (packet : PointCloudPacketResult) (now : Time) :
    Option PointCloudFrame → List FrameSlot → Prop
  | kept (hadmits : s.admits packet = false) : Added s packet now none s.slots
  | dropped (i : Nat) (x : FrameSlot) (hadmits : s.admits packet = false) :
      Added s packet now none (s.slots.set i x.clear)
  | taken {i : Nat} {base x : FrameSlot} {frame : Option PointCloudFrame}
      (hadmits : s.admits packet = true) (hslot : HasSlot s packet now i base)
      (htaken : Taken s.config packet base frame x) : Added s packet now frame (s.slots.set i x)

namespace Assembler

/-! ### Finding and choosing a slot -/

/-- The slot that is found. -/
theorem findSlot_eq_some (h : s.findSlot ts = some i) :
    ∃ x, s.slots[i]? = some x ∧ x.active = true ∧ x.timestampNs = ts := by
  obtain ⟨hi, hx, -⟩ := List.findIdx?_eq_some_iff_getElem.mp h
  rw [Bool.and_eq_true, beq_iff_eq] at hx
  exact ⟨s.slots[i], List.getElem?_eq_getElem hi, hx⟩

/-- No slot is found. -/
theorem findSlot_eq_none : s.findSlot ts = none ↔
    ∀ x ∈ s.slots, x.active = true → x.timestampNs ≠ ts := by
  unfold findSlot
  rw [List.findIdx?_eq_none_iff]
  refine forall₂_congr (fun x _ => ?_)
  cases x.active <;> simp

/-- What `finalize_slot` does to the slots. -/
theorem finalizeSlot_slots (s : Assembler) (i : Nat) (reason : FinalizeReason) :
    (s.finalizeSlot i reason).slots = s.slots ∨
      ∃ x : FrameSlot, (s.finalizeSlot i reason).slots = s.slots.set i x.clear := by
  unfold finalizeSlot
  split
  · split
    · exact Or.inr ⟨_, rfl⟩
    · exact Or.inl rfl
  · exact Or.inl rfl

@[simp] theorem finalizeSlot_config (s : Assembler) (i : Nat) (reason : FinalizeReason) :
    (s.finalizeSlot i reason).config = s.config := by
  unfold finalizeSlot
  split
  · split <;> rfl
  · rfl

/-- An active slot that is finalized. -/
theorem finalizeSlot_active (reason : FinalizeReason) (hx : s.slots[i]? = some x)
    (hactive : x.active = true) : (s.finalizeSlot i reason).slots = s.slots.set i x.clear := by
  unfold finalizeSlot
  rw [hx]
  dsimp only
  rw [if_pos hactive]

/-- The oldest slot is one of the slots. -/
theorem oldestSlot_lt (xs : List FrameSlot) :
    ∀ (i : Nat) (oldest : Option (Nat × Time)), (∀ o ∈ oldest, o.1 < i) →
      xs ≠ [] ∨ oldest.isSome = true → ∃ o, oldestSlot xs i oldest = some o ∧ o.1 < i + xs.length := by
  induction xs with
  | nil =>
    intro i oldest hlt hsome
    obtain ⟨o, ho⟩ := Option.isSome_iff_exists.mp (hsome.resolve_left (fun h => h rfl))
    exact ⟨o, ho, hlt o ho⟩
  | cons x xs ih =>
    intro i oldest hlt _
    rw [oldestSlot]
    obtain ⟨o, ho, hbound⟩ := ih (i + 1)
      (if oldest.all (fun o => decide (x.activatedAt < o.2)) then some (i, x.activatedAt) else oldest)
      (by
        intro o ho
        split_ifs at ho with hall
        · rw [← Option.some.inj ho]
          exact Nat.lt_succ_self i
        · exact Nat.lt_succ_of_lt (hlt o ho))
      (by
        refine Or.inr ?_
        split_ifs with hall
        · rfl
        · cases oldest with
          | none => exact absurd rfl hall
          | some o => rfl)
    refine ⟨o, ho, ?_⟩
    rw [List.length_cons]
    omega

/-- Some slot is chosen, and at most that one is finalized. -/
theorem chooseSlot_spec (hslots : 0 < s.slots.length) : s.chooseSlot.1 < s.slots.length ∧
    s.chooseSlot.2.config = s.config ∧ (s.chooseSlot.2.slots = s.slots ∨
      ∃ x : FrameSlot, s.chooseSlot.2.slots = s.slots.set s.chooseSlot.1 x.clear) := by
  unfold chooseSlot
  split
  · rename_i i hfind
    exact ⟨(List.findIdx?_eq_some_iff_getElem.mp hfind).1, rfl, Or.inl rfl⟩
  · have hne : s.slots ≠ [] := List.ne_nil_of_length_pos hslots
    obtain ⟨o, ho, hlt⟩ := oldestSlot_lt s.slots 0 none (by simp) (Or.inl hne)
    refine ⟨?_, finalizeSlot_config .., finalizeSlot_slots ..⟩
    rw [ho]
    simpa using hlt

/-- `slot_for_timestamp`. -/
theorem slotForTimestamp_spec (packet : PointCloudPacketResult) (now : Time)
    (hslots : 0 < s.slots.length) : ∃ base,
    HasSlot s packet now (s.slotForTimestamp packet.timestampNs now).1 base ∧
      (s.slotForTimestamp packet.timestampNs now).2.slots =
        s.slots.set (s.slotForTimestamp packet.timestampNs now).1 base ∧
      (s.slotForTimestamp packet.timestampNs now).2.config = s.config := by
  unfold slotForTimestamp
  split
  · rename_i i hfind
    obtain ⟨x, hx, hactive, hts⟩ := findSlot_eq_some hfind
    refine ⟨x, .found hfind hx hactive hts, ?_, rfl⟩
    obtain ⟨hi, hget⟩ := List.getElem?_eq_some_iff.mp hx
    rw [← hget]
    exact (List.set_getElem_self hi).symm
  · rename_i hfind
    obtain ⟨hi, hconfig, hchosen⟩ := chooseSlot_spec hslots
    refine ⟨.fresh packet.timestampNs now, .created hfind hi, ?_, hconfig⟩
    have hset : ∀ l : List FrameSlot, s.chooseSlot.1 < l.length →
        l.modify s.chooseSlot.1 (FrameSlot.activate packet.timestampNs now) =
          l.set s.chooseSlot.1 (.fresh packet.timestampNs now) := by
      intro l hl
      rw [List.modify_eq_set_getElem?]
      rw [List.getElem?_eq_getElem hl]
      rfl
    dsimp only
    rcases hchosen with hkept | ⟨x, hcleared⟩
    · rw [hkept, hset _ hi]
    · rw [hcleared, hset _ (by rw [List.length_set]; exact hi), List.set_set]

/-! ### The whole call -/

/-- `add_packet` from the completion check on. -/
theorem emit_taken (hx : s.slots[i]? = some ((base.declare packet).store packet))
    (hactive : ((base.declare packet).store packet).active = true) (hmeets : base.Meets packet)
    (hjudge : (base.declare packet).judge config packet = .accept) : ∃ x,
    Taken config packet base (s.emit i ((base.declare packet).store packet)).1 x ∧
      (s.emit i ((base.declare packet).store packet)).2.slots = s.slots.set i x ∧
      (s.emit i ((base.declare packet).store packet)).2.config = s.config := by
  have hkept : s.slots = s.slots.set i ((base.declare packet).store packet) := by
    obtain ⟨hi, hget⟩ := List.getElem?_eq_some_iff.mp hx
    rw [← hget]
    exact (List.set_getElem_self hi).symm
  unfold emit
  split_ifs with hincomplete hsize
  · exact ⟨_, .stored hmeets hjudge, hkept, rfl⟩
  · exact ⟨_, .dropped _, finalizeSlot_active _ hx hactive, finalizeSlot_config ..⟩
  · refine ⟨_, .published hmeets hjudge (by simpa using hincomplete), ?_, finalizeSlot_config ..⟩
    exact finalizeSlot_active (s := { s with stats.framesPublished := _ }) _ hx hactive

/-- `add_packet` from the slot on. -/
theorem addToSlot_taken (packet : PointCloudPacketResult) (hx : s.slots[i]? = some base)
    (hactive : base.active = true) : ∃ x,
    Taken s.config packet base (s.addToSlot i base packet).1 x ∧
      (s.addToSlot i base packet).2.slots = s.slots.set i x ∧
      (s.addToSlot i base packet).2.config = s.config := by
  have hi : i < s.slots.length := (List.getElem?_eq_some_iff.mp hx).1
  have hset : ∀ y : FrameSlot, (s.slots.set i y)[i]? = some y :=
    fun y => List.getElem?_set_self hi
  have hdeclared : (base.declare packet).active = true := by
    unfold FrameSlot.declare
    split_ifs <;> exact hactive
  unfold addToSlot
  split_ifs with htotal
  · exact ⟨_, .dropped _, finalizeSlot_active _ hx hactive, finalizeSlot_config ..⟩
  · have hmeets : base.Meets packet := by
      by_cases hfirst : base.uniqueIndices = 0
      · exact Or.inl hfirst
      · exact Or.inr (by_contra fun hne => htotal ⟨Nat.pos_of_ne_zero hfirst, hne⟩)
    dsimp only
    split
    · rename_i hjudge
      exact ⟨_, .ignored hmeets (Or.inl hjudge), rfl, rfl⟩
    · rename_i hjudge
      exact ⟨_, .ignored hmeets (Or.inr hjudge), rfl, rfl⟩
    · refine ⟨_, .dropped (base.declare packet), ?_, finalizeSlot_config ..⟩
      rw [finalizeSlot_active (s := { s with slots := s.slots.set i (base.declare packet) }) _
        (hset _) hdeclared]
      exact List.set_set ..
    · rename_i hjudge
      obtain ⟨x, htaken, hslots, hconfig⟩ := emit_taken
        (s := { s with
          slots := (s.slots.set i (base.declare packet)).set i ((base.declare packet).store packet)
          stats.packetsAccepted := s.stats.packetsAccepted + 1 })
        (i := i) (by rw [List.set_set]; exact hset _) hdeclared hmeets hjudge
      refine ⟨x, htaken, ?_, hconfig⟩
      rw [hslots, List.set_set, List.set_set]

/-- **One call of `add_packet`.** -/
theorem addPacket_added (packet : PointCloudPacketResult) (now : Time)
    (hslots : 0 < s.slots.length) :
    Added s packet now (s.addPacket packet now).1 (s.addPacket packet now).2.slots ∧
      (s.addPacket packet now).2.config = s.config := by
  unfold addPacket
  split_ifs with hok htotal hrange
  · refine ⟨.kept ?_, rfl⟩
    have hnot : packet.ok = false := by simpa using hok
    simp [admits, hnot]
  · refine ⟨.kept ?_, rfl⟩
    unfold admits
    rcases htotal with hzero | hlarge
    · simp [hzero]
    · simp [Nat.not_le.mpr hlarge]
  · have hadmits : s.admits packet = false := by simp [admits, hrange]
    split
    · refine ⟨?_, finalizeSlot_config ..⟩
      rename_i i _
      rcases finalizeSlot_slots s i .conflict with hkept | ⟨x, hdropped⟩
      · rw [hkept]
        exact .kept hadmits
      · rw [hdropped]
        exact .dropped i x hadmits
    · exact ⟨.kept hadmits, rfl⟩
  · have hadmits : s.admits packet = true := by
      rw [not_or, Nat.not_lt] at htotal
      simp only [Bool.not_eq_true', Bool.not_eq_false, Bool.not_eq_true] at hok hrange
      simp [admits, hok, htotal, hrange]
    obtain ⟨base, hslot, hslots₁, hconfig₁⟩ := slotForTimestamp_spec packet now hslots
    have hget : (s.slotForTimestamp packet.timestampNs now).2.slots[
        (s.slotForTimestamp packet.timestampNs now).1]? = some base := by
      rw [hslots₁]
      exact List.getElem?_set_self hslot.lt
    obtain ⟨x, htaken, hslots₂, hconfig₂⟩ := addToSlot_taken packet hget hslot.active
    dsimp only
    rw [hget]
    dsimp only
    rw [hslots₂, hslots₁, List.set_set, hconfig₂, hconfig₁]
    rw [hconfig₁] at htaken
    exact ⟨.taken hadmits hslot htaken, rfl⟩

end Assembler

/-! ### Whole runs -/

/-- The assembler has a slot, in every run. -/
theorem Feed.Run.slots_pos {ok : Feed → Action → Prop} {s : Feed} (hrun : Feed.Run config ok s) :
    0 < s.assembler.slots.length := by
  have hreach : Reaches Feed.step ok { assembler := .create config } s := hrun
  refine hreach.invariant (I := fun s => 0 < s.assembler.slots.length) ?_ ?_
  · unfold Assembler.create
    dsimp only
    split_ifs with hzero
    · simp
    · rw [List.length_replicate]
      exact Nat.pos_of_ne_zero hzero
  · rintro s b s' - hpos - hs
    cases b with
    | addPacket packet now =>
      obtain ⟨hadded, -⟩ := Assembler.addPacket_added packet now hpos
      obtain rfl := Option.some.inj hs
      show 0 < (s.assembler.addPacket packet now).2.slots.length
      generalize (s.assembler.addPacket packet now).1 = frame at hadded
      generalize (s.assembler.addPacket packet now).2.slots = slots at hadded ⊢
      cases hadded with
      | kept => exact hpos
      | dropped => rwa [List.length_set]
      | taken => rwa [List.length_set]
    | expire now =>
      obtain rfl := Option.some.inj hs
      show 0 < (s.assembler.slots.map _).length
      rwa [List.length_map]

/-- **Slot rule.** What holds of an empty slot, and is kept where a packet declares its total and where
    an accepted packet is stored, holds of every slot in every run. -/
theorem Feed.Run.forall_slots {ok : Feed → Action → Prop} {P : FrameSlot → Prop} {s : Feed}
    (hrun : Feed.Run config ok s)
    (hempty : ∀ x : FrameSlot, x.packets = .empty → x.uniqueIndices = 0 → x.sumPoints = 0 → P x)
    (hdeclare : ∀ packet x, P x → P (x.declare packet))
    (hstore : ∀ (s : Feed) packet now x, ok s (.addPacket packet now) →
      s.assembler.admits packet = true → x.total = packet.total → P x →
      x.judge s.assembler.config packet = .accept → P (x.store packet)) :
    ∀ x ∈ s.assembler.slots, P x := by
  have hreach : Reaches Feed.step ok { assembler := .create config } s := hrun
  have hclear : ∀ x : FrameSlot, P x.clear := fun x => hempty _ rfl rfl rfl
  have hset : ∀ {slots : List FrameSlot} {i : Nat} {x : FrameSlot}, (∀ y ∈ slots, P y) → P x →
      ∀ y ∈ slots.set i x, P y := by
    intro slots i x hslots hx y hy
    rcases List.mem_or_eq_of_mem_set hy with hmem | rfl
    · exact hslots y hmem
    · exact hx
  refine hreach.invariant (I := fun s => ∀ x ∈ s.assembler.slots, P x) ?_ ?_
  · intro x hx
    unfold Assembler.create at hx
    rw [List.eq_of_mem_replicate hx]
    exact hempty _ rfl rfl rfl
  · intro s b s' hrun hslots hok hs
    cases b with
    | addPacket packet now =>
      obtain ⟨hadded, -⟩ := Assembler.addPacket_added packet now (Feed.Run.slots_pos hrun)
      obtain rfl := Option.some.inj hs
      show ∀ x ∈ (s.assembler.addPacket packet now).2.slots, P x
      generalize (s.assembler.addPacket packet now).1 = frame at hadded
      generalize (s.assembler.addPacket packet now).2.slots = slots at hadded ⊢
      cases hadded with
      | kept => exact hslots
      | dropped i x => exact hset hslots (hclear x)
      | @taken i base x frame hadmits hslot htaken =>
        have hbase : P (base.declare packet) := by
          refine hdeclare packet base ?_
          cases hslot with
          | found _ hx _ _ => exact hslots base (List.mem_of_getElem? hx)
          | created => exact hempty _ rfl rfl rfl
        refine hset hslots ?_
        cases htaken with
        | dropped x => exact hclear x
        | ignored => exact hbase
        | stored hmeets hjudge =>
          exact hstore s packet now _ hok hadmits hmeets.declare_total hbase hjudge
        | published => exact hclear _
    | expire now =>
      obtain rfl := Option.some.inj hs
      intro y hy
      obtain ⟨x, hx, rfl⟩ := List.mem_map.mp hy
      split_ifs
      · exact hclear x
      · exact hslots x hx

end HypertronBridge.Lidar
