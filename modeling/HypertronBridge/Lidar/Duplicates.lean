import HypertronBridge.Lidar.Completion

namespace HypertronBridge.Lidar

/-!
# Copies of packets

The network may deliver a packet twice.  A copy that comes while its frame is open is ignored; the
assembler remembers no frame that it has returned or dropped, so a copy that comes later opens the frame
anew, and may return it once more or evict another one.

* `Same`, `addPacket_same` — the counters decide nothing;
* `Assembler.Ignores` — the copies that are ignored; `addPacket_ignores`, `ignores_of_same` — these,
  and no others, change no slot;
* `WithCopiesWhere` — calls, and copies between them under a condition on the state;
* `copies_change_frames`, `ignored_copies_are_harmless` — what a late copy does, and what the others do.
-/

variable {s s' : Assembler} {packet p : PointCloudPacketResult} {now : Time} {i : Nat}
  {x : FrameSlot} {seen : List PointCloudPacketResult}
  {calls fed : List (PointCloudPacketResult × Time)}

/-! ### The counters -/

namespace Assembler

/-- The same slots and configuration; the counters may differ. -/
structure Same (s s' : Assembler) : Prop where
  slots : s'.slots = s.slots
  config : s'.config = s.config

theorem Same.refl (s : Assembler) : Same s s := ⟨rfl, rfl⟩

/-- The same assembler with other counters. -/
theorem Same.exists_stats (h : Same s s') : ∃ stats, s' = { s with stats } := by
  obtain ⟨slots, config, stats⟩ := s'
  obtain ⟨rfl, rfl⟩ := h
  exact ⟨stats, rfl⟩

theorem Same.findSlot (h : Same s s') (ts : UInt64) : s'.findSlot ts = s.findSlot ts := by
  rw [Assembler.findSlot, h.slots, Assembler.findSlot]

/-- A rejected packet counts. -/
theorem Same.reject (h : Same s s') : Same s.reject s'.reject := ⟨h.slots, h.config⟩

theorem finalizeSlot_same (h : Same s s') (i : Nat) (reason : FinalizeReason) :
    Same (s.finalizeSlot i reason) (s'.finalizeSlot i reason) := by
  obtain ⟨stats, rfl⟩ := h.exists_stats
  unfold finalizeSlot
  dsimp only
  split
  · split_ifs
    · exact ⟨rfl, rfl⟩
    · exact ⟨rfl, rfl⟩
  · exact ⟨rfl, rfl⟩

theorem slotForTimestamp_same (h : Same s s') (ts : UInt64) (now : Time) :
    (s'.slotForTimestamp ts now).1 = (s.slotForTimestamp ts now).1 ∧
      Same (s.slotForTimestamp ts now).2 (s'.slotForTimestamp ts now).2 := by
  have hchoose : s'.chooseSlot.1 = s.chooseSlot.1 ∧ Same s.chooseSlot.2 s'.chooseSlot.2 := by
    obtain ⟨stats, rfl⟩ := h.exists_stats
    unfold chooseSlot
    dsimp only
    split
    · exact ⟨rfl, h⟩
    · have hfinal := fun i => finalizeSlot_same h i .published
      exact ⟨rfl, (hfinal _).slots, (hfinal _).config⟩
  obtain ⟨hi, hslots, hconfig⟩ := hchoose
  unfold slotForTimestamp
  rw [h.findSlot]
  split
  · exact ⟨rfl, h⟩
  · refine ⟨hi, ?_, hconfig⟩
    dsimp only
    rw [hi, hslots]

theorem emit_same (h : Same s s') (i : Nat) (x : FrameSlot) :
    (s'.emit i x).1 = (s.emit i x).1 ∧ Same (s.emit i x).2 (s'.emit i x).2 := by
  unfold emit
  split_ifs
  · exact ⟨rfl, h⟩
  · exact ⟨rfl, finalizeSlot_same h i _⟩
  · refine ⟨rfl, ?_⟩
    dsimp only
    apply finalizeSlot_same
    exact ⟨h.slots, h.config⟩

theorem addToSlot_same (h : Same s s') (i : Nat) (x : FrameSlot) (packet : PointCloudPacketResult) :
    (s'.addToSlot i x packet).1 = (s.addToSlot i x packet).1 ∧
      Same (s.addToSlot i x packet).2 (s'.addToSlot i x packet).2 := by
  obtain ⟨stats, rfl⟩ := h.exists_stats
  unfold addToSlot
  split_ifs
  · exact ⟨rfl, finalizeSlot_same h i _⟩
  · dsimp only
    split
    · exact ⟨rfl, rfl, rfl⟩
    · exact ⟨rfl, rfl, rfl⟩
    · refine ⟨rfl, ?_⟩
      dsimp only
      apply finalizeSlot_same
      exact ⟨rfl, rfl⟩
    · apply emit_same
      exact ⟨rfl, rfl⟩

/-- **The counters decide nothing.** -/
theorem addPacket_same (h : Same s s') (packet : PointCloudPacketResult) (now : Time) :
    (s'.addPacket packet now).1 = (s.addPacket packet now).1 ∧
      Same (s.addPacket packet now).2 (s'.addPacket packet now).2 := by
  obtain ⟨hi, hslot⟩ := slotForTimestamp_same h packet.timestampNs now
  unfold addPacket
  rw [h.config, h.findSlot]
  split_ifs
  · exact ⟨rfl, h.reject⟩
  · exact ⟨rfl, h.reject⟩
  · split
    · exact ⟨rfl, finalizeSlot_same h _ _⟩
    · exact ⟨rfl, h.reject⟩
  · dsimp only
    rw [hi, hslot.slots]
    split
    · exact addToSlot_same hslot _ _ _
    · exact ⟨rfl, hslot.reject⟩

end Assembler

/-! ### The copies that are ignored -/

/-- The frame has this packet, or it has no room for another one. -/
def FrameSlot.Ignores (config : AssemblerConfig) (packet : PointCloudPacketResult) (x : FrameSlot) : Prop :=
  x.total = packet.total ∧
    match x.packets.find? packet.index.toNat with
    | some points => (points == packet.points) = true
    | none => config.maxPacketsPerFrame ≤ x.packets.size

/-- The packet is not for any frame that the assembler may take, it is out of its own frame and that is
    not open, or its frame is open and ignores it. -/
def Assembler.Ignores (s : Assembler) (packet : PointCloudPacketResult) : Prop :=
  packet.total = 0 ∨ s.config.maxPointsPerFrame < packet.total.toNat ∨
    if Assembler.rangeOutOfFrame packet then s.findSlot packet.timestampNs = none
    else ∃ i x, s.findSlot packet.timestampNs = some i ∧ s.slots[i]? = some x ∧
      x.Ignores s.config packet

/-- A frame with the total of the packet declares nothing new. -/
theorem FrameSlot.declare_of_total (h : x.total = packet.total) : x.declare packet = x := by
  unfold declare
  rw [← h]
  exact ite_self x

/-- The checks of a packet end without a change. -/
theorem FrameSlot.judge_ignores {config : AssemblerConfig} :
    x.judge config packet = .duplicate ∨ x.judge config packet = .reject ↔
      match x.packets.find? packet.index.toNat with
      | some points => (points == packet.points) = true
      | none => config.maxPacketsPerFrame ≤ x.packets.size := by
  cases hfind : x.packets.find? packet.index.toNat with
  | some points =>
    rw [judge_of_stored hfind]
    dsimp only
    split_ifs with hpoints
    · simp [hpoints]
    · simp [hpoints]
  | none =>
    rw [judge_of_new hfind]
    dsimp only
    split_ifs with hsize
    all_goals simp [hsize]

/-- **What a frame ignores.** It is what changes nothing in it. -/
theorem FrameSlot.offer_eq_iff {config : AssemblerConfig} :
    x.offer config packet = (none, some x) ↔ x.Ignores config packet := by
  unfold offer Ignores
  rw [← judge_ignores]
  constructor
  · intro h
    by_cases htotal : 0 < x.uniqueIndices ∧ x.total ≠ packet.total
    · rw [if_pos htotal] at h
      exact absurd h (by simp)
    rw [if_neg htotal] at h
    dsimp only at h
    -- a frame that declares nothing new has the total of the packet
    have hsame : x.declare packet = x → x.total = packet.total := by
      intro heq
      by_cases hfirst : x.uniqueIndices = 0
      · rw [declare, if_pos hfirst] at heq
        exact (congrArg FrameSlot.total heq).symm
      · by_contra hne
        exact htotal ⟨Nat.pos_of_ne_zero hfirst, hne⟩
    cases hjudge : (x.declare packet).judge config packet with
    | duplicate =>
      rw [hjudge] at h
      have heq : x.declare packet = x := Option.some.inj (Prod.ext_iff.mp h).2
      exact ⟨hsame heq, Or.inl (heq ▸ hjudge)⟩
    | reject =>
      rw [hjudge] at h
      have heq : x.declare packet = x := Option.some.inj (Prod.ext_iff.mp h).2
      exact ⟨hsame heq, Or.inr (heq ▸ hjudge)⟩
    | conflict =>
      rw [hjudge] at h
      exact absurd h (by simp)
    | accept =>
      rw [hjudge] at h
      dsimp only at h
      split_ifs at h
      · -- a packet that is stored counts
        have hstored := congrArg FrameSlot.uniqueIndices (Option.some.inj (Prod.ext_iff.mp h).2)
        have hdeclared : (x.declare packet).uniqueIndices = x.uniqueIndices := by
          unfold declare
          split_ifs <;> rfl
        have hcount : (x.declare packet).uniqueIndices + 1 = x.uniqueIndices := hstored
        omega
      · exact absurd h (by simp)
      · exact absurd h (by simp)
  · rintro ⟨htotal, hjudge⟩
    rw [if_neg (fun h => h.2 htotal), declare_of_total htotal]
    dsimp only
    rcases hjudge with hjudge | hjudge
    · rw [hjudge]
    · rw [hjudge]

/-- A new frame stores its first packet, or is returned at once. -/
theorem FrameSlot.fresh_offer {config : AssemblerConfig} (now : Time)
    (hpackets : 0 < config.maxPacketsPerFrame) (hcap : packet.total.toNat ≤ config.maxPointsPerFrame)
    (hrange : Assembler.rangeOutOfFrame packet = false)
    (hout : ((fresh packet.timestampNs now).offer config packet).1 = none) :
    ∃ y, ((fresh packet.timestampNs now).offer config packet).2 = some y := by
  have hwithin : packet.index.toNat + packet.points.length ≤ packet.total.toNat := by
    unfold Assembler.rangeOutOfFrame at hrange
    rw [Bool.or_eq_false_iff, decide_eq_false_iff_not, decide_eq_false_iff_not] at hrange
    omega
  have hjudge : ((fresh packet.timestampNs now).declare packet).judge config packet = .accept := by
    have hfits : (0 : Nat) + packet.points.length ≤ packet.total.toNat ∧
        0 + packet.points.length ≤ config.maxPointsPerFrame := by omega
    exact judge_accept_iff.mpr ⟨rfl, hpackets, ⟨rfl, rfl⟩, within_budget_iff.mpr hfits⟩
  have hmeets : ¬ (0 < (fresh packet.timestampNs now).uniqueIndices ∧
      (fresh packet.timestampNs now).total ≠ packet.total) := fun h => absurd h.1 (Nat.lt_irrefl 0)
  unfold offer at hout ⊢
  rw [if_neg hmeets] at hout ⊢
  dsimp only at hout ⊢
  rw [hjudge] at hout ⊢
  dsimp only at hout ⊢
  split_ifs at hout ⊢ with hincomplete hsize
  · exact ⟨_, rfl⟩
  · -- a complete frame has all of its points
    simp only [Bool.not_eq_true', Bool.not_eq_false, complete, Bool.and_eq_true, beq_iff_eq] at hincomplete
    have hlength := Blocks.scan_length hincomplete.2
    rw [Nat.zero_add] at hlength
    exact absurd hlength.symm hsize

namespace Assembler

/-- **The copies that are ignored.** -/
theorem addPacket_ignores (h : s.Ignores packet) (now : Time) :
    (s.addPacket packet now).1 = none ∧ Same s (s.addPacket packet now).2 := by
  unfold addPacket
  split_ifs with hok hcaps hrange
  · exact ⟨rfl, rfl, rfl⟩
  · exact ⟨rfl, rfl, rfl⟩
  all_goals
    have h := h.resolve_left (fun hzero => hcaps (Or.inl hzero))
    have h := h.resolve_left (fun hlarge => hcaps (Or.inr hlarge))
  · rw [if_pos hrange] at h
    rw [h]
    exact ⟨rfl, rfl, rfl⟩
  · rw [if_neg hrange] at h
    obtain ⟨i, x, hfind, hx, hignores⟩ := h
    obtain ⟨x', hx', hactive, -⟩ := findSlot_eq_some hfind
    obtain rfl : x = x' := Option.some.inj (hx.symm.trans hx')
    have hslot : s.slotForTimestamp packet.timestampNs now = (i, s) := by rw [slotForTimestamp, hfind]
    obtain ⟨y, hslots, hconfig, -, hoffer⟩ := addToSlot_offer packet hx hactive
    rw [FrameSlot.offer_eq_iff.mpr hignores, Prod.ext_iff] at hoffer
    obtain ⟨-, rfl⟩ := FrameSlot.live_eq_some.mp hoffer.2
    rw [hslot]
    dsimp only
    rw [hx]
    refine ⟨hoffer.1, hslots.trans ?_, hconfig⟩
    obtain ⟨hi, hget⟩ := List.getElem?_eq_some_iff.mp hx
    rw [← hget]
    exact List.set_getElem_self hi

/-- **Only those are ignored.** What returns nothing and changes no slot is ignored. -/
theorem ignores_of_same (hok : packet.ok = true) (hslots : 0 < s.slots.length)
    (hpackets : 0 < s.config.maxPacketsPerFrame) (hnone : (s.addPacket packet now).1 = none)
    (hsame : Same s (s.addPacket packet now).2) : s.Ignores packet := by
  have hsame := hsame.slots
  unfold addPacket at hnone hsame
  rw [hok, Bool.not_true, if_neg Bool.false_ne_true] at hnone hsame
  by_cases hcaps : packet.total = 0 ∨ s.config.maxPointsPerFrame < packet.total.toNat
  · exact hcaps.imp id Or.inl
  rw [if_neg hcaps] at hnone hsame
  refine Or.inr (Or.inr ?_)
  by_cases hrange : rangeOutOfFrame packet = true
  · rw [if_pos hrange] at hsame ⊢
    cases hfind : s.findSlot packet.timestampNs with
    | none => rfl
    | some i =>
      obtain ⟨x, hx, hactive, -⟩ := findSlot_eq_some hfind
      rw [hfind] at hsame
      dsimp only at hsame
      rw [finalizeSlot_active _ hx hactive] at hsame
      -- the open frame would be dropped
      have hcleared : some x.clear = some x := by
        rw [← hx, ← hsame]
        exact (List.getElem?_set_self (List.getElem?_eq_some_iff.mp hx).1).symm
      have hidle := congrArg FrameSlot.active (Option.some.inj hcleared)
      rw [hactive] at hidle
      exact absurd hidle (by simp [FrameSlot.clear])
  · -- the packet comes to a slot, which it would change unless the frame there ignores it
    rw [if_neg hrange] at hnone hsame ⊢
    obtain ⟨base, hslot, hslots₁, hconfig₁⟩ := slotForTimestamp_spec packet now hslots
    have hget : (s.slotForTimestamp packet.timestampNs now).2.slots[
        (s.slotForTimestamp packet.timestampNs now).1]? = some base := by
      rw [hslots₁]
      exact List.getElem?_set_self hslot.lt
    obtain ⟨y, hslots₂, -, hts, hoffer⟩ := addToSlot_offer packet hget hslot.active
    dsimp only at hnone hsame
    rw [hget] at hnone hsame
    dsimp only at hnone hsame
    rw [hslots₂, hslots₁, List.set_set] at hsame
    rw [hconfig₁] at hoffer
    have hy : s.slots[(s.slotForTimestamp packet.timestampNs now).1]? = some y := by
      rw [← hsame]
      exact List.getElem?_set_self hslot.lt
    generalize (s.slotForTimestamp packet.timestampNs now).1 = i at hslot hy hsame
    cases hslot with
    | found hfind hx hactive _ =>
      obtain rfl : base = y := Option.some.inj (hx.symm.trans hy)
      refine ⟨i, base, hfind, hx, FrameSlot.offer_eq_iff.mp ?_⟩
      rw [← hoffer, hnone, FrameSlot.live, if_pos hactive]
    | created hfind _ =>
      -- a new frame would be stored
      rw [Prod.ext_iff] at hoffer
      obtain ⟨z, hz⟩ := FrameSlot.fresh_offer now hpackets (Nat.le_of_not_lt (not_or.mp hcaps).2)
        (by simpa using hrange) (hoffer.1 ▸ hnone)
      rw [← hoffer.2] at hz
      obtain ⟨hactive, -⟩ := FrameSlot.live_eq_some.mp hz
      exact absurd (hts hactive) (findSlot_eq_none.mp hfind y (List.mem_of_getElem? hy) hactive)

end Assembler

/-! ### Sequences with copies -/

/-- Calls of `add_packet`, and between them copies of packets that were fed before, each under a
    condition on the assembler that it meets. -/
inductive WithCopiesWhere (ok : Assembler → PointCloudPacketResult → Prop) :
    Assembler → List PointCloudPacketResult → List (PointCloudPacketResult × Time) →
      List (PointCloudPacketResult × Time) → Prop
  | nil {s : Assembler} {seen : List PointCloudPacketResult} : WithCopiesWhere ok s seen [] []
  | next {s : Assembler} {seen : List PointCloudPacketResult}
      {calls fed : List (PointCloudPacketResult × Time)} (p : PointCloudPacketResult) (now : Time)
      (hrest : WithCopiesWhere ok (s.addPacket p now).2 (p :: seen) calls fed) :
      WithCopiesWhere ok s seen ((p, now) :: calls) ((p, now) :: fed)
  | copy {s : Assembler} {seen : List PointCloudPacketResult}
      {calls fed : List (PointCloudPacketResult × Time)} (p : PointCloudPacketResult) (now : Time)
      (hp : p ∈ seen) (hok : ok s p)
      (hrest : WithCopiesWhere ok (s.addPacket p now).2 seen calls fed) :
      WithCopiesWhere ok s seen calls ((p, now) :: fed)

/-- The frames that the calls return. -/
def Assembler.frames (s : Assembler) (fed : List (PointCloudPacketResult × Time)) :
    List PointCloudFrame := (s.outputs fed).filterMap id

theorem Assembler.frames_cons (s : Assembler) (p : PointCloudPacketResult) (now : Time)
    (fed : List (PointCloudPacketResult × Time)) :
    s.frames ((p, now) :: fed) = (s.addPacket p now).1.toList ++ (s.addPacket p now).2.frames fed := by
  unfold frames
  rw [outputs]
  cases (s.addPacket p now).1 with
  | none => rfl
  | some f => rfl

/-- **Run lemma.** Copies that are ignored leave the frames as they are. -/
theorem Assembler.Same.frames (hfed : WithCopiesWhere Assembler.Ignores s seen calls fed)
    (h : Same s s') : s.frames fed = s'.frames calls := by
  induction hfed generalizing s' with
  | nil => rfl
  | next p now _ ih =>
    -- both assemblers take the same step
    obtain ⟨hout, hnext⟩ := Assembler.addPacket_same h p now
    rw [Assembler.frames_cons, Assembler.frames_cons, hout, ih hnext]
  | copy p now _ hignores _ ih =>
    -- only the one that is fed the copy takes a step, and only its counters change
    obtain ⟨hout, hkept⟩ := Assembler.addPacket_ignores hignores now
    rw [Assembler.frames_cons, hout, Option.toList_none, List.nil_append]
    exact ih ⟨h.slots.trans hkept.slots.symm, h.config.trans hkept.config.symm⟩

/-- A frame of one packet. -/
def whole : PointCloudPacketResult :=
  { ok := true, timestampNs := 7, total := 1, index := 0, posNum := 1, points := [{}] }

/-- **A late copy returns its frame again.** Copies of packets change the frames that are returned. -/
theorem copies_change_frames : ¬ ∀ (config : AssemblerConfig)
    (calls fed : List (PointCloudPacketResult × Time)), (∀ c ∈ calls, c.1.ok = true) →
      WithCopiesWhere (fun _ _ => True) (Assembler.create config) [] calls fed →
      (Assembler.create config).frames fed = (Assembler.create config).frames calls := by
  intro hall
  have hsame := hall {} [(whole, 10)] [(whole, 10), (whole, 20)] (by decide)
    (.next _ _ (.copy _ _ List.mem_cons_self trivial .nil))
  have htwice : ((Assembler.create {}).frames [(whole, 10), (whole, 20)]).length = 2 := by
    decide +kernel
  have honce : ((Assembler.create {}).frames [(whole, 10)]).length = 1 := by decide +kernel
  rw [hsame, honce] at htwice
  exact absurd htwice (by decide)

/-- **Copies that are ignored are harmless.** Where the assembler ignores each copy when it comes, the
    frames returned are those of the other calls alone. -/
theorem ignored_copies_are_harmless (s : Assembler) (calls fed : List (PointCloudPacketResult × Time))
    (hfed : WithCopiesWhere Assembler.Ignores s [] calls fed) : s.frames fed = s.frames calls :=
  Assembler.Same.frames hfed (.refl s)

/-- A copy between the two packets of a frame. -/
theorem ignored_copies_are_harmless_open :
    (Assembler.create {}).frames [(piece 0 [{}, {}], 10), (piece 0 [{}, {}], 20),
        (piece 2 [{}, {}, {}], 30)] =
      (Assembler.create {}).frames [(piece 0 [{}, {}], 10), (piece 2 [{}, {}, {}], 30)] := by
  refine ignored_copies_are_harmless _ _ _ (.next _ _ (.copy _ _ List.mem_cons_self ?_ (.next _ _ .nil)))
  refine Or.inr (Or.inr ?_)
  rw [if_neg (by decide)]
  exact ⟨0, _, by decide +kernel, rfl, rfl, rfl⟩

end HypertronBridge.Lidar
