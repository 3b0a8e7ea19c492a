import HypertronBridge.Lidar.Table
import Mathlib.Data.Finset.Card
import Mathlib.Data.List.Dedup

namespace HypertronBridge.Lidar

/-!
# Frames do not interfere

While no more timestamps occur than the assembler has slots, none of its frames is ever evicted, and
what it returns for one timestamp depends on the packets of that timestamp alone.

* `Assembler.returned` — the frames that a sequence of calls returns, with the places of the calls;
* `entryReturned` — the same for the entry of one timestamp in the table of frames;
* `Roomy` — room for all timestamps, kept by every call;
* `frames_do_not_interfere` — the result.
-/

variable {s s' : Assembler} {packet : PointCloudPacketResult} {now : Time} {t : UInt64}
  {config : AssemblerConfig} {T : Finset UInt64} {calls : List (Action × Nat)}

/-! ### Sequences of calls -/

/-- The timestamp of a call's packet. -/
def Action.timestamp : Action → Option UInt64
  | .addPacket packet _ => some packet.timestampNs
  | .expire _ => none

/-- The call is a packet of this timestamp, or `expire`. -/
def Action.concerns (t : UInt64) : Action → Bool
  | .addPacket packet _ => packet.timestampNs == t
  | .expire _ => true

/-- One call. -/
def Assembler.call (s : Assembler) : Action → Option PointCloudFrame × Assembler
  | .addPacket packet now => s.addPacket packet now
  | .expire now => (none, s.expire now)

/-- The frames that the calls return, each with the place of its call. -/
def Assembler.returned (s : Assembler) : List (Action × Nat) → List (Nat × PointCloudFrame)
  | [] => []
  | (b, n) :: calls => ((s.call b).1.map (fun f => (n, f))).toList ++ (s.call b).2.returned calls

/-- The frames that the calls return for one timestamp, from its entry. -/
def entryReturned (config : AssemblerConfig) (t : UInt64) (entry : Option FrameSlot) :
    List (Action × Nat) → List (Nat × PointCloudFrame)
  | [] => []
  | (.addPacket packet now, n) :: calls =>
      if packet.timestampNs = t then
        ((frameStep config packet now entry).1.map (fun f => (n, f))).toList ++
          entryReturned config t (frameStep config packet now entry).2 calls
      else entryReturned config t entry calls
  | (.expire now, _) :: calls => entryReturned config t (expireStep config now entry) calls

/-- Packets of other timestamps may be left out. -/
theorem entryReturned_filter (entry : Option FrameSlot) (calls : List (Action × Nat)) :
    entryReturned config t entry (calls.filter (fun c => c.1.concerns t)) =
      entryReturned config t entry calls := by
  induction calls generalizing entry with
  | nil => rfl
  | cons c calls ih =>
    obtain ⟨b, n⟩ := c
    cases b with
    | addPacket packet now =>
      by_cases hts : packet.timestampNs = t
      · rw [List.filter_cons_of_pos (by simp [Action.concerns, hts])]
        simp only [entryReturned, if_pos hts, ih]
      · rw [List.filter_cons_of_neg (by simp [Action.concerns, hts])]
        simp only [entryReturned, if_neg hts, ih]
    | expire now =>
      rw [List.filter_cons_of_pos (by rfl)]
      simp only [entryReturned, ih]

/-- A frame has the timestamp of the packet that completes it. -/
theorem frameStep_timestamp {entry : Option FrameSlot} {f : PointCloudFrame}
    (hentry : ∀ x ∈ entry, x.timestampNs = packet.timestampNs)
    (hf : (frameStep config packet now entry).1 = some f) : f.timestampNs = packet.timestampNs := by
  have hbase : (entry.getD (.fresh packet.timestampNs now)).timestampNs = packet.timestampNs := by
    cases entry with
    | none => rfl
    | some x => exact hentry x rfl
  unfold frameStep at hf
  split_ifs at hf
  generalize entry.getD (.fresh packet.timestampNs now) = base at hf hbase
  have hdeclared : (base.declare packet).timestampNs = base.timestampNs := by
    unfold FrameSlot.declare
    split_ifs <;> rfl
  unfold FrameSlot.offer at hf
  split_ifs at hf
  dsimp only at hf
  cases hjudge : (base.declare packet).judge config packet with
  | accept =>
    rw [hjudge] at hf
    dsimp only at hf
    split_ifs at hf
    rw [← Option.some.inj hf]
    exact hdeclared.trans hbase
  | _ =>
    rw [hjudge] at hf
    exact absurd hf (by simp)

/-! ### Room -/

/-- At most one slot for each timestamp, all of them of `T`, and a slot for each of `T`. -/
structure Roomy (T : Finset UInt64) (s : Assembler) : Prop where
  one : ∀ ts, s.One ts
  within : ∀ ts, s.held ts ≠ none → ts ∈ T
  card : T.card ≤ s.slots.length

/-- Where a timestamp of `T` has no frame, a slot is free. -/
theorem Roomy.room (h : Roomy T s) (hpacket : packet.timestampNs ∈ T) : s.Room packet := by
  intro hnone
  by_contra hfull
  have hactive : ∀ x ∈ s.slots, x.active = true := by
    intro x hx
    by_contra hidle
    exact hfull ⟨x, hx, by simpa using hidle⟩
  -- the timestamps of the slots are distinct, and the packet's is not among them
  have hnodup : (s.slots.map (fun x => x.timestampNs)).Nodup := by
    rw [List.nodup_iff_injective_get]
    intro i j hij
    have hi : i.1 < s.slots.length := by simpa using i.2
    have hj : j.1 < s.slots.length := by simpa using j.2
    have hsame : s.slots[i.1].timestampNs = s.slots[j.1].timestampNs := by simpa using hij
    exact Fin.ext (h.one _ i.1 j.1 _ _ (List.getElem?_eq_getElem hi) (List.getElem?_eq_getElem hj)
      (FrameSlot.isOf_iff.mpr ⟨hactive _ (List.getElem_mem hi), hsame⟩)
      (FrameSlot.isOf_iff.mpr ⟨hactive _ (List.getElem_mem hj), rfl⟩))
  have hsubset : (s.slots.map (fun x => x.timestampNs)).toFinset ⊆ T.erase packet.timestampNs := by
    intro ts hts
    rw [List.mem_toFinset, List.mem_map] at hts
    obtain ⟨x, hx, rfl⟩ := hts
    have hof : x.isOf x.timestampNs = true := FrameSlot.isOf_iff.mpr ⟨hactive x hx, rfl⟩
    refine Finset.mem_erase.mpr ⟨fun heq => ?_, h.within _ (fun hnot => ?_)⟩
    · exact List.find?_eq_none.mp hnone x hx (heq ▸ hof)
    · exact List.find?_eq_none.mp hnot x hx hof
  have hle := Finset.card_le_card hsubset
  rw [List.toFinset_card_of_nodup hnodup, List.length_map, Finset.card_erase_of_mem hpacket] at hle
  have hpos := Finset.card_pos.mpr ⟨_, hpacket⟩
  have hcard := h.card
  omega

/-- **Step lemma, a packet.** -/
theorem Roomy.addPacket (h : Roomy T s) (hpacket : packet.timestampNs ∈ T) (now : Time) :
    Roomy T (s.addPacket packet now).2 := by
  obtain ⟨-, hreplaces⟩ := Assembler.addPacket_refines packet now (h.one _) (h.room hpacket)
  refine ⟨fun ts => ?_, fun ts hheld => ?_, by rw [hreplaces.length]; exact h.card⟩
  · by_cases hts : ts = packet.timestampNs
    · rw [hts]
      exact hreplaces.one
    · exact (hreplaces.others ts hts).2 (h.one ts)
  · by_cases hts : ts = packet.timestampNs
    · rw [hts]
      exact hpacket
    · rw [(hreplaces.others ts hts).1] at hheld
      exact h.within ts hheld

/-- **Step lemma, a timeout.** -/
theorem Roomy.expire (h : Roomy T s) (now : Time) : Roomy T (s.expire now) := by
  refine ⟨fun ts => (Assembler.expire_refines now (h.one ts)).2.1, fun ts hheld => ?_, ?_⟩
  · rw [(Assembler.expire_refines now (h.one ts)).1] at hheld
    refine h.within ts (fun hnone => hheld ?_)
    rw [hnone]
    rfl
  · rw [(Assembler.expire_refines now (h.one 0)).2.2.2]
    exact h.card

/-- A new assembler. -/
theorem Roomy.create (hcard : T.card ≤ max 1 config.maxParallelFrames) :
    Roomy T (Assembler.create config) := by
  have hidle : ∀ x ∈ (Assembler.create config).slots, x = {} :=
    fun x hx => List.eq_of_mem_replicate hx
  have hnot : ∀ ts, ∀ x ∈ (Assembler.create config).slots, ¬ x.isOf ts = true := by
    intro ts x hx
    rw [hidle x hx]
    simp [FrameSlot.isOf]
  refine ⟨fun ts i j x y hx _ hof _ => absurd hof (hnot ts x (List.mem_of_getElem? hx)),
    fun ts hheld => absurd (List.find?_eq_none.mpr (hnot ts)) hheld, hcard.trans ?_⟩
  unfold Assembler.create
  dsimp only
  rw [List.length_replicate]
  split_ifs with hzero
  · simp [hzero]
  · omega

/-! ### One timestamp of a run -/

/-- **Run lemma.** With room, what the calls return for one timestamp its entry alone returns. -/
theorem Roomy.returned (h : Roomy T s) (calls : List (Action × Nat))
    (hcalls : ∀ c ∈ calls, ∀ ts ∈ c.1.timestamp, ts ∈ T) (t : UInt64) :
    (s.returned calls).filter (fun r => r.2.timestampNs == t) =
      entryReturned s.config t (s.held t) calls := by
  induction calls generalizing s with
  | nil => rfl
  | cons c calls ih =>
    obtain ⟨b, n⟩ := c
    obtain ⟨hb, htail⟩ := List.forall_mem_cons.mp hcalls
    rw [Assembler.returned, List.filter_append]
    cases b with
    | addPacket packet now =>
      have hpacket : packet.timestampNs ∈ T := hb _ rfl
      obtain ⟨hframe, hreplaces⟩ := Assembler.addPacket_refines packet now (h.one _) (h.room hpacket)
      have hrest := ih (h.addPacket hpacket now) htail
      -- the packet's own entry takes the step, and every other entry is left alone
      have hentry : ∀ x ∈ s.held packet.timestampNs, x.timestampNs = packet.timestampNs :=
        fun x hx => (Assembler.held_isOf hx).2
      simp only [Assembler.call, entryReturned]
      rw [hrest, hreplaces.config, hframe]
      by_cases hts : packet.timestampNs = t
      · subst hts
        rw [if_pos rfl, hreplaces.held]
        congr 1
        cases hemit : (frameStep s.config packet now (s.held packet.timestampNs)).1 with
        | none => rfl
        | some f =>
          rw [Option.map_some, Option.toList_some, List.filter_cons_of_pos]
          · rfl
          · simp [frameStep_timestamp hentry hemit]
      · rw [if_neg hts, (hreplaces.others t (Ne.symm hts)).1]
        cases hemit : (frameStep s.config packet now (s.held packet.timestampNs)).1 with
        | none => rfl
        | some f =>
          rw [Option.map_some, Option.toList_some, List.filter_cons_of_neg]
          · rfl
          · simp [frameStep_timestamp hentry hemit, hts]
    | expire now =>
      obtain ⟨hheld, -, hconfig, -⟩ := Assembler.expire_refines now (h.one t)
      have hrest := ih (h.expire now) htail
      simp only [Assembler.call, entryReturned]
      rw [hrest, hconfig, hheld]
      rfl

/-- Every frame is one of a packet that was fed. -/
theorem Roomy.returned_timestamp (h : Roomy T s) (calls : List (Action × Nat))
    (hcalls : ∀ c ∈ calls, ∀ ts ∈ c.1.timestamp, ts ∈ T) :
    ∀ r ∈ s.returned calls, ∃ c ∈ calls, c.1.timestamp = some r.2.timestampNs := by
  induction calls generalizing s with
  | nil => exact fun r hr => absurd hr (by simp [Assembler.returned])
  | cons c calls ih =>
    obtain ⟨b, n⟩ := c
    obtain ⟨hb, htail⟩ := List.forall_mem_cons.mp hcalls
    intro r hr
    rw [Assembler.returned, List.mem_append] at hr
    cases b with
    | addPacket packet now =>
      have hpacket : packet.timestampNs ∈ T := hb _ rfl
      rcases hr with hr | hr
      · obtain ⟨hframe, -⟩ := Assembler.addPacket_refines packet now (h.one _) (h.room hpacket)
        rw [Option.mem_toList, Option.map_eq_some_iff] at hr
        obtain ⟨f, hf, rfl⟩ := hr
        refine ⟨_, List.mem_cons_self, ?_⟩
        have hts := frameStep_timestamp (fun x hx => (Assembler.held_isOf hx).2) (hframe ▸ hf)
        exact congrArg some hts.symm
      · obtain ⟨c, hc, hts⟩ := ih (h.addPacket hpacket now) htail r hr
        exact ⟨c, List.mem_cons_of_mem _ hc, hts⟩
    | expire now =>
      rcases hr with hr | hr
      · exact absurd hr (by simp [Assembler.call])
      · obtain ⟨c, hc, hts⟩ := ih (h.expire now) htail r hr
        exact ⟨c, List.mem_cons_of_mem _ hc, hts⟩

/-- **Frames do not interfere.** Where no more timestamps occur than the assembler has slots, the frames
    returned for a timestamp, with their places, are those that a new assembler returns for the packets
    of that timestamp alone, at the same readings of the clock. -/
theorem frames_do_not_interfere (config : AssemblerConfig) (calls : List Action) (t : UInt64)
    (hfew : (calls.filterMap Action.timestamp).toFinset.card ≤ max 1 config.maxParallelFrames) :
    ((Assembler.create config).returned calls.zipIdx).filter (fun r => r.2.timestampNs == t) =
      (Assembler.create config).returned (calls.zipIdx.filter (fun c => c.1.concerns t)) := by
  have hroomy : Roomy _ (Assembler.create config) := Roomy.create hfew
  have hcalls : ∀ c ∈ calls.zipIdx, ∀ ts ∈ c.1.timestamp,
      ts ∈ (calls.filterMap Action.timestamp).toFinset := by
    rintro ⟨b, n⟩ hc ts hts
    rw [List.mem_toFinset, List.mem_filterMap]
    exact ⟨b, List.fst_mem_of_mem_zipIdx hc, hts⟩
  have hcalls' : ∀ c ∈ calls.zipIdx.filter (fun c => c.1.concerns t), ∀ ts ∈ c.1.timestamp,
      ts ∈ (calls.filterMap Action.timestamp).toFinset :=
    fun c hc => hcalls c (List.mem_of_mem_filter hc)
  -- all that is returned for the packets that are left is of this timestamp
  have honly : ((Assembler.create config).returned (calls.zipIdx.filter (fun c => c.1.concerns t))).filter
      (fun r => r.2.timestampNs == t) =
      (Assembler.create config).returned (calls.zipIdx.filter (fun c => c.1.concerns t)) := by
    refine List.filter_eq_self.mpr (fun r hr => ?_)
    obtain ⟨⟨b, n⟩, hc, hts⟩ := hroomy.returned_timestamp _ hcalls' r hr
    have hconcerns := (List.mem_filter.mp hc).2
    cases b with
    | addPacket packet now =>
      have heq : packet.timestampNs = r.2.timestampNs := Option.some.inj hts
      rw [← heq]
      exact hconcerns
    | expire now => exact absurd hts (by simp [Action.timestamp])
  -- both runs return what the entry of `t` alone returns, and other packets do not come to it
  calc _ = entryReturned _ t _ calls.zipIdx := hroomy.returned _ hcalls t
    _ = entryReturned _ t _ (calls.zipIdx.filter (fun c => c.1.concerns t)) :=
      (entryReturned_filter _ _).symm
    _ = _ := (hroomy.returned _ hcalls' t).symm
    _ = _ := honly

/-- Two frames, each between the packets of the other, and a timeout. -/
def interleaved : List Action :=
  [.addPacket { ok := true, timestampNs := 7, total := 3, index := 2, points := [{}] } 10,
    .addPacket { ok := true, timestampNs := 8, total := 2, index := 0, points := [{}] } 20,
    .expire 30,
    .addPacket { ok := true, timestampNs := 7, total := 3, index := 0, points := [{}, {}] } 40,
    .addPacket { ok := true, timestampNs := 8, total := 2, index := 1, points := [{}] } 50]

/-- The first frame is returned by the fourth call. -/
theorem frames_do_not_interfere_interleaved :
    ((Assembler.create {}).returned (interleaved.zipIdx.filter (fun c => c.1.concerns 7))).map
        (fun r => (r.1, r.2.points.length)) = [(3, 3)] ∧
      ((Assembler.create {}).returned interleaved.zipIdx).filter (fun r => r.2.timestampNs == 7) =
        (Assembler.create {}).returned (interleaved.zipIdx.filter (fun c => c.1.concerns 7)) :=
  ⟨by decide +kernel, frames_do_not_interfere {} interleaved 7 (by decide +kernel)⟩

end HypertronBridge.Lidar
