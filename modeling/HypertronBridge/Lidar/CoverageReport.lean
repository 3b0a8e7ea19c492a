import HypertronBridge.Lidar.Calibration
import HypertronBridge.Lidar.Delivery
import Mathlib.Data.List.Sort

namespace HypertronBridge.Lidar

open Blocks Bytes Receiver TransitionSystem

/-!
# The coverage report of the calibration tool (`analyze_cloud`, `calibration_analyze.py`)

The tool takes the first frame of a capture and prints the ranges of points that it finds no datagram for.
It goes by counts and offsets alone, and by the last of several datagrams with one offset; the driver goes
by what it stored.

* `analyzeCloudPayload`, `analyzeCloud` — what the tool records and reports;
* `coverageGaps_cover` — the gaps between ranges that are apart are the positions in none;
* `received`, `Heard`, `Captured` — a capture of one frame, with losses and copies, among others;
* `coverage_gaps_are_the_losses` — the report, the losses and the driver.
-/

universe u

variable {ι : Type u} {setup : Setup} {s s' : Receiver ι} {a : Receiver.Action ι}
  {as : List (Receiver.Action ι)} {t₀ : Time}

/-! ### The tool -/

/-- What the tool records of a payload. -/
structure CloudSample where
  ts : Nat
  total : Nat
  idx : Nat
  pos : Nat
deriving DecidableEq

/-- `analyze_cloud`, on one payload. -/
def analyzeCloudPayload (pl : List UInt8) : Option CloudSample :=
  if pl.length = 1422 ∧ marked pl then
    some {
      ts := value (slice 2 8 pl)
      total := value (slice 10 4 pl)
      idx := value (slice 14 4 pl)
      pos := value (slice 18 2 pl) }
  else none

/-- `d[k] = v`. -/
def dictSet (k v : Nat) : List (Nat × Nat) → List (Nat × Nat)
  | [] => [(k, v)]
  | e :: d => if e.1 = k then (k, v) :: d else e :: dictSet k v d

/-- `dict(items)`: of several items with one key, the last counts. -/
def dictOf (items : List (Nat × Nat)) : List (Nat × Nat) :=
  items.foldl (fun d e => dictSet e.1 e.2 d) []

/-- `sorted(d.items())`; the keys are distinct. -/
def sortedItems (d : List (Nat × Nat)) : List (Nat × Nat) := d.insertionSort (fun x y => x.1 ≤ y.1)

/-- The loop over the ranges, from an expected position on, and the test after it. -/
def coverageGaps (total : Nat) : Nat → List (Nat × Nat) → List (Nat × Nat)
  | expected, [] => if expected ≠ total then [(expected, total)] else []
  | expected, (start, count) :: ranges =>
      (if start ≠ expected then [(expected, start)] else []) ++ coverageGaps total (start + count) ranges

/-- The report on the sample frame. -/
structure CloudReport where
  ts : Nat
  total : Nat
  ranges : List (Nat × Nat)
  gaps : List (Nat × Nat)

/-- The samples of a capture that have its first timestamp. -/
def sampleFrame (payloads : List (List UInt8)) : List CloudSample :=
  match payloads.filterMap analyzeCloudPayload with
  | [] => []
  | first :: rest => first :: rest.filter (fun sample => sample.ts == first.ts)

/-- `analyze_cloud`. -/
def analyzeCloud (payloads : List (List UInt8)) : Option CloudReport :=
  match sampleFrame payloads with
  | [] => none
  | first :: rest =>
      let ranges := sortedItems (dictOf ((first :: rest).map (fun sample => (sample.idx, sample.pos))))
      some { ts := first.ts, total := first.total, ranges, gaps := coverageGaps first.total 0 ranges }

/-! ### Dictionaries -/

section dictionaries

variable {d items : List (Nat × Nat)} {k v : Nat}

/-- The entries after an assignment. -/
theorem mem_dictSet {e : Nat × Nat} (he : e ∈ dictSet k v d) : e = (k, v) ∨ e ∈ d := by
  induction d with
  | nil => exact Or.inl (List.mem_singleton.mp he)
  | cons x d ih =>
    rw [dictSet] at he
    split_ifs at he
    · rcases List.mem_cons.mp he with rfl | hmem
      · exact Or.inl rfl
      · exact Or.inr (List.mem_cons_of_mem _ hmem)
    · rcases List.mem_cons.mp he with rfl | hmem
      · exact Or.inr List.mem_cons_self
      · exact (ih hmem).imp_right (List.mem_cons_of_mem _)

/-- The keys after an assignment. -/
theorem mem_keys_dictSet {k' : Nat} :
    k' ∈ (dictSet k v d).map Prod.fst ↔ k' = k ∨ k' ∈ d.map Prod.fst := by
  induction d with
  | nil => simp [dictSet]
  | cons x d ih =>
    rw [dictSet]
    split_ifs with hkey
    · simp [hkey]
    · rw [List.map_cons, List.mem_cons, ih, List.map_cons, List.mem_cons]
      tauto

theorem nodup_keys_dictSet (hd : (d.map Prod.fst).Nodup) : ((dictSet k v d).map Prod.fst).Nodup := by
  induction d with
  | nil => exact List.nodup_singleton _
  | cons x d ih =>
    obtain ⟨hx, hd⟩ := List.nodup_cons.mp hd
    rw [dictSet]
    split_ifs with hkey
    · exact List.nodup_cons.mpr ⟨hkey ▸ hx, hd⟩
    · refine List.nodup_cons.mpr ⟨fun hmem => ?_, ih hd⟩
      rcases mem_keys_dictSet.mp hmem with heq | hmem
      · exact hkey heq
      · exact hx hmem

/-- **What a dictionary holds**: for each key one item, and no other. -/
theorem dictOf_spec (items : List (Nat × Nat)) : ((dictOf items).map Prod.fst).Nodup ∧
    (∀ e ∈ dictOf items, e ∈ items) ∧ ∀ e ∈ items, e.1 ∈ (dictOf items).map Prod.fst := by
  -- the items are assigned one by one, to what the earlier ones made
  have hfold : ∀ (rest d : List (Nat × Nat)), (d.map Prod.fst).Nodup →
      ((rest.foldl (fun d e => dictSet e.1 e.2 d) d).map Prod.fst).Nodup ∧
      (∀ e ∈ rest.foldl (fun d e => dictSet e.1 e.2 d) d, e ∈ d ∨ e ∈ rest) ∧
      ∀ k, k ∈ d.map Prod.fst ∨ k ∈ rest.map Prod.fst →
        k ∈ (rest.foldl (fun d e => dictSet e.1 e.2 d) d).map Prod.fst := by
    intro rest
    induction rest with
    | nil => exact fun d hd => ⟨hd, fun e he => Or.inl he, fun k hk => hk.resolve_right (by simp)⟩
    | cons x rest ih =>
      intro d hd
      obtain ⟨hnodup, hmem, hkeys⟩ := ih (dictSet x.1 x.2 d) (nodup_keys_dictSet hd)
      refine ⟨hnodup, fun e he => ?_, fun k hk => hkeys k ?_⟩
      · rcases hmem e he with hset | hrest
        · rcases mem_dictSet hset with rfl | hold
          · exact Or.inr List.mem_cons_self
          · exact Or.inl hold
        · exact Or.inr (List.mem_cons_of_mem _ hrest)
      · rw [List.map_cons, List.mem_cons] at hk
        rw [mem_keys_dictSet]
        tauto
  obtain ⟨hnodup, hmem, hkeys⟩ := hfold items [] List.nodup_nil
  exact ⟨hnodup, fun e he => (hmem e he).resolve_left List.not_mem_nil,
    fun e he => hkeys e.1 (Or.inr (List.mem_map_of_mem he))⟩

/-- Where a key has one item only, whatever its copies, the dictionary has that, in order. -/
theorem sortedItems_dictOf (hsame : ∀ e ∈ items, ∀ e' ∈ items, e.1 = e'.1 → e = e') :
    (∀ e, e ∈ sortedItems (dictOf items) ↔ e ∈ items) ∧
      (sortedItems (dictOf items)).Pairwise (fun x y => x.1 < y.1) := by
  obtain ⟨hnodup, hmem, hkeys⟩ := dictOf_spec items
  have hperm : (sortedItems (dictOf items)).Perm (dictOf items) := List.perm_insertionSort _ _
  constructor
  · intro e
    rw [hperm.mem_iff]
    refine ⟨hmem e, fun he => ?_⟩
    obtain ⟨e', he', hkey⟩ := List.mem_map.mp (hkeys e he)
    rw [hsame e he e' (hmem e' he') hkey.symm]
    exact he'
  · have hle : (sortedItems (dictOf items)).Pairwise (fun x y => x.1 ≤ y.1) :=
      List.pairwise_insertionSort _ _
    have hne : (sortedItems (dictOf items)).Pairwise (fun x y => x.1 ≠ y.1) :=
      List.pairwise_map.mp ((hperm.map Prod.fst).nodup_iff.mpr hnodup)
    exact hle.imp₂ (fun x y hxy hneq => Nat.lt_of_le_of_ne hxy hneq) hne

end dictionaries

/-! ### Gaps -/

/-- **The gaps are the positions in no range**, where ranges in order are apart and within the total. -/
theorem coverageGaps_cover {total n : Nat} {ranges : List (Nat × Nat)}
    (hordered : ranges.Pairwise (fun x y => x.1 + x.2 ≤ y.1))
    (hwithin : ∀ r ∈ ranges, n ≤ r.1 ∧ r.1 + r.2 ≤ total) (hn : n ≤ total) :
    (∀ g ∈ coverageGaps total n ranges, g.1 < g.2) ∧
      ∀ i, (∃ g ∈ coverageGaps total n ranges, g.1 ≤ i ∧ i < g.2) ↔
        (n ≤ i ∧ i < total) ∧ ∀ r ∈ ranges, ¬ (r.1 ≤ i ∧ i < r.1 + r.2) := by
  induction ranges generalizing n with
  | nil =>
    rw [coverageGaps]
    split_ifs with hne
    · simp only [List.mem_singleton, forall_eq, exists_eq_left]
      refine ⟨Nat.lt_of_le_of_ne hn hne, fun i => by simp⟩
    · refine ⟨by simp, fun i => ?_⟩
      simp only [List.not_mem_nil, false_and, exists_false, false_iff]
      omega
  | cons r ranges ih =>
    obtain ⟨start, count⟩ := r
    obtain ⟨hfirst, hrest⟩ := List.pairwise_cons.mp hordered
    obtain ⟨⟨hlo, hhi⟩, htail⟩ := List.forall_mem_cons.mp hwithin
    obtain ⟨hproper, hcover⟩ := ih hrest (fun r hr => ⟨hfirst r hr, (htail r hr).2⟩) hhi
    dsimp only at hlo hhi hfirst
    rw [coverageGaps]
    refine ⟨?_, fun i => ?_⟩
    · intro g hg
      rcases List.mem_append.mp hg with hbefore | hafter
      · split_ifs at hbefore with hne
        · rw [List.mem_singleton.mp hbefore]
          show n < start
          omega
        · exact absurd hbefore List.not_mem_nil
      · exact hproper g hafter
    · have hsplit : (∃ g ∈ (if start ≠ n then [(n, start)] else []), g.1 ≤ i ∧ i < g.2) ↔
          n ≤ i ∧ i < start := by
        split_ifs with hne
        · simp
        · simp only [List.not_mem_nil, false_and, exists_false, false_iff]
          omega
      -- a later range begins after this one ends
      have hlater : i < start + count → ∀ r ∈ ranges, ¬ (r.1 ≤ i ∧ i < r.1 + r.2) := by
        intro hlt r hr hin
        have hle := hfirst r hr
        omega
      simp only [List.mem_append, or_and_right, exists_or, hsplit, hcover, List.forall_mem_cons]
      constructor
      · rintro (⟨hge, hlt⟩ | ⟨⟨hge, hlt⟩, hnone⟩)
        · exact ⟨⟨hge, by omega⟩, by omega, hlater (by omega)⟩
        · exact ⟨⟨by omega, hlt⟩, by omega, hnone⟩
      · rintro ⟨⟨hge, hlt⟩, hnot, hnone⟩
        by_cases hbefore : i < start
        · exact Or.inl ⟨hge, hbefore⟩
        · exact Or.inr ⟨⟨by omega, hlt⟩, hnone⟩

/-! ### The datagrams of the frame -/

section frame

variable {ts : UInt64} {total : UInt32} {fields : List CloudFields} {f g : CloudFields} {pl : List UInt8}

/-- The points of a datagram, where they belong. -/
def CloudFields.block (f : CloudFields) : Block RawPoint := (f.index.toNat, f.points)

/-- The frame's datagrams leave no gap. -/
theorem Cut.scan {i : Nat} (h : Cut ts total i fields) :
    Blocks.scan i (fields.map CloudFields.block) = some total.toNat := by
  induction fields generalizing i with
  | nil => exact congrArg some h
  | cons f fs ih =>
    obtain ⟨-, -, hindex, hrest⟩ := h
    rw [List.map_cons, Blocks.scan, if_pos (show f.block.1 = i from hindex)]
    exact ih hrest

/-- They are of the frame. -/
theorem Cut.each {i : Nat} (h : Cut ts total i fields) : ∀ f ∈ fields, f.timestampNs = ts ∧ f.total = total := by
  induction fields generalizing i with
  | nil => simp
  | cons f fs ih =>
    obtain ⟨hts, htotal, -, hrest⟩ := h
    exact List.forall_mem_cons.mpr ⟨⟨hts, htotal⟩, ih hrest⟩

/-- They are within the frame. -/
theorem Cut.within (h : Cut ts total 0 fields) (hf : f ∈ fields) : f.index.toNat + f.points.length ≤ total.toNat :=
  ((scan_pairwise h.scan).2 _ (List.mem_map_of_mem hf)).2

/-- They have every point of it. -/
theorem Cut.covers {i j : Nat} (h : Cut ts total i fields) (hi : i ≤ j) (hj : j < total.toNat) :
    ∃ f ∈ fields, f.index.toNat ≤ j ∧ j < f.index.toNat + f.points.length := by
  induction fields generalizing i with
  | nil =>
    have hend : i = total.toNat := h
    omega
  | cons f fs ih =>
    obtain ⟨-, -, hindex, hrest⟩ := h
    by_cases hlt : j < i + f.points.length
    · exact ⟨f, List.mem_cons_self, by omega, by omega⟩
    · obtain ⟨g, hg, hin⟩ := ih hrest (by omega)
      exact ⟨g, List.mem_cons_of_mem _ hg, hin⟩

/-- No two of them have a point in common. -/
theorem Cut.eq_of_common (h : Cut ts total 0 fields) (hf : f ∈ fields) (hg : g ∈ fields) {i : Nat}
    (hfi : f.index.toNat ≤ i ∧ i < f.index.toNat + f.points.length)
    (hgi : g.index.toNat ≤ i ∧ i < g.index.toNat + g.points.length) : f = g := by
  have : Std.Symm (fun f g : CloudFields => Apart f.block g.block) := ⟨fun _ _ => Apart.symm⟩
  have happart : fields.Pairwise (fun f g => Apart f.block g.block) :=
    List.pairwise_map.mp ((scan_pairwise h.scan).1.imp Or.inl)
  by_contra hne
  have hboth := happart.forall hf hg hne
  simp only [Apart, stop, CloudFields.block] at hboth
  omega

/-- Two of them have two offsets. -/
theorem Cut.eq_of_index (h : Cut ts total 0 fields) (hf : f ∈ fields) (hg : g ∈ fields)
    (hindex : f.index.toNat = g.index.toNat) : f = g := by
  have hfpos := f.points_pos
  have hgpos := g.points_pos
  exact h.eq_of_common hf hg ⟨Nat.le_refl _, by omega⟩ ⟨by omega, by omega⟩

theorem Cut.nodup (h : Cut ts total 0 fields) : fields.Nodup := by
  have happart : fields.Pairwise (fun f g => stop f.block ≤ g.block.1) :=
    List.pairwise_map.mp (scan_pairwise h.scan).1
  refine happart.imp (fun {f g} hstop heq => ?_)
  have hpos := f.points_pos
  rw [← heq] at hstop
  simp only [stop, CloudFields.block] at hstop
  omega

/-- **The gaps of a frame.** Ranges in order, which are those of some of the datagrams, leave the points of
    the others. -/
theorem Cut.gaps_iff (h : Cut ts total 0 fields) {got : CloudFields → Prop} {ranges : List (Nat × Nat)}
    (hranges : ∀ r, r ∈ ranges ↔ ∃ f ∈ fields, got f ∧ r = (f.index.toNat, f.points.length))
    (hsorted : ranges.Pairwise (fun x y => x.1 < y.1)) :
    (∀ i, (∃ g ∈ coverageGaps total.toNat 0 ranges, g.1 ≤ i ∧ i < g.2) ↔
      ∃ f ∈ fields, ¬ got f ∧ f.index.toNat ≤ i ∧ i < f.index.toNat + f.points.length) ∧
    (coverageGaps total.toNat 0 ranges = [] ↔ ∀ f ∈ fields, got f) := by
  have hordered : ranges.Pairwise (fun x y => x.1 + x.2 ≤ y.1) := by
    refine hsorted.imp_of_mem (fun {x y} hx hy hlt => ?_)
    obtain ⟨f, hf, -, rfl⟩ := (hranges x).mp hx
    obtain ⟨g, hg, -, rfl⟩ := (hranges y).mp hy
    dsimp only at hlt ⊢
    by_contra hover
    have hpos := g.points_pos
    obtain rfl := h.eq_of_common hf hg (i := g.index.toNat) ⟨by omega, by omega⟩ ⟨by omega, by omega⟩
    exact Nat.lt_irrefl _ hlt
  have hwithin : ∀ r ∈ ranges, 0 ≤ r.1 ∧ r.1 + r.2 ≤ total.toNat := by
    intro r hr
    obtain ⟨f, hf, -, rfl⟩ := (hranges r).mp hr
    exact ⟨Nat.zero_le _, h.within hf⟩
  obtain ⟨hproper, hcover⟩ := coverageGaps_cover hordered hwithin (Nat.zero_le _)
  have hlost : ∀ i, (∃ g ∈ coverageGaps total.toNat 0 ranges, g.1 ≤ i ∧ i < g.2) ↔
      ∃ f ∈ fields, ¬ got f ∧ f.index.toNat ≤ i ∧ i < f.index.toNat + f.points.length := by
    intro i
    rw [hcover]
    constructor
    · rintro ⟨⟨-, hlt⟩, hnone⟩
      obtain ⟨f, hf, hin⟩ := h.covers (Nat.zero_le i) hlt
      exact ⟨f, hf, fun hgot => hnone _ ((hranges _).mpr ⟨f, hf, hgot, rfl⟩) hin, hin⟩
    · rintro ⟨f, hf, hmissing, hin⟩
      refine ⟨⟨Nat.zero_le i, Nat.lt_of_lt_of_le hin.2 (h.within hf)⟩, fun r hr hinr => ?_⟩
      obtain ⟨g, hg, hgot, rfl⟩ := (hranges r).mp hr
      exact hmissing (h.eq_of_common hf hg hin hinr ▸ hgot)
  refine ⟨hlost, fun hnone f hf => ?_, fun hall => List.eq_nil_iff_forall_not_mem.mpr (fun g hg => ?_)⟩
  · by_contra hmissing
    have hpos := f.points_pos
    obtain ⟨g, hg, -⟩ := (hlost f.index.toNat).mpr ⟨f, hf, hmissing, Nat.le_refl _, by omega⟩
    rw [hnone] at hg
    exact List.not_mem_nil hg
  · obtain ⟨f, hf, hmissing, -⟩ := (hlost g.1).mp ⟨g, hg, Nat.le_refl _, hproper g hg⟩
    exact hmissing (hall f hf)

/-! ### Payloads -/

/-- What the tool records of a datagram. -/
def CloudFields.sample (f : CloudFields) : CloudSample where
  ts := f.timestampNs.toNat
  total := f.total.toNat
  idx := f.index.toNat
  pos := f.points.length

/-- The payload is a datagram with these fields, of the length that the tool asks for. -/
def Carrying (f : CloudFields) (pl : List UInt8) : Prop :=
  ∃ d : CloudDatagram, d.fields = f ∧ d.encode = pl ∧ pl.length = 1422

/-- It has one value of the fields. -/
theorem Carrying.unique (h : Carrying f pl) (h' : Carrying g pl) : f = g := by
  obtain ⟨d, hd, hpl, -⟩ := h
  obtain ⟨d', hd', hpl', -⟩ := h'
  exact (Reads.unique (reads_iff.mpr ⟨d, rfl, hd, hpl⟩) (reads_iff.mpr ⟨d', rfl, hd', hpl'⟩)).2

/-- **The tool reads the fields.** -/
theorem Carrying.analyzed (h : Carrying f pl) : analyzeCloudPayload pl = some f.sample := by
  obtain ⟨d, rfl, hpl, hlen⟩ := h
  have hreads : Reads d.header d.fields pl := reads_iff.mpr ⟨d, rfl, rfl, hpl⟩
  -- at this length the header is packed
  have hheader : d.header = .packed := by
    have hlength := hreads.length
    cases hd : d.header with
    | packed => rfl
    | aligned =>
      rw [hd] at hlength
      simp only [HeaderStyle.layout, alignedCloud] at hlength
      omega
  rw [hheader] at hreads
  have hmarked : marked pl = true := (marked_iff (by omega)).mpr ⟨hreads.head, hreads.tail⟩
  rw [analyzeCloudPayload, if_pos ⟨hlen, hmarked⟩]
  have hts : value (slice 2 8 pl) = d.fields.timestampNs.toNat := by
    rw [← readU64LE_toNat (by omega)]
    exact congrArg UInt64.toNat hreads.timestampNs
  have htotal : value (slice 10 4 pl) = d.fields.total.toNat := by
    rw [← readU32LE_toNat (by omega)]
    exact congrArg UInt32.toNat hreads.total
  have hindex : value (slice 14 4 pl) = d.fields.index.toNat := by
    rw [← readU32LE_toNat (by omega)]
    exact congrArg UInt32.toNat hreads.index
  have hpos : value (slice 18 2 pl) = d.fields.points.length := by
    rw [← readU16LE_toNat (by omega)]
    exact hreads.posNum
  rw [hts, htotal, hindex, hpos]
  rfl

end frame

/-! ### A capture -/

/-- The payload that the receive thread takes. -/
def Receiver.Action.payload : Receiver.Action ι → Option (List UInt8)
  | .receive datagram _ => datagram
  | _ => none

/-- The payloads that the receive thread takes in these steps, in their order. -/
def received (as : List (Receiver.Action ι)) : List (List UInt8) := as.filterMap Receiver.Action.payload

/-- A payload of another frame or of none, for the tool and for the driver. -/
def Foreign (setup : Setup) (ts : UInt64) (pl : List UInt8) : Prop :=
  (∀ sample ∈ analyzeCloudPayload pl, sample.ts ≠ ts.toNat) ∧
    ((parsePointCloudPacket setup.pointDoubles pl setup.config.toLidarParseConfig).ok = true →
      (parsePointCloudPacket setup.pointDoubles pl setup.config.toLidarParseConfig).timestampNs ≠ ts)

/-- Payloads: datagrams of a frame, in any order and with copies, and others. -/
def Captured (setup : Setup) (ts : UInt64) (fields : List CloudFields) (capture : List (List UInt8)) : Prop :=
  ∀ pl ∈ capture, (∃ f ∈ fields, Carrying f pl) ∨ Foreign setup ts pl

/-- A datagram is in the capture. -/
def Heard (capture : List (List UInt8)) (f : CloudFields) : Prop := ∃ pl ∈ capture, Carrying f pl

section capture

variable {ts : UInt64} {total : UInt32} {fields : List CloudFields} {f : CloudFields}
  {capture : List (List UInt8)}

/-- The samples of the frame are those of the datagrams in the capture. -/
theorem mem_sampleFrame (hcut : Cut ts total 0 fields) (hcapture : Captured setup ts fields capture)
    (hfirst : (capture.filterMap analyzeCloudPayload).head?.map CloudSample.ts = some ts.toNat)
    (sample : CloudSample) : sample ∈ sampleFrame capture ↔
      ∃ f ∈ fields, Heard capture f ∧ sample = f.sample := by
  have hmem : sample ∈ sampleFrame capture ↔
      sample ∈ capture.filterMap analyzeCloudPayload ∧ sample.ts = ts.toNat := by
    unfold sampleFrame
    cases hsamples : capture.filterMap analyzeCloudPayload with
    | nil => simp
    | cons first rest =>
      rw [hsamples] at hfirst
      have hts : first.ts = ts.toNat := Option.some.inj hfirst
      dsimp only
      rw [List.mem_cons, List.mem_filter, List.mem_cons, beq_iff_eq, hts]
      constructor
      · rintro (rfl | ⟨hrest, heq⟩)
        · exact ⟨Or.inl rfl, hts⟩
        · exact ⟨Or.inr hrest, heq⟩
      · rintro ⟨rfl | hrest, heq⟩
        · exact Or.inl rfl
        · exact Or.inr ⟨hrest, heq⟩
  rw [hmem]
  constructor
  · rintro ⟨hsample, hts⟩
    obtain ⟨pl, hpl, hread⟩ := List.mem_filterMap.mp hsample
    rcases hcapture pl hpl with ⟨f, hf, hcarrying⟩ | hforeign
    · rw [hcarrying.analyzed] at hread
      exact ⟨f, hf, ⟨pl, hpl, hcarrying⟩, (Option.some.inj hread).symm⟩
    · exact absurd hts (hforeign.1 sample hread)
  · rintro ⟨f, hf, ⟨pl, hpl, hcarrying⟩, rfl⟩
    refine ⟨List.mem_filterMap.mpr ⟨pl, hpl, hcarrying.analyzed⟩, ?_⟩
    exact congrArg UInt64.toNat (hcut.each f hf).1

/-- **The tool's report.** The gaps are the points of the datagrams that are not in the capture. -/
theorem analyzeCloud_gaps (hcut : Cut ts total 0 fields) (hcapture : Captured setup ts fields capture)
    (hfirst : (capture.filterMap analyzeCloudPayload).head?.map CloudSample.ts = some ts.toNat) :
    ∃ report, analyzeCloud capture = some report ∧
      (∀ i, (∃ g ∈ report.gaps, g.1 ≤ i ∧ i < g.2) ↔
        ∃ f ∈ fields, ¬ Heard capture f ∧ f.index.toNat ≤ i ∧ i < f.index.toNat + f.points.length) ∧
      (report.gaps = [] ↔ ∀ f ∈ fields, Heard capture f) := by
  have hframe := mem_sampleFrame hcut hcapture hfirst
  have hitem : ∀ e, e ∈ (sampleFrame capture).map (fun sample => (sample.idx, sample.pos)) ↔
      ∃ f ∈ fields, Heard capture f ∧ e = (f.index.toNat, f.points.length) := by
    intro e
    rw [List.mem_map]
    constructor
    · rintro ⟨sample, hsample, rfl⟩
      obtain ⟨f, hf, hheard, rfl⟩ := (hframe sample).mp hsample
      exact ⟨f, hf, hheard, rfl⟩
    · rintro ⟨f, hf, hheard, rfl⟩
      exact ⟨f.sample, (hframe _).mpr ⟨f, hf, hheard, rfl⟩, rfl⟩
  unfold analyzeCloud
  cases hsamples : sampleFrame capture with
  | nil =>
    unfold sampleFrame at hsamples
    cases hall : capture.filterMap analyzeCloudPayload with
    | nil =>
      rw [hall] at hfirst
      exact nomatch hfirst
    | cons first rest =>
      rw [hall] at hsamples
      exact nomatch hsamples
  | cons first rest =>
    rw [hsamples] at hitem hframe
    have htotal : first.total = total.toNat := by
      obtain ⟨f, hf, -, rfl⟩ := (hframe first).mp List.mem_cons_self
      exact congrArg UInt32.toNat (hcut.each f hf).2
    -- a datagram and its copies are one item
    have hsame : ∀ e ∈ (first :: rest).map (fun sample => (sample.idx, sample.pos)),
        ∀ e' ∈ (first :: rest).map (fun sample => (sample.idx, sample.pos)), e.1 = e'.1 → e = e' := by
      intro e he e' he' hkey
      obtain ⟨f, hf, -, rfl⟩ := (hitem e).mp he
      obtain ⟨g, hg, -, rfl⟩ := (hitem e').mp he'
      rw [hcut.eq_of_index hf hg hkey]
    obtain ⟨hranges, hsorted⟩ := sortedItems_dictOf hsame
    simp only [hitem] at hranges
    refine ⟨_, rfl, ?_⟩
    dsimp only
    rw [htotal]
    exact hcut.gaps_iff hranges hsorted

/-! ### The driver -/

/-- A payload that is not about the frame. -/
theorem Foreign.calls {pl : List UInt8} (h : Foreign setup ts pl) (now : Time) :
    ∀ b ∈ Receiver.Action.calls (ι := ι) setup (.receive (some pl) now), b.timestamp ≠ some ts := by
  intro b hb
  unfold Receiver.Action.calls at hb
  dsimp only at hb
  split_ifs at hb with hok
  · rw [List.mem_singleton.mp hb]
    exact fun heq => h.2 hok (Option.some.inj heq)
  · exact absurd hb List.not_mem_nil

/-- A foreign payload is no datagram of the frame. -/
theorem Foreign.not_carrying {pl : List UInt8} (h : Foreign setup ts pl) (hts : f.timestampNs = ts) :
    ¬ Carrying f pl := by
  intro hcarrying
  exact h.1 f.sample hcarrying.analyzed (congrArg UInt64.toNat hts)

/-- A step that takes no payload is not about the frame. -/
theorem Receiver.Action.calls_of_payload_none (h : a.payload = none) :
    ∀ b ∈ a.calls setup, b.timestamp ≠ some ts := by
  cases a with
  | receive datagram now =>
    obtain rfl : datagram = none := h
    simp [Receiver.Action.calls]
  | expire now => simp [Receiver.Action.calls, Lidar.Action.timestamp]
  | _ => simp [Receiver.Action.calls]

/-- The steps that take a payload. -/
theorem Receiver.Action.payload_eq_some {pl : List UInt8} (h : a.payload = some pl) :
    ∃ now, a = .receive (some pl) now := by
  cases a with
  | receive datagram now =>
    obtain rfl : datagram = some pl := h
    exact ⟨now, rfl⟩
  | _ => exact nomatch h

/-- What is heard after one more payload, when that is none of the datagrams. -/
theorem forall_heard_cons {pl : List UInt8} {missing : List CloudFields}
    (hnot : ∀ f ∈ missing, ¬ Carrying f pl) :
    (∀ f ∈ missing, Heard (pl :: capture) f) ↔ ∀ f ∈ missing, Heard capture f := by
  refine forall₂_congr fun f hf => ?_
  unfold Heard
  rw [List.exists_mem_cons_iff]
  exact or_iff_right (hnot f hf)

/-- And when it is one of them. -/
theorem forall_heard_cons_new {pl : List UInt8} {before after : List CloudFields} (hcarrying : Carrying f pl)
    (hnew : f ∉ before ++ after) :
    (∀ g ∈ before ++ f :: after, Heard (pl :: capture) g) ↔ ∀ g ∈ before ++ after, Heard capture g := by
  have hmiddle : (before ++ f :: after).Perm (f :: (before ++ after)) := List.perm_middle
  have hfirst : Heard (pl :: capture) f := ⟨_, List.mem_cons_self, hcarrying⟩
  simp only [hmiddle.mem_iff, List.forall_mem_cons, hfirst, true_and]
  exact forall_heard_cons fun g hg hg' => hnew (hg'.unique hcarrying ▸ hg)

/-- What the entry of a timestamp returns for the steps, when these are missing of a frame: the whole frame,
    maybe more than once, if all of them are heard, and nothing else. -/
def ReturnsIfHeard (F : PointCloudFrame) (missing : List CloudFields) (capture : List (List UInt8))
    (frames : List PointCloudFrame) : Prop :=
  (∀ frame ∈ frames, frame = F) ∧ (frames ≠ [] ↔ ∀ f ∈ missing, Heard capture f)

/-- **Run lemma.** From an entry that holds some of the frame, the payloads bring the whole frame or none. -/
theorem captured_entryFrames {config : AssemblerConfig}
    (hscales : validateScales setup.config.toLidarParseConfig = true)
    (hfinite : ∀ n, (setup.pointDoubles.scaled n setup.config.pointPositionScale).isFinite = true)
    (hnumber : ∀ x, x.isFinite = true → (setup.pointDoubles.toFloat x).isNaN = false)
    (htotal : total ≠ 0) (hcut : Cut ts total 0 fields)
    (htiling : Tiling config ts total.toUInt64 (fields.map setup.packet)) (as : List (Receiver.Action ι)) :
    Captured setup ts fields (received as) → (∀ a ∈ as, InTime config t₀ a) →
      ∀ (seen missing : List CloudFields) (entry : Option FrameSlot), (seen ++ missing).Perm fields →
      missing ≠ [] → HoldsSeen ts total.toUInt64 (seen.map setup.packet) entry →
      (∀ x ∈ entry, t₀ ≤ x.activatedAt) →
      ReturnsIfHeard (frameOf ts total.toUInt64 (fields.map setup.packet)) missing (received as)
        (entryFrames config ts entry (as.flatMap (Receiver.Action.calls setup))) := by
  induction as with
  | nil =>
    intro _ _ seen missing entry _ hmissing _ _
    refine ⟨fun frame hframe => absurd hframe List.not_mem_nil, fun h => absurd rfl h, fun hall => ?_⟩
    obtain ⟨f, rest, rfl⟩ := List.exists_cons_of_ne_nil hmissing
    obtain ⟨pl, hpl, -⟩ := hall f List.mem_cons_self
    exact absurd hpl List.not_mem_nil
  | cons a as ih =>
    intro hcaptured htime seen missing entry hperm hmissing hholds hage
    obtain ⟨ha, htail⟩ := List.forall_mem_cons.mp htime
    have hof : ∀ f ∈ missing, f ∈ fields := fun f hf => hperm.mem_iff.mp (List.mem_append_right _ hf)
    rw [List.flatMap_cons]
    cases hpayload : a.payload with
    | none =>
      have hsame : received (a :: as) = received as := List.filterMap_cons_none hpayload
      rw [hsame] at hcaptured ⊢
      rw [entryFrames_other_step (a.calls_of_payload_none hpayload) ha hage]
      exact ih hcaptured htail seen missing entry hperm hmissing hholds hage
    | some pl =>
      obtain ⟨now, rfl⟩ := a.payload_eq_some hpayload
      have hsplit : received (.receive (some pl) now :: as) = pl :: received as :=
        List.filterMap_cons_some hpayload
      rw [hsplit] at hcaptured ⊢
      obtain ⟨hpl, hrest⟩ := List.forall_mem_cons.mp hcaptured
      rcases hpl with ⟨f, hf, d, rfl, rfl, hlen⟩ | hforeign
      · have hcarrying : Carrying d.fields d.encode := ⟨d, rfl, rfl, hlen⟩
        rcases List.mem_append.mp (hperm.mem_iff.mpr hf) with hseen | hmiss
        · -- a copy, of none that is missing
          have hnot : ∀ g ∈ missing, ¬ Carrying g d.encode := by
            intro g hg hcarrying'
            rw [hcarrying'.unique hcarrying] at hg
            exact List.disjoint_of_nodup_append (hperm.nodup_iff.mpr hcut.nodup) hseen hg
          rw [entryFrames_copy hscales hfinite htiling hnumber d now hf hseen hholds, ReturnsIfHeard,
            forall_heard_cons hnot]
          exact ih hrest htail seen missing entry hperm hmissing hholds hage
        · -- a new one, the last or not
          obtain ⟨before, after, rfl⟩ := List.append_of_mem hmiss
          have hperm' : (seen ++ d.fields :: (before ++ after)).Perm fields :=
            (List.Perm.append_left seen List.perm_middle.symm).trans hperm
          have hnodup := (List.nodup_append.mp (hperm'.nodup_iff.mpr hcut.nodup)).2.1
          obtain ⟨entry', hstep, hafter, hage'⟩ :=
            entryFrames_new hscales hfinite htiling d ha hperm' hholds hage
          rw [hstep, ReturnsIfHeard, forall_heard_cons_new hcarrying (List.nodup_cons.mp hnodup).1]
          by_cases hlast : before ++ after = []
          · -- nothing of the frame stays, so all of it is missing
            rw [if_pos hlast] at hafter ⊢
            obtain ⟨hwhole, -⟩ := ih hrest htail [] fields entry' .rfl (hcut.ne_nil htotal) hafter hage'
            rw [hlast]
            exact ⟨List.forall_mem_cons.mpr ⟨rfl, hwhole⟩, by simp⟩
          · rw [if_neg hlast] at hafter ⊢
            exact ih hrest htail (d.fields :: seen) (before ++ after) entry'
              (List.perm_middle.symm.trans hperm') hlast hafter hage'
      · -- not about the frame
        rw [entryFrames_other_step (hforeign.calls now) ha hage, ReturnsIfHeard,
          forall_heard_cons fun g hg => hforeign.not_carrying (hcut.each g (hof g hg)).1]
        exact ih hrest htail seen missing entry hperm hmissing hholds hage

/-- **The gaps are the losses.** A frame is cut into datagrams of 1 to 50 points, within the limits of the
    configuration.  The receive thread takes payloads: packed datagrams of the frame of 1422 bytes, with
    losses, in any order and with copies, and others that are not about it, while other threads call
    `start()` and `stop()`; nothing of the frame is there before, they come within less than the frame
    timeout, there are slots for all timestamps, and the frame is the first that the tool records of these
    payloads.  Then the tool's gaps are the points of the datagrams that are lost; and the receive thread
    calls back with the frame if and only if the tool finds no gap, each time with the whole frame. -/
theorem coverage_gaps_are_the_losses [DecidableEq ι] (hkind : setup.kind = .pointCloud)
    (hsink : setup.onFrame = true) (hscales : validateScales setup.config.toLidarParseConfig = true)
    (hfinite : ∀ n, (setup.pointDoubles.scaled n setup.config.pointPositionScale).isFinite = true)
    (hnumber : ∀ x, x.isFinite = true → (setup.pointDoubles.toFloat x).isNaN = false)
    (T : Finset UInt64) (hrun : Receiver.Run setup s) (hpath : Path (step setup) s as s')
    (htotal : total ≠ 0) (hcut : Cut ts total 0 fields)
    (hpoints : total.toNat ≤ setup.assemblerConfig.maxPointsPerFrame)
    (hpackets : fields.length ≤ setup.assemblerConfig.maxPacketsPerFrame)
    (hcapture : Captured setup ts fields (received as))
    (hfirst : ((received as).filterMap analyzeCloudPayload).head?.map CloudSample.ts = some ts.toNat)
    (hfresh : s.assembler.findSlot ts = none) (htime : ∀ a ∈ as, InTime setup.assemblerConfig t₀ a)
    (hopen : ∀ x ∈ s.assembler.slots, x.active = true → x.timestampNs ∈ T)
    (hothers : ∀ a ∈ as, ∀ b ∈ a.calls setup, ∀ ts ∈ b.timestamp, ts ∈ T)
    (hroom : T.card ≤ s.assembler.slots.length) :
    ∃ report, analyzeCloud (received as) = some report ∧
      (∀ i, (∃ g ∈ report.gaps, g.1 ≤ i ∧ i < g.2) ↔
        ∃ f ∈ fields, ¬ Heard (received as) f ∧ f.index.toNat ≤ i ∧
          i < f.index.toNat + f.points.length) ∧
      ∃ frames, s'.delivered.filter (fun frame => frame.timestampNs == ts) =
          frames ++ s.delivered.filter (fun frame => frame.timestampNs == ts) ∧
        (∀ frame ∈ frames, frame = setup.frame ts total fields) ∧
        (frames ≠ [] ↔ report.gaps = []) := by
  obtain ⟨report, hreport, hgaps, hnone⟩ := analyzeCloud_gaps hcut hcapture hfirst
  have hfields := hcut.ne_nil htotal
  have hlimit : 1 ≤ setup.assemblerConfig.maxPacketsPerFrame :=
    Nat.le_trans (List.length_pos_iff.mpr hfields) hpackets
  have htiling := hcut.tiling_created htotal hpoints hpackets
  obtain ⟨hwhole, hsome⟩ := captured_entryFrames hscales hfinite hnumber htotal hcut htiling as hcapture
    (fun a ha => (htime a ha).created) [] fields none .rfl hfields rfl (by simp)
  refine ⟨report, hreport, hgaps, _,
    hrun.delivered_of_entry hkind hsink hlimit T hpath hfresh hopen hothers hroom, fun frame hframe => ?_, ?_⟩
  · rw [← setup.frameOf_eq]
    exact hwhole frame (List.mem_reverse.mp hframe)
  · rw [hnone, ← hsome, ne_eq, List.reverse_eq_nil_iff]

end capture

/-- The datagram at the end of the frame of three points, as the tool asks for it. -/
def metreLast : CloudDatagram :=
  { metreBefore with
    tail := .fixed50
    fields := metreAhead.fields
    beforeTail := List.replicate 1372 0
    beforeTail_length := List.length_replicate }

/-- And the one at its start. -/
def metreFirst : CloudDatagram :=
  { metreBefore with
    tail := .fixed50
    beforeTail := List.replicate 1344 0
    beforeTail_length := List.length_replicate }

/-- The last datagram comes first, and twice, with a datagram that is none between; the first one comes at
    the end. -/
def metreCapture : List (Receiver.Action Unit) :=
  [.start (.external ()) (some 7), .wake, .receive (some metreLast.encode) 10, .expire 20, .wake,
    .receive (some [0x55, 0xAA]) 30, .expire 40, .wake, .receive (some metreLast.encode) 50, .expire 60,
    .wake, .receive none 110, .expire 110, .wake, .receive (some metreFirst.encode) 120]

/-- The tool finds no gap, and the frame is called back with. -/
theorem coverage_gaps_are_the_losses_metre : ∃ (s' : Receiver Unit) (report : CloudReport),
    Path (step metreSetup) { assembler := .create {} } metreCapture s' ∧
      analyzeCloud (received metreCapture) = some report ∧ report.gaps = [] ∧
      ∃ frames, s'.delivered.filter (fun frame => frame.timestampNs == 7) = frames ++ [] ∧
        (∀ frame ∈ frames, frame = metreSetup.frame 7 3 [metreBefore.fields, metreAhead.fields]) ∧
        frames ≠ [] := by
  obtain ⟨s', hex⟩ : ∃ s', execGuarded (step metreSetup) (fun _ _ => True) metreCapture
      { assembler := .create {} } = some s' := Option.isSome_iff_exists.mp (by decide +kernel)
  have hpath := path_of_execGuarded metreCapture hex
  have hlast : Carrying metreAhead.fields metreLast.encode := ⟨metreLast, rfl, rfl, by decide +kernel⟩
  have hfirst : Carrying metreBefore.fields metreFirst.encode := ⟨metreFirst, rfl, rfl, by decide +kernel⟩
  have hnone : Foreign metreSetup 7 [0x55, 0xAA] :=
    ⟨by decide +kernel, fun hok => absurd hok (by decide +kernel)⟩
  have hcapture : Captured metreSetup 7 [metreBefore.fields, metreAhead.fields] (received metreCapture) := by
    intro pl hpl
    have hpls : pl ∈ [metreLast.encode, [0x55, 0xAA], metreLast.encode, metreFirst.encode] := hpl
    simp only [List.mem_cons, List.not_mem_nil, or_false] at hpls
    rcases hpls with rfl | rfl | rfl | rfl
    · exact Or.inl ⟨_, by simp, hlast⟩
    · exact Or.inr hnone
    · exact Or.inl ⟨_, by simp, hlast⟩
    · exact Or.inl ⟨_, by simp, hfirst⟩
  have hcut : Cut 7 3 0 [metreBefore.fields, metreAhead.fields] := ⟨rfl, rfl, rfl, rfl, rfl, rfl, rfl⟩
  have htime : ∀ a ∈ metreCapture, InTime {} 0 a := by
    unfold metreCapture
    simp [InTime]
  have hstamps : ∀ b ∈ metreCapture.flatMap (Receiver.Action.calls metreSetup), ∀ ts ∈ b.timestamp,
      ts ∈ ({7} : Finset UInt64) := timestamps_of_all (by decide +kernel)
  obtain ⟨report, hreport, -, frames, hdelivered, hwhole, hsome⟩ := coverage_gaps_are_the_losses rfl rfl
    (by decide +kernel) (fun n => metreArithmetic_finite n _) (fun x _ => metreArithmetic_number x) {7} .refl
    hpath (by decide) hcut (by decide) (by decide) hcapture (by decide +kernel) (by decide) htime (by decide)
    (fun a ha b hb => hstamps b (List.mem_flatMap.mpr ⟨a, ha, hb⟩)) (by decide)
  have hgaps : (analyzeCloud (received metreCapture)).map CloudReport.gaps = some [] := by decide +kernel
  rw [hreport, Option.map_some, Option.some.injEq] at hgaps
  exact ⟨s', report, hpath, hreport, hgaps, frames, hdelivered, hwhole, hsome.mpr hgaps⟩

/-- Without the first datagram, its two points are a gap. -/
example : (analyzeCloud (received metreCapture.dropLast)).map CloudReport.gaps = some [(0, 2)] := by
  decide +kernel

end HypertronBridge.Lidar
