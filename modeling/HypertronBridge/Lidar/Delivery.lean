import HypertronBridge.Lib.Ranking
import HypertronBridge.Lidar.Completion
import HypertronBridge.Lidar.Format
import HypertronBridge.Lidar.Isolation
import HypertronBridge.Lidar.Reassembly
import HypertronBridge.Lidar.Receiver

namespace HypertronBridge.Lidar

open TransitionSystem Receiver

/-!
# From the wire to the callback

A sender cuts a frame into datagrams, in any of the formats, and the network delivers them in any order, with
copies, between those of other frames and datagrams that are none.  The receive thread calls back with the
frame once, when the last of them has come, while other threads call `start()` and `stop()`.

* `Action.calls`, `Path.refines` — what the receive thread asks of the assembler, and that its callbacks are
  the frames that the assembler returns;
* `CloudFields.packet`, `Cut` — the packet of a datagram, and the datagrams of a frame;
* `Carries` — the steps in which they come;
* `entryFrames_new`, `entryFrames_copy`, `entryFrames_other_step` — what one step does to the frame's entry;
* `cloud_is_delivered` — the result.
-/

universe u

variable {ι : Type u} {setup : Setup} {s s' : Receiver ι} {a : Receiver.Action ι}
  {as : List (Receiver.Action ι)} {config : AssemblerConfig} {ts : UInt64} {now t₀ : Time}

/-! ### The receive thread and the assembler -/

/-- The assembler after some calls. -/
def Assembler.after (s : Assembler) (calls : List Lidar.Action) : Assembler :=
  calls.foldl (fun s b => (s.call b).2) s

/-- The frames that calls return, in order. -/
def Assembler.emitted (s : Assembler) (calls : List Lidar.Action) : List PointCloudFrame :=
  (s.returned (calls.map (fun b => (b, 0)))).map Prod.snd

theorem Assembler.emitted_append (s : Assembler) (calls calls' : List Lidar.Action) :
    s.emitted (calls ++ calls') = s.emitted calls ++ (s.after calls).emitted calls' := by
  induction calls generalizing s with
  | nil => rfl
  | cons b calls ih =>
    have hrest := ih (s.call b).2
    unfold Assembler.emitted at hrest ⊢
    rw [List.cons_append, List.map_cons, Assembler.returned, List.map_append, hrest, List.map_cons,
      Assembler.returned, List.map_append, List.append_assoc]
    rfl

namespace Receiver

/-- What a step of the point-cloud loop asks of the assembler. -/
def Action.calls (setup : Setup) : Action ι → List Lidar.Action
  | .receive (some buffer) now =>
      let parsed := parsePointCloudPacket setup.pointDoubles buffer setup.config.toLidarParseConfig
      if parsed.ok then [.addPacket parsed now] else []
  | .expire now => [.expire now]
  | _ => []

/-- The frame that a callback starts with. -/
def Event.frame : Event ι → Option PointCloudFrame
  | .callbackStarted (.frame frame) => some frame
  | _ => none

/-- The frames of the callbacks so far, newest first. -/
def delivered (s : Receiver ι) : List PointCloudFrame := s.history.filterMap Event.frame

/-- One call. -/
theorem emitted_singleton (s : Assembler) (b : Lidar.Action) :
    s.emitted [b] = (s.call b).1.toList := by
  unfold Assembler.emitted
  rw [List.map_singleton, Assembler.returned, Assembler.returned, List.append_nil]
  cases (s.call b).1 <;> rfl

/-- **Step lemma, a datagram.** What the assembler returns is called back with, and nothing else is. -/
theorem onDatagram_refines (hkind : setup.kind = .pointCloud) (hsink : setup.onFrame = true)
    (buffer : List UInt8) (now : Time) :
    (s.onDatagram setup buffer now).assembler =
        s.assembler.after (Action.calls (ι := ι) setup (.receive (some buffer) now)) ∧
      (s.onDatagram setup buffer now).delivered =
        (s.assembler.emitted (Action.calls (ι := ι) setup (.receive (some buffer) now))).reverse ++
          s.delivered := by
  unfold onDatagram Action.calls
  rw [hkind]
  dsimp only
  split_ifs with hok
  · rw [emitted_singleton]
    show _ = (s.assembler.addPacket _ now).2 ∧ _ = ((s.assembler.addPacket _ now).1.toList).reverse ++ _
    generalize s.assembler.addPacket _ now = result
    obtain ⟨frame, assembler⟩ := result
    cases frame with
    | none => exact ⟨rfl, rfl⟩
    | some frame => exact ⟨rfl, rfl⟩
  · unfold warn
    split_ifs
    · exact ⟨rfl, rfl⟩
    · exact ⟨rfl, rfl⟩

/-- **Step lemma.** -/
theorem step_refines [DecidableEq ι] (hkind : setup.kind = .pointCloud) (hsink : setup.onFrame = true)
    (hs : step setup a s = some s') :
    s'.assembler = s.assembler.after (a.calls setup) ∧
      s'.delivered = (s.assembler.emitted (a.calls setup)).reverse ++ s.delivered := by
  cases a with
  | receive datagram now =>
    simp only [step] at hs
    split at hs
    · split at hs
      · obtain rfl := Option.some.inj hs
        exact onDatagram_refines hkind hsink _ now
      · obtain rfl := Option.some.inj hs
        exact ⟨rfl, rfl⟩
    · exact absurd hs (by simp)
  | start caller created =>
    simp only [step, start] at hs
    repeat' split at hs
    all_goals simp only [Option.some.injEq, reduceCtorEq] at hs
    all_goals subst hs
    all_goals exact ⟨rfl, rfl⟩
  | request caller me =>
    simp only [step, request] at hs
    repeat' split at hs
    all_goals simp only [Option.some.injEq, reduceCtorEq] at hs
    all_goals subst hs
    all_goals exact ⟨rfl, rfl⟩
  | _ =>
    simp only [step] at hs
    repeat' split at hs
    all_goals simp only [Option.some.injEq, reduceCtorEq] at hs
    all_goals subst hs
    all_goals exact ⟨rfl, rfl⟩

end Receiver

/-- **The receiver refines its assembler.** Over any steps of any threads, the callbacks with frames are what
    the assembler returns for the datagrams that the receive thread takes, in their order. -/
theorem Path.refines [DecidableEq ι] (hkind : setup.kind = .pointCloud) (hsink : setup.onFrame = true)
    (h : Path (step setup) s as s') :
    s'.assembler = s.assembler.after (as.flatMap (Receiver.Action.calls setup)) ∧
      s'.delivered =
        (s.assembler.emitted (as.flatMap (Receiver.Action.calls setup))).reverse ++ s.delivered := by
  induction h with
  | nil => exact ⟨rfl, rfl⟩
  | @cons s s₁ s' a as hs hrest ih =>
    obtain ⟨hassembler, hframes⟩ := step_refines hkind hsink hs
    obtain ⟨hassembler', hframes'⟩ := ih
    rw [List.flatMap_cons, Assembler.emitted_append, List.reverse_append]
    constructor
    · rw [hassembler', hassembler]
      unfold Assembler.after
      rw [List.foldl_append]
    · rw [hframes', hframes, hassembler, List.append_assoc]

/-! ### The datagrams of a frame -/

/-- The packet that these fields are parsed to. -/
def CloudFields.packet (fp : DoubleArithmetic) (config : LidarParseConfig) (f : CloudFields) :
    PointCloudPacketResult where
  ok := true
  timestampNs := f.timestampNs
  total := f.total.toUInt64
  index := f.index
  posNum := UInt16.ofNat f.points.length
  points := f.points.map (RawPoint.scaled fp config)

/-- The datagrams of a frame, by their fields: they follow one another from an offset to the end. -/
def Cut (ts : UInt64) (total : UInt32) : Nat → List CloudFields → Prop
  | i, [] => i = total.toNat
  | i, f :: fs =>
      f.timestampNs = ts ∧ f.total = total ∧ f.index.toNat = i ∧ Cut ts total (i + f.points.length) fs

section parsed

variable {fp : DoubleArithmetic} {parse : LidarParseConfig} {total : UInt32} {fields : List CloudFields}

/-- **A datagram is parsed to its packet**, whatever its format and its padding. -/
theorem CloudDatagram.parsed (d : CloudDatagram) (hscales : validateScales parse = true)
    (hfinite : ∀ n, (fp.scaled n parse.pointPositionScale).isFinite = true) :
    ∃ reason, parsePointCloudPacket fp d.encode parse = { d.fields.packet fp parse with reason } := by
  have hreads : Reads d.header d.fields d.encode := reads_iff.mpr ⟨d, rfl, rfl, rfl⟩
  have hlen : 2 ≤ d.encode.length := by
    have hlength := hreads.length
    omega
  have hknown : d.header.layout.Known := by
    cases d.header
    · exact Or.inl rfl
    · exact Or.inr rfl
  obtain ⟨result, hresult⟩ := (hreads.accepted hfinite).parse hknown hscales hlen hreads.head
  refine ⟨result.reason, ?_⟩
  have hposNum : readU16LE d.encode d.header.layout.posnumAt = UInt16.ofNat d.fields.points.length := by
    have hle := d.fields.points_le
    rw [← UInt16.toNat_inj, hreads.posNum, UInt16.toNat_ofNat_of_lt' (by show _ < 65536; omega)]
  rw [hresult, filled, hreads.timestampNs, hreads.total, hreads.index, hposNum]
  rfl

/-- Its packet is one as the parser returns them. -/
theorem CloudFields.packet_parsed (f : CloudFields)
    (hfinite : ∀ n, (fp.scaled n parse.pointPositionScale).isFinite = true)
    (hnumber : ∀ x, x.isFinite = true → (fp.toFloat x).isNaN = false) : (f.packet fp parse).Parsed where
  ok := rfl
  points_pos := Nat.le_trans f.points_pos (Nat.le_of_eq (List.length_map _).symm)
  points_le := Nat.le_trans (Nat.le_of_eq (List.length_map _)) f.points_le
  numbers := by
    intro point hpoint
    obtain ⟨raw, -, rfl⟩ := List.mem_map.mp hpoint
    exact ⟨hnumber _ (hfinite _), hnumber _ (hfinite _), hnumber _ (hfinite _)⟩

/-- The packets of a cut frame. -/
theorem Cut.tiles {i : Nat} (h : Cut ts total i fields) :
    Tiles ts total.toUInt64 i (fields.map (CloudFields.packet fp parse)) := by
  induction fields generalizing i with
  | nil => exact h
  | cons f fs ih =>
    obtain ⟨hts, htotal, hindex, hrest⟩ := h
    have hlength : (f.packet fp parse).points.length = f.points.length := List.length_map _
    refine ⟨⟨rfl, hlength ▸ f.points_pos, hts, by rw [← htotal]; rfl⟩, hindex, ?_⟩
    rw [hlength]
    exact ih hrest

/-- The datagrams of a frame within the limits. -/
theorem Cut.tiling (h : Cut ts total 0 fields) (htotal : total ≠ 0)
    (hpoints : total.toNat ≤ config.maxPointsPerFrame) (hpackets : fields.length ≤ config.maxPacketsPerFrame) :
    Tiling config ts total.toUInt64 (fields.map (CloudFields.packet fp parse)) := by
  refine ⟨?_, ?_, ?_, h.tiles⟩
  · rw [UInt32.toNat_toUInt64]
    exact Nat.pos_of_ne_zero (fun hzero => htotal (UInt32.toNat_inj.mp hzero))
  · rw [UInt32.toNat_toUInt64]
    exact hpoints
  · rw [List.length_map]
    exact hpackets

/-- A frame with a point has a datagram. -/
theorem Cut.ne_nil (h : Cut ts total 0 fields) (htotal : total ≠ 0) : fields ≠ [] := by
  rintro rfl
  have hzero : 0 = total.toNat := h
  exact htotal (UInt32.toNat_inj.mp hzero.symm)

end parsed

/-- The limits that the constructor keeps. -/
theorem Assembler.create_limits (config : AssemblerConfig) :
    (Assembler.create config).config.maxPointsPerFrame = config.maxPointsPerFrame ∧
      (Assembler.create config).config.maxPacketsPerFrame = config.maxPacketsPerFrame ∧
      (Assembler.create config).config.frameTimeout = config.frameTimeout := by
  unfold Assembler.create
  dsimp only
  split_ifs
  all_goals exact ⟨rfl, rfl, rfl⟩

/-! ### One frame among others -/

/-- The steps of the receiver bring the datagrams `order` of a frame, each once, and copies of datagrams of
    the frame that came before, as long as one is missing; the other steps are not about this frame.  The
    datagrams `missing` do not come. -/
inductive Carries (setup : Setup) (ts : UInt64) (missing : List CloudFields) :
    List CloudFields → List CloudFields → List (Receiver.Action ι) → Prop
  | nil {seen : List CloudFields} : Carries setup ts missing seen [] []
  | next {seen order : List CloudFields} {as : List (Receiver.Action ι)} (d : CloudDatagram) (now : Time)
      (hrest : Carries setup ts missing (d.fields :: seen) order as) :
      Carries setup ts missing seen (d.fields :: order) (.receive (some d.encode) now :: as)
  | copy {seen order : List CloudFields} {as : List (Receiver.Action ι)} (d : CloudDatagram) (now : Time)
      (hseen : d.fields ∈ seen) (hopen : order ++ missing ≠ [])
      (hrest : Carries setup ts missing seen order as) :
      Carries setup ts missing seen order (.receive (some d.encode) now :: as)
  | other {seen order : List CloudFields} {as : List (Receiver.Action ι)} (a : Receiver.Action ι)
      (hother : ∀ b ∈ a.calls setup, b.timestamp ≠ some ts)
      (hrest : Carries setup ts missing seen order as) : Carries setup ts missing seen order (a :: as)

/-- A reading of the clock within less than the frame timeout from `t₀` on. -/
def InTime (config : AssemblerConfig) (t₀ : Time) : Receiver.Action ι → Prop
  | .receive _ now => t₀ ≤ now
  | .expire now => (now : Int) - t₀ < 1000000 * config.frameTimeout
  | _ => True

/-- The frames that calls return for one timestamp, from its entry. -/
def entryFrames (config : AssemblerConfig) (ts : UInt64) (entry : Option FrameSlot)
    (calls : List Lidar.Action) : List PointCloudFrame :=
  (entryReturned config ts entry (calls.map (fun b => (b, 0)))).map Prod.snd

/-- A packet of another frame, and a timeout, return nothing for this one. -/
theorem entryFrames_other (config : AssemblerConfig) (entry : Option FrameSlot) {b : Lidar.Action} (hb : b.timestamp ≠ some ts)
    (calls : List Lidar.Action) : ∃ entry', (entry' = entry ∨ ∃ now, b = .expire now ∧
        entry' = expireStep config now entry) ∧
      entryFrames config ts entry (b :: calls) = entryFrames config ts entry' calls := by
  cases b with
  | addPacket packet now =>
    have hne : packet.timestampNs ≠ ts := fun heq => hb (congrArg some heq)
    refine ⟨entry, Or.inl rfl, ?_⟩
    unfold entryFrames
    rw [List.map_cons, entryReturned, if_neg hne]
  | expire now => exact ⟨_, Or.inr ⟨now, rfl, rfl⟩, rfl⟩

/-- A packet of this frame. -/
theorem entryFrames_own {entry : Option FrameSlot} {packet : PointCloudPacketResult} (now : Time)
    (hts : packet.timestampNs = ts) (calls : List Lidar.Action) :
    entryFrames config ts entry (.addPacket packet now :: calls) =
      (frameStep config packet now entry).1.toList ++
        entryFrames config ts (frameStep config packet now entry).2 calls := by
  unfold entryFrames
  rw [List.map_cons, entryReturned, if_pos hts, List.map_append]
  cases (frameStep config packet now entry).1 <;> rfl

/-- A step asks for at most one call. -/
theorem Receiver.Action.calls_cases (setup : Setup) (a : Receiver.Action ι) :
    a.calls setup = [] ∨ ∃ b, a.calls setup = [b] ∧ ∀ now, b = .expire now → a = .expire now := by
  unfold Receiver.Action.calls
  split
  · dsimp only
    split_ifs
    · exact Or.inr ⟨_, rfl, by simp⟩
    · exact Or.inl rfl
  · exact Or.inr ⟨_, rfl, fun now heq => by rw [Lidar.Action.expire.inj heq]⟩
  · exact Or.inl rfl

/-- The slot of a frame keeps the reading of its activation. -/
theorem frameStep_activatedAt {entry : Option FrameSlot} {packet : PointCloudPacketResult}
    (hentry : ∀ x ∈ entry, t₀ ≤ x.activatedAt) (hnow : t₀ ≤ now) :
    ∀ x ∈ (frameStep config packet now entry).2, t₀ ≤ x.activatedAt := by
  have hbase : t₀ ≤ (entry.getD (.fresh packet.timestampNs now)).activatedAt := by
    cases entry with
    | none => exact hnow
    | some x => exact hentry x rfl
  have hdeclared : ∀ base : FrameSlot, (base.declare packet).activatedAt = base.activatedAt := by
    intro base
    unfold FrameSlot.declare
    split_ifs <;> rfl
  unfold frameStep
  split_ifs
  · exact hentry
  · exact hentry
  · simp
  · generalize entry.getD (.fresh packet.timestampNs now) = base at hbase
    rw [← hdeclared base] at hbase
    unfold FrameSlot.offer
    dsimp only
    split
    · simp
    · cases (base.declare packet).judge config packet with
      | duplicate => exact fun x hx => Option.some.inj hx ▸ hbase
      | reject => exact fun x hx => Option.some.inj hx ▸ hbase
      | conflict => simp
      | accept =>
        dsimp only
        split_ifs
        · exact fun x hx => Option.some.inj hx ▸ hbase
        · simp
        · simp

section frame

variable {fields seen order missing : List CloudFields} {total : UInt64} {entry : Option FrameSlot}

/-- A step that is not about the frame. -/
theorem entryFrames_skip (config : AssemblerConfig) (entry : Option FrameSlot) (hother : ∀ b ∈ a.calls setup, b.timestamp ≠ some ts) (calls : List Lidar.Action) :
    ∃ entry', (entry' = entry ∨ ∃ now, a = .expire now ∧ entry' = expireStep config now entry) ∧
      entryFrames config ts entry (a.calls setup ++ calls) = entryFrames config ts entry' calls := by
  rcases a.calls_cases setup with hcalls | ⟨b, hcalls, hexpire⟩
  · rw [hcalls]
    exact ⟨entry, Or.inl rfl, rfl⟩
  · rw [hcalls] at hother ⊢
    obtain ⟨entry', hentry, hstep⟩ := entryFrames_other config entry
      (hother b List.mem_cons_self) calls
    refine ⟨entry', ?_, hstep⟩
    rcases hentry with hsame | ⟨now, hb, hafter⟩
    · exact Or.inl hsame
    · exact Or.inr ⟨now, hexpire now hb, hafter⟩

/-- When no datagram of the frame comes, none of its frames is returned. -/
theorem Carries.silent (h : Carries (ι := ι) setup ts missing seen order as) (hnone : order ++ missing = []) :
    ∀ entry, entryFrames config ts entry (as.flatMap (Receiver.Action.calls setup)) = [] := by
  induction h with
  | nil => exact fun _ => rfl
  | next => exact absurd hnone (by simp)
  | copy d now hseen hopen => exact absurd hnone hopen
  | @other seen order as a hother hrest ih =>
    intro entry
    obtain ⟨entry', -, hstep⟩ := entryFrames_skip config entry hother
      (as.flatMap (Receiver.Action.calls setup))
    exact hstep.trans (ih hnone entry')

/-- The packet of a datagram's fields, as this receiver parses it. -/
def Receiver.Setup.packet (setup : Setup) : CloudFields → PointCloudPacketResult :=
  CloudFields.packet setup.pointDoubles setup.config.toLidarParseConfig

/-- What a datagram of the frame asks of its entry. -/
theorem entryFrames_datagram (d : CloudDatagram) (now : Time)
    (hscales : validateScales setup.config.toLidarParseConfig = true)
    (hfinite : ∀ n, (setup.pointDoubles.scaled n setup.config.pointPositionScale).isFinite = true)
    (hts : d.fields.timestampNs = ts) (calls : List Lidar.Action) :
    entryFrames config ts entry
        (Receiver.Action.calls (ι := ι) setup (.receive (some d.encode) now) ++ calls) =
      (frameStep config (setup.packet d.fields) now entry).1.toList ++
        entryFrames config ts (frameStep config (setup.packet d.fields) now entry).2 calls := by
  obtain ⟨reason, hparsed⟩ := d.parsed hscales hfinite
  have hcalls : Receiver.Action.calls (ι := ι) setup (.receive (some d.encode) now) =
      [.addPacket { setup.packet d.fields with reason } now] := by
    unfold Receiver.Action.calls
    dsimp only
    rw [hparsed]
    exact if_pos rfl
  -- the reason is no part of what the assembler looks at
  rw [hcalls]
  exact entryFrames_own now hts calls

/-- A step that is not about the frame, in time: a frame that was activated from `t₀` on stays. -/
theorem entryFrames_other_step (hother : ∀ b ∈ a.calls setup, b.timestamp ≠ some ts)
    (ha : InTime config t₀ a) (hage : ∀ x ∈ entry, t₀ ≤ x.activatedAt) (calls : List Lidar.Action) :
    entryFrames config ts entry (a.calls setup ++ calls) = entryFrames config ts entry calls := by
  obtain ⟨entry', hentry, hstep⟩ := entryFrames_skip config entry hother calls
  rw [hstep]
  rcases hentry with rfl | ⟨now, rfl, rfl⟩
  · rfl
  · congr 1
    have htimely : (now : Int) - t₀ < 1000000 * config.frameTimeout := ha
    cases entry with
    | none => rfl
    | some x =>
      refine Option.filter_some_pos ?_
      have hx : (t₀ : Int) ≤ x.activatedAt := Int.ofNat_le.mpr (hage x rfl)
      rw [FrameSlot.outdated, Bool.not_eq_true', decide_eq_false_iff_not]
      omega

section datagrams

variable (hscales : validateScales setup.config.toLidarParseConfig = true)
  (hfinite : ∀ n, (setup.pointDoubles.scaled n setup.config.pointPositionScale).isFinite = true)
  (htiling : Tiling config ts total (fields.map setup.packet))

include hscales hfinite htiling

/-- **Step lemma, a new datagram.** The last one that is missing completes the frame, and nothing of it
    stays. -/
theorem entryFrames_new (d : CloudDatagram) (hnow : t₀ ≤ now) (hperm : (seen ++ d.fields :: order).Perm fields)
    (hholds : HoldsSeen ts total (seen.map setup.packet) entry) (hage : ∀ x ∈ entry, t₀ ≤ x.activatedAt) :
    ∃ entry', (∀ calls, entryFrames config ts entry
        (Receiver.Action.calls (ι := ι) setup (.receive (some d.encode) now) ++ calls) =
          (if order = [] then [frameOf ts total (fields.map setup.packet)] else []) ++
            entryFrames config ts entry' calls) ∧
      HoldsSeen ts total ((if order = [] then [] else d.fields :: seen).map setup.packet) entry' ∧
      ∀ x ∈ entry', t₀ ≤ x.activatedAt := by
  have hd : d.fields ∈ fields := hperm.mem_iff.mp (by simp)
  have hts : d.fields.timestampNs = ts := (htiling.tiles.each _ (List.mem_map_of_mem hd)).2.2.1
  have hmapped : (seen.map setup.packet ++ setup.packet d.fields :: order.map setup.packet).Perm
      (fields.map setup.packet) := by
    have hmap := hperm.map setup.packet
    rwa [List.map_append, List.map_cons] at hmap
  obtain ⟨entry', hstep, hafter⟩ := htiling.next now hmapped hholds
  have hage' : ∀ x ∈ (frameStep config (setup.packet d.fields) now entry).2, t₀ ≤ x.activatedAt :=
    frameStep_activatedAt hage hnow
  rw [hstep] at hage'
  refine ⟨entry', fun calls => ?_, ?_, hage'⟩
  · rw [entryFrames_datagram d now hscales hfinite hts, hstep]
    simp only [List.map_eq_nil_iff]
    split_ifs <;> rfl
  · simp only [List.map_eq_nil_iff] at hafter
    split_ifs at hafter ⊢ <;> exact hafter

/-- **Step lemma, a copy.** Nothing changes. -/
theorem entryFrames_copy (hnumber : ∀ x, x.isFinite = true → (setup.pointDoubles.toFloat x).isNaN = false)
    (d : CloudDatagram) (now : Time) (hd : d.fields ∈ fields) (hseen : d.fields ∈ seen)
    (hholds : HoldsSeen ts total (seen.map setup.packet) entry) (calls : List Lidar.Action) :
    entryFrames config ts entry
        (Receiver.Action.calls (ι := ι) setup (.receive (some d.encode) now) ++ calls) =
      entryFrames config ts entry calls := by
  have hts : d.fields.timestampNs = ts := (htiling.tiles.each _ (List.mem_map_of_mem hd)).2.2.1
  have hequal := (d.fields.packet_parsed hfinite hnumber).equalsItself
  rw [entryFrames_datagram d now hscales hfinite hts,
    htiling.copy (List.mem_map_of_mem hd) now (List.mem_map_of_mem hseen) hequal hholds]
  rfl

/-- **Run lemma.** The frame is returned once, when no datagram is missing. -/
theorem Carries.returned (hnumber : ∀ x, x.isFinite = true → (setup.pointDoubles.toFloat x).isNaN = false)
    (h : Carries (ι := ι) setup ts missing seen order as) :
    (seen ++ (order ++ missing)).Perm fields → (∀ a ∈ as, InTime config t₀ a) →
      ∀ entry, HoldsSeen ts total (seen.map setup.packet) entry → (∀ x ∈ entry, t₀ ≤ x.activatedAt) →
      entryFrames config ts entry (as.flatMap (Receiver.Action.calls setup)) =
        if order ≠ [] ∧ missing = [] then [frameOf ts total (fields.map setup.packet)] else [] := by
  induction h with
  | nil => exact fun _ _ _ _ _ => (if_neg (fun hnot => hnot.1 rfl)).symm
  | @next seen order as d now hrest ih =>
    intro hperm htime entry hholds hage
    obtain ⟨hnow, htail⟩ := List.forall_mem_cons.mp htime
    have hperm' : (seen ++ d.fields :: (order ++ missing)).Perm fields := hperm
    obtain ⟨entry', hstep, hafter, hage'⟩ := entryFrames_new hscales hfinite htiling d hnow hperm' hholds hage
    rw [List.flatMap_cons, hstep]
    by_cases hlast : order ++ missing = []
    · -- the last one, and then nothing more of this frame
      obtain ⟨-, hmissing⟩ := List.append_eq_nil_iff.mp hlast
      rw [hrest.silent hlast, if_pos hlast, if_pos ⟨List.cons_ne_nil _ _, hmissing⟩]
      rfl
    · have hsame : (d.fields :: order ≠ [] ∧ missing = []) ↔ (order ≠ [] ∧ missing = []) := by
        constructor
        · rintro ⟨-, hmissing⟩
          exact ⟨fun hnil => hlast (by rw [hnil, hmissing]; rfl), hmissing⟩
        · exact fun hboth => ⟨List.cons_ne_nil _ _, hboth.2⟩
      rw [if_neg hlast] at hafter ⊢
      rw [ih (List.perm_middle.symm.trans hperm) htail entry' hafter hage']
      simp only [hsame]
      rfl
  | @copy seen order as d now hseen hopen hrest ih =>
    intro hperm htime entry hholds hage
    obtain ⟨-, htail⟩ := List.forall_mem_cons.mp htime
    have hd : d.fields ∈ fields := hperm.mem_iff.mp (List.mem_append_left _ hseen)
    rw [List.flatMap_cons, entryFrames_copy hscales hfinite htiling hnumber d now hd hseen hholds]
    exact ih hperm htail entry hholds hage
  | @other seen order as a hother hrest ih =>
    intro hperm htime entry hholds hage
    obtain ⟨ha, htail⟩ := List.forall_mem_cons.mp htime
    rw [List.flatMap_cons, entryFrames_other_step hother ha hage]
    exact ih hperm htail entry hholds hage

end datagrams

end frame

/-! ### The result -/

/-- The assembler of a receiver is one that calls were made of. -/
theorem Receiver.Run.feed [DecidableEq ι] (hkind : setup.kind = .pointCloud) (hsink : setup.onFrame = true)
    (hrun : Receiver.Run setup s) :
    ∃ feed, Feed.Run setup.assemblerConfig (fun _ _ => True) feed ∧ feed.assembler = s.assembler := by
  refine Reaches.invariant (I := fun s : Receiver ι => ∃ feed,
    Feed.Run setup.assemblerConfig (fun _ _ => True) feed ∧ feed.assembler = s.assembler) hrun
    ⟨_, .refl, rfl⟩ ?_
  rintro s a s' - ⟨feed, hfeed, hsame⟩ - hs
  have hnext : ∀ b : Lidar.Action, ∃ feed', Feed.Run setup.assemblerConfig (fun _ _ => True) feed' ∧
      feed'.assembler = (feed.assembler.call b).2 := by
    intro b
    cases b with
    | addPacket packet now => exact ⟨_, hfeed.tail (a := .addPacket packet now) trivial rfl, rfl⟩
    | expire now => exact ⟨_, hfeed.tail (a := .expire now) trivial rfl, rfl⟩
  rw [(step_refines hkind hsink hs).1]
  rcases a.calls_cases setup with hcalls | ⟨b, hcalls, -⟩
  · rw [hcalls]
    exact ⟨feed, hfeed, hsame⟩
  · rw [hcalls, ← hsame]
    exact hnext b

/-- No two slots of a receiver's assembler hold one timestamp. -/
theorem Receiver.Run.one [DecidableEq ι] (hkind : setup.kind = .pointCloud) (hsink : setup.onFrame = true)
    (hrun : Receiver.Run setup s) (hpackets : 1 ≤ setup.assemblerConfig.maxPacketsPerFrame) (ts : UInt64) :
    s.assembler.One ts ∧ s.assembler.config = (Assembler.create setup.assemblerConfig).config := by
  obtain ⟨feed, hfeed, hsame⟩ := hrun.feed hkind hsink
  have hinv := hfeed.assemblerInv hpackets
  have hdistinct := hinv.slots.distinct
  have hconfig := hinv.configured
  rw [hsame] at hdistinct hconfig
  refine ⟨fun i j x y hx hy hofx hofy => ?_, hconfig⟩
  obtain ⟨hxact, hxts⟩ := FrameSlot.isOf_iff.mp hofx
  obtain ⟨hyact, hyts⟩ := FrameSlot.isOf_iff.mp hofy
  exact hdistinct i j x y hx hy hxact hyact (hxts.trans hyts.symm)

/-- The frame of a timestamp, as it is called back with. -/
def Receiver.Setup.frame (setup : Setup) (ts : UInt64) (total : UInt32) (fields : List CloudFields) :
    PointCloudFrame where
  timestampNs := ts
  totalPoints := total.toUInt64
  points := (fields.flatMap CloudFields.points).map
    (RawPoint.scaled setup.pointDoubles setup.config.toLidarParseConfig)

/-- It is what the packets of the datagrams make up. -/
theorem Receiver.Setup.frameOf_eq (setup : Setup) (ts : UInt64) (total : UInt32) (fields : List CloudFields) :
    frameOf ts total.toUInt64 (fields.map setup.packet) = setup.frame ts total fields := by
  unfold frameOf Receiver.Setup.frame
  rw [List.flatMap_map, List.map_flatMap]
  rfl

/-- What is in time under a configuration is in time in the assembler that is created with it. -/
theorem InTime.created (h : InTime config t₀ a) : InTime (Assembler.create config).config t₀ a := by
  unfold InTime at h ⊢
  rw [(Assembler.create_limits config).2.2]
  exact h

/-- The frame's packets, for the assembler of the receiver. -/
theorem Cut.tiling_created {total : UInt32} {fields : List CloudFields} (h : Cut ts total 0 fields)
    (htotal : total ≠ 0) (hpoints : total.toNat ≤ setup.assemblerConfig.maxPointsPerFrame)
    (hpackets : fields.length ≤ setup.assemblerConfig.maxPacketsPerFrame) :
    Tiling (Assembler.create setup.assemblerConfig).config ts total.toUInt64 (fields.map setup.packet) := by
  obtain ⟨hmaxPoints, hmaxPackets, -⟩ := Assembler.create_limits setup.assemblerConfig
  exact h.tiling htotal (hmaxPoints ▸ hpoints) (hmaxPackets ▸ hpackets)

/-- **One frame among others.** Where nothing of the frame is there and there are slots for all timestamps,
    what is called back with for the frame is what its entry alone returns. -/
theorem Receiver.Run.delivered_of_entry [DecidableEq ι] (hkind : setup.kind = .pointCloud)
    (hsink : setup.onFrame = true) (hlimit : 1 ≤ setup.assemblerConfig.maxPacketsPerFrame) (T : Finset UInt64)
    (hrun : Receiver.Run setup s) (hpath : Path (step setup) s as s')
    (hfresh : s.assembler.findSlot ts = none)
    (hopen : ∀ x ∈ s.assembler.slots, x.active = true → x.timestampNs ∈ T)
    (hothers : ∀ a ∈ as, ∀ b ∈ a.calls setup, ∀ ts ∈ b.timestamp, ts ∈ T)
    (hroom : T.card ≤ s.assembler.slots.length) :
    s'.delivered.filter (fun f => f.timestampNs == ts) =
      (entryFrames (Assembler.create setup.assemblerConfig).config ts none
        (as.flatMap (Receiver.Action.calls setup))).reverse ++
        s.delivered.filter (fun f => f.timestampNs == ts) := by
  have hroomy : Roomy T s.assembler := by
    refine ⟨fun ts => (hrun.one hkind hsink hlimit ts).1, fun ts' hheld => ?_, hroom⟩
    obtain ⟨x, hx⟩ := Option.ne_none_iff_exists'.mp hheld
    obtain ⟨hact, hts⟩ := Assembler.held_isOf hx
    rw [← hts]
    exact hopen x (List.mem_of_find?_eq_some hx) hact
  have hheld : s.assembler.held ts = none := Assembler.findSlot_eq_none_iff.mp hfresh
  have hcalls : ∀ c ∈ (as.flatMap (Receiver.Action.calls setup)).map (fun b => (b, 0)),
      ∀ ts ∈ c.1.timestamp, ts ∈ T := by
    intro c hc ts' hts
    obtain ⟨b, hb, rfl⟩ := List.mem_map.mp hc
    obtain ⟨a, ha, hmem⟩ := List.mem_flatMap.mp hb
    exact hothers a ha b hmem ts' hts
  have hentry : (s.assembler.emitted (as.flatMap (Receiver.Action.calls setup))).filter
      (fun f => f.timestampNs == ts) =
        entryFrames s.assembler.config ts none (as.flatMap (Receiver.Action.calls setup)) := by
    unfold Assembler.emitted entryFrames
    rw [List.filter_map, ← hheld, ← hroomy.returned _ hcalls ts]
    rfl
  rw [(Path.refines hkind hsink hpath).2, List.filter_append, List.filter_reverse, hentry,
    (hrun.one hkind hsink hlimit ts).2]

/-- **From the wire to the callback.** A frame is cut into datagrams of 1 to 50 points, within the limits of
    the configuration.  They come in any order, each in any of the formats and with any padding, with copies
    before the last one, between any other datagrams and receives without one, while other threads call
    `start()` and `stop()`; nothing of the frame is there before, it comes within less than the frame
    timeout, and there are slots for its timestamp, for those of the frames that are open and for those of
    the other datagrams.  Then the receive thread calls back with the frame once, its points scaled and in
    order, when no datagram is missing; and it does not while one is. -/
theorem cloud_is_delivered [DecidableEq ι] (hkind : setup.kind = .pointCloud) (hsink : setup.onFrame = true)
    (hscales : validateScales setup.config.toLidarParseConfig = true)
    (hfinite : ∀ n, (setup.pointDoubles.scaled n setup.config.pointPositionScale).isFinite = true)
    (hnumber : ∀ x, x.isFinite = true → (setup.pointDoubles.toFloat x).isNaN = false)
    (total : UInt32) (fields order missing : List CloudFields) (T : Finset UInt64)
    (hrun : Receiver.Run setup s) (hpath : Path (step setup) s as s')
    (htotal : total ≠ 0) (hcut : Cut ts total 0 fields)
    (hpoints : total.toNat ≤ setup.assemblerConfig.maxPointsPerFrame)
    (hpackets : fields.length ≤ setup.assemblerConfig.maxPacketsPerFrame)
    (hperm : (order ++ missing).Perm fields) (hcarries : Carries setup ts missing [] order as)
    (hfresh : s.assembler.findSlot ts = none) (htime : ∀ a ∈ as, InTime setup.assemblerConfig t₀ a)
    (hopen : ∀ x ∈ s.assembler.slots, x.active = true → x.timestampNs ∈ T)
    (hothers : ∀ a ∈ as, ∀ b ∈ a.calls setup, ∀ ts ∈ b.timestamp, ts ∈ T)
    (hroom : T.card ≤ s.assembler.slots.length) :
    s'.delivered.filter (fun f => f.timestampNs == ts) =
      (if missing = [] then [setup.frame ts total fields] else []) ++
        s.delivered.filter (fun f => f.timestampNs == ts) := by
  have hfields := hcut.ne_nil htotal
  have hlimit : 1 ≤ setup.assemblerConfig.maxPacketsPerFrame :=
    Nat.le_trans (List.length_pos_iff.mpr hfields) hpackets
  have htiling := hcut.tiling_created htotal hpoints hpackets
  have hreturned := hcarries.returned hscales hfinite htiling hnumber hperm
    (fun a ha => (htime a ha).created) none rfl (by simp)
  have horder : (order ≠ [] ∧ missing = []) ↔ missing = [] := by
    refine ⟨fun h => h.2, fun hmissing => ⟨?_, hmissing⟩⟩
    rintro rfl
    rw [hmissing] at hperm
    exact hfields hperm.nil_eq.symm
  rw [hrun.delivered_of_entry hkind hsink hlimit T hpath hfresh hopen hothers hroom, hreturned]
  simp only [horder]
  rw [setup.frameOf_eq]
  split_ifs
  · rfl
  · rfl

/-- The timestamps of calls, as a check. -/
theorem timestamps_of_all {calls : List Lidar.Action} {T : Finset UInt64}
    (h : calls.all (fun b => b.timestamp.all (fun ts => decide (ts ∈ T))) = true) :
    ∀ b ∈ calls, ∀ ts ∈ b.timestamp, ts ∈ T := by
  intro b hb ts hts
  have hchecked := List.all_eq_true.mp h b hb
  rw [Option.mem_def.mp hts] at hchecked
  exact of_decide_eq_true hchecked

/-- A receiver of point clouds. -/
def metreSetup : Setup where
  kind := .pointCloud
  pointDoubles := metreArithmetic
  odometryDoubles := { scaled := fun _ scale => scale, norm := fun _ _ _ w => w, quotient := fun x _ => x }
  config := {}
  assemblerConfig := {}
  onFrame := true
  onOdometry := false
  onParseWarning := false

/-- The two points before the one that is a metre ahead, in the packed header and with the dynamic tail. -/
def metreBefore : CloudDatagram where
  header := .packed
  tail := .dynamic
  fields := { metreAhead.fields with
    index := 0
    points := [⟨1000, 1000, 0, 1, 0, 0, 0⟩, ⟨0, 1000, 0, 2, 0, 0, 0⟩]
    points_pos := by decide
    points_le := by decide }
  beforeTimestamp := []
  beforePoints := []
  beforeTail := []
  beforeTimestamp_length := rfl
  beforePoints_length := rfl
  beforeTail_length := rfl

/-- The second datagram comes first, and twice, with a datagram that is none and a timeout between. -/
def metreDelivery : List (Receiver.Action Unit) :=
  [.start (.external ()) (some 7), .wake, .receive (some metreAhead.encode) 10, .expire 20, .wake,
    .receive (some [0x55, 0xAA]) 30, .expire 40, .wake, .receive (some metreAhead.encode) 50, .expire 60,
    .wake, .receive none 110, .expire 110, .wake, .receive (some metreBefore.encode) 120]

/-- The frame has its three points, in order. -/
theorem cloud_is_delivered_metre : ∃ s' : Receiver Unit,
    Path (step metreSetup) { assembler := .create {} } metreDelivery s' ∧
      s'.delivered.filter (fun f => f.timestampNs == 7) =
        [metreSetup.frame 7 3 [metreBefore.fields, metreAhead.fields]] ∧
      (metreSetup.frame 7 3 [metreBefore.fields, metreAhead.fields]).points.map (fun p => p.rgba) =
        [1, 2, 0x00FF0000] := by
  obtain ⟨s', hex⟩ : ∃ s', execGuarded (step metreSetup) (fun _ _ => True) metreDelivery
      { assembler := .create {} } = some s' := Option.isSome_iff_exists.mp (by decide +kernel)
  have hpath := path_of_execGuarded metreDelivery hex
  have hcarries : Carries metreSetup 7 [] [] [metreAhead.fields, metreBefore.fields] metreDelivery := by
    have hnothing : ∀ a : Receiver.Action Unit, a.calls metreSetup = [] →
        ∀ b ∈ a.calls metreSetup, b.timestamp ≠ some 7 := fun a ha => by simp [ha]
    have hexpire : ∀ now, ∀ b ∈ Receiver.Action.calls (ι := Unit) metreSetup (.expire now),
        b.timestamp ≠ some 7 := fun now => by simp [Receiver.Action.calls, Lidar.Action.timestamp]
    refine .other _ (hnothing _ rfl) (.other _ (hnothing _ rfl) (.next metreAhead 10 ?_))
    have hnone : Receiver.Action.calls (ι := Unit) metreSetup (.receive (some [0x55, 0xAA]) 30) = [] :=
      List.isEmpty_iff.mp (by decide +kernel)
    refine .other _ (hexpire 20) (.other _ (hnothing _ rfl) (.other _ (hnothing _ hnone) ?_))
    refine .other _ (hexpire 40) (.other _ (hnothing _ rfl) (.copy metreAhead 50 (by simp) (by simp) ?_))
    refine .other _ (hexpire 60) (.other _ (hnothing _ rfl) (.other _ (hnothing _ rfl) ?_))
    exact .other _ (hexpire 110) (.other _ (hnothing _ rfl) (.next metreBefore 120 .nil))
  have htime : ∀ a ∈ metreDelivery, InTime {} 0 a := by
    unfold metreDelivery
    simp [InTime]
  have hstamps : ∀ b ∈ metreDelivery.flatMap (Receiver.Action.calls metreSetup), ∀ ts ∈ b.timestamp,
      ts ∈ ({7} : Finset UInt64) := timestamps_of_all (by decide +kernel)
  have hdelivered := cloud_is_delivered rfl rfl (by decide +kernel) (fun n => metreArithmetic_finite n _)
    (fun x _ => metreArithmetic_number x) 3 [metreBefore.fields, metreAhead.fields] _ [] {7} .refl hpath
    (by decide) ⟨rfl, rfl, rfl, rfl, rfl, rfl, rfl⟩ (by decide) (by decide) (.swap _ _ _) hcarries (by decide)
    htime (by decide)
    (fun a ha b hb => hstamps b (List.mem_flatMap.mpr ⟨a, ha, hb⟩)) (by decide)
  exact ⟨s', hpath, hdelivered, by decide⟩

end HypertronBridge.Lidar
