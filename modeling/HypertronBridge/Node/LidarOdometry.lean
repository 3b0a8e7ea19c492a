import HypertronBridge.Lib.History
import HypertronBridge.Lidar.OdometryFormat
import HypertronBridge.Node.PointCloud
import HypertronBridge.Node.SensorTime
import Mathlib.Tactic.IntervalCases

namespace HypertronBridge.Node

open TransitionSystem History Lidar

/-!
# The LiDAR's odometry (`on_lidar_odometry`, `publish_lidar_tf`, `driver_node.cpp`)

Two receivers call the node back, each on its own thread: one with the odometry that it parses from its
datagrams, one with complete frames.  Both map device time by the same mapper, whose operations are under
its mutex; every other section of the callbacks is a step of its own, so the two interleave in any way.

* `odometryMsg`, `publishLidarTf`, `poseCovariance` — what is published;
* `LidarNode`, `LidarNode.step` — the two callbacks, section by section;
* `MappedInOrder` — what the stamps promise to whoever looks up a transform for a frame;
* `odometry_is_published` — the result.
-/

/-! ### Messages -/

/-- `nav_msgs::msg::Odometry`, without the twist, which stays zero, and the stamp in nanoseconds. -/
structure OdometryMsg where
  stampNs : Int
  frameId : String
  childFrameId : String
  x : Binary64
  y : Binary64
  z : Binary64
  qx : Binary64
  qy : Binary64
  qz : Binary64
  qw : Binary64
  covariance : List Binary64

/-- `geometry_msgs::msg::TransformStamped`. -/
structure TransformStamped where
  stampNs : Int
  frameId : String
  childFrameId : String
  x : Binary64
  y : Binary64
  z : Binary64
  qx : Binary64
  qy : Binary64
  qz : Binary64
  qw : Binary64
deriving DecidableEq

/-- The transform of a message's pose. -/
def OdometryMsg.transform (msg : OdometryMsg) : TransformStamped where
  stampNs := msg.stampNs
  frameId := msg.frameId
  childFrameId := msg.childFrameId
  x := msg.x
  y := msg.y
  z := msg.z
  qx := msg.qx
  qy := msg.qy
  qz := msg.qz
  qw := msg.qw

/-- The parameters of the two streams. -/
structure LidarNodeConfig where
  /-- The arithmetic of `double`, in the parser and in the callback. -/
  doubles : OdometryArithmetic
  parse : OdometryConfig := {}
  cloudFrame : String := "lidar"
  parentFrame : String := "odom"
  childFrame : String := "lidar"
  poseCovarianceDiagonal : List Binary64 := []
  /-- `lidar_tf_broadcaster_` exists. -/
  broadcastsTf : Bool := true

variable (cfg : LidarNodeConfig)

/-- `std::numeric_limits<double>::epsilon() * 4.0`. -/
def orientationTolerance : Binary64 := .positive 0x3CD 0

/-- What `on_lidar_odometry` divides by, unless it drops the sample. -/
def orientationNorm (odom : LidarOdometry) : Option Binary64 :=
  let norm := cfg.doubles.norm odom.qx odom.qy odom.qz odom.qw
  if !norm.isFinite || norm.lt orientationTolerance then none else some norm

/-- The value at a place of the diagonal. -/
def diagonalValue (diag : List Binary64) (i : Nat) : Binary64 :=
  let value := diag.getD i .zero
  if value.isFinite then value else .zero

/-- The loop that fills the covariance. -/
def poseCovariance (diag : List Binary64) : List Binary64 :=
  (List.range 6).foldl (fun covariance i => covariance.set (i * 7) (diagonalValue diag i))
    (List.replicate 36 .zero)

/-- A sample and the norm of its orientation. -/
abbrev Sample := LidarOdometry × Binary64

/-- The message that `on_lidar_odometry` publishes. -/
def odometryMsg (sample : Sample) (stampNs : Int) : OdometryMsg :=
  let (odom, norm) := sample
  { stampNs
    frameId := cfg.parentFrame
    childFrameId := cfg.childFrame
    x := odom.x
    y := odom.y
    z := odom.z
    qx := cfg.doubles.quotient odom.qx norm
    qy := cfg.doubles.quotient odom.qy norm
    qz := cfg.doubles.quotient odom.qz norm
    qw := cfg.doubles.quotient odom.qw norm
    covariance := poseCovariance cfg.poseCovarianceDiagonal }

/-- `publish_lidar_tf`. -/
def publishLidarTf (sample : Sample) (stampNs : Int) : TransformStamped :=
  let (odom, norm) := sample
  { stampNs
    frameId := cfg.parentFrame
    childFrameId := cfg.childFrame
    x := odom.x
    y := odom.y
    z := odom.z
    qx := cfg.doubles.quotient odom.qx norm
    qy := cfg.doubles.quotient odom.qy norm
    qz := cfg.doubles.quotient odom.qz norm
    qw := cfg.doubles.quotient odom.qw norm }

/-- The sample that a datagram brings: the receiver parses it, and the callback keeps it. -/
def sampleOf (data : List UInt8) : Option Sample :=
  let parsed := parseOdometryPacket cfg.doubles data cfg.parse
  if parsed.ok then (orientationNorm cfg parsed.odometry).map (fun norm => (parsed.odometry, norm))
  else none

/-! ### The two callbacks -/

/-- `on_lidar_odometry` before its next section. -/
inductive OdometryCall
  | now (sample : Sample)
  | observe (sample : Sample) (receiveNs : Int)
  | publish (sample : Sample) (stampNs : Int)
  | sendTransform (sample : Sample) (stampNs : Int)

/-- `on_lidar_frame` before its next section. -/
inductive FrameCall
  | now (frame : PointCloudFrame)
  | map (frame : PointCloudFrame) (receiveNs : Int)
  | publish (msg : PointCloud2)

/-- The mapper and its calls, the callbacks in progress, the datagrams that the odometry receiver took,
    and what was published, each newest first. -/
structure LidarNode where
  clock : ClockRun := {}
  onOdometry : Option OdometryCall := none
  onFrame : Option FrameCall := none
  received : List (List UInt8) := []
  odometry : List OdometryMsg := []
  transforms : List TransformStamped := []
  clouds : List PointCloud2 := []

/-- The steps of the two threads. -/
inductive LidarAction
  /-- The odometry receiver takes a datagram. -/
  | datagram (data : List UInt8)
  /-- The next section of `on_lidar_odometry`; the clock says `nowNs`. -/
  | odometry (nowNs : Int)
  /-- The point-cloud receiver completes a frame. -/
  | frame (frame : PointCloudFrame)
  /-- The next section of `on_lidar_frame`. -/
  | cloud (nowNs : Int)

namespace LidarNode

/-- The next section of `on_lidar_odometry`. -/
def runOdometry (nowNs : Int) (s : LidarNode) : OdometryCall → Option LidarNode
  | .now sample => some { s with onOdometry := some (.observe sample nowNs) }
  | .observe sample receiveNs => do
      let call : ClockCall := ⟨.observeOdometry, sample.1.timestampNs, receiveNs⟩
      let (stampNs, _) ← call.apply s.clock.mapper
      let clock ← ClockRun.step call s.clock
      return { s with clock, onOdometry := some (.publish sample stampNs) }
  | .publish sample stampNs =>
      some { s with
        odometry := odometryMsg cfg sample stampNs :: s.odometry
        onOdometry := if cfg.broadcastsTf then some (.sendTransform sample stampNs) else none }
  | .sendTransform sample stampNs =>
      some { s with
        transforms := publishLidarTf cfg sample stampNs :: s.transforms
        onOdometry := none }

/-- The next section of `on_lidar_frame`. -/
def runFrame (nowNs : Int) (s : LidarNode) : FrameCall → Option LidarNode
  | .now frame => some { s with onFrame := some (.map frame nowNs) }
  | .map frame receiveNs => do
      let msg ← onLidarFrame cfg.cloudFrame s.clock.mapper receiveNs frame
      let clock ← ClockRun.step ⟨.mapCloud, frame.timestampNs, receiveNs⟩ s.clock
      return { s with clock, onFrame := some (.publish msg) }
  | .publish msg => some { s with clouds := msg :: s.clouds, onFrame := none }

/-- One step. -/
def step (a : LidarAction) (s : LidarNode) : Option LidarNode :=
  match a with
  | .datagram data =>
      if s.onOdometry.isNone then
        some { s with
          received := data :: s.received
          onOdometry := (sampleOf cfg data).map .now }
      else none
  | .odometry nowNs => s.onOdometry.bind (s.runOdometry cfg nowNs)
  | .frame frame =>
      if s.onFrame.isNone then some { s with onFrame := some (.now frame) } else none
  | .cloud nowNs => s.onFrame.bind (s.runFrame cfg nowNs)

/-- The node's clock gives times that are not negative, as `rclcpp::Time` asks. -/
def Timed : LidarNode → LidarAction → Prop
  | _, .odometry nowNs | _, .cloud nowNs => 0 ≤ nowNs ∧ nowNs ≤ Checked.int64Max
  | _, _ => True

instance (s : LidarNode) (a : LidarAction) : Decidable (s.Timed a) := by
  cases a <;> unfold Timed <;> infer_instance

/-- The states of all runs. -/
def Run (s : LidarNode) : Prop := Reaches (step cfg) Timed {} s

/-- What a schedule's end shows, a run shows. -/
theorem exists_run_of_exec (schedule : List LidarAction) (P : LidarNode → Bool)
    (h : (execGuarded (step cfg) Timed schedule {}).any P = true) : ∃ s, Run cfg s ∧ P s = true := by
  exact exists_reaches_of_execGuarded schedule P h

end LidarNode

/-! ### What a step does -/

variable {cfg} {s s' : LidarNode} {a : LidarAction} {c : ClockCall} {clock clock' : ClockRun}

/-- **What one step does.** -/
inductive Advanced (cfg : LidarNodeConfig) (s : LidarNode) : LidarAction → LidarNode → Prop
  | datagram (data : List UInt8) (hidle : s.onOdometry = none) :
      Advanced cfg s (.datagram data) { s with
        received := data :: s.received
        onOdometry := (sampleOf cfg data).map .now }
  | received {sample : Sample} (nowNs : Int) (hcall : s.onOdometry = some (.now sample)) :
      Advanced cfg s (.odometry nowNs) { s with onOdometry := some (.observe sample nowNs) }
  | observed {sample : Sample} {receiveNs : Int} {r : ClockReturn} {clock : ClockRun} (nowNs : Int)
      (hcall : s.onOdometry = some (.observe sample receiveNs))
      (hr : r.call = ⟨.observeOdometry, sample.1.timestampNs, receiveNs⟩)
      (hclock : ClockRun.step r.call s.clock = some clock) (hhistory : clock.history = r :: s.clock.history) :
      Advanced cfg s (.odometry nowNs) { s with
        clock, onOdometry := some (.publish sample r.stampNs) }
  | published {sample : Sample} {stampNs : Int} (nowNs : Int)
      (hcall : s.onOdometry = some (.publish sample stampNs)) :
      Advanced cfg s (.odometry nowNs) { s with
        odometry := odometryMsg cfg sample stampNs :: s.odometry
        onOdometry := if cfg.broadcastsTf then some (.sendTransform sample stampNs) else none }
  | sent {sample : Sample} {stampNs : Int} (nowNs : Int)
      (hcall : s.onOdometry = some (.sendTransform sample stampNs)) :
      Advanced cfg s (.odometry nowNs) { s with
        transforms := publishLidarTf cfg sample stampNs :: s.transforms
        onOdometry := none }
  | frame (frame : PointCloudFrame) (hidle : s.onFrame = none) :
      Advanced cfg s (.frame frame) { s with onFrame := some (.now frame) }
  | frameReceived {frame : PointCloudFrame} (nowNs : Int) (hcall : s.onFrame = some (.now frame)) :
      Advanced cfg s (.cloud nowNs) { s with onFrame := some (.map frame nowNs) }
  | mapped {frame : PointCloudFrame} {receiveNs : Int} {msg : PointCloud2} {r : ClockReturn}
      {clock : ClockRun} (nowNs : Int) (hcall : s.onFrame = some (.map frame receiveNs))
      (hr : r.call = ⟨.mapCloud, frame.timestampNs, receiveNs⟩)
      (hclock : ClockRun.step r.call s.clock = some clock) (hhistory : clock.history = r :: s.clock.history)
      (hstamp : msg.stampNs = r.stampNs) :
      Advanced cfg s (.cloud nowNs) { s with clock, onFrame := some (.publish msg) }
  | cloud {msg : PointCloud2} (nowNs : Int) (hcall : s.onFrame = some (.publish msg)) :
      Advanced cfg s (.cloud nowNs) { s with clouds := msg :: s.clouds, onFrame := none }

/-- A call of the mapper, in the history. -/
theorem ClockRun.step_history (h : ClockRun.step c clock = some clock') : ∃ r mapper,
    r.call = c ∧ c.apply clock.mapper = some (r.stampNs, mapper) ∧ clock'.mapper = mapper ∧
      clock'.history = r :: clock.history := by
  obtain ⟨⟨stampNs, mapper⟩, happly, rfl⟩ := Option.map_eq_some_iff.mp h
  exact ⟨_, mapper, rfl, happly, rfl, rfl⟩

/-- **Inversion.** -/
theorem advanced (hs : s.step cfg a = some s') : Advanced cfg s a s' := by
  cases a with
  | datagram data =>
    simp only [LidarNode.step, Option.ite_none_right_eq_some, Option.some.injEq] at hs
    obtain ⟨hidle, rfl⟩ := hs
    exact .datagram data (Option.isNone_iff_eq_none.mp hidle)
  | odometry nowNs =>
    obtain ⟨call, hcall, hs⟩ := Option.bind_eq_some_iff.mp hs
    cases call with
    | now sample =>
      obtain rfl := Option.some.inj hs
      exact .received nowNs hcall
    | observe sample receiveNs =>
      obtain ⟨⟨stampNs, mapper⟩, happly, hs⟩ := Option.bind_eq_some_iff.mp hs
      obtain ⟨clock, hclock, hs⟩ := Option.bind_eq_some_iff.mp hs
      obtain rfl := Option.some.inj hs
      obtain ⟨r, mapper', hr, happly', -, hhistory⟩ := ClockRun.step_history hclock
      -- the mapper gives one stamp
      obtain ⟨rfl, -⟩ := Prod.mk.inj (Option.some.inj (happly.symm.trans happly'))
      exact .observed nowNs hcall hr (hr ▸ hclock) hhistory
    | publish sample stampNs =>
      obtain rfl := Option.some.inj hs
      exact .published nowNs hcall
    | sendTransform sample stampNs =>
      obtain rfl := Option.some.inj hs
      exact .sent nowNs hcall
  | frame frame =>
    simp only [LidarNode.step, Option.ite_none_right_eq_some, Option.some.injEq] at hs
    obtain ⟨hidle, rfl⟩ := hs
    exact .frame frame (Option.isNone_iff_eq_none.mp hidle)
  | cloud nowNs =>
    obtain ⟨call, hcall, hs⟩ := Option.bind_eq_some_iff.mp hs
    cases call with
    | now frame =>
      obtain rfl := Option.some.inj hs
      exact .frameReceived nowNs hcall
    | map frame receiveNs =>
      obtain ⟨msg, hmsg, hs⟩ := Option.bind_eq_some_iff.mp hs
      obtain ⟨clock, hclock, hs⟩ := Option.bind_eq_some_iff.mp hs
      obtain rfl := Option.some.inj hs
      obtain ⟨r, mapper, hr, happly, -, hhistory⟩ := ClockRun.step_history hclock
      refine .mapped nowNs hcall hr (hr ▸ hclock) hhistory ?_
      -- the message has the stamp of the same mapper
      obtain ⟨stampNs, hstamp, hmsg⟩ := Option.bind_eq_some_iff.mp hmsg
      obtain ⟨stampNs', hstamp', hpair⟩ := Option.map_eq_some_iff.mp happly
      obtain rfl := Option.some.inj hmsg
      obtain ⟨rfl, -⟩ := Prod.mk.inj hpair
      exact Option.some.inj (hstamp.symm.trans hstamp')
    | publish msg =>
      obtain rfl := Option.some.inj hs
      exact .cloud nowNs hcall

/-- **Run rule.** -/
theorem LidarNode.Run.invariant {I : LidarNode → Prop} (h : s.Run cfg) (h₀ : I {})
    (hstep : ∀ s a s', I s → s.Timed a → Advanced cfg s a s' → I s') : I s := by
  have hreach : Reaches (step cfg) Timed {} s := h
  exact hreach.invariant h₀ (fun s a s' _ hI hok hs => hstep s a s' hI hok (advanced hs))

/-! ### The messages and the transforms -/

namespace LidarNode

/-- The samples of the datagrams, newest first. -/
def samples (cfg : LidarNodeConfig) (s : LidarNode) : List Sample := s.received.filterMap (sampleOf cfg)

/-- The stamps of the samples, newest first. -/
def stamps (s : LidarNode) : List Int := (Node.odometry s.clock.history).map ClockReturn.stampNs

end LidarNode

namespace OdometryCall

/-- The sample of the call. -/
def sample : OdometryCall → Sample
  | .now sample | .observe sample _ | .publish sample _ | .sendTransform sample _ => sample

/-- The stamp, once there is one. -/
def stampNs : OdometryCall → Option Int
  | .now _ | .observe _ _ => none
  | .publish _ stampNs | .sendTransform _ stampNs => some stampNs

/-- How many samples are not published yet. -/
def unpublished : Option OdometryCall → Nat
  | none | some (.sendTransform _ _) => 0
  | _ => 1

/-- How many stamps are not published yet. -/
def unused : Option OdometryCall → Nat
  | some (.publish _ _) => 1
  | _ => 0

/-- How many messages have no transform yet. -/
def unsent : Option OdometryCall → Nat
  | some (.sendTransform _ _) => 1
  | _ => 0

end OdometryCall

open OdometryCall

/-- Every sample is published once, in order, with its own stamp, and then as a transform. -/
structure InStep (cfg : LidarNodeConfig) (s : LidarNode) : Prop where
  messages : s.odometry = List.zipWith (odometryMsg cfg) ((s.samples cfg).drop (unpublished s.onOdometry))
    (s.stamps.drop (unused s.onOdometry))
  length : ((s.samples cfg).drop (unpublished s.onOdometry)).length =
    (s.stamps.drop (unused s.onOdometry)).length
  transforms : s.transforms =
    if cfg.broadcastsTf then (s.odometry.drop (unsent s.onOdometry)).map OdometryMsg.transform else []

/-- The callback in progress is that of the newest sample, with the newest stamp. -/
structure Newest (cfg : LidarNodeConfig) (s : LidarNode) : Prop where
  sample : ∀ call, s.onOdometry = some call → (s.samples cfg).head? = some call.sample
  stamp : ∀ call stampNs, s.onOdometry = some call → call.stampNs = some stampNs →
    s.stamps.head? = some stampNs
  broadcasts : ∀ sample stampNs, s.onOdometry = some (.sendTransform sample stampNs) →
    cfg.broadcastsTf = true

/-- The stamp of an observation is new. -/
theorem stamps_observed {r : ClockReturn} {h : List ClockReturn} (hr : r.call.operation = .observeOdometry) :
    (Node.odometry (r :: h)).map ClockReturn.stampNs =
      r.stampNs :: (Node.odometry h).map ClockReturn.stampNs := by
  rw [Node.odometry, List.filter_cons_of_pos (by rw [hr]; rfl), List.map_cons]
  rfl

/-- A frame has none of these stamps. -/
theorem stamps_mapped {r : ClockReturn} {h : List ClockReturn} (hr : r.call.operation = .mapCloud) :
    Node.odometry (r :: h) = Node.odometry h := by
  rw [Node.odometry, List.filter_cons_of_neg (by rw [hr]; decide)]
  rfl

/-- The samples after a datagram. -/
theorem samples_datagram (data : List UInt8) (received : List (List UInt8)) :
    (data :: received).filterMap (sampleOf cfg) =
      (sampleOf cfg data).toList ++ received.filterMap (sampleOf cfg) := by
  rw [List.filterMap_cons]
  cases sampleOf cfg data <;> rfl

/-- **Step lemma.** -/
theorem Newest.step (h : Newest cfg s) (hs : Advanced cfg s a s') : Newest cfg s' := by
  cases hs with
  | datagram data hidle =>
    refine ⟨fun call hcall => ?_, fun call stampNs hcall hstamp => ?_, fun sample stampNs hcall => ?_⟩
    · obtain ⟨sample, hsample, rfl⟩ := Option.map_eq_some_iff.mp hcall
      show ((data :: s.received).filterMap (sampleOf cfg)).head? = some sample
      rw [samples_datagram, hsample]
      rfl
    · obtain ⟨sample, -, rfl⟩ := Option.map_eq_some_iff.mp hcall
      exact absurd hstamp (by simp [OdometryCall.stampNs])
    · obtain ⟨sample', -, heq⟩ := Option.map_eq_some_iff.mp hcall
      exact absurd heq (by simp)
  | received nowNs hcall =>
    have hsample := h.sample _ hcall
    refine ⟨fun call heq => ?_, fun call stampNs heq hstamp => ?_, by simp⟩
    · obtain rfl := Option.some.inj heq
      exact hsample
    · obtain rfl := Option.some.inj heq
      exact absurd hstamp (by simp [OdometryCall.stampNs])
  | @observed sample receiveNs r clock nowNs hcall hr hclock hhistory =>
    have hsample := h.sample _ hcall
    refine ⟨fun call heq => ?_, fun call stampNs heq hstamp => ?_, by simp⟩
    · obtain rfl := Option.some.inj heq
      exact hsample
    · obtain rfl := Option.some.inj heq
      obtain rfl := Option.some.inj hstamp
      show ((Node.odometry clock.history).map ClockReturn.stampNs).head? = some r.stampNs
      rw [hhistory, stamps_observed (by rw [hr])]
      rfl
  | @published sample stampNs nowNs hcall =>
    have hsample := h.sample _ hcall
    by_cases htf : cfg.broadcastsTf = true
    · rw [if_pos htf]
      refine ⟨fun call heq => ?_, fun call stampNs' heq hstamp => ?_, fun _ _ _ => htf⟩
      · obtain rfl := Option.some.inj heq
        exact hsample
      · obtain rfl := Option.some.inj heq
        exact h.stamp _ stampNs' hcall hstamp
    · rw [if_neg htf]
      exact ⟨by simp, by simp, by simp⟩
  | sent nowNs hcall => exact ⟨by simp, by simp, by simp⟩
  | @mapped frame receiveNs msg r clock nowNs hcall hr hclock hhistory hstamp =>
    refine ⟨h.sample, fun call stampNs heq hcallStamp => ?_, h.broadcasts⟩
    show ((Node.odometry clock.history).map ClockReturn.stampNs).head? = some stampNs
    rw [hhistory, stamps_mapped (by rw [hr])]
    exact h.stamp call stampNs heq hcallStamp
  | frame | frameReceived | cloud => exact ⟨h.sample, h.stamp, h.broadcasts⟩

/-- A list with this first element. -/
theorem eq_cons_of_head? {α : Type} {l : List α} {x : α} (h : l.head? = some x) : l = x :: l.drop 1 := by
  cases l with
  | nil => exact absurd h (by simp)
  | cons y l =>
    obtain rfl := Option.some.inj h
    rfl

/-- **Step lemma.** -/
theorem InStep.step (h : InStep cfg s) (hnew : Newest cfg s) (hs : Advanced cfg s a s') :
    InStep cfg s' := by
  obtain ⟨hmessages, hlength, htransforms⟩ := h
  cases hs with
  | datagram data hidle =>
    rw [hidle] at hmessages hlength htransforms
    -- the new sample is not published yet
    have hsamples : ((data :: s.received).filterMap (sampleOf cfg)).drop
        (unpublished ((sampleOf cfg data).map .now)) = s.samples cfg := by
      rw [samples_datagram]
      cases sampleOf cfg data <;> rfl
    have hunused : unused ((sampleOf cfg data).map .now) = 0 := by cases sampleOf cfg data <;> rfl
    have hunsent : unsent ((sampleOf cfg data).map .now) = 0 := by cases sampleOf cfg data <;> rfl
    refine ⟨?_, ?_, ?_⟩
    · show s.odometry = List.zipWith _ (((data :: s.received).filterMap (sampleOf cfg)).drop _) _
      rw [hsamples, hunused]
      exact hmessages
    · show (((data :: s.received).filterMap (sampleOf cfg)).drop _).length = _
      rw [hsamples, hunused]
      exact hlength
    · show s.transforms = _
      rw [hunsent]
      exact htransforms
  | received nowNs hcall =>
    rw [hcall] at hmessages hlength htransforms
    exact ⟨hmessages, hlength, htransforms⟩
  | @observed sample receiveNs r clock nowNs hcall hr hclock hhistory =>
    rw [hcall] at hmessages hlength htransforms
    have hstamps : ((Node.odometry clock.history).map ClockReturn.stampNs).drop 1 = s.stamps := by
      rw [hhistory, stamps_observed (by rw [hr])]
      rfl
    refine ⟨?_, ?_, htransforms⟩
    · show s.odometry = List.zipWith _ _ (((Node.odometry clock.history).map ClockReturn.stampNs).drop 1)
      rw [hstamps]
      exact hmessages
    · show _ = (((Node.odometry clock.history).map ClockReturn.stampNs).drop 1).length
      rw [hstamps]
      exact hlength
  | @published sample stampNs nowNs hcall =>
    have hsample : s.samples cfg = sample :: (s.samples cfg).drop 1 :=
      eq_cons_of_head? (hnew.sample _ hcall)
    have hstamp : s.stamps = stampNs :: s.stamps.drop 1 := eq_cons_of_head? (hnew.stamp _ _ hcall rfl)
    rw [hcall] at hmessages hlength htransforms
    -- the message of the newest sample has the newest stamp
    have hboth : odometryMsg cfg sample stampNs :: s.odometry =
        List.zipWith (odometryMsg cfg) (s.samples cfg) s.stamps := by
      rw [hsample, hstamp, List.zipWith_cons_cons, hmessages]
      rfl
    have hlengths : (s.samples cfg).length = s.stamps.length := by
      rw [hsample, hstamp, List.length_cons, List.length_cons]
      exact congrArg Nat.succ hlength
    by_cases htf : cfg.broadcastsTf = true
    · rw [if_pos htf] at htransforms ⊢
      refine ⟨hboth, hlengths, ?_⟩
      show s.transforms = _
      rw [if_pos htf]
      exact htransforms
    · rw [if_neg htf] at htransforms ⊢
      refine ⟨hboth, hlengths, ?_⟩
      show s.transforms = _
      rw [if_neg htf]
      exact htransforms
  | @sent sample stampNs nowNs hcall =>
    have htf := hnew.broadcasts _ _ hcall
    have hsample : s.samples cfg = sample :: (s.samples cfg).drop 1 :=
      eq_cons_of_head? (hnew.sample _ hcall)
    have hstamp : s.stamps = stampNs :: s.stamps.drop 1 := eq_cons_of_head? (hnew.stamp _ _ hcall rfl)
    rw [hcall] at hmessages hlength htransforms
    rw [if_pos htf] at htransforms
    refine ⟨hmessages, hlength, ?_⟩
    show publishLidarTf cfg sample stampNs :: s.transforms =
      if cfg.broadcastsTf then s.odometry.map OdometryMsg.transform else []
    -- the message that was published last is that of this call
    have hlast : s.odometry = odometryMsg cfg sample stampNs :: s.odometry.drop 1 := by
      refine eq_cons_of_head? ?_
      rw [hmessages]
      show (List.zipWith (odometryMsg cfg) (s.samples cfg) s.stamps).head? = _
      rw [hsample, hstamp]
      rfl
    rw [if_pos htf, htransforms, hlast]
    rfl
  | @mapped frame receiveNs msg r clock nowNs hcall hr hclock hhistory hstamp =>
    have hstamps : (Node.odometry clock.history).map ClockReturn.stampNs = s.stamps := by
      rw [hhistory, stamps_mapped (by rw [hr])]
      rfl
    refine ⟨?_, ?_, htransforms⟩
    · show s.odometry = List.zipWith _ _ (((Node.odometry clock.history).map ClockReturn.stampNs).drop _)
      rw [hstamps]
      exact hmessages
    · show _ = (((Node.odometry clock.history).map ClockReturn.stampNs).drop _).length
      rw [hstamps]
      exact hlength
  | frame | frameReceived | cloud => exact ⟨hmessages, hlength, htransforms⟩

/-- **Run lemma.** -/
theorem LidarNode.Run.inStep (h : s.Run cfg) : InStep cfg s ∧ Newest cfg s := by
  refine h.invariant (I := fun s => InStep cfg s ∧ Newest cfg s)
    ⟨⟨rfl, rfl, ?_⟩, ⟨by simp, by simp, by simp⟩⟩
    (fun _ _ _ hI _ hs => ⟨hI.1.step hI.2 hs, hI.2.step hs⟩)
  split_ifs <;> rfl

/-! ### The stamps -/

/-- The observations, newest first. -/
def observations (h : List ClockReturn) : List ClockReturn := h.filter (fun r => r.call.observes)

/-- No stamp is later than its receipt; and a frame that is no newer than the newest odometry before it is not
    stamped after it, so that whoever looks up the frame's transform need not wait for another one. -/
def MappedInOrder (h : List ClockReturn) : Prop :=
  Historically (fun r older => r.stampNs ≤ r.call.receiveNs ∧
    (r.call.operation = .mapCloud → ∀ r', (observations older).head? = some r' →
      r.call.deviceNs.toNat ≤ r'.call.deviceNs.toNat → r.stampNs ≤ r'.stampNs)) h

/-- The mapper has the offset of the newest observation. -/
def Anchored (s : ClockRun) : Prop :=
  ∀ r, (observations s.history).head? = some r →
    s.mapper.initialized = true ∧ r.call.deviceNs.toNat ≤ Checked.int64Max ∧
      r.stampNs = r.call.deviceNs.toNat + s.mapper.offsetNs

/-- The stamp of a frame, by an initialized mapper. -/
theorem mapCloud_le {m : LidarDeviceClockMapper} {deviceNs : UInt64} {receiveNs stampNs : Int}
    (hinit : m.initialized = true) (hdevice : deviceNs.toNat ≤ Checked.int64Max)
    (h : m.mapCloud deviceNs receiveNs = some stampNs) : stampNs ≤ deviceNs.toNat + m.offsetNs := by
  unfold LidarDeviceClockMapper.mapCloud at h
  rw [if_neg (by simp [hinit, hdevice])] at h
  obtain ⟨mapped, hmapped, hmin⟩ := Option.bind_eq_some_iff.mp h
  obtain ⟨-, hadd⟩ := Option.ite_none_right_eq_some.mp hmapped
  rw [Option.some.inj hadd, ← Option.some.inj hmin]
  exact min_le_left _ _

/-- **Step lemma.** -/
theorem Anchored.step (h : Anchored clock) (hm : clock.mapper.Bounded) (hc : c.Received)
    (hs : ClockRun.step c clock = some clock') : Anchored clock' := by
  obtain ⟨r, mapper, rfl, happly, hmapper, hhistory⟩ := ClockRun.step_history hs
  unfold Anchored
  rw [hhistory, hmapper]
  rcases r.call.apply_cases hm hc happly with ⟨hquiet, rfl, -⟩ | ⟨hobserves, rfl, hstamp⟩
  · rw [observations, List.filter_cons_of_neg (by simp [hquiet])]
    exact h
  · have hnew : observations (r :: clock.history) = r :: observations clock.history :=
      List.filter_cons_of_pos hobserves
    rw [hnew]
    intro r' hr'
    obtain rfl := Option.some.inj hr'
    simp only [ClockCall.observes, Bool.and_eq_true, decide_eq_true_eq] at hobserves
    exact ⟨rfl, hobserves.2, hstamp⟩

/-- **Step lemma.** -/
theorem MappedInOrder.step (h : MappedInOrder clock.history) (hanchored : Anchored clock)
    (hm : clock.mapper.Bounded) (hc : c.Received) (hs : ClockRun.step c clock = some clock') :
    MappedInOrder clock'.history := by
  obtain ⟨r, mapper, rfl, happly, -, hhistory⟩ := ClockRun.step_history hs
  rw [hhistory]
  refine ⟨⟨?_, fun hop r' hr' hle => ?_⟩, h⟩
  · rcases r.call.apply_cases hm hc happly with ⟨-, -, hstamp⟩ | ⟨-, rfl, hstamp⟩
    · exact hstamp
    · -- the offset never exceeds the observed one
      have hoffset := clock.mapper.observed_offsetNs_le r.call.deviceNs.toNat r.call.observedOffset
      rw [hstamp]
      unfold ClockCall.observedOffset at hoffset ⊢
      omega
  · obtain ⟨hinit, hdevice, hstamp'⟩ := hanchored r' hr'
    unfold ClockCall.apply at happly
    rw [hop] at happly
    obtain ⟨stampNs, hmap, hpair⟩ := Option.map_eq_some_iff.mp happly
    obtain ⟨rfl, -⟩ := Prod.mk.inj hpair
    have hle' := mapCloud_le hinit (by omega) hmap
    omega

/-- **Run lemma.** -/
theorem ClockRun.Run.mappedInOrder (h : ClockRun.Run (fun _ c => c.Received) clock) :
    MappedInOrder clock.history := by
  have hreach : Reaches ClockRun.step (fun _ c => c.Received) {} clock := h
  have hboth : MappedInOrder clock.history ∧ Anchored clock := by
    refine hreach.invariant (I := fun s => MappedInOrder s.history ∧ Anchored s)
      ⟨show MappedInOrder [] from trivial, fun r hr => absurd hr (by simp [observations])⟩ ?_
    intro s c s' hrun hI hc hs
    have hm : s.mapper.Bounded := ClockRun.Run.bounded hrun (fun _ _ h => h)
    exact ⟨hI.1.step hI.2 hm hc hs, hI.2.step hm hc hs⟩
  exact hboth.1

/-- The mapper is called with times of the node's clock. -/
structure Timely (s : LidarNode) : Prop where
  clock : ClockRun.Run (fun _ c => c.Received) s.clock
  odometry : ∀ sample receiveNs, s.onOdometry = some (.observe sample receiveNs) →
    0 ≤ receiveNs ∧ receiveNs ≤ Checked.int64Max
  frame : ∀ frame receiveNs, s.onFrame = some (.map frame receiveNs) →
    0 ≤ receiveNs ∧ receiveNs ≤ Checked.int64Max

/-- **Step lemma.** -/
theorem Timely.step (h : Timely s) (hok : s.Timed a) (hs : Advanced cfg s a s') : Timely s' := by
  cases hs with
  | datagram data hidle =>
    refine ⟨h.clock, fun sample receiveNs hcall => ?_, h.frame⟩
    obtain ⟨_, -, heq⟩ := Option.map_eq_some_iff.mp hcall
    exact absurd heq (by simp)
  | received nowNs hcall =>
    refine ⟨h.clock, fun sample receiveNs heq => ?_, h.frame⟩
    obtain ⟨-, rfl⟩ := OdometryCall.observe.inj (Option.some.inj heq)
    exact hok
  | @observed sample receiveNs r clock nowNs hcall hr hclock hhistory =>
    have hreceived : r.call.Received := by
      rw [hr]
      exact h.odometry sample receiveNs hcall
    exact ⟨.tail h.clock hreceived hclock, by simp, h.frame⟩
  | published nowNs hcall =>
    refine ⟨h.clock, fun sample receiveNs heq => ?_, h.frame⟩
    split_ifs at heq
    exact absurd heq (by simp)
  | sent nowNs hcall => exact ⟨h.clock, by simp, h.frame⟩
  | frame frame hidle => exact ⟨h.clock, h.odometry, by simp⟩
  | frameReceived nowNs hcall =>
    refine ⟨h.clock, h.odometry, fun frame receiveNs heq => ?_⟩
    obtain ⟨-, rfl⟩ := FrameCall.map.inj (Option.some.inj heq)
    exact hok
  | @mapped frame receiveNs msg r clock nowNs hcall hr hclock hhistory hstamp =>
    have hreceived : r.call.Received := by
      rw [hr]
      exact h.frame frame receiveNs hcall
    exact ⟨.tail h.clock hreceived hclock, h.odometry, by simp⟩
  | cloud nowNs hcall => exact ⟨h.clock, h.odometry, by simp⟩

/-- **Run lemma.** The mapper of the node runs as a mapper. -/
theorem LidarNode.Run.timely (h : s.Run cfg) : Timely s :=
  h.invariant ⟨.refl, by simp, by simp⟩ (fun _ _ _ hI hok hs => hI.step hok hs)

/-! ### The frames -/

/-- How many stamps of frames are not published yet. -/
def FrameCall.unused : Option FrameCall → Nat
  | some (.publish _) => 1
  | _ => 0

namespace LidarNode

/-- The stamps of the frames, newest first. -/
def frameStamps (s : LidarNode) : List Int :=
  (s.clock.history.filter (fun r => r.call.operation == .mapCloud)).map ClockReturn.stampNs

end LidarNode

/-- The frames are published with their stamps, in order. -/
structure FramesPublished (s : LidarNode) : Prop where
  stamps : s.clouds.map PointCloud2.stampNs = s.frameStamps.drop (FrameCall.unused s.onFrame)
  newest : ∀ msg, s.onFrame = some (.publish msg) → s.frameStamps.head? = some msg.stampNs

/-- **Step lemma.** -/
theorem FramesPublished.step (h : FramesPublished s) (hs : Advanced cfg s a s') : FramesPublished s' := by
  obtain ⟨hstamps, hnewest⟩ := h
  cases hs with
  | @observed sample receiveNs r clock nowNs hcall hr hclock hhistory =>
    have hsame : (clock.history.filter (fun r => r.call.operation == .mapCloud)).map ClockReturn.stampNs =
        s.frameStamps := by
      rw [hhistory, List.filter_cons_of_neg (by simp [hr])]
      rfl
    refine ⟨?_, fun msg hmsg => ?_⟩
    · show _ = ((clock.history.filter _).map ClockReturn.stampNs).drop _
      rw [hsame]
      exact hstamps
    · show ((clock.history.filter _).map ClockReturn.stampNs).head? = _
      rw [hsame]
      exact hnewest msg hmsg
  | frame frame hidle =>
    rw [hidle] at hstamps
    exact ⟨hstamps, by simp⟩
  | frameReceived nowNs hcall =>
    rw [hcall] at hstamps
    exact ⟨hstamps, by simp⟩
  | @mapped frame receiveNs msg r clock nowNs hcall hr hclock hhistory hstamp =>
    rw [hcall] at hstamps
    have hmore : (clock.history.filter (fun r => r.call.operation == .mapCloud)).map ClockReturn.stampNs =
        r.stampNs :: s.frameStamps := by
      rw [hhistory, List.filter_cons_of_pos (by rw [hr]; rfl), List.map_cons]
      rfl
    refine ⟨?_, fun msg' hmsg => ?_⟩
    · show _ = ((clock.history.filter _).map ClockReturn.stampNs).drop 1
      rw [hmore]
      exact hstamps
    · obtain rfl := FrameCall.publish.inj (Option.some.inj hmsg)
      show ((clock.history.filter _).map ClockReturn.stampNs).head? = _
      rw [hmore, hstamp]
      rfl
  | @cloud msg nowNs hcall =>
    refine ⟨?_, by simp⟩
    have hhead : s.frameStamps = msg.stampNs :: s.frameStamps.drop 1 :=
      eq_cons_of_head? (hnewest msg hcall)
    rw [hcall] at hstamps
    show msg.stampNs :: s.clouds.map PointCloud2.stampNs = s.frameStamps
    rw [hhead, hstamps]
    rfl
  | datagram | received | published | sent => exact ⟨hstamps, hnewest⟩

/-- **Run lemma.** -/
theorem LidarNode.Run.framesPublished (h : s.Run cfg) : FramesPublished s :=
  h.invariant ⟨rfl, by simp⟩ (fun _ _ _ hI _ hs => hI.step hs)

/-! ### The covariance -/

/-- The value of a place on the diagonal is finite. -/
theorem diagonalValue_isFinite (diag : List Binary64) (i : Nat) : (diagonalValue diag i).isFinite = true := by
  unfold diagonalValue
  dsimp only
  split_ifs with h
  · exact h
  · rfl

/-- **The covariance is diagonal.** -/
theorem poseCovariance_getElem? (diag : List Binary64) {row col : Nat} (hrow : row < 6) (hcol : col < 6) :
    (poseCovariance diag)[row * 6 + col]? = some (if row = col then diagonalValue diag row else .zero) := by
  interval_cases row <;> interval_cases col <;> rfl

/-! ### The result -/

/-- **The odometry is published.** In every run of the two receiver threads: each datagram that the parser
    and the callback keep is published once, in order, with the stamp that the mapper returned for it, all
    but the one in progress; each message is followed by the transform of the same pose at the same time, or
    by none where transforms are not broadcast; its covariance is diagonal and finite; the frames are
    published with their stamps in order; no stamp is later than its receipt, and a frame that is no newer
    than the newest odometry before it is not stamped after that. -/
theorem odometry_is_published (hrun : s.Run cfg) :
    s.odometry = List.zipWith (odometryMsg cfg) ((s.samples cfg).drop (unpublished s.onOdometry))
      (s.stamps.drop (OdometryCall.unused s.onOdometry)) ∧
    ((s.samples cfg).drop (unpublished s.onOdometry)).length = s.odometry.length ∧
    s.transforms = (if cfg.broadcastsTf then
      (s.odometry.drop (unsent s.onOdometry)).map OdometryMsg.transform else []) ∧
    (∀ msg ∈ s.odometry, ∀ row < 6, ∀ col < 6, ∃ v, msg.covariance[row * 6 + col]? = some v ∧
      v.isFinite = true ∧ (row ≠ col → v = .zero)) ∧
    s.clouds.map PointCloud2.stampNs = s.frameStamps.drop (FrameCall.unused s.onFrame) ∧
    MappedInOrder s.clock.history := by
  obtain ⟨⟨hmessages, hlength, htransforms⟩, -⟩ := hrun.inStep
  refine ⟨hmessages, ?_, htransforms, fun msg hmsg row hrow col hcol => ?_,
    hrun.framesPublished.stamps, hrun.timely.clock.mappedInOrder⟩
  · rw [hmessages, List.length_zipWith, ← hlength, Nat.min_self]
  · rw [hmessages, List.mem_iff_getElem?] at hmsg
    obtain ⟨i, hi⟩ := hmsg
    obtain ⟨sample, stampNs, -, -, rfl⟩ := List.getElem?_zipWith_eq_some.mp hi
    refine ⟨_, poseCovariance_getElem? cfg.poseCovarianceDiagonal hrow hcol, ?_, fun hne => if_neg hne⟩
    split_ifs
    · exact diagonalValue_isFinite _ _
    · rfl

/-- A frame that is mapped after the odometry of the same device time, and published before it. -/
def crossingFrame : List LidarAction :=
  [.datagram standing.encode, .odometry 100, .odometry 0, .frame ⟨9, 0, []⟩, .cloud 150, .cloud 0, .cloud 0,
    .odometry 0, .odometry 0]

/-- It has the odometry's stamp, and so has the transform. -/
theorem odometry_is_published_crossing : ∃ s : LidarNode, s.Run { doubles := unitArithmetic } ∧
    s.odometry.map OdometryMsg.stampNs = [100] ∧ s.clouds.map PointCloud2.stampNs = [100] ∧
    s.transforms = s.odometry.map OdometryMsg.transform ∧ MappedInOrder s.clock.history := by
  obtain ⟨s, hrun, hs⟩ := LidarNode.exists_run_of_exec { doubles := unitArithmetic } crossingFrame
    (fun s => decide (s.odometry.map OdometryMsg.stampNs = [100] ∧
      s.clouds.map PointCloud2.stampNs = [100]) && s.onOdometry.isNone) (by decide +kernel)
  obtain ⟨hstamps, hidle⟩ := Bool.and_eq_true_iff.mp hs
  obtain ⟨hodometry, hclouds⟩ := of_decide_eq_true hstamps
  obtain ⟨-, -, htransforms, -, -, hordered⟩ := odometry_is_published hrun
  refine ⟨s, hrun, hodometry, hclouds, ?_, hordered⟩
  rw [htransforms, Option.isNone_iff_eq_none.mp hidle]
  rfl

end HypertronBridge.Node
