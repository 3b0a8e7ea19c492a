import HypertronBridge.Lidar.Odometry
import Mathlib.Logic.Function.Basic

namespace HypertronBridge.Lidar

open TransitionSystem

/-!
# The stream receiver (`LidarStreamReceiver`, `lidar_stream.cpp`)

A thread receives datagrams, parses them and calls back; any thread starts and stops it, the receive
thread itself from within its callbacks.  One step is one section under a mutex, one call of the thread
library, one receive with what is done up to the next call, or the end of a callback.

* `Receiver` — the receiver, its thread, and the calls of `stop()` that are going on;
* `start`, `request`, `onDatagram` — the functions of the source;
* `Receiver.step`, `Receiver.Run` — the threads' steps, in any order.
-/

universe u

/-- `LidarStreamKind`. -/
inductive LidarStreamKind
  | pointCloud
  | odometry

/-- `std::thread::id`, besides that of no thread. -/
abbrev Tid := Nat

namespace Receiver

/-- What the receive thread calls back with: `on_frame`, `on_odometry` and `on_parse_warning`. -/
inductive Callback
  | frame (frame : PointCloudFrame)
  | odometry (odometry : LidarOdometry)
  | warning (reason : String)

/-- The constants: the arguments of the constructor, with which of the callbacks are set, and the
    arithmetic of the processor. -/
structure Setup where
  kind : LidarStreamKind
  pointDoubles : DoubleArithmetic
  odometryDoubles : OdometryArithmetic
  config : OdometryConfig
  assemblerConfig : AssemblerConfig
  onFrame : Bool
  onOdometry : Bool
  onParseWarning : Bool

/-- Where the receive thread is. -/
inductive Loop
  /-- It has not been created. -/
  | absent
  /-- The wait at the head of the loop. -/
  | wait
  | receive
  | callback (callback : Callback)
  | expire
  | returned

/-- `std::thread thread`. -/
inductive Handle
  | unset
  | joinable
  | joined
deriving DecidableEq

/-- A thread that calls the receiver: the receive thread, or another one. -/
inductive Caller (ι : Type u)
  | receive
  | external (i : ι)
deriving DecidableEq

/-- Where a thread is in `stop()`. -/
inductive Stopping
  | idle
  /-- Before the section under `mutex`. -/
  | request
  /-- Before it locks `stop_mutex`. -/
  | lock
  /-- Before `joinable()`. -/
  | test
  /-- In `join()`. -/
  | join
  /-- Before it unlocks `stop_mutex`. -/
  | unlock
deriving DecidableEq

/-- What the history records. -/
inductive Event (ι : Type u)
  | created
  | joinCalled (caller : Caller ι)
  | joined (caller : Caller ι)
  | stopReturned (caller : Caller ι)
  | callbackStarted (callback : Callback)
  | callbackEnded

end Receiver

open Receiver

/-- `LidarStreamReceiver::Impl`, the receive thread, and where each thread is in `stop()`.  `receiveId` is
    the receive thread's own id; the history is newest first. -/
structure Receiver (ι : Type u) where
  stopRequested : Bool := false
  running : Bool := false
  startCalled : Bool := false
  thread : Handle := .unset
  threadId : Option Tid := none
  stopMutex : Option (Caller ι) := none
  lastWarning : Time := 0
  assembler : Assembler
  loop : Loop := .absent
  receiveId : Option Tid := none
  stopping : Caller ι → Stopping := fun _ => .idle
  history : List (Receiver.Event ι) := []

namespace Receiver

variable {ι : Type u}

/-! ### The receive loops -/

/-- `should_emit_warning`, but for the time that it keeps. -/
def shouldEmitWarning (s : Receiver ι) (now : Time) : Bool := decide (s.lastWarning + ms 1000 ≤ now)

/-- A callback starts. -/
def callBack (s : Receiver ι) (callback : Callback) : Receiver ι :=
  { s with loop := .callback callback, history := .callbackStarted callback :: s.history }

/-- Where the loops go on after a datagram. -/
def Setup.afterDatagram (setup : Setup) : Loop :=
  match setup.kind with
  | .odometry => .wait
  | .pointCloud => .expire

/-- A datagram that is not accepted. -/
def warn (setup : Setup) (s : Receiver ι) (reason : String) (now : Time) : Receiver ι :=
  if setup.onParseWarning && s.shouldEmitWarning now then
    { s with lastWarning := now }.callBack (.warning reason)
  else { s with loop := setup.afterDatagram }

/-- `loop_odometry` and `loop_point_cloud`, with a datagram. -/
def onDatagram (setup : Setup) (s : Receiver ι) (buffer : List UInt8) (now : Time) : Receiver ι :=
  match setup.kind with
  | .odometry =>
      let parsed := parseOdometryPacket setup.odometryDoubles buffer setup.config
      if !parsed.ok then s.warn setup parsed.reason now
      else if setup.onOdometry then s.callBack (.odometry parsed.odometry)
      else { s with loop := setup.afterDatagram }
  | .pointCloud =>
      let parsed := parsePointCloudPacket setup.pointDoubles buffer setup.config.toLidarParseConfig
      if parsed.ok then
        let (frame, assembler) := s.assembler.addPacket parsed now
        match frame with
        | some frame =>
            if setup.onFrame then { s with assembler }.callBack (.frame frame)
            else { s with assembler, loop := setup.afterDatagram }
        | none => { s with assembler, loop := setup.afterDatagram }
      else s.warn setup parsed.reason now

/-! ### Start and stop -/

variable [DecidableEq ι]

/-- `start()`; the constructor of `std::thread` gives the new thread's id, or throws. -/
def start (s : Receiver ι) (created : Option Tid) : Receiver ι :=
  if s.stopRequested || s.startCalled then s
  else
    match created with
    | some tid =>
        { s with
          startCalled := true
          running := true
          thread := .joinable
          threadId := some tid
          loop := .wait
          receiveId := some tid
          history := .created :: s.history }
    | none => { s with startCalled := true, running := true }

/-- The caller goes on in `stop()`. -/
def goes (s : Receiver ι) (caller : Caller ι) (next : Stopping) : Receiver ι :=
  { s with stopping := Function.update s.stopping caller next }

/-- The caller returns from `stop()`. -/
def returns (s : Receiver ι) (caller : Caller ι) : Receiver ι :=
  { s.goes caller .idle with history := .stopReturned caller :: s.history }

/-- The section of `stop()` under `mutex`, on the thread with this id. -/
def request (s : Receiver ι) (caller : Caller ι) (me : Tid) : Receiver ι :=
  let s := { s with stopRequested := true, running := false }
  if s.threadId = some me then s.returns caller else s.goes caller .lock

/-- `running()`. -/
def isRunning (s : Receiver ι) : Bool := s.running && !s.stopRequested

/-! ### Steps -/

/-- A step. -/
inductive Action (ι : Type u)
  | start (caller : Caller ι) (created : Option Tid)
  | stop (caller : Caller ι)
  | request (caller : Caller ι) (me : Tid)
  | lock (caller : Caller ι)
  | test (caller : Caller ι)
  | join (caller : Caller ι)
  | unlock (caller : Caller ι)
  | wake
  | receive (datagram : Option (List UInt8)) (now : Time)
  | callbackReturns
  | expire (now : Time)

/-- The receive thread is in a callback. -/
def Loop.inCallback : Loop → Bool
  | .callback _ => true
  | _ => false

/-- The thread can call the receiver: the receive thread does so from its callbacks. -/
def MayCall (s : Receiver ι) : Caller ι → Prop
  | .receive => s.stopping .receive = .idle ∧ s.loop.inCallback = true
  | .external i => s.stopping (.external i) = .idle

/-- The caller can have this id.  An id belongs to one thread at a time, and is free again when its thread
    has been joined. -/
def HasId (s : Receiver ι) : Caller ι → Tid → Prop
  | .receive, me => s.receiveId = some me
  | .external _, me => s.thread = .joinable → s.receiveId ≠ some me

instance (s : Receiver ι) (caller : Caller ι) : Decidable (s.MayCall caller) := by
  unfold MayCall
  split <;> infer_instance

instance (s : Receiver ι) (caller : Caller ι) (me : Tid) : Decidable (s.HasId caller me) := by
  unfold HasId
  split <;> infer_instance

/-- One step. -/
def step (setup : Setup) (b : Action ι) (s : Receiver ι) : Option (Receiver ι) :=
  match b with
  | .start caller created => if s.MayCall caller then some (s.start created) else none
  | .stop caller => if s.MayCall caller then some (s.goes caller .request) else none
  | .request caller me =>
      if s.stopping caller = .request ∧ s.HasId caller me then some (s.request caller me) else none
  | .lock caller =>
      if s.stopping caller = .lock ∧ s.stopMutex = none then
        some ({ s with stopMutex := some caller }.goes caller .test)
      else none
  | .test caller =>
      if s.stopping caller = .test then
        if s.thread = .joinable then
          some ({ s with history := .joinCalled caller :: s.history }.goes caller .join)
        else some (s.goes caller .unlock)
      else none
  | .join caller =>
      match s.loop with
      | .returned =>
          if s.stopping caller = .join then
            some ({ s with thread := .joined, history := .joined caller :: s.history }.goes caller .unlock)
          else none
      | _ => none
  | .unlock caller =>
      if s.stopping caller = .unlock then some ({ s with stopMutex := none }.returns caller) else none
  | .wake =>
      match s.loop with
      | .wait =>
          if s.stopRequested then some { s with loop := .returned }
          else if s.running then some { s with loop := .receive }
          else none
      | _ => none
  | .receive datagram now =>
      match s.loop with
      | .receive =>
          match datagram with
          | some buffer => some (s.onDatagram setup buffer now)
          | none => some { s with loop := setup.afterDatagram }
      | _ => none
  | .callbackReturns =>
      match s.loop with
      | .callback _ =>
          if s.stopping .receive = .idle then
            some { s with loop := setup.afterDatagram, history := .callbackEnded :: s.history }
          else none
      | _ => none
  | .expire now =>
      match s.loop with
      | .expire => some { s with assembler := s.assembler.expire now, loop := .wait }
      | _ => none

/-- The states that the threads can reach, from a new receiver, whatever the order of their steps. -/
abbrev Run (setup : Setup) (s : Receiver ι) : Prop :=
  Reaches (step setup) (fun _ _ => True) { assembler := .create setup.assemblerConfig } s

end Receiver

end HypertronBridge.Lidar
