import HypertronBridge.RobotController
import HypertronBridge.ThreadSafeQueue
import Mathlib.Logic.Function.Basic
import Mathlib.Tactic.Simps.Basic

namespace HypertronBridge.Runtime

/-!
# The runtime's state (`direct_driver_runtime.hpp`)

One worker thread, any number of client threads and the SDK's status callbacks share a
`World`.  Every section under `wake_mutex_`, under the controller's or the queue's mutex, and
every SDK call is one atomic step; the program counters `Pc` (worker) and `ClientCall`
(clients) say which section comes next.

* `Shared` — the fields guarded by `wake_mutex_`;
* `Worker` — the worker's program counter, its locals and the worker-only fields;
* `World` — all of it, with the clock and the `trace` of what happened, newest first.
-/

/-- A promise made for one client call, by its serial number. -/
abbrev PromiseId := Nat

/-- `SubscriptionFrequency`. -/
inductive SubscriptionFrequency
  | disabled | hz1 | hz25 | hz50 | hz125 | hz250
deriving DecidableEq, Repr

/-- The fields of `RuntimeConfig` that the runtime's own logic reads (durations in
    milliseconds).  The constructors of the queue and the controller reject a zero capacity
    and a zero deadman. -/
structure RuntimeConfig where
  heartbeatMaxFailures : Nat := 1
  queueCapacity : Nat := 16
  heartbeatPeriod : Nat := 100
  motionRefreshPeriod : Nat := 20
  deadmanMs : Nat := 100
  modeTimeoutMs : Nat := 5000
  statePollPeriod : Nat := 500
  lidarFreq : SubscriptionFrequency := .hz1
  enableLidarStream : Bool := true
  reconnectInitialDelayMs : Nat := 1000
  reconnectMaxDelayMs : Nat := 30000
  queueCapacity_pos : 0 < queueCapacity := by decide
  deadman_pos : 0 < deadmanMs := by decide

/-- `Command::Kind` with the field each kind uses. -/
inductive CommandKind
  | requestAuthority (sdk : Bool)
  | requestMode (mode : UInt16)
deriving DecidableEq, Repr

/-- `Command`. -/
structure Command where
  kind : CommandKind
  promise : PromiseId
deriving DecidableEq, Repr

/-- `ModeTransition`. -/
structure ModeTransition where
  active : Bool := false
  stableStatus : UInt16 := 0
  deadline : Time := 0
  promise : PromiseId := 0
deriving DecidableEq, Repr

/-- The fields guarded by `wake_mutex_`. -/
structure Shared where
  stopRequested : Bool := false
  sdkLinked : Bool := false
  connected : Bool := false
  linkDropLatched : Bool := false
  controlAuthority : Bool := false
  lastSnapshotSportStatus : UInt16 := 0
  lastSnapshotErrorCode : UInt32 := 0
  motionRefreshDue : Bool := false
  estopEngaged : Bool := false
  estopPromise : Option PromiseId := none
deriving DecidableEq, Repr

/-- The test every client request starts with: no live session to serve it. -/
def Shared.sessionDown (s : Shared) : Bool :=
  s.stopRequested || !s.connected || !s.sdkLinked || s.linkDropLatched

/-! ### Program counters -/

/-- What `worker_main` does once `deinit` returned. -/
inductive AfterDeinit
  /-- A failed preflight, init or subscription: back off and retry. -/
  | retry
  /-- A connected session ended: stop or back off. -/
  | sessionOver
  /-- A stop seen between init and the session: leave the worker. -/
  | quit
deriving DecidableEq, Repr

/-- The next atomic step of the worker, with the locals that only live across it. -/
inductive Pc
  -- worker_main
  | idle
  | checkStop
  | preflight
  | checkStopAfterPreflight
  | clearLatch
  | initCall
  | initReturn
  | checkStopAfterInit
  | subscribeImu
  | subscribeSport
  | subscribeLidar
  | checkStopAfterSubscribe
  | connect
  -- run_connected_loop
  | loopStart
  | wait
  | readNow
  | recheck
  -- handle_estop_if_requested
  | estopCheck
  | estopAbort (p : PromiseId)
  | estopDrain (p : PromiseId)
  | estopUndo (p : PromiseId) (q : PromiseId)
  | estopRead (p : PromiseId)
  | estopZero (p : PromiseId)
  | estopDamp (p : PromiseId) (moved : Bool)
  -- run_connected_loop, orphan check and pop
  | orphanRead
  | orphanFail
  | pop
  -- execute_command
  | execAuthority (p : PromiseId) (sdk : Bool)
  | execMode (p : PromiseId) (mode : UInt16)
  | execZero (p : PromiseId) (mode : UInt16)
  | execSetMode (p : PromiseId) (mode : UInt16)
  | execFail (p : PromiseId) (mode : UInt16) (result : Result)
  | execThrow (c : Command) (what : Option String)
  -- run_connected_loop, periodic work
  | refreshRead
  | heartbeatDue
  | heartbeat
  | tickDue
  | tickRead
  | tickMove (target : Velocity)
  | settleDue
  | settle
  | pollDue
  | pollSnapshot
  | pollApply (snapshot : SdkSnapshot)
  | pollOrphanRead (snapshot : SdkSnapshot)
  | pollOrphanFail (snapshot : SdkSnapshot)
  | pollReady (snapshot : SdkSnapshot)
  -- check_mode_transition
  | checkRead (snapshot : SdkSnapshot)
  | checkComplete (snapshot : SdkSnapshot)
  | checkTimeout
  -- actuate_stop_if_authorized
  | stopRead
  | stopZero
  | stopDamp (moved : Bool)
  -- worker_main, session end and invalidate_session
  | drain
  | invalidateCaches (k : AfterDeinit)
  | invalidateStatus (k : AfterDeinit)
  | invalidateConnection (k : AfterDeinit)
  | deinit (k : AfterDeinit)
  | checkStopAfterSession
  | backoff (wakeAt : Time)
  | returned
deriving DecidableEq, Repr

/-- A client call between two of its critical sections. -/
inductive ClientCall
  /-- `trigger_estop(true)` after the latch, before the worker-side mark. -/
  | estopMark
  /-- `request_mode` after the session check, before the controller's gate. -/
  | modeAccept (name : String)
  /-- `request_mode` after acceptance of `mode`, before the enqueue. -/
  | modeEnqueue (mode : UInt16)
deriving DecidableEq, Repr

/-- The worker: program counter, worker-only fields, and the locals of its two loops. -/
structure Worker where
  pc : Pc := .idle
  transition : ModeTransition := {}
  lastSentNonzero : Bool := false
  driverReadyArmed : Bool := false
  backoffMs : Nat
  heartbeatFailures : Nat := 0
  nextHeartbeat : Time := 0
  nextStatePoll : Time := 0
  nextMotionRefresh : Time := 0
  now : Time := 0
  motionRefreshRequested : Bool := false

/-! ### The trace -/

/-- What a client call asks for when it makes its promise. -/
inductive Request
  | authority (sdk : Bool)
  | mode (name : String)
  | estop
  | clearEstop
deriving DecidableEq, Repr

/-- The actuating SDK calls. -/
inductive SdkCall
  | requestAuthority (sdk : Bool)
  | move (velocity : Velocity)
  | setMode (mode : UInt16)
deriving DecidableEq, Repr

/-- On whose behalf the worker makes an SDK call. -/
inductive Origin
  /-- A motion tick. -/
  | tick
  /-- The command that `execute_command` runs. -/
  | command (c : Command)
  /-- The consumed emergency-stop mark that carries the promise. -/
  | estop (p : PromiseId)
  /-- The stop that ends the session. -/
  | stop
deriving DecidableEq, Repr

/-- How an SDK call came back. -/
inductive Outcome
  | returned (r : Result)
  | threw (what : Option String)
deriving DecidableEq, Repr

/-- The call returned, and with success. -/
def Outcome.success : Outcome → Bool
  | .returned r => r.success
  | .threw _ => false

/-- What happened, as the trace records it. -/
inductive Event
  /-- One critical section of the controller. -/
  | control (call : Call)
  /-- A client call made promise `p`. -/
  | requested (p : PromiseId) (request : Request)
  /-- The controller accepted the mode request of promise `p`. -/
  | accepted (p : PromiseId) (mode : UInt16)
  | enqueued (c : Command)
  /-- The worker consumed the emergency-stop mark that carries `p`. -/
  | estopConsumed (p : PromiseId)
  /-- The caches an emergency stop or a session-ending stop read before actuating. -/
  | authorityRead (origin : Origin) (linked authority linkDropped : Bool)
  | sdk (origin : Origin) (call : SdkCall) (outcome : Outcome)
  /-- `execute_command` armed the transition watch for `c`. -/
  | armed (c : Command) (deadline : Time)
  /-- A state poll in the loop iteration of time `now`. -/
  | polled (now : Time) (snapshot : SdkSnapshot)
  /-- `set_promise`. -/
  | resolved (p : PromiseId) (r : Result)
  | statusReport (linked authority : Bool)
  | sessionOpened
  | sessionClosed
  | initStarted
  | deinitReturned
deriving DecidableEq, Repr

/-! ### The world -/

/-- Everything the threads share, and everything that happened. -/
structure World where
  shared : Shared := {}
  ctl : RobotController := {}
  queue : ThreadSafeQueue .rejectNew Command
  wk : Worker
  /-- The client calls in progress, by the promise each made. -/
  calls : PromiseId → Option ClientCall := fun _ => none
  nextPromise : PromiseId := 0
  clock : Time := 0
  /-- The events so far, newest first. -/
  trace : List Event := []

namespace World

variable (cfg : RuntimeConfig)

/-- A constructed runtime before `start()`. -/
def initial : World where
  queue := { capacity := cfg.queueCapacity, capacity_pos := cfg.queueCapacity_pos,
             bounded := Nat.zero_le _ }
  wk := { backoffMs := cfg.reconnectInitialDelayMs }

/-- Record an event. -/
@[simps -fullyApplied] def log (e : Event) (w : World) : World := { w with trace := e :: w.trace }

/-- The worker goes to `pc`. -/
@[simps -fullyApplied] def goto (pc : Pc) (w : World) : World := { w with wk.pc := pc }

/-- One critical section of the controller. -/
@[simps -fullyApplied] def control (op : Operation) (w : World) : World :=
  { w with
    ctl := (op.apply (ms cfg.deadmanMs) w.clock w.ctl).2
    trace := .control (op.call (ms cfg.deadmanMs) w.clock w.ctl) :: w.trace }

/-- `set_promise`. -/
@[simps! -fullyApplied] def setPromise (p : PromiseId) (r : Result) (w : World) : World := w.log (.resolved p r)

/-- The command queue after one of its critical sections. -/
@[simps -fullyApplied] def setQueue (q : ThreadSafeQueue .rejectNew Command) (w : World) : World :=
  { w with queue := q }

/-- The emergency-stop slot: the mark and its promise. -/
@[simps -fullyApplied shared ctl queue wk calls nextPromise clock trace]
def setEstop (engaged : Bool) (promise : Option PromiseId) (w : World) : World :=
  { w with shared.estopEngaged := engaged, shared.estopPromise := promise }

/-- The client call of promise `p` moves on to `call`, or is over. -/
@[simps -fullyApplied] def setCall (p : PromiseId) (call : Option ClientCall) (w : World) : World :=
  { w with calls := Function.update w.calls p call }

end World

end HypertronBridge.Runtime
