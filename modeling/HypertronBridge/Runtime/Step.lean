import HypertronBridge.Runtime.State
import HypertronBridge.Lib.TransitionSystem
import Mathlib.Data.List.Infix

namespace HypertronBridge.Runtime

open TransitionSystem

/-!
# The runtime's steps (`direct_driver_runtime.cpp`)

`step cfg a w` performs one atomic step: a critical section of a client call, a status
callback, a clock advance, or the next section or SDK call of the worker (`workerStep`).
What the environment decides is in the action: which thread runs, the arguments of client
calls, and the `Answer` of the preflight check or SDK call the worker is about to make.

The SDK may throw out of the calls that `execute_command` makes; there the source catches.
A throw out of any other call leaves `worker_main` and ends the process, so no step models
it.  Observer callbacks and events change none of this state.
-/

/-- `stable_status_for`: the sport status that confirms a mode, `0` when there is none. -/
def stableStatusFor (mode : UInt16) : UInt16 :=
  if mode = 0xA101 then 0xB101
  else if mode = 0xA102 then 0xB102
  else if mode = 0xA103 then 0xB103
  else if mode = 0xA104 then 0xB104
  else if mode = 0xA105 then 0xB107
  else if mode = 0xA106 then 0xB10B
  else if mode = 0xA1FF then 0xB1FF
  else 0

/-- `map_mode_rejection`. -/
def mapModeRejection (d : ModeDecision) : Result :=
  match d.error with
  | .invalidCommand =>
      if "pending".toList <:+: d.reason.toList then .failure sdkResRunning d.reason
      else .failure sdkResInvalidParam d.reason
  | .sdkDisconnected => .failure sdkResNotInit d.reason
  | .noControlAuthority => .failure sdkResWithoutAuth d.reason
  | _ => .failure sdkResFailed d.reason

/-- The environment's answer to the call the worker is about to make; each step reads the
    part it needs. -/
structure Answer where
  /-- The result of an SDK call. -/
  result : Result := .ok "success"
  /-- `some what` when the SDK call throws instead (`none` inside: not a `std::exception`). -/
  throws : Option (Option String) := none
  /-- The snapshot of a state poll. -/
  snapshot : SdkSnapshot := ⟨false, 0, 0⟩
  /-- The preflight decision. -/
  ready : Bool := true

/-- How the answered SDK call comes back. -/
def Answer.outcome (a : Answer) : Outcome :=
  match a.throws with
  | some what => .threw what
  | none => .returned a.result

/-! ### Worker-side helpers -/

namespace World

variable (cfg : RuntimeConfig)

/-- `fail_mode_transition`. -/
def failModeTransition (r : Result) (completeController : Bool) (w : World) : World :=
  if w.wk.transition.active then
    let w₁ := { w with wk.transition.active := false }
    let w₂ := if completeController then w₁.control cfg (.completeModeTransition false) else w₁
    w₂.setPromise w.wk.transition.promise r
  else w

/-- `settle_mode_transition_timeout`. -/
@[simps! -fullyApplied] def settleModeTransitionTimeout (w : World) : World :=
  ({ w with wk.transition.active := false }.control cfg (.completeModeTransition false)).setPromise
    w.wk.transition.promise
    (.failure sdkResTimeout
      "mode transition timed out before reaching the stable sport status")

/-- Fail dropped commands in order, undoing the controller's acceptance of each mode request. -/
def dropCommands (r : Result) : List Command → World → World
  | [], w => w
  | c :: cs, w =>
      let w₁ := match c.kind with
        | .requestMode _ => w.control cfg (.completeModeTransition false)
        | .requestAuthority _ => w
      dropCommands r cs (w₁.setPromise c.promise r)

/-- The emergency-stop part of `fail_all_pending_locked`. -/
def failEstop (w : World) : World :=
  if w.shared.estopEngaged then
    match w.shared.estopPromise with
    | some p =>
        (w.setEstop false none).setPromise p
          (.failure sdkResNotInit
            "connection lost during the emergency stop; the software latch remains set")
    | none => { w with shared.estopEngaged := false }
  else w

/-- `fail_all_pending_locked`. -/
def failAllPending (w : World) : World :=
  let w₁ := w.failEstop
  let w₂ := w₁.failModeTransition cfg
    (.failure sdkResNotInit "connection lost during a mode transition") false
  (w₂.setQueue w₂.queue.popAll.2).dropCommands cfg
    (.failure sdkResNotInit "runtime disconnected; command dropped") w₂.queue.popAll.1

/-- The worker leaves for `wait_backoff`. -/
@[simps! -fullyApplied] def enterBackoff (w : World) : World := w.goto (.backoff (w.clock + ms w.wk.backoffMs))

end World

/-- The predicate of the connected loop's wait. -/
def World.woken (w : World) : Bool :=
  w.shared.stopRequested || w.shared.linkDropLatched || decide (0 < w.queue.items.length) ||
    w.shared.estopEngaged || w.shared.motionRefreshDue ||
    (w.wk.transition.active && decide (w.wk.transition.deadline ≤ w.clock))

/-- The deadline of the connected loop's wait. -/
def Worker.waitDeadline (wk : Worker) : Time :=
  let deadline := min (min wk.nextHeartbeat wk.nextStatePoll) wk.nextMotionRefresh
  if wk.transition.active && decide (wk.transition.deadline < deadline) then wk.transition.deadline
  else deadline

/-- The target of a motion tick that reads the controller now: a rejection means zero. -/
def World.tickTarget (cfg : RuntimeConfig) (w : World) : Velocity :=
  let tick := w.ctl.velocityForTick (ms cfg.deadmanMs) w.clock
  if tick.accepted then tick.value else .zero

/-! ### The worker -/

/-- One atomic step of the worker at program counter `pc`. -/
def workerStep (cfg : RuntimeConfig) (a : Answer) (w : World) : Pc → Option World
  -- worker_main
  | .idle => none
  | .checkStop => some (w.goto (if w.shared.stopRequested then .returned else .preflight))
  | .preflight =>
      some (w.goto (if a.ready then .checkStopAfterPreflight else .invalidateCaches .retry))
  | .checkStopAfterPreflight =>
      some (w.goto (if w.shared.stopRequested then .returned else .clearLatch))
  | .clearLatch => some ({ w with shared.linkDropLatched := false }.goto .initCall)
  -- init starts here and returns in the next step, so status reports can fall inside it.
  | .initCall => some ((w.log .initStarted).goto .initReturn)
  | .initReturn =>
      some (w.goto (if a.result.success then .checkStopAfterInit else .invalidateCaches .retry))
  | .checkStopAfterInit =>
      some (w.goto (if w.shared.stopRequested then .deinit .quit else .subscribeImu))
  | .subscribeImu =>
      some (w.goto (if a.result.success then .subscribeSport else .invalidateCaches .retry))
  | .subscribeSport =>
      some (w.goto (if a.result.success then
          (if cfg.enableLidarStream && cfg.lidarFreq != .disabled then .subscribeLidar
            else .checkStopAfterSubscribe)
        else .invalidateCaches .retry))
  | .subscribeLidar =>
      some (w.goto (if a.result.success then .checkStopAfterSubscribe
        else .invalidateCaches .retry))
  | .checkStopAfterSubscribe =>
      some (w.goto (if w.shared.stopRequested then .deinit .quit else .connect))
  | .connect =>
      some (({ w with
        shared.connected := true
        wk.backoffMs := cfg.reconnectInitialDelayMs }.log .sessionOpened).goto .loopStart)
  -- run_connected_loop
  | .loopStart =>
      some ({ w with
        wk.heartbeatFailures := 0
        wk.nextHeartbeat := w.clock + ms cfg.heartbeatPeriod
        wk.nextStatePoll := w.clock + ms cfg.statePollPeriod
        wk.nextMotionRefresh := w.clock + ms cfg.motionRefreshPeriod
        wk.lastSentNonzero := false }.goto .wait)
  | .wait =>
      if w.woken then
        some (w.goto (if w.shared.stopRequested then .stopRead
          else if w.shared.linkDropLatched then .drain else .readNow))
      else if w.wk.waitDeadline ≤ w.clock then some (w.goto .readNow)
      else none
  | .readNow => some ({ w with wk.now := w.clock }.goto .recheck)
  | .recheck =>
      some (w.goto (if w.shared.stopRequested then .stopRead
        else if w.shared.linkDropLatched then .drain else .estopCheck))
  -- handle_estop_if_requested
  | .estopCheck =>
      if !w.shared.estopEngaged then some (w.goto .orphanRead)
      else match w.shared.estopPromise with
        | none => none
        | some p =>
            some (((w.setEstop false none).log (.estopConsumed p)).goto (.estopAbort p))
  | .estopAbort p =>
      some (((w.failModeTransition cfg
          (.failure sdkResFailed "mode transition aborted by the emergency stop") false).control cfg
        (.completeModeTransition false)).goto (.estopDrain p))
  | .estopDrain p =>
      match w.queue.tryPop with
      | (none, _) => some (w.goto (.estopRead p))
      | (some ⟨.requestMode _, q⟩, queue) =>
          some ((w.setQueue queue).goto (.estopUndo p q))
      | (some ⟨.requestAuthority _, q⟩, queue) =>
          some (((w.setQueue queue).setPromise q
            (.failure sdkResFailed "command aborted by the emergency stop")).goto (.estopDrain p))
  | .estopUndo p q =>
      some (((w.control cfg (.completeModeTransition false)).setPromise q
        (.failure sdkResFailed "command aborted by the emergency stop")).goto (.estopDrain p))
  | .estopRead p =>
      let w₁ := w.log (.authorityRead (.estop p) w.shared.sdkLinked w.shared.controlAuthority
        w.shared.linkDropLatched)
      if !w.shared.sdkLinked || !w.shared.controlAuthority || w.shared.linkDropLatched then
        some ((w₁.setPromise p (.failure sdkResWithoutAuth
          "no SDK link or control authority; emergency stop latched locally only")).goto .orphanRead)
      else some (w₁.goto (.estopZero p))
  | .estopZero p =>
      some ((w.log (.sdk (.estop p) (.move .zero) (.returned a.result))).goto
        (.estopDamp p a.result.success))
  | .estopDamp p moved =>
      some ((({ w with wk.lastSentNonzero := if moved then false else w.wk.lastSentNonzero }.log
          (.sdk (.estop p) (.setMode modeDamping) (.returned a.result))).setPromise p
        (if moved && a.result.success then
          .ok "emergency stop executed: zero velocity and damping mode"
        else .failure sdkResFailed
          "emergency stop latched but the zero-velocity or damping command failed")).goto
        .orphanRead)
  -- orphan check and pop
  | .orphanRead =>
      some (w.goto (if w.wk.transition.active && !w.ctl.modeTransitionPending then .orphanFail
        else .pop))
  | .orphanFail =>
      some ((w.failModeTransition cfg
        (.failure sdkResFailed "mode transition aborted by the safety gate") true).goto .pop)
  | .pop =>
      match w.queue.tryPop with
      | (none, _) => some (w.goto .refreshRead)
      | (some ⟨.requestAuthority sdk, p⟩, queue) =>
          some ((w.setQueue queue).goto (.execAuthority p sdk))
      | (some ⟨.requestMode mode, p⟩, queue) =>
          some ((w.setQueue queue).goto (.execMode p mode))
  -- execute_command
  | .execAuthority p sdk =>
      let c : Command := ⟨.requestAuthority sdk, p⟩
      let w₁ := w.log (.sdk (.command c) (.requestAuthority sdk) a.outcome)
      match a.throws with
      | some what => some (w₁.goto (.execThrow c what))
      | none => some ((w₁.setPromise p a.result).goto .refreshRead)
  | .execMode p mode =>
      some ((w.failModeTransition cfg
          (.failure sdkResFailed "mode transition superseded by a newer mode command") false).goto
        (if w.wk.lastSentNonzero then .execZero p mode else .execSetMode p mode))
  | .execZero p mode =>
      let c : Command := ⟨.requestMode mode, p⟩
      let call : Event := .sdk (.command c) (.move .zero) a.outcome
      match a.throws with
      | some what => some ((w.log call).goto (.execThrow c what))
      | none =>
          if a.result.success then
            some (({ w with wk.lastSentNonzero := false }.log call).goto (.execSetMode p mode))
          else some ((w.log call).goto (.execFail p mode (.failure a.result.code
            ("zero-velocity before mode switch failed: " ++ a.result.message))))
  | .execSetMode p mode =>
      let c : Command := ⟨.requestMode mode, p⟩
      let call : Event := .sdk (.command c) (.setMode mode) a.outcome
      match a.throws with
      | some what => some ((w.log call).goto (.execThrow c what))
      | none =>
          if !a.result.success then
            some ((w.log call).goto (.execFail p mode (.failure a.result.code
              ("set_mode rejected: " ++ a.result.message))))
          else if stableStatusFor mode = 0 then
            some ((w.log call).goto (.execFail p mode (.failure sdkResInvalidParam
              "no stable sport status is mapped for the requested mode")))
          else
            let deadline := w.clock + ms cfg.modeTimeoutMs
            some ((({ w with wk.transition := ⟨true, stableStatusFor mode, deadline, p⟩ }.log
              call).log (.armed c deadline)).goto .refreshRead)
  | .execFail p _ r =>
      some (((w.control cfg (.completeModeTransition false)).setPromise p r).goto .refreshRead)
  | .execThrow c what =>
      let w₁ := w.failModeTransition cfg
        (.failure sdkResFailed "mode transition aborted by a command execution exception") false
      some (((w₁.control cfg (.completeModeTransition false)).setPromise c.promise
        (.failure sdkResFailed (match what with
          | some message => "command execution failed: " ++ message
          | none => "command execution failed with an unknown exception"))).goto .refreshRead)
  -- periodic work
  | .refreshRead =>
      some ({ w with
        shared.motionRefreshDue := false
        wk.motionRefreshRequested := w.shared.motionRefreshDue }.goto .heartbeatDue)
  | .heartbeatDue =>
      some (w.goto (if w.wk.nextHeartbeat ≤ w.wk.now then .heartbeat else .tickDue))
  | .heartbeat =>
      if a.result.success then
        some ({ w with
          wk.heartbeatFailures := 0
          wk.nextHeartbeat := w.wk.now + ms cfg.heartbeatPeriod }.goto .tickDue)
      else if max 1 cfg.heartbeatMaxFailures ≤ w.wk.heartbeatFailures + 1 then
        some ({ w with wk.heartbeatFailures := w.wk.heartbeatFailures + 1 }.goto .drain)
      else
        some ({ w with
          wk.heartbeatFailures := w.wk.heartbeatFailures + 1
          wk.nextHeartbeat := w.wk.now + ms cfg.heartbeatPeriod }.goto .tickDue)
  | .tickDue =>
      some (w.goto (if w.wk.motionRefreshRequested || decide (w.wk.nextMotionRefresh ≤ w.wk.now)
        then .tickRead else .settleDue))
  | .tickRead =>
      if (w.tickTarget cfg).nonzero || w.wk.lastSentNonzero then
        some ((w.control cfg .velocityForTick).goto (.tickMove (w.tickTarget cfg)))
      else
        some (({ w with
            wk.nextMotionRefresh := w.wk.now + ms cfg.motionRefreshPeriod }.control cfg
          .velocityForTick).goto .settleDue)
  | .tickMove target =>
      some (({ w with
          wk.lastSentNonzero := if a.result.success then target.nonzero else w.wk.lastSentNonzero
          wk.nextMotionRefresh := w.wk.now + ms cfg.motionRefreshPeriod }.log
        (.sdk .tick (.move target) (.returned a.result))).goto .settleDue)
  | .settleDue =>
      some (w.goto (if w.wk.transition.active && decide (w.wk.transition.deadline ≤ w.wk.now)
        then .settle else .pollDue))
  | .settle => some ((w.settleModeTransitionTimeout cfg).goto .pollDue)
  | .pollDue =>
      some (w.goto (if w.wk.nextStatePoll ≤ w.wk.now then .pollSnapshot else .wait))
  | .pollSnapshot =>
      some ((w.log (.polled w.wk.now a.snapshot)).goto (.pollApply a.snapshot))
  | .pollApply s =>
      some (({ w with
          shared.lastSnapshotSportStatus := s.sportStatus
          shared.lastSnapshotErrorCode := s.errorCode }.control cfg (.updateRobotState
        ⟨w.shared.sdkLinked, w.shared.controlAuthority, s.sportStatus, s.errorCode⟩)).goto
          (.pollOrphanRead s))
  | .pollOrphanRead s =>
      some (w.goto (if w.wk.transition.active && !w.ctl.modeTransitionPending then
        .pollOrphanFail s else .pollReady s))
  | .pollOrphanFail s =>
      some ((w.failModeTransition cfg
        (.failure sdkResFailed "mode transition aborted by the safety gate") true).goto
          (.pollReady s))
  | .pollReady s =>
      if s.sdkLinked && !w.wk.driverReadyArmed then
        some (({ w with wk.driverReadyArmed := true }.control cfg (.setDriverReady true)).goto
          (.checkRead s))
      else some (w.goto (.checkRead s))
  -- check_mode_transition; every exit ends the poll
  | .checkRead s =>
      let done := { w with wk.nextStatePoll := w.wk.now + ms cfg.statePollPeriod }
      if !w.wk.transition.active then some (done.goto .wait)
      else if !w.ctl.modeTransitionPending then
        some ((done.failModeTransition cfg
          (.failure sdkResFailed "mode transition aborted by the safety gate") false).goto .wait)
      else if s.sportStatus = w.wk.transition.stableStatus then some (w.goto (.checkComplete s))
      else if w.wk.transition.deadline ≤ w.wk.now then some (w.goto .checkTimeout)
      else some (done.goto .wait)
  | .checkComplete _ =>
      some ((({ w with
          wk.transition.active := false
          wk.nextStatePoll := w.wk.now + ms cfg.statePollPeriod }.control cfg
        (.completeModeTransition true)).setPromise w.wk.transition.promise
          (.ok "mode transition reached the stable sport status")).goto .wait)
  | .checkTimeout =>
      some (({ w with wk.nextStatePoll := w.wk.now + ms cfg.statePollPeriod
        }.settleModeTransitionTimeout cfg).goto .wait)
  -- actuate_stop_if_authorized
  | .stopRead =>
      some ((w.log (.authorityRead .stop w.shared.sdkLinked w.shared.controlAuthority
        w.shared.linkDropLatched)).goto
        (if !w.shared.sdkLinked || !w.shared.controlAuthority || w.shared.linkDropLatched then
          .drain else .stopZero))
  | .stopZero =>
      some ((w.log (.sdk .stop (.move .zero) (.returned a.result))).goto
        (.stopDamp a.result.success))
  | .stopDamp moved =>
      some (({ w with wk.lastSentNonzero := if moved then false else w.wk.lastSentNonzero }.log
        (.sdk .stop (.setMode modeDamping) (.returned a.result))).goto .drain)
  -- session end and invalidate_session
  | .drain =>
      some (((({ w with shared.connected := false }.failAllPending cfg).log
        .sessionClosed)).goto (.invalidateCaches .sessionOver))
  | .invalidateCaches k =>
      some ({ w with
        wk.driverReadyArmed := false
        shared.sdkLinked := false
        shared.controlAuthority := false
        shared.lastSnapshotSportStatus := 0
        shared.lastSnapshotErrorCode := 0 }.goto (.invalidateStatus k))
  | .invalidateStatus k =>
      some ((w.control cfg (.updateRobotState {})).goto (.invalidateConnection k))
  | .invalidateConnection k =>
      some ((w.control cfg .invalidateConnection).goto (.deinit k))
  | .deinit k =>
      let w₁ := w.log .deinitReturned
      some (match k with
        | .retry => w₁.enterBackoff
        | .sessionOver => w₁.goto .checkStopAfterSession
        | .quit => w₁.goto .returned)
  | .checkStopAfterSession =>
      some (if w.shared.stopRequested then w.goto .returned else w.enterBackoff)
  | .backoff wakeAt =>
      if w.shared.stopRequested || decide (wakeAt ≤ w.clock) then
        let next := min (w.wk.backoffMs * 2) cfg.reconnectMaxDelayMs
        some ({ w with wk.backoffMs := max next w.wk.backoffMs }.goto .checkStop)
      else none
  | .returned => none

/-! ### Clients, callbacks and the clock -/

/-- The actions of the system. -/
inductive Action
  | start
  | stop
  | submitVelocity (velocity : Velocity)
  /-- `trigger_estop(false)`. -/
  | clearEstop
  /-- `trigger_estop(true)`, the latch. -/
  | latchEstop
  /-- `trigger_estop(true)`, the worker-side mark. -/
  | markEstop (p : PromiseId)
  | requestAuthority (sdk : Bool)
  /-- `request_mode`, the session check. -/
  | requestMode (name : String)
  /-- `request_mode`, the controller's gate. -/
  | acceptMode (p : PromiseId)
  /-- `request_mode`, the enqueue. -/
  | enqueueMode (p : PromiseId)
  /-- `handle_status`. -/
  | status (linked authority : Bool)
  | advance (d : Time)
  | worker (a : Answer)

namespace World

variable (cfg : RuntimeConfig)

/-- A client call makes its promise. -/
@[simps! -fullyApplied] def makePromise (request : Request) (w : World) : World :=
  { w with nextPromise := w.nextPromise + 1 }.log (.requested w.nextPromise request)

/-- `start`. -/
def start (w : World) : World :=
  if w.wk.pc = .idle ∧ !w.shared.stopRequested then w.goto .checkStop else w

/-- A newer stop request answers an older one that the worker has not consumed. -/
def supersedeEstop (w : World) : World :=
  match w.shared.estopPromise with
  | some old => w.setPromise old (.failure sdkResFailed "emergency stop request superseded")
  | none => w

/-- The worker-side mark of `trigger_estop(true)` for promise `p`. -/
def markEstop (p : PromiseId) (w : World) : World :=
  if w.shared.sessionDown then
    (w.supersedeEstop.setEstop false none).setPromise p
      (.failure sdkResNotInit "runtime is disconnected; emergency stop latched locally")
  else w.supersedeEstop.setEstop true (some p)

/-- `request_authority`, for the promise it made. -/
def requestAuthority (p : PromiseId) (sdk : Bool) (w : World) : World :=
  let c : Command := ⟨.requestAuthority sdk, p⟩
  if w.shared.sessionDown then
    w.setPromise p (.failure sdkResNotInit "runtime is disconnected; authority request not enqueued")
  else if (w.queue.push c).1 then (w.setQueue (w.queue.push c).2).log (.enqueued c)
  else w.setPromise p (.failure sdkResFailed "command queue is full")

/-- The session check of `request_mode`. -/
def requestMode (p : PromiseId) (name : String) (w : World) : World :=
  if w.shared.sessionDown then
    w.setPromise p (.failure sdkResNotInit "runtime is disconnected; mode request not enqueued")
  else w.setCall p (some (.modeAccept name))

/-- The controller's gate of `request_mode`. -/
def acceptMode (p : PromiseId) (name : String) (w : World) : World :=
  let decision := (w.ctl.requestMode w.clock name).1
  let w₁ := w.control cfg (.requestMode name)
  if decision.accepted then
    (w₁.log (.accepted p decision.mode)).setCall p (some (.modeEnqueue decision.mode))
  else (w₁.setPromise p (mapModeRejection decision)).setCall p none

/-- The enqueue of `request_mode`: the session may have ended since the first check. -/
def enqueueMode (p : PromiseId) (mode : UInt16) (w : World) : World :=
  let c : Command := ⟨.requestMode mode, p⟩
  if w.shared.sessionDown then
    (w.control cfg (.completeModeTransition false)).setPromise p
      (.failure sdkResNotInit "runtime disconnected before the mode command was enqueued")
  else if (w.queue.push c).1 then (w.setQueue (w.queue.push c).2).log (.enqueued c)
  else (w.control cfg (.completeModeTransition false)).setPromise p
    (.failure sdkResFailed "command queue is full")

/-- `handle_status`. -/
@[simps! -fullyApplied] def handleStatus (linked authority : Bool) (w : World) : World :=
  { w with
    shared.sdkLinked := linked
    shared.controlAuthority := authority
    shared.linkDropLatched := w.shared.linkDropLatched || !linked
    shared.motionRefreshDue := true }.log (.statusReport linked authority) |>.control cfg
      (.updateRobotState ⟨linked, authority, w.shared.lastSnapshotSportStatus,
        w.shared.lastSnapshotErrorCode⟩)

end World

/-- One atomic step of the system. -/
def step (cfg : RuntimeConfig) (a : Action) (w : World) : Option World :=
  match a with
  | .start => some w.start
  | .stop => some { w with shared.stopRequested := true }
  | .submitVelocity velocity => some (w.control cfg (.acceptVelocity velocity))
  | .clearEstop =>
      some (((w.control cfg .clearEstop).makePromise .clearEstop).setPromise w.nextPromise
        (.ok "software emergency stop cleared"))
  | .latchEstop =>
      some (((w.control cfg .triggerEstop).makePromise .estop).setCall w.nextPromise
        (some .estopMark))
  | .markEstop p =>
      match w.calls p with
      | some .estopMark => some ((w.markEstop p).setCall p none)
      | _ => none
  | .requestAuthority sdk =>
      some ((w.makePromise (.authority sdk)).requestAuthority w.nextPromise sdk)
  | .requestMode name => some ((w.makePromise (.mode name)).requestMode w.nextPromise name)
  | .acceptMode p =>
      match w.calls p with
      | some (.modeAccept name) => some (w.acceptMode cfg p name)
      | _ => none
  | .enqueueMode p =>
      match w.calls p with
      | some (.modeEnqueue mode) => some ((w.enqueueMode cfg p mode).setCall p none)
      | _ => none
  | .status linked authority => some (w.handleStatus cfg linked authority)
  | .advance d => some { w with clock := w.clock + d }
  | .worker a => workerStep cfg a w w.wk.pc

/-- The states of the runs whose every step meets the guard `ok`. -/
def Run (cfg : RuntimeConfig) (ok : World → Action → Prop) (w : World) : Prop :=
  Reaches (step cfg) ok (World.initial cfg) w

/-- The states of all runs. -/
def Reachable (cfg : RuntimeConfig) (w : World) : Prop := Run cfg (fun _ _ => True) w

/-- **Run rule.** What holds at the start and is kept by every guarded step from a state
    reached holds in every state reached. -/
theorem Run.invariant {cfg : RuntimeConfig} {ok : World → Action → Prop} {w : World}
    {I : World → Prop} (h : Run cfg ok w) (h₀ : I (World.initial cfg))
    (hstep : ∀ w a w', Run cfg ok w → I w → ok w a → step cfg a w = some w' → I w') : I w :=
  Reaches.invariant h h₀ hstep

/-- **Run rule, from a state reached.** What holds in `w₁` and is kept by every guarded step after
    it holds in every state reached from there. -/
theorem Run.invariant_from {cfg : RuntimeConfig} {ok : World → Action → Prop} {w₁ w : World}
    {I : World → Prop} (hrun : Run cfg ok w₁) (h : Reaches (step cfg) ok w₁ w) (h₁ : I w₁)
    (hstep : ∀ w a w', Run cfg ok w → I w → ok w a → step cfg a w = some w' → I w') : I w :=
  h.invariant h₁ (fun _ _ _ hr => hstep _ _ _ (hrun.trans hr))

/-! ### Executing a schedule -/

/-- Run a schedule from the start, under a guard. -/
def exec (cfg : RuntimeConfig) (ok : World → Action → Prop) [∀ w a, Decidable (ok w a)]
    (schedule : List Action) : Option World :=
  execGuarded (step cfg) ok schedule (World.initial cfg)

/-- What a schedule's end shows, a guarded run shows. -/
theorem exists_run_of_exec (cfg : RuntimeConfig) (ok : World → Action → Prop)
    [∀ w a, Decidable (ok w a)] (schedule : List Action) (P : World → Bool)
    (h : (exec cfg ok schedule).any P = true) : ∃ w, Run cfg ok w ∧ P w = true := by
  exact exists_reaches_of_execGuarded schedule P h

/-- What a schedule shows of the states before the action `a` and at its end, some guarded runs
    show. -/
theorem exists_stages_of_exec (cfg : RuntimeConfig) (ok : World → Action → Prop)
    [∀ w a, Decidable (ok w a)] (before : List Action) (a : Action) (after : List Action)
    (P : World → World → Bool)
    (h : ((exec cfg ok before).bind fun w => (step cfg a w).bind fun w₁ =>
      (execGuarded (step cfg) ok after w₁).map (P w)) = some true) :
    ∃ w w₁ w', Run cfg ok w ∧ step cfg a w = some w₁ ∧ Reaches (step cfg) ok w₁ w' ∧
      P w w' = true := by
  obtain ⟨w, hbefore, h⟩ := Option.bind_eq_some_iff.mp h
  obtain ⟨w₁, hstep, h⟩ := Option.bind_eq_some_iff.mp h
  obtain ⟨w', hafter, hP⟩ := Option.map_eq_some_iff.mp h
  exact ⟨w, w₁, w', reaches_of_execGuarded before .refl hbefore, hstep,
    reaches_of_execGuarded after .refl hafter, hP⟩

/-- The worker takes `n` steps, all answered by `a`. -/
def works (n : Nat) (a : Answer) : List Action := List.replicate n (.worker a)

/-- Every SDK call succeeds, and polls report a linked robot in sport status `sport`. -/
def obliging (sport : UInt16) : Answer := { snapshot := ⟨true, 0, sport⟩ }

/-- Start, connect, report link and authority, and let the first poll arm the readiness. -/
def readying : List Action :=
  .start :: works 13 (obliging 0xB104) ++ [.status true true, .advance (ms 500)] ++
    works 18 (obliging 0xB104)

end HypertronBridge.Runtime
