import HypertronBridge.Adapter.State
import HypertronBridge.Lib.Threads
import HypertronBridge.Lib.TransitionSystem

namespace HypertronBridge.Adapter

open TransitionSystem

/-!
# The steps of the SDK adapter (`direct_astrall_sdk.cpp`)

Any number of adapters and threads.  Each critical section of a gate mutex, each mutex operation,
each start and return of a vendor call, and each thread-local section is one atomic step of the
frame on top of its thread's stack.  A project callback may make any public call while it runs, and
the vendor may deliver any raw callback it holds, on a thread of its own or inside a vendor call.

* `callStep` — a public call; `deliveryStep` — a delivery;
* `System.step` — one atomic step of all threads.
-/

variable {ι κ : Type}

/-! ### Public calls -/

/-- What one step of a frame leaves: its adapter and its thread's markers, the frame that takes its
    place, and what happened. -/
structure Turn (κ : Type) where
  impl : Impl
  thread : ThreadLocals κ
  next : Option (Frame κ)
  events : List (Event κ) := []

/-- A public call with everything it reads and writes. -/
structure InCall (κ : Type) where
  adapter : κ
  call : ApiCall
  locals : CallLocals
  thread : ThreadLocals κ
  impl : Impl

namespace InCall

/-- The call goes on at `pc`. -/
def goto (s : InCall κ) (pc : CallPc) (events : List (Event κ) := []) : Turn κ :=
  { impl := s.impl, thread := s.thread, next := some (.call s.adapter s.call s.locals pc), events }

/-- The call returns. -/
def ret (s : InCall κ) (r : Return) : Turn κ :=
  { impl := s.impl, thread := s.thread, next := none, events := [.returned s.adapter s.call r] }

end InCall

/-- What a call returns when it has run `ensure_uninitialized`. -/
def ApiCall.afterTeardown (l : CallLocals) : ApiCall → Return
  | .deinit => .done
  | .snapshot => .snapshot l.out
  | _ => .result deinitRequested

/-- The raw callbacks that a vendor call hands out. -/
def VendorCall.handsOut (generation : Nat) : VendorCall → List Raw
  | .init _ => [⟨.status, generation⟩]
  | .subscribe topic _ _ => [⟨.data topic, generation⟩]
  | _ => []

/-- What a call keeps of a vendor function's answer. -/
def CallLocals.store (l : CallLocals) (ans : Answer) : VendorCall → CallLocals
  | .getSystemStatus => { l with out := l.out.addSystem (some (ans.code, ans.system)) }
  | .getPowerStatus => { l with out := l.out.addPower (some (ans.code, ans.power)) }
  | .getSportStatus => { l with out := l.out.addSport (some ans.code) }
  | _ => { l with code := ans.code }

namespace Impl

/-- Install or restore a callback. -/
def setCallback (topic : Topic) (callback : Option CallbackId) (x : Impl) : Impl :=
  { x with callback := Function.update x.callback topic callback }

/-- `init` enters `Initializing`. -/
def enterInit (onStatus : Option CallbackId) (x : Impl) : Impl :=
  { x.setCallback .status onStatus with
    statusLinked := false
    statusAuthority := false
    latestSport := {}
    state := .initializing
    generation := x.generation + 1 }

/-- The cleanup of a failed `init`. -/
def failInit (x : Impl) : Impl :=
  { x.setCallback .status none with
    state := .uninitialized
    statusLinked := false
    statusAuthority := false }

/-- The first gate section of `teardown_impl`. -/
def closeGate (x : Impl) : Impl :=
  if x.state ≠ .uninitialized then
    { x with
      deferredTeardown := false
      state := .shuttingDown
      callback := fun _ => none
      statusLinked := false
      statusAuthority := false }
  else if 0 < x.inFlight then { x with deferredTeardown := false, state := .shuttingDown }
  else { x with deferredTeardown := false }

/-- `need_wait`, after that section. -/
def needWait (x : Impl) : Bool := x.state != .uninitialized || decide (0 < x.inFlight)

/-- `run_vendor_deinit`. -/
def runVendorDeinit (bound : VendorFn → Bool) (x : Impl) : Bool :=
  x.state != .uninitialized && x.state != .shuttingDown && bound .deinit

/-- `ensure_uninitialized` may return. -/
def isTornDown (x : Impl) : Bool :=
  x.state == .uninitialized && !x.deferredTeardown && x.inFlight == 0

end Impl

section

variable (bound : VendorFn → Bool)

/-- The gate section in which an entry point checks the state and installs what it brings. -/
def openSection (s : InCall κ) : Turn κ :=
  let next := if s.call.isBound bound then CallPc.pushScope else .unbound
  match s.call with
  | .init onStatus _ =>
      if s.impl.state = .shuttingDown then
        s.goto (.unlock (.result (.failure sdkResFailed "deinit in progress")))
      else if s.impl.state ≠ .uninitialized then
        s.goto (.unlock (.result (.failure sdkResFailed "SDK already initialized")))
      else { s with impl := s.impl.enterInit onStatus }.goto next [.entered s.adapter]
  | .subscribe topic _ callback _ =>
      if s.impl.state ≠ .initialized then s.goto (.unlock (.result notInitialized))
      else
        { s with
          impl := s.impl.setCallback (.data topic) callback
          locals.previous := s.impl.callback (.data topic) }.goto next
  | .snapshot =>
      if s.impl.state ≠ .initialized then s.goto (.unlock (.snapshot .empty))
      else { s with locals.out := cachedSnapshot s.impl.toCaches }.goto next
  | _ =>
      if s.impl.state ≠ .initialized then s.goto (.unlock (.result notInitialized))
      else s.goto next

/-- The vendor function is not bound: what was installed is taken back. -/
def unboundSection (s : InCall κ) : Turn κ :=
  let impl :=
    match s.call with
    | .init _ _ => { s.impl.setCallback .status none with state := .uninitialized }
    | .subscribe topic _ _ _ => s.impl.setCallback (.data topic) s.locals.previous
    | _ => s.impl
  { s with impl := impl }.goto (.unlock (.result backendUnbound))

/-- The end of an entry point, by the vendor's result. -/
def settleSection (s : InCall κ) : Turn κ :=
  match s.call with
  | .init _ _ =>
      if s.locals.code = sdkResSuccess then
        { s with impl.state := .initialized }.goto (.unlock (.result (.ok "success")))
      else
        { s with impl := s.impl.failInit }.goto (.unlock (.result (mapVendorResult s.locals.code)))
  | .subscribe topic _ _ _ =>
      if s.locals.code = sdkResSuccess then s.goto (.unlock (.result (.ok "success")))
      else
        { s with impl := s.impl.setCallback (.data topic) s.locals.previous }.goto
          (.unlock (.result (mapVendorResult s.locals.code)))
  | .snapshot => s.goto (.unlock (.snapshot s.locals.out))
  | _ => s.goto (.unlock (.result (mapVendorResult s.locals.code)))

variable [DecidableEq κ]

/-- One atomic step of a public call. -/
def callStep (ans : Answer) (s : InCall κ) : CallPc → Option (Turn κ)
  | .enter => some (
      if s.thread.inCallbackContext s.adapter then
        match s.call with
        | .deinit => s.goto .deferRequest
        | .snapshot => s.goto .cachedSnapshot
        | _ => s.ret (.result reentrantFailure)
      else s.goto (if s.call = .deinit then .lockTeardown else .lockLifecycle))
  | .deferRequest => some ({ s with impl.deferredTeardown := true }.ret .done)
  | .cachedSnapshot => some (s.ret (.snapshot (cachedSnapshot s.impl.toCaches)))
  -- vendor entry points
  | .lockLifecycle =>
      if s.impl.lifecycleMutex then none
      else some ({ s with impl.lifecycleMutex := true }.goto .open)
  | .open => some (openSection bound s)
  | .unbound => some (unboundSection s)
  | .pushScope =>
      some ({ s with thread.vendorFrames := s.adapter :: s.thread.vendorFrames }.goto (.vendor 0))
  | .vendor n =>
      some (match (s.call.vendorCalls bound)[n]? with
        | some v =>
            { s with impl.raws := v.handsOut s.impl.generation ++ s.impl.raws }.goto (.inVendor n)
              [.vendorCalled s.adapter v]
        | none => { s with thread.vendorFrames := s.thread.vendorFrames.tail }.goto .tail)
  | .inVendor n =>
      (s.call.vendorCalls bound)[n]?.map fun v =>
        { s with locals := s.locals.store ans v }.goto (.vendor (n + 1))
          [.vendorReturned s.adapter v ans.code]
  -- finish_with_deferred_teardown
  | .tail =>
      some (if !s.thread.inVendorFrames s.adapter && s.impl.deferredTeardown then
        { s with impl.deferredTeardown := false }.goto .unlockForTeardown
      else s.goto .settle)
  | .settle => some (settleSection s)
  | .unlock ret => some ({ s with impl.lifecycleMutex := false }.ret ret)
  | .unlockForTeardown => some ({ s with impl.lifecycleMutex := false }.goto .lockTeardown)
  -- ensure_uninitialized
  | .lockTeardown =>
      if s.impl.teardownMutex then none
      else some ({ s with impl.teardownMutex := true }.goto .ensureCheck)
  | .ensureCheck =>
      some (if s.impl.isTornDown then s.goto .unlockTeardown [.returnCheck s.adapter s.call]
        else { s with impl.deferredTeardown := false }.goto .lockForTeardown)
  | .unlockTeardown =>
      some ({ s with impl.teardownMutex := false }.ret (s.call.afterTeardown s.locals))
  -- teardown_impl
  | .lockForTeardown =>
      if s.impl.lifecycleMutex then none
      else some ({ s with impl.lifecycleMutex := true }.goto .close)
  | .close =>
      some ({ s with impl := s.impl.closeGate }.goto
        (if s.impl.runVendorDeinit bound then .deinitCall else .unlockForWait s.impl.needWait))
  -- Where run_vendor_deinit is set, need_wait is.
  | .deinitCall => some (s.goto .inDeinit [.vendorCalled s.adapter .deinit])
  | .inDeinit => some (s.goto (.unlockForWait true) [.vendorReturned s.adapter .deinit ans.code])
  | .unlockForWait w =>
      some ({ s with impl.lifecycleMutex := false }.goto (if w then .drain else .publish false))
  | .drain => if s.impl.inFlight = 0 then some (s.goto (.publish true)) else none
  | .publish w =>
      some ({ s with impl.state := .uninitialized }.goto .ensureCheck [.published s.adapter w])

end

/-! ### Deliveries -/

/-- The caches take what is delivered. -/
def Impl.deliver (x : Impl) : Payload → Impl
  | .status linked authority => { x with statusLinked := linked, statusAuthority := authority }
  | .sport sample => { x with latestSport := sample }
  | .imu _ | .lidar => x

/-- One atomic step of a delivery: `deliver_status`, `deliver_imu`, `deliver_sport` and
    `deliver_lidar_discard`. -/
def deliveryStep (a : κ) (r : Raw) (d : Payload) (t : ThreadLocals κ) (x : Impl) :
    DeliveryPc κ → Turn κ
  | .gate =>
      if x.state.accepts then
        { impl := { x.deliver d with inFlight := x.inFlight + 1 }
          thread := t
          next := some (.delivery a r d (.counted (x.callback r.topic))) }
      else { impl := x, thread := t, next := none }
  | .counted none => { impl := x, thread := t, next := some (.delivery a r d .leave) }
  | .counted (some callback) =>
      { impl := x
        thread := { t with active := some a }
        next := some (.delivery a r d (.executing callback t.active))
        events := [.callbackStarted a r callback] }
  | .executing callback previous =>
      { impl := x
        thread := { t with active := previous }
        next := some (.delivery a r d .leave)
        events := [.callbackEnded a r callback] }
  | .leave => { impl := { x with inFlight := x.inFlight - 1 }, thread := t, next := none }

/-! ### The system -/

/-- The adapters, and the threads that use them. -/
structure System (ι κ : Type) where
  impl : κ → Impl := fun _ => {}
  stack : ι → List (Frame κ) := fun _ => []
  thread : ι → ThreadLocals κ := fun _ => {}
  /-- What happened, newest first. -/
  history : List (Event κ) := []

/-- The actions of the system. -/
inductive Action (ι κ : Type)
  /-- A thread makes a public call. -/
  | call (i : ι) (a : κ) (c : ApiCall)
  /-- The vendor invokes a raw callback. -/
  | deliver (i : ι) (a : κ) (r : Raw) (d : Payload)
  /-- The frame on top of a thread's stack takes its next step. -/
  | run (i : ι) (ans : Answer)

/-- Public calls are made by a thread's own code and by the project callback it executes. -/
def mayCall : List (Frame κ) → Bool
  | [] => true
  | .delivery _ _ _ (.executing _ _) :: _ => true
  | _ => false

/-- Raw callbacks are invoked on the vendor's own threads and inside vendor calls. -/
def mayDeliver : List (Frame κ) → Bool
  | [] => true
  | .call _ _ _ (.inVendor _) :: _ | .call _ _ _ .inDeinit :: _ => true
  | _ => false

namespace System

variable [DecidableEq ι] [DecidableEq κ]

/-- A thread gets a new top frame. -/
def push (i : ι) (f : Frame κ) (s : System ι κ) : System ι κ :=
  { s with stack := Function.update s.stack i (f :: s.stack i) }

/-- A frame of adapter `a` on top of `rest` has taken its turn. -/
def take (i : ι) (a : κ) (rest : List (Frame κ)) (t : Turn κ) (s : System ι κ) : System ι κ where
  impl := Function.update s.impl a t.impl
  stack := Function.update s.stack i (t.next.toList ++ rest)
  thread := Function.update s.thread i t.thread
  history := t.events ++ s.history

/-- One atomic step, over the adapters' function tables. -/
def step (bound : κ → VendorFn → Bool) (b : Action ι κ) (s : System ι κ) : Option (System ι κ) :=
  match b with
  | .call i a c => if mayCall (s.stack i) then some (s.push i (.call a c {} .enter)) else none
  | .deliver i a r d =>
      if mayDeliver (s.stack i) && decide (r ∈ (s.impl a).raws) && d.topic == r.topic then
        some (s.push i (.delivery a r d .gate))
      else none
  | .run i ans =>
      match s.stack i with
      | [] => none
      | .call a c l pc :: rest =>
          (callStep (bound a) ans ⟨a, c, l, s.thread i, s.impl a⟩ pc).map (s.take i a rest)
      | .delivery a r d pc :: rest =>
          some (s.take i a rest (deliveryStep a r d (s.thread i) (s.impl a) pc))

/-- The states of the runs, from fresh adapters and idle threads, whose every step meets the guard
    `ok`. -/
def Run (bound : κ → VendorFn → Bool) (ok : System ι κ → Action ι κ → Prop) (s : System ι κ) :
    Prop := Reaches (step bound) ok {} s

/-- Run a schedule from the start, under a guard. -/
def exec (bound : κ → VendorFn → Bool) (ok : System ι κ → Action ι κ → Prop)
    [∀ s b, Decidable (ok s b)] (schedule : List (Action ι κ)) : Option (System ι κ) :=
  execGuarded (step bound) ok schedule {}

/-- What a schedule's end shows, a guarded run shows. -/
theorem exists_run_of_exec (bound : κ → VendorFn → Bool) (ok : System ι κ → Action ι κ → Prop)
    [∀ s b, Decidable (ok s b)] (schedule : List (Action ι κ)) (P : System ι κ → Bool)
    (h : (exec bound ok schedule).any P = true) : ∃ s, Run bound ok s ∧ P s = true := by
  exact exists_reaches_of_execGuarded schedule P h

end System

/-! ### Parts of schedules -/

/-- Steps of one thread. -/
def turns (i : ι) (n : Nat) (ans : Answer := {}) : List (Action ι κ) := List.replicate n (.run i ans)

/-- The status report of a session's first raw callback. -/
def linkedReport (i : ι) (a : κ) : Action ι κ := .deliver i a ⟨.status, 1⟩ (.status true true)

end HypertronBridge.Adapter
