import HypertronBridge.Adapter.Snapshot

namespace HypertronBridge.Adapter

/-!
# The state of the SDK adapter (`DirectAstrallSdk`, `detail::AstrallSdkImpl`)

An adapter serialises its vendor calls under a lifecycle mutex and guards everything else with a
gate mutex.  Public calls and vendor deliveries are stack frames of the threads that make them, and
a frame's program counter stands between two of its gate sections, mutex operations and vendor
calls.

* `Impl` — what the adapter holds;
* `ApiCall`, `CallPc` — public calls; `DeliveryPc` — deliveries of raw callbacks;
* `Frame` — a call or a delivery in progress; `ThreadLocals` — the thread-local markers;
* `Event` — what a history of adapters records.
-/

/-! ### Result codes -/

/-- `describe_sdk_result_code`. -/
def describeSdkResultCode (code : UInt16) : String :=
  if code = sdkResFailed then "execution or request failed"
  else if code = sdkResTimeout then "timeout"
  else if code = sdkResRunning then "operation still running"
  else if code = sdkResSuccess then "success"
  else if code = sdkResInvalidParam then "invalid parameter"
  else if code = sdkResNotInit then "SDK not initialized"
  else if code = sdkResRcNoRelease then "remote controller has not released authority"
  else if code = sdkResBeenObtained then "control authority already held by another device"
  else if code = sdkResWithoutAuth then "no control authority"
  else "unknown SDK result code 0x" ++ String.ofList (Nat.toDigits 16 code.toNat)

/-- `map_vendor_result`. -/
def mapVendorResult (code : UInt16) : Result :=
  if code = sdkResSuccess then .ok "success" else .failure code (describeSdkResultCode code)

/-- `not_initialized`. -/
def notInitialized : Result := .failure sdkResNotInit (describeSdkResultCode sdkResNotInit)

/-- `backend_unbound`. -/
def backendUnbound : Result := .failure sdkResFailed "vendor backend not bound"

/-- `reentrant_failure`. -/
def reentrantFailure : Result :=
  .failure sdkResRunning "reentrant call from SDK callback not allowed"

/-- What an entry point returns after it completed a teardown requested by a callback. -/
def deinitRequested : Result := .failure sdkResRunning "deinit requested from SDK callback"

/-! ### Vendor calls -/

/-- `AuthorityTarget`. -/
inductive AuthorityTarget
  | sdk
  | joystick
deriving DecidableEq

/-- `SubscriptionTopic`. -/
inductive SubscriptionTopic
  | imu
  | sport
  | lidar
deriving DecidableEq

/-- What a callback is for: `on_status`, or a subscription. -/
inductive Topic
  | status
  | data (topic : SubscriptionTopic)
deriving DecidableEq

/-- The members of the vendor function table. -/
inductive VendorFn
  | init
  | deinit
  | heartbeat
  | requestAuthority
  | subscribe
  | setMode
  | move
  | getSystemStatus
  | getPowerStatus
  | getSportStatus
deriving DecidableEq

/-- A call of a vendor function. -/
inductive VendorCall
  | init (timeoutMs : UInt32)
  | deinit
  | heartbeat (timeoutMs : UInt32)
  | requestAuthority (target : AuthorityTarget) (timeoutMs : UInt32)
  | subscribe (topic : SubscriptionTopic) (frequency : UInt16) (timeoutMs : UInt32)
  | setMode (mode : UInt16) (timeoutMs : UInt32)
  | move (velocity : Velocity) (timeoutMs : UInt32)
  | getSystemStatus
  | getPowerStatus
  | getSportStatus
deriving DecidableEq

/-- The function that is called. -/
def VendorCall.fn : VendorCall → VendorFn
  | .init _ => .init
  | .deinit => .deinit
  | .heartbeat _ => .heartbeat
  | .requestAuthority _ _ => .requestAuthority
  | .subscribe _ _ _ => .subscribe
  | .setMode _ _ => .setMode
  | .move _ _ => .move
  | .getSystemStatus => .getSystemStatus
  | .getPowerStatus => .getPowerStatus
  | .getSportStatus => .getSportStatus

/-- How a vendor call comes back: its code (the status itself for `get_sport_status`), and what a
    getter wrote. -/
structure Answer where
  code : UInt16 := sdkResSuccess
  system : RawSystemStatus := {}
  power : RawPowerStatus := {}

/-! ### Public calls -/

/-- A project callback, by its identity. -/
abbrev CallbackId := Nat

/-- The identity of the callback that `subscribe_lidar` installs. -/
def lidarDiscard : CallbackId := 0

/-- A public call. -/
inductive ApiCall
  | init (onStatus : Option CallbackId) (timeoutMs : UInt32)
  | deinit
  | heartbeat (timeoutMs : UInt32)
  | requestAuthority (sdk : Bool) (timeoutMs : UInt32)
  /-- `subscribe_imu`, `subscribe_sport` and `subscribe_lidar`. -/
  | subscribe (topic : SubscriptionTopic) (frequency : UInt16) (callback : Option CallbackId)
      (timeoutMs : UInt32)
  | move (velocity : Velocity) (timeoutMs : UInt32)
  | setMode (mode : UInt16) (timeoutMs : UInt32)
  | snapshot
deriving DecidableEq

namespace ApiCall

/-- `subscribe_imu`. -/
def subscribeImu (frequency : UInt16) (callback : Option CallbackId) (timeoutMs : UInt32) :
    ApiCall := .subscribe .imu frequency callback timeoutMs

/-- `subscribe_sport`. -/
def subscribeSport (frequency : UInt16) (callback : Option CallbackId) (timeoutMs : UInt32) :
    ApiCall := .subscribe .sport frequency callback timeoutMs

/-- `subscribe_lidar`. -/
def subscribeLidar (frequency : UInt16) (timeoutMs : UInt32) : ApiCall :=
  .subscribe .lidar frequency (some lidarDiscard) timeoutMs

/-- The call is `init`. -/
def isInit : ApiCall → Bool
  | .init _ _ => true
  | _ => false

/-- The vendor calls of a public call, over a function table; `snapshot` skips what is not bound. -/
def vendorCalls (bound : VendorFn → Bool) : ApiCall → List VendorCall
  | .init _ t => [.init t]
  | .deinit => []
  | .heartbeat t => [.heartbeat t]
  | .requestAuthority sdk t => [.requestAuthority (if sdk then .sdk else .joystick) t]
  | .subscribe topic f _ t => [.subscribe topic f t]
  | .move v t => [.move v t]
  | .setMode m t => [.setMode m t]
  | .snapshot =>
      [.getSystemStatus, .getPowerStatus, .getSportStatus].filter (fun c => bound c.fn)

/-- The vendor function without which the call fails is bound. -/
def isBound (bound : VendorFn → Bool) (c : ApiCall) : Bool :=
  (c.vendorCalls bound).all (fun v => bound v.fn)

end ApiCall

/-- What a public call returns. -/
inductive Return
  | result (r : Result)
  | snapshot (s : Snapshot)
  | done
deriving DecidableEq

/-- The program counter of a public call. -/
inductive CallPc
  /-- The check for the adapter's callback context. -/
  | enter
  -- in the callback context: deinit, and snapshot
  | deferRequest
  | cachedSnapshot
  -- vendor entry points
  | lockLifecycle
  | open
  | unbound
  | pushScope
  /-- Before the vendor call of this index, or at the end of the scope. -/
  | vendor (n : Nat)
  | inVendor (n : Nat)
  | tail
  | settle
  | unlock (ret : Return)
  -- finish_with_deferred_teardown and ensure_uninitialized
  | unlockForTeardown
  | lockTeardown
  | ensureCheck
  | unlockTeardown
  -- teardown_impl
  | lockForTeardown
  | close
  | deinitCall
  | inDeinit
  | unlockForWait (needWait : Bool)
  | drain
  | publish (needWait : Bool)
deriving DecidableEq

/-- The local variables of a public call. -/
structure CallLocals where
  /-- The callback that a subscription replaced. -/
  previous : Option CallbackId := none
  code : UInt16 := 0
  out : Snapshot := .empty

/-! ### Deliveries -/

/-- A raw callback handed to the vendor, by the number of the `init` call it belongs to. -/
structure Raw where
  topic : Topic
  generation : Nat
deriving DecidableEq

/-- What the vendor delivers; a short buffer is dropped before the adapter sees it. -/
inductive Payload
  | status (linked authority : Bool)
  | imu (sample : ImuSample)
  | sport (sample : SportSample)
  | lidar

/-- The topic of a payload. -/
def Payload.topic : Payload → Topic
  | .status _ _ => .status
  | .imu _ => .data .imu
  | .sport _ => .data .sport
  | .lidar => .data .lidar

/-- The program counter of a delivery. -/
inductive DeliveryPc (κ : Type)
  | gate
  /-- Counted in flight, with the callback that was found. -/
  | counted (callback : Option CallbackId)
  /-- The project callback runs; the marker it replaced. -/
  | executing (callback : CallbackId) (previous : Option κ)
  | leave
deriving DecidableEq

/-! ### Frames -/

/-- A call or a delivery in progress on some thread. -/
inductive Frame (κ : Type)
  | call (a : κ) (c : ApiCall) (l : CallLocals) (pc : CallPc)
  | delivery (a : κ) (r : Raw) (d : Payload) (pc : DeliveryPc κ)

/-- `t_active_impl` and `t_vendor_frames`, innermost first. -/
structure ThreadLocals (κ : Type) where
  active : Option κ := none
  vendorFrames : List κ := []

/-- `in_vendor_frames`. -/
def ThreadLocals.inVendorFrames {κ : Type} [DecidableEq κ] (t : ThreadLocals κ) (a : κ) : Bool :=
  decide (a ∈ t.vendorFrames)

/-- `in_callback_context`. -/
def ThreadLocals.inCallbackContext {κ : Type} [DecidableEq κ] (t : ThreadLocals κ) (a : κ) : Bool :=
  t.active == some a || t.inVendorFrames a

/-! ### The adapter -/

/-- `State`. -/
inductive State
  | uninitialized
  | initializing
  | initialized
  | shuttingDown
deriving DecidableEq

/-- The gate lets deliveries in. -/
def State.accepts : State → Bool
  | .uninitialized | .shuttingDown => false
  | .initializing | .initialized => true

/-- `detail::AstrallSdkImpl`. -/
structure Impl extends Caches where
  /-- The mutexes are held by some thread. -/
  lifecycleMutex : Bool := false
  teardownMutex : Bool := false
  state : State := .uninitialized
  /-- `callbacks.on_status`, and the callbacks of the subscriptions. -/
  callback : Topic → Option CallbackId := fun _ => none
  inFlight : Nat := 0
  deferredTeardown : Bool := false
  /-- How many `init` calls have entered `Initializing`. -/
  generation : Nat := 0
  /-- The raw callbacks that the vendor holds. -/
  raws : List Raw := []

/-- What happened, as the history records it. -/
inductive Event (κ : Type)
  /-- An `init` call enters `Initializing`. -/
  | entered (a : κ)
  | vendorCalled (a : κ) (call : VendorCall)
  | vendorReturned (a : κ) (call : VendorCall) (code : UInt16)
  /-- `ensure_uninitialized` decides to return, on behalf of this call. -/
  | returnCheck (a : κ) (c : ApiCall)
  /-- A teardown publishes `Uninitialized`, after a wait or without. -/
  | published (a : κ) (waited : Bool)
  | callbackStarted (a : κ) (r : Raw) (callback : CallbackId)
  | callbackEnded (a : κ) (r : Raw) (callback : CallbackId)
  | returned (a : κ) (c : ApiCall) (ret : Return)
deriving DecidableEq

end HypertronBridge.Adapter
