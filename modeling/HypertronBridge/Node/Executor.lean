import HypertronBridge.Lib.Binary64
import HypertronBridge.Node.Step

namespace HypertronBridge.Node

open TransitionSystem HypertronBridge.Runtime

/-!
# The executor (`driver_main.cpp`, `driver_node.cpp`)

`main` spins the node, so one thread takes its messages and service requests, one after another, and
runs the callback of each to its end.  It is the only client of the runtime; the worker, the SDK's
threads and the clock go on meanwhile.

* `Incoming` — what the executor takes; `Entry` — a callback before its next section;
* `Entry.run` — the next section; `Executor.step` — one step of the executor or of the other threads;
* `Executor.Run.system` — the executor is one user of the node: its every run is a run of the node.

The outcome of a mode request is only logged, as are rejected messages; these texts are left out.
-/

/-! ### Messages and requests -/

/-- `Twist`, as far as `on_cmd_vel` reads it. -/
structure Twist where
  linearX : Binary64
  linearY : Binary64
  angularZ : Binary64
deriving DecidableEq

/-- What the executor takes. -/
inductive Incoming
  | cmdVel (twist : Twist)
  | robotMode (data : String)
  | jointCommands
  | emergencyStop (data : Bool)
  | controlAuthority (data : Bool)
deriving DecidableEq

/-- `SetBool::Response`. -/
structure Response where
  success : Bool
  message : String
deriving DecidableEq

/-- `clamp_unit`. -/
def clampUnit (v : Binary32) : Binary32 :=
  let low := if v.lt .one then v else .one
  if Binary32.negOne.lt low then low else .negOne

namespace Twist

/-- The check of `on_cmd_vel`. -/
def isFinite (twist : Twist) : Bool :=
  twist.linearX.isFinite && twist.linearY.isFinite && twist.angularZ.isFinite

/-- What `on_cmd_vel` submits. -/
def velocity (twist : Twist) : Velocity where
  vx := clampUnit twist.linearX.toBinary32
  vy := clampUnit twist.linearY.toBinary32
  vyaw := clampUnit twist.angularZ.toBinary32

end Twist

/-- `robot_mode_names`. -/
def robotModeNames : List String :=
  ["damping", "stand", "down", "move", "auto_charge", "exit_charge", "recover", "recovery"]

/-- `trimmed_lower`. -/
def trimmedLower (input : String) : String :=
  let blank (c : Char) : Bool := c = ' ' || c = '\t' || c = '\r' || c = '\n'
  let first := input.toList.dropWhile blank
  let last := (first.reverse.dropWhile blank).reverse
  String.ofList (last.map Char.toLower)

/-! ### Callbacks -/

/-- Who waits for a future of the runtime. -/
inductive Waiter
  | robotMode
  | emergencyStop (data : Bool)
  | controlAuthority (data : Bool)
deriving DecidableEq

/-- A callback before its next section. -/
inductive Entry
  -- on_cmd_vel
  | submit (twist : Twist)
  -- on_robot_mode
  | requestMode (name : String)
  | modeCall (p : PromiseId)
  -- on_emergency_stop
  | writeEstop (data : Bool)
  | triggerEstop (data : Bool)
  | markEstop (p : PromiseId)
  -- on_control_authority
  | requestAuthority (data : Bool)
  -- the wait for a future
  | startWait (waiter : Waiter) (p : PromiseId)
  | wait (waiter : Waiter) (p : PromiseId) (deadline : Time)
  -- reject_joint_command, and an event of the runtime on this thread
  | countJoint
  | updateLastError (message : String)
  | publish
deriving DecidableEq

/-- What the executor did. -/
inductive Turn
  | took (message : Incoming)
  /-- `submit_velocity`, and when. -/
  | submitted (twist : Twist) (time : Time)
  /-- The response to a service request. -/
  | responded (waiter : Waiter) (p : PromiseId) (response : Response)
  /-- The callback returned. -/
  | returned
deriving DecidableEq

/-- The parameters that the callbacks read. -/
structure ExecutorConfig where
  node : NodeConfig
  sdkCallTimeoutMs : UInt32 := 5000

/-- How long a callback waits; the product has 32 bits. -/
def Waiter.timeout (cfg : ExecutorConfig) : Waiter → Time
  | .robotMode => ms 50
  | .emergencyStop _ | .controlAuthority _ => ms ((2 * cfg.sdkCallTimeoutMs).toNat + 2000)

/-- The response when the wait is over. -/
def Waiter.late : Waiter → String
  | .robotMode => ""
  | .emergencyStop _ =>
      "estop request latched locally but SDK execution was not confirmed within the service timeout"
  | .controlAuthority _ => "control authority request not confirmed within the service timeout"

/-- The result that the future of `p` holds. -/
def resultOf (p : PromiseId) (trace : List Runtime.Event) : Option Result :=
  trace.findSome? fun e =>
    match e with
    | .resolved q r => if q = p then some r else none
    | _ => none

/-- The first section of a callback; some return at once. -/
def Incoming.entry : Incoming → Option Entry
  | .cmdVel twist => if twist.isFinite then some (.submit twist) else none
  | .robotMode data =>
      let name := trimmedLower data
      if name ∈ robotModeNames then some (.requestMode name) else none
  | .jointCommands => some .countJoint
  | .emergencyStop data => some (.writeEstop data)
  | .controlAuthority data => some (.requestAuthority data)

/-- What one section does: a step of the node, the rest of the callback, and what is recorded. -/
structure EntrySection where
  action : Option Action
  next : Option Entry
  turns : List Turn := []

/-- A service answers, and publishes the robot's state; a mode request returns. -/
def Waiter.finish (waiter : Waiter) (p : PromiseId) (response : Response) : EntrySection :=
  match waiter with
  | .robotMode => { action := none, next := none }
  | .emergencyStop _ | .controlAuthority _ =>
      { action := none, next := some .publish, turns := [.responded waiter p response] }

/-- The next section of a callback; none while it waits. -/
def Entry.run (cfg : ExecutorConfig) (s : System) : Entry → Option EntrySection
  | .submit twist =>
      let decision := (s.world.ctl.acceptVelocity s.world.clock twist.velocity).1
      some {
        action := some (.runtime (.submitVelocity twist.velocity))
        next := if decision.accepted then none
          else some (.updateLastError ("velocity rejected: " ++ decision.reason))
        turns := [.submitted twist s.world.clock] }
  | .requestMode name =>
      some {
        action := some (.runtime (.requestMode name))
        next := some (.modeCall s.world.nextPromise) }
  | .modeCall p =>
      match s.world.calls p with
      | some (.modeAccept _) =>
          some { action := some (.runtime (.acceptMode p)), next := some (.modeCall p) }
      | some (.modeEnqueue _) =>
          some { action := some (.runtime (.enqueueMode p)), next := some (.startWait .robotMode p) }
      | _ => some { action := none, next := some (.startWait .robotMode p) }
  | .writeEstop data => some { action := some (.estop data), next := some (.triggerEstop data) }
  | .triggerEstop false =>
      some {
        action := some (.runtime .clearEstop)
        next := some (.startWait (.emergencyStop false) s.world.nextPromise) }
  | .triggerEstop true =>
      some {
        action := some (.runtime .latchEstop)
        next := some (.markEstop s.world.nextPromise) }
  | .markEstop p =>
      some {
        action := some (.runtime (.markEstop p))
        next := some (.startWait (.emergencyStop true) p) }
  | .requestAuthority data =>
      some {
        action := some (.runtime (.requestAuthority data))
        next := some (.startWait (.controlAuthority data) s.world.nextPromise) }
  | .startWait waiter p =>
      some { action := none, next := some (.wait waiter p (s.world.clock + waiter.timeout cfg)) }
  | .wait waiter p deadline =>
      match resultOf p s.world.trace with
      | some r => some (waiter.finish p ⟨r.success, r.message⟩)
      | none =>
          if deadline ≤ s.world.clock then some (waiter.finish p ⟨false, waiter.late⟩) else none
  | .countJoint =>
      some {
        action := some .rejectJointCommand
        next := some (.updateLastError
          "joint command rejected: ASTRALL 1.0.7 exposes no joint API") }
  | .updateLastError message =>
      some { action := some (.lastError message), next := some .publish }
  | .publish => some { action := some .publish, next := none }

/-! ### The executor and the other threads -/

/-- The node, the callback in progress, and what the executor did, newest first. -/
structure Executor where
  system : System
  entry : Option Entry := none
  log : List Turn := []

/-- The actions. -/
inductive Move
  /-- The executor is free and takes a message. -/
  | take (message : Incoming)
  /-- The next section of the callback in progress. -/
  | proceed
  /-- A step of another thread. -/
  | others (b : Action)

/-- The actions of the other threads: no client call of the runtime, and no write of a callback. -/
def Action.byOthers : Action → Bool
  | .runtime a =>
      match a with
      | .submitVelocity _ | .clearEstop | .latchEstop | .markEstop _ | .requestAuthority _
      | .requestMode _ | .acceptMode _ | .enqueueMode _ => false
      | _ => true
  | .estop _ | .rejectJointCommand => false
  | _ => true

/-- What is recorded when a callback returns. -/
def returns : Option Entry → List Turn
  | none => [.returned]
  | some _ => []

/-- Other threads, in a schedule. -/
def elsewhere (bs : List Action) : List Move := bs.map .others

namespace Executor

/-- The next section of the callback in progress. -/
def proceed (cfg : ExecutorConfig) (s : Executor) : Option Executor := do
  let entry ← s.entry
  let part ← entry.run cfg s.system
  let system ← part.action.elim (some s.system) (fun b => System.step cfg.node b s.system)
  return { system, entry := part.next, log := returns part.next ++ part.turns ++ s.log }

/-- One step. -/
def step (cfg : ExecutorConfig) (m : Move) (s : Executor) : Option Executor :=
  match m with
  | .take message =>
      if s.entry.isNone then
        some { s with
          entry := message.entry
          log := returns message.entry ++ .took message :: s.log }
      else none
  | .proceed => s.proceed cfg
  | .others b =>
      if b.byOthers then
        (System.step cfg.node b s.system).map fun system => { s with system }
      else none

/-- A constructed node that has not been spun. -/
def initial (cfg : ExecutorConfig) : Executor := { system := System.initial cfg.node }

/-- The states of all runs. -/
def Run (cfg : ExecutorConfig) (s : Executor) : Prop :=
  Reaches (step cfg) (fun _ _ => True) (initial cfg) s

/-- Run a schedule from the start. -/
def exec (cfg : ExecutorConfig) (schedule : List Move) : Option Executor :=
  execGuarded (step cfg) (fun _ _ => True) schedule (initial cfg)

/-- What a schedule's end shows, a run shows. -/
theorem exists_run_of_exec (cfg : ExecutorConfig) (schedule : List Move) (P : Executor → Bool)
    (h : (exec cfg schedule).any P = true) : ∃ s, Run cfg s ∧ P s = true := by
  exact exists_reaches_of_execGuarded schedule P h

end Executor

/-! ### The runtime in the node -/

/-- The step of the runtime in a step of the node. -/
def Action.inRuntime : Action → Option Runtime.Action
  | .runtime a => some a
  | .poll snapshot => some (.worker { snapshot := snapshot.toSdkSnapshot })
  | _ => none

/-- **The runtime's side of a step.** -/
theorem System.step_world {cfg : NodeConfig} {b : Action} {s s' : System}
    (hs : System.step cfg b s = some s') :
    b.inRuntime.elim (some s.world) (fun a => Runtime.step cfg.runtime a s.world) = some s'.world := by
  cases b
  case runtime a =>
    show Runtime.step cfg.runtime a s.world = some s'.world
    cases a
    all_goals simp only [System.step] at hs
    case worker ans =>
      split at hs
      · exact absurd hs (by simp)
      · obtain ⟨w, hw, rfl⟩ := Option.map_eq_some_iff.mp hs
        exact hw
    all_goals
      obtain ⟨w, hw, rfl⟩ := Option.map_eq_some_iff.mp hs
      exact hw
  case poll snapshot =>
    show Runtime.step cfg.runtime (.worker { snapshot := snapshot.toSdkSnapshot }) s.world = some s'.world
    rw [System.step, Option.ite_none_right_eq_some] at hs
    obtain ⟨w, hw, rfl⟩ := Option.map_eq_some_iff.mp hs.2
    exact hw
  case call i | onState =>
    obtain ⟨c, -, rfl⟩ := Option.map_eq_some_iff.mp hs
    rfl
  case sport sample =>
    have hworld : s.world = s'.world := by
      rw [← Option.some.inj hs]
      split_ifs <;> rfl
    exact congrArg some hworld
  all_goals
    obtain rfl := Option.some.inj hs
    rfl

/-! ### What a section does -/

variable {cfg : ExecutorConfig} {s s' : Executor} {m : Move}

/-- The future of `p` holds the response, or the wait for it is over. -/
def Responds (s : System) (waiter : Waiter) (p : PromiseId) (deadline : Time) (response : Response) :
    Prop :=
  (∃ r, resultOf p s.world.trace = some r ∧ response = ⟨r.success, r.message⟩) ∨
    resultOf p s.world.trace = none ∧ deadline ≤ s.world.clock ∧ response = ⟨false, waiter.late⟩

/-- **What one section does.** -/
inductive Ran (cfg : ExecutorConfig) (s : System) : Entry → EntrySection → Prop
  | submit (twist : Twist) {next : Option Entry}
      (hnext : next = none ∨ ∃ message, next = some (.updateLastError message)) :
      Ran cfg s (.submit twist) {
        action := some (.runtime (.submitVelocity twist.velocity))
        next
        turns := [.submitted twist s.world.clock] }
  | requestMode (name : String) :
      Ran cfg s (.requestMode name) {
        action := some (.runtime (.requestMode name))
        next := some (.modeCall s.world.nextPromise) }
  | acceptMode (p : PromiseId) {name : String} (hcall : s.world.calls p = some (.modeAccept name)) :
      Ran cfg s (.modeCall p) {
        action := some (.runtime (.acceptMode p)), next := some (.modeCall p) }
  | enqueueMode (p : PromiseId) {mode : UInt16} (hcall : s.world.calls p = some (.modeEnqueue mode)) :
      Ran cfg s (.modeCall p) {
        action := some (.runtime (.enqueueMode p)), next := some (.startWait .robotMode p) }
  | modeAnswered (p : PromiseId) (hcall : s.world.calls p ≠ none → s.world.calls p = some .estopMark) :
      Ran cfg s (.modeCall p) { action := none, next := some (.startWait .robotMode p) }
  | writeEstop (data : Bool) :
      Ran cfg s (.writeEstop data) { action := some (.estop data), next := some (.triggerEstop data) }
  | clearEstop :
      Ran cfg s (.triggerEstop false) {
        action := some (.runtime .clearEstop)
        next := some (.startWait (.emergencyStop false) s.world.nextPromise) }
  | latchEstop :
      Ran cfg s (.triggerEstop true) {
        action := some (.runtime .latchEstop)
        next := some (.markEstop s.world.nextPromise) }
  | markEstop (p : PromiseId) :
      Ran cfg s (.markEstop p) {
        action := some (.runtime (.markEstop p))
        next := some (.startWait (.emergencyStop true) p) }
  | requestAuthority (data : Bool) :
      Ran cfg s (.requestAuthority data) {
        action := some (.runtime (.requestAuthority data))
        next := some (.startWait (.controlAuthority data) s.world.nextPromise) }
  | startWait (waiter : Waiter) (p : PromiseId) :
      Ran cfg s (.startWait waiter p) {
        action := none, next := some (.wait waiter p (s.world.clock + waiter.timeout cfg)) }
  | modeOver (p : PromiseId) (deadline : Time) :
      Ran cfg s (.wait .robotMode p deadline) { action := none, next := none }
  | responded (waiter : Waiter) (p : PromiseId) (deadline : Time) (response : Response)
      (hwaiter : waiter ≠ .robotMode) (hresponse : Responds s waiter p deadline response) :
      Ran cfg s (.wait waiter p deadline) {
        action := none, next := some .publish, turns := [.responded waiter p response] }
  | countJoint (message : String) :
      Ran cfg s .countJoint {
        action := some .rejectJointCommand, next := some (.updateLastError message) }
  | updateLastError (message : String) :
      Ran cfg s (.updateLastError message) {
        action := some (.lastError message), next := some .publish }
  | publish : Ran cfg s .publish { action := some .publish, next := none }

/-- The end of a wait. -/
theorem Ran.finish {s : System} {waiter : Waiter} {p : PromiseId} {deadline : Time} {response : Response}
    (h : Responds s waiter p deadline response) :
    Ran cfg s (.wait waiter p deadline) (waiter.finish p response) := by
  cases waiter with
  | robotMode => exact .modeOver p deadline
  | emergencyStop data => exact .responded _ p deadline response (by simp) h
  | controlAuthority data => exact .responded _ p deadline response (by simp) h

/-- **Inversion.** -/
theorem Entry.ran {entry : Entry} {part : EntrySection} {s : System}
    (h : entry.run cfg s = some part) : Ran cfg s entry part := by
  cases entry with
  | submit twist =>
    obtain rfl := Option.some.inj h
    refine .submit twist ?_
    split_ifs
    · exact Or.inl rfl
    · exact Or.inr ⟨_, rfl⟩
  | modeCall p =>
    rw [Entry.run] at h
    split at h
    · rename_i hcall
      obtain rfl := Option.some.inj h
      exact .acceptMode p hcall
    · rename_i hcall
      obtain rfl := Option.some.inj h
      exact .enqueueMode p hcall
    · rename_i haccept henqueue
      obtain rfl := Option.some.inj h
      refine .modeAnswered p (fun hne => ?_)
      obtain ⟨call, hcall⟩ := Option.ne_none_iff_exists'.mp hne
      cases call with
      | estopMark => exact hcall
      | modeAccept name => exact absurd hcall (haccept name)
      | modeEnqueue mode => exact absurd hcall (henqueue mode)
  | triggerEstop data =>
    cases data with
    | false =>
      obtain rfl := Option.some.inj h
      exact .clearEstop
    | true =>
      obtain rfl := Option.some.inj h
      exact .latchEstop
  | wait waiter p deadline =>
    rw [Entry.run] at h
    split at h
    · rename_i r hr
      obtain rfl := Option.some.inj h
      exact .finish (Or.inl ⟨r, hr, rfl⟩)
    · rename_i hnone
      rw [Option.ite_none_right_eq_some] at h
      obtain ⟨hle, h⟩ := h
      obtain rfl := Option.some.inj h
      exact .finish (Or.inr ⟨hnone, hle, rfl⟩)
  | _ =>
    obtain rfl := Option.some.inj h
    constructor

/-! ### What a step does -/

/-- **What one step does.** The executor takes a message; a callback runs its next section; or
    another thread steps. -/
inductive Moved (cfg : ExecutorConfig) (s : Executor) : Move → Executor → Prop
  | took {message : Incoming} (hidle : s.entry = none) :
      Moved cfg s (.take message) { s with
        entry := message.entry
        log := returns message.entry ++ .took message :: s.log }
  | stayed {entry : Entry} {part : EntrySection} (hentry : s.entry = some entry)
      (hran : Ran cfg s.system entry part) (hnone : part.action = none) :
      Moved cfg s .proceed { s with
        entry := part.next
        log := returns part.next ++ part.turns ++ s.log }
  | acted {entry : Entry} {part : EntrySection} {b : Action} {system : System}
      (hentry : s.entry = some entry) (hran : Ran cfg s.system entry part)
      (hb : part.action = some b) (hs : System.step cfg.node b s.system = some system) :
      Moved cfg s .proceed
        { system, entry := part.next, log := returns part.next ++ part.turns ++ s.log }
  | others {b : Action} {system : System} (hb : b.byOthers = true)
      (hs : System.step cfg.node b s.system = some system) :
      Moved cfg s (.others b) { s with system }

/-- **Inversion.** -/
theorem moved (hs : Executor.step cfg m s = some s') : Moved cfg s m s' := by
  cases m with
  | take message =>
    simp only [Executor.step, Option.ite_none_right_eq_some, Option.some.injEq] at hs
    obtain ⟨hidle, rfl⟩ := hs
    exact .took (Option.isNone_iff_eq_none.mp hidle)
  | proceed =>
    obtain ⟨entry, hentry, hs⟩ := Option.bind_eq_some_iff.mp hs
    obtain ⟨part, hpart, hs⟩ := Option.bind_eq_some_iff.mp hs
    obtain ⟨system, hsystem, hs⟩ := Option.bind_eq_some_iff.mp hs
    obtain rfl := Option.some.inj hs
    cases haction : part.action with
    | none =>
      rw [haction] at hsystem
      obtain rfl := Option.some.inj hsystem
      exact .stayed hentry (Entry.ran hpart) haction
    | some b =>
      rw [haction] at hsystem
      exact .acted hentry (Entry.ran hpart) haction hsystem
  | others b =>
    simp only [Executor.step, Option.ite_none_right_eq_some] at hs
    obtain ⟨hb, hs⟩ := hs
    obtain ⟨system, hsystem, rfl⟩ := Option.map_eq_some_iff.mp hs
    exact .others hb hsystem

namespace Executor

/-- **The executor is one user of the node.** Its every run is a run of the node. -/
theorem Run.system (h : Run cfg s) : System.Run cfg.node (fun _ _ => True) s.system := by
  have hreach : Reaches (step cfg) (fun _ _ => True) (initial cfg) s := h
  refine hreach.project Executor.system (fun s m s' _ hmove => ?_)
  cases moved hmove with
  | took _ | stayed _ _ _ => exact Or.inl rfl
  | acted _ _ _ hs | others _ hs => exact Or.inr ⟨_, trivial, hs⟩

/-- And of the runtime. -/
theorem Run.reachable (h : Run cfg s) : Reachable cfg.node.runtime s.system.world :=
  h.system.reachable

/-- **Run rule.** -/
theorem Run.invariant {I : Executor → Prop} (h : Run cfg s) (h₀ : I (initial cfg))
    (hstep : ∀ s m s', Run cfg s → I s → Moved cfg s m s' → I s') : I s :=
  Reaches.invariant h h₀ (fun s m s' hrun hI _ hs => hstep s m s' hrun hI (moved hs))

end Executor

end HypertronBridge.Node
