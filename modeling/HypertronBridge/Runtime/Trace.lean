import HypertronBridge.Runtime.Session
import HypertronBridge.Lib.History

namespace HypertronBridge.Runtime

open TransitionSystem History

/-!
# Steps and the trace

Every step only adds events to the trace, and the controller after it is the controller before
it with the added controller calls performed: `step_extends`.  `EventOf w a` lists which events a
step of action `a` in `w` may add, so that history invariants are proved from it without
looking at the step function again.
-/

variable {cfg : RuntimeConfig} {w w' : World} {a : Action} {ans : Answer}
  {ok : World → Action → Prop}

/-- `Extends deadman now P c t c' t'`: performing the controller calls of some new events, all
    satisfying `P`, takes the controller `c` with trace `t` to `c'` with trace `t'`. -/
inductive Extends (deadman now : Time) (P : Event → Prop) (c : RobotController) (t : List Event) :
    RobotController → List Event → Prop
  | refl : Extends deadman now P c t c t
  | control {c' : RobotController} {t' : List Event} {op : Operation} :
      Extends deadman now P c t c' t' → P (.control (op.call deadman now c')) →
      Extends deadman now P c t (op.apply deadman now c').2
        (.control (op.call deadman now c') :: t')
  | other {c' : RobotController} {t' : List Event} {e : Event} :
      Extends deadman now P c t c' t' → P e → (∀ call, e ≠ .control call) →
      Extends deadman now P c t c' (e :: t')

/-- The trace only grows. -/
theorem Extends.trace {deadman now : Time} {P : Event → Prop} {c c' : RobotController}
    {t t' : List Event} (h : Extends deadman now P c t c' t') :
    ∃ new, t' = new ++ t ∧ ∀ e ∈ new, P e := by
  induction h with
  | refl => exact ⟨[], rfl, by simp⟩
  | control _ he ih | other _ he _ ih =>
    obtain ⟨new, heq, hnew⟩ := ih
    exact ⟨_ :: new, by rw [heq]; rfl, List.forall_mem_cons.mpr ⟨he, hnew⟩⟩

/-- `w'` is `w` after some events that satisfy `P`, as far as controller and trace go. -/
def World.Extends (cfg : RuntimeConfig) (P : Event → Prop) (w w' : World) : Prop :=
  Runtime.Extends (ms cfg.deadmanMs) w.clock P w.ctl w.trace w'.ctl w'.trace

/-- The program counter a worker step starts from; `none` for the steps of the others. -/
@[simp] def World.workerAt (w : World) : Action → Option Pc
  | .worker _ => some w.wk.pc
  | _ => none

/-- A step is the worker's or a client's. -/
theorem World.worker_or_client (w : World) (a : Action) :
    (∃ ans, a = .worker ans) ∨ w.workerAt a = none := by
  cases a <;> simp

/-- The events that client calls and status callbacks may add. -/
def Event.byClient : Event → Bool
  | .control call =>
      match call.op with
      | .velocityForTick | .setDriverReady _ | .invalidateConnection
      | .completeModeTransition true => false
      | _ => true
  | .requested _ _ | .accepted _ _ | .enqueued _ | .resolved _ _ | .statusReport _ _ => true
  | _ => false

/-- The client calls that ask for an actuation: velocities, authority, modes, stops. -/
def Action.asksActuation : Action → Bool
  | .submitVelocity _ | .requestAuthority _ | .requestMode _ | .latchEstop => true
  | _ => false

/-- The events that those calls record first. -/
def Event.asksActuation : Event → Bool
  | .control call =>
      match call.op with
      | .acceptVelocity _ => true
      | _ => false
  | .requested _ .clearEstop => false
  | .requested _ _ => true
  | _ => false

/-- The command that the worker is executing, up to its last call. -/
def Pc.commands : Pc → List Command
  | .execAuthority p sdk => [⟨.requestAuthority sdk, p⟩]
  | .execMode p mode | .execZero p mode | .execSetMode p mode => [⟨.requestMode mode, p⟩]
  | _ => []

/-- The actuating SDK call that the worker is about to make, and on whose behalf. -/
def Pc.sdkCall : Pc → Option (Origin × SdkCall)
  | .execAuthority p sdk => some (.command ⟨.requestAuthority sdk, p⟩, .requestAuthority sdk)
  | .execZero p mode => some (.command ⟨.requestMode mode, p⟩, .move .zero)
  | .execSetMode p mode => some (.command ⟨.requestMode mode, p⟩, .setMode mode)
  | .tickMove target => some (.tick, .move target)
  | .estopZero p => some (.estop p, .move .zero)
  | .estopDamp p _ => some (.estop p, .setMode modeDamping)
  | .stopZero => some (.stop, .move .zero)
  | .stopDamp _ => some (.stop, .setMode modeDamping)
  | _ => none

/-- Where promise `p` may be answered with success: by `trigger_estop(false)`, by an executed
    authority request or emergency stop, and by a confirmed mode transition.  (A failed mode
    command carries its own answer.) -/
def World.successAt (w : World) (p : PromiseId) : Action → Prop
  | .clearEstop => p = w.nextPromise
  | .worker _ =>
      match w.wk.pc with
      | .execAuthority q _ => p = q
      | .estopDamp q moved => p = q ∧ moved = true
      | .execFail q _ r => p = q ∧ r.success = true
      | .checkComplete _ => p = w.wk.transition.promise
      | _ => False
  | _ => False

/-- Events of the SDK's life and of what it reports about link and authority. -/
def Event.aboutLink : Event → Bool
  | .initStarted | .deinitReturned | .statusReport _ _ => true
  | .control call =>
      match call.op with
      | .updateRobotState _ => true
      | _ => false
  | _ => false

/-- The steps with such events: `init`, `deinit`, the status callbacks and the status updates of
    the controller. -/
def World.aboutLink (w : World) : Action → Bool
  | .status _ _ => true
  | .worker _ =>
      match w.wk.pc with
      | .initCall | .deinit _ | .pollApply _ | .invalidateStatus _ => true
      | _ => false
  | _ => false

/-- The events of the controller's gate for mode requests. -/
def Event.accepts : Event → Bool
  | .accepted _ _ => true
  | .control call =>
      match call.op with
      | .requestMode _ => true
      | _ => false
  | _ => false

/-- A mode command. -/
def Command.isMode (c : Command) : Bool :=
  match c.kind with
  | .requestMode _ => true
  | .requestAuthority _ => false

/-- The steps that end the controller's pending transition: unhealthy statuses, completions and
    the sections of the teardown. -/
def World.endsTransition (w : World) : Action → Bool
  | .status linked authority =>
      !ControllerStatus.healthy ⟨linked, authority, w.shared.lastSnapshotSportStatus,
        w.shared.lastSnapshotErrorCode⟩
  | .enqueueMode p =>
      match w.calls p with
      | some (.modeEnqueue mode) =>
          w.shared.sessionDown || !(w.queue.push ⟨.requestMode mode, p⟩).1
      | _ => false
  | .worker _ =>
      match w.wk.pc with
      | .estopAbort _ | .estopUndo _ _ | .orphanFail | .execFail _ _ _ | .execThrow _ _ | .settle
      | .pollOrphanFail _ | .checkComplete _ | .checkTimeout | .invalidateStatus _
      | .invalidateConnection _ => true
      | .drain => w.queue.items.any Command.isMode
      | .pollApply s =>
          !ControllerStatus.healthy ⟨w.shared.sdkLinked, w.shared.controlAuthority, s.sportStatus,
            s.errorCode⟩
      | _ => false
  | _ => false

/-- The events that a step of action `a` in `w` may add, where it matters who adds them. -/
structure EventOf (w : World) (a : Action) (e : Event) : Prop where
  client : w.workerAt a = none → e.byClient = true
  opened : e = .sessionOpened → w.workerAt a = some .connect
  closed : e = .sessionClosed → w.workerAt a = some .drain
  tick : ∀ t o, e = .control ⟨t, .velocityForTick, o⟩ → w.workerAt a = some .tickRead
  request : ∀ p r, e = .requested p r → w.workerAt a = none
  enqueue : ∀ c, e = .enqueued c → w.workerAt a = none
  asks : e.asksActuation = true → a.asksActuation = true
  sdk : ∀ o call r, e = .sdk o call r →
    ∃ pc, w.workerAt a = some pc ∧ pc.sdkCall = some (o, call)
  success : ∀ p r, e = .resolved p r → r.success = true → w.successAt p a
  link : e.aboutLink = true → w.aboutLink a = true
  accept : e.accepts = true → ∃ p, a = .acceptMode p
  gate : ∀ call, e = .control call → call.gateEvent = true →
    w.endsTransition a = true ∨ ∃ p, a = .acceptMode p
  confirm : ∀ t o, e = .control ⟨t, .completeModeTransition true, o⟩ →
    ∃ s, w.workerAt a = some (.checkComplete s)
  latch : ∀ t op o, e = .control ⟨t, op, o⟩ → op = .triggerEstop ∨ op = .clearEstop →
    a = .latchEstop ∨ a = .clearEstop
  arm : ∀ c d, e = .armed c d → ∃ p mode, w.workerAt a = some (.execSetMode p mode)

theorem EventOf.resolved (p : PromiseId) (r : Result) (hr : r.success = false) :
    EventOf w a (.resolved p r) := by
  refine ⟨by simp [Event.byClient], by simp, by simp, by simp, by simp, by simp,
    by simp [Event.asksActuation], by simp, fun p' r' heq hok => ?_, by simp [Event.aboutLink],
    by simp [Event.accepts], by simp, by simp, by simp, by simp⟩
  rw [← (Event.resolved.inj heq).2, hr] at hok
  exact absurd hok (by simp)

/-- The worker's call of the SDK at its place. -/
theorem EventOf.called {pc : Pc} {ans : Answer} {o : Origin} {call : SdkCall} (hpc : w.wk.pc = pc)
    (hcall : pc.sdkCall = some (o, call)) (r : Outcome) :
    EventOf w (.worker ans) (.sdk o call r) := by
  refine ⟨by simp, by simp, by simp, by simp, by simp, by simp, by simp [Event.asksActuation],
    fun _ _ _ he => ?_, by simp, by simp [Event.aboutLink], by simp [Event.accepts], by simp, by simp,
    by simp, by simp⟩
  obtain ⟨rfl, rfl, -⟩ := Event.sdk.inj he
  exact ⟨pc, congrArg some hpc, hcall⟩

theorem EventOf.requested (ha : w.workerAt a = none) (p : PromiseId) (r : Request)
    (hr : r = .clearEstop ∨ a.asksActuation = true) : EventOf w a (.requested p r) := by
  refine ⟨by simp [Event.byClient], by simp, by simp, by simp, by simp [-World.workerAt, ha], by simp,
    fun he => ?_, by simp, by simp, by simp [Event.aboutLink], by simp [Event.accepts], by simp,
    by simp, by simp, by simp⟩
  rcases hr with rfl | hr
  · exact absurd he (by simp [Event.asksActuation])
  · exact hr

theorem EventOf.completed (h : w.endsTransition a = true) (t : Time) (o : Bool) :
    EventOf w a (.control ⟨t, .completeModeTransition false, o⟩) := by
  constructor <;> simp [Event.byClient, Event.asksActuation, Event.aboutLink, Event.accepts, h]

namespace World.Extends

variable {P : Event → Prop} {v : World}

theorem goto (h : World.Extends cfg P w v) (pc : Pc) : World.Extends cfg P w (v.goto pc) := h

theorem setQueue (h : World.Extends cfg P w v) (q : ThreadSafeQueue .rejectNew Command) :
    World.Extends cfg P w (v.setQueue q) := h

theorem setEstop (h : World.Extends cfg P w v) (engaged : Bool) (p : Option PromiseId) :
    World.Extends cfg P w (v.setEstop engaged p) := h

theorem supersedeEstop (h : World.Extends cfg P w v) (hres : ∀ p r, r.success = false → P (.resolved p r)) :
    World.Extends cfg P w v.supersedeEstop := by
  unfold World.supersedeEstop
  split
  · exact .other h (hres _ _ rfl) (by simp)
  · exact h

theorem makePromise (h : World.Extends cfg P w v) {r : Request}
    (he : P (.requested v.nextPromise r)) : World.Extends cfg P w (v.makePromise r) :=
  .other h he (by simp)

theorem enterBackoff (h : World.Extends cfg P w v) : World.Extends cfg P w v.enterBackoff := h

theorem setCall (h : World.Extends cfg P w v) (p : PromiseId) (call : Option ClientCall) :
    World.Extends cfg P w (v.setCall p call) := h

theorem log (h : World.Extends cfg P w v) {e : Event} (he : P e) (hne : ∀ call, e ≠ .control call) :
    World.Extends cfg P w (v.log e) := .other h he hne

theorem setPromise (h : World.Extends cfg P w v) {p : PromiseId} {r : Result}
    (he : P (.resolved p r)) : World.Extends cfg P w (v.setPromise p r) :=
  h.log he (by simp)

theorem control (h : World.Extends cfg P w v) (hclock : v.clock = w.clock) {op : Operation}
    (hop : ∀ t o, P (.control ⟨t, op, o⟩)) : World.Extends cfg P w (v.control cfg op) := by
  unfold World.Extends
  rw [World.control_ctl, World.control_trace, hclock]
  exact .control h (hop _ _)

theorem failModeTransition (h : World.Extends cfg P w v) (hclock : v.clock = w.clock)
    {r : Result} (complete : Bool) (hr : r.success = false)
    (hres : ∀ p r, r.success = false → P (.resolved p r))
    (hctl : complete = true → ∀ t o, P (.control ⟨t, .completeModeTransition false, o⟩)) :
    World.Extends cfg P w (v.failModeTransition cfg r complete) := by
  have h₁ : World.Extends cfg P w { v with wk.transition.active := false } := h
  simp only [World.failModeTransition]
  split
  · cases complete with
    | false => exact setPromise h₁ (hres _ _ hr)
    | true => exact setPromise (control h₁ hclock (hctl rfl)) (hres _ _ hr)
  · exact h

theorem settleModeTransitionTimeout (h : World.Extends cfg P w v) (hclock : v.clock = w.clock)
    (hres : ∀ p r, r.success = false → P (.resolved p r))
    (hctl : ∀ t o, P (.control ⟨t, .completeModeTransition false, o⟩)) :
    World.Extends cfg P w (v.settleModeTransitionTimeout cfg) :=
  setPromise (control (v := { v with wk.transition.active := false }) h hclock hctl) (hres _ _ rfl)

theorem dropCommands (h : World.Extends cfg P w v) (hclock : v.clock = w.clock)
    {r : Result} (cs : List Command) (hr : r.success = false)
    (hres : ∀ p r, r.success = false → P (.resolved p r))
    (hctl : cs.any Command.isMode = true → ∀ t o, P (.control ⟨t, .completeModeTransition false, o⟩)) :
    World.Extends cfg P w (v.dropCommands cfg r cs) := by
  refine (World.dropCommands_induction (P := fun v => World.Extends cfg P w v ∧ v.clock = w.clock)
    r cs ?_ ?_ ⟨h, hclock⟩).1
  · rintro u c hmem mode hk ⟨hu, hc⟩
    exact ⟨control hu hc (hctl (List.any_eq_true.mpr ⟨c, hmem, by simp [Command.isMode, hk]⟩)), hc⟩
  · rintro u c _ ⟨hu, hc⟩
    exact ⟨setPromise hu (hres _ _ hr), hc⟩

theorem failAllPending (h : World.Extends cfg P w v) (hclock : v.clock = w.clock)
    (hres : ∀ p r, r.success = false → P (.resolved p r))
    (hctl : v.queue.items.any Command.isMode = true →
      ∀ t o, P (.control ⟨t, .completeModeTransition false, o⟩)) :
    World.Extends cfg P w (v.failAllPending cfg) := by
  have hestop : World.Extends cfg P w v.failEstop := by
    unfold World.failEstop
    split
    · split
      · exact setPromise h (hres _ _ rfl)
      · exact h
    · exact h
  have htrans := failModeTransition (r := .failure sdkResNotInit
    "connection lost during a mode transition") hestop (by simpa using hclock) false rfl hres (by simp)
  simp only [World.failAllPending]
  refine dropCommands ?_ (by simpa using hclock) _ rfl hres (by simpa [ThreadSafeQueue.popAll] using hctl)
  exact htrans

end World.Extends

/-- **What one worker step adds.** -/
theorem workerStep_extends (hs : workerStep cfg ans w w.wk.pc = some w') :
    World.Extends cfg (EventOf w (.worker ans)) w w' := by
  have hrefl : World.Extends cfg (EventOf w (.worker ans)) w w := .refl
  cases hpc : w.wk.pc
  all_goals rw [hpc] at hs
  all_goals simp only [workerStep] at hs
  all_goals repeat' split at hs
  all_goals simp only [Option.some.injEq, reduceCtorEq] at hs
  all_goals subst hs
  -- Every branch is built from the helpers, so the closure lemmas take it apart.
  all_goals repeat first
    | with_reducible refine World.Extends.goto ?_ _
    | with_reducible refine World.Extends.enterBackoff ?_
    | with_reducible refine World.Extends.setQueue ?_ _
    | with_reducible refine World.Extends.setEstop ?_ _ _
    | with_reducible refine World.Extends.setPromise ?_ ?_
    | with_reducible refine
        World.Extends.failModeTransition ?_ (by simp) _ ?_ EventOf.resolved (fun hc => EventOf.completed ?_)
    | with_reducible refine
        World.Extends.settleModeTransitionTimeout ?_ (by simp) EventOf.resolved (EventOf.completed ?_)
    | with_reducible refine
        World.Extends.failAllPending ?_ (by simp) EventOf.resolved (fun hc => EventOf.completed ?_)
    | with_reducible refine World.Extends.control ?_ (by simp) (fun t o => ?_)
    | with_reducible refine World.Extends.log ?_ ?_ (by simp)
  all_goals first
    | exact hrefl
    | rfl
    | exact EventOf.resolved _ _ rfl
    | exact EventOf.called hpc rfl _
    | (simp_all only [World.endsTransition, Bool.false_eq_true]; done)
    | (constructor <;> simp [hpc, Pc.sdkCall, Event.asksActuation, World.successAt, Event.aboutLink,
        World.aboutLink, Event.accepts, World.endsTransition, Call.gateEvent])
  -- A successful emergency stop moved first.
  all_goals simp_all

/-- A rejected mode request is answered with a failure. -/
theorem mapModeRejection_success (d : ModeDecision) : (mapModeRejection d).success = false := by
  unfold mapModeRejection
  split
  · split <;> rfl
  all_goals rfl

/-- What the controller's gate of a mode request adds. -/
theorem acceptMode_extends {p : PromiseId} {name : String} :
    World.Extends cfg (EventOf w (.acceptMode p)) w (w.acceptMode cfg p name) := by
  have hctl : World.Extends cfg (EventOf w (.acceptMode p)) w (w.control cfg (.requestMode name)) :=
    .control .refl rfl (fun t o => by
      constructor <;> simp [Event.byClient, Event.asksActuation, Event.aboutLink, Event.accepts])
  simp only [World.acceptMode]
  split
  · refine .setCall (.log hctl ?_ (by simp)) _ _
    constructor <;> simp [Event.byClient, Event.asksActuation, Event.aboutLink, Event.accepts]
  · exact .setCall (.setPromise hctl (.resolved _ _ (mapModeRejection_success _))) _ _

/-- **What one step adds.** The trace grows by events of the step, and the controller moves by
    exactly the calls among them. -/
theorem step_extends (hs : step cfg a w = some w') : World.Extends cfg (EventOf w a) w w' := by
  have hrefl : World.Extends cfg (EventOf w a) w w := .refl
  cases a
  case worker ans => exact workerStep_extends hs
  case acceptMode p =>
    simp only [step] at hs
    split at hs
    · rw [← Option.some.inj hs]
      exact acceptMode_extends
    · exact absurd hs (by simp)
  all_goals simp only [step, World.start, World.markEstop, World.requestAuthority,
    World.requestMode, World.enqueueMode, World.handleStatus] at hs
  all_goals repeat' split at hs
  all_goals simp only [Option.some.injEq, reduceCtorEq] at hs
  all_goals subst hs
  all_goals repeat first
    | with_reducible refine World.Extends.goto ?_ _
    | with_reducible refine World.Extends.setCall ?_ _ _
    | with_reducible refine World.Extends.setQueue ?_ _
    | with_reducible refine World.Extends.setEstop ?_ _ _
    | with_reducible refine World.Extends.supersedeEstop ?_ EventOf.resolved
    | with_reducible refine World.Extends.setPromise ?_ ?_
    | with_reducible refine World.Extends.makePromise ?_ (EventOf.requested rfl _ _ (by simp [Action.asksActuation]))
    | with_reducible refine World.Extends.control ?_ (by simp) (fun t o => ?_)
    | with_reducible refine World.Extends.log ?_ ?_ (by simp)
  all_goals first
    | exact hrefl
    | exact EventOf.resolved _ _ rfl
    | (constructor <;> simp [Event.byClient, Event.asksActuation, Action.asksActuation,
        World.successAt, Event.aboutLink, World.aboutLink, Event.accepts, World.endsTransition,
        Call.gateEvent])
  -- A completion comes from an enqueue that is refused.
  all_goals simp_all

/-! ### The worker's side of a step -/

/-- A step of a client or a callback leaves the worker alone; `start` sends it to work. -/
theorem step_wk (hs : step cfg a w = some w') (ha : w.workerAt a = none) :
    w'.wk = w.wk ∨ (w.wk.pc = .idle ∧ w'.wk = { w.wk with pc := .checkStop }) := by
  cases a
  case worker ans => exact absurd ha (by simp)
  all_goals simp only [step, World.start, World.markEstop, World.requestAuthority,
    World.requestMode, World.acceptMode, World.enqueueMode, World.handleStatus] at hs
  all_goals repeat' split at hs
  all_goals simp only [Option.some.injEq, reduceCtorEq] at hs
  all_goals subst hs
  case start.isTrue h => exact Or.inr ⟨h.1, rfl⟩
  all_goals exact Or.inl (by simp)

/-- The command that a client's step pushes: an authority request, or the mode command that its
    call was accepted for. -/
def World.Pushes (w : World) (a : Action) (c : Command) : Prop :=
  c.isMode = false ∨ ∃ mode, a = .enqueueMode c.promise ∧ c.kind = .requestMode mode ∧
    w.calls c.promise = some (.modeEnqueue mode) ∧ w.shared.sessionDown = false ∧
    w.endsTransition a = false

/-- A client's step leaves the queue alone or pushes one command. -/
theorem step_queue (hs : step cfg a w = some w') (ha : w.workerAt a = none) :
    w'.queue = w.queue ∨ ∃ c, w'.queue.items = w.queue.items ++ [c] ∧ w.Pushes a c := by
  cases a
  case worker ans => exact absurd ha (by simp)
  case requestAuthority sdk =>
    simp only [step, World.requestAuthority, Option.some.injEq] at hs
    subst hs
    split
    · exact Or.inl rfl
    · split
      · rename_i hpush
        rcases w.queue.push_cases ⟨.requestAuthority sdk, w.nextPromise⟩ with heq | ⟨_, hitems⟩
        · exact absurd hpush (by simp [heq])
        · exact Or.inr ⟨_, hitems, Or.inl rfl⟩
      · exact Or.inl rfl
  case enqueueMode q =>
    simp only [step] at hs
    split at hs
    · rename_i mode hcall
      simp only [World.enqueueMode, Option.some.injEq] at hs
      subst hs
      split
      · exact Or.inl rfl
      · rename_i hdown
        split
        · rename_i hpush
          rcases w.queue.push_cases ⟨.requestMode mode, q⟩ with heq | ⟨_, hitems⟩
          · exact absurd hpush (by simp [heq])
          · exact Or.inr ⟨_, hitems, Or.inr ⟨mode, rfl, rfl, hcall, by simpa using hdown,
              by simp [World.endsTransition, hcall, hdown, hpush]⟩⟩
        · exact Or.inl rfl
    · exact absurd hs (by simp)
  all_goals simp only [step, World.start, World.markEstop, World.requestMode, World.acceptMode,
    World.handleStatus] at hs
  all_goals repeat' split at hs
  all_goals simp only [Option.some.injEq, reduceCtorEq] at hs
  all_goals subst hs
  all_goals exact Or.inl (by simp)

/-- The clock never goes back. -/
theorem step_clock_le (hs : step cfg a w = some w') : w.clock ≤ w'.clock := by
  cases a
  case worker ans =>
    simp only [step] at hs
    cases hpc : w.wk.pc
    all_goals rw [hpc] at hs
    all_goals simp only [workerStep] at hs
    all_goals repeat' split at hs
    all_goals simp only [Option.some.injEq, reduceCtorEq] at hs
    all_goals subst hs
    all_goals simp
  all_goals simp only [step, World.start, World.markEstop, World.requestAuthority,
    World.requestMode, World.acceptMode, World.enqueueMode, World.handleStatus] at hs
  all_goals repeat' split at hs
  all_goals simp only [Option.some.injEq, reduceCtorEq] at hs
  all_goals subst hs
  all_goals simp

/-- A session is entered by `connect` only, and left by the session-end drain. -/
theorem workerStep_inSession (hs : workerStep cfg ans w w.wk.pc = some w')
    (hin : w'.wk.pc.inSession = true) :
    w.wk.pc = .connect ∨ (w.wk.pc.inSession = true ∧ w.wk.pc ≠ .drain) := by
  cases hpc : w.wk.pc
  all_goals rw [hpc] at hs
  all_goals simp only [workerStep] at hs
  all_goals repeat' split at hs
  all_goals simp only [Option.some.injEq, reduceCtorEq] at hs
  all_goals subst hs
  all_goals simp [Pc.inSession] at hin ⊢

/-- **Guarded history rule.** A property of the worker and the trace that `start` and the
    events of clients cannot break holds in every state reached, once every worker step that
    meets the guard keeps it. -/
theorem Run.guarded_history {I : Worker → List Event → Prop} (h : Run cfg ok w)
    (hinit : I (World.initial cfg).wk [])
    (hclient : ∀ wk t e, e.byClient = true → I wk t → I wk (e :: t))
    (hstart : ∀ wk t, wk.pc = .idle → I wk t → I { wk with pc := .checkStop } t)
    (hworker : ∀ w ans w', Run cfg ok w → ok w (.worker ans) → I w.wk w.trace →
      workerStep cfg ans w w.wk.pc = some w' → I w'.wk w'.trace) : I w.wk w.trace := by
  refine h.invariant (I := fun w => I w.wk w.trace) hinit (fun s a s' hrun ih hok hs => ?_)
  rcases s.worker_or_client a with ⟨ans, rfl⟩ | ha
  · exact hworker s ans s' hrun hok ih hs
  · obtain ⟨new, heq, hnew⟩ := Extends.trace (step_extends hs)
    have hI : I s.wk s'.trace := by
      rw [heq]
      clear heq
      induction new with
      | nil => exact ih
      | cons e new ihn =>
        exact hclient _ _ e ((hnew e (by simp)).client ha)
          (ihn (fun x hx => hnew x (by simp [hx])))
    rcases step_wk hs ha with hwk | ⟨hidle, hwk⟩
    · rw [hwk]
      exact hI
    · rw [hwk]
      exact hstart _ _ hidle hI

/-- **History rule.** The same without a guard. -/
theorem Run.worker_history {I : Worker → List Event → Prop} (h : Run cfg ok w)
    (hinit : I (World.initial cfg).wk [])
    (hclient : ∀ wk t e, e.byClient = true → I wk t → I wk (e :: t))
    (hstart : ∀ wk t, wk.pc = .idle → I wk t → I { wk with pc := .checkStop } t)
    (hworker : ∀ w ans w', Run cfg ok w → I w.wk w.trace →
      workerStep cfg ans w w.wk.pc = some w' → I w'.wk w'.trace) : I w.wk w.trace :=
  h.guarded_history hinit hclient hstart (fun s ans s' hrun _ ih hs => hworker s ans s' hrun ih hs)

/-- A run whose every step asks for no actuation has no request for one in its trace. -/
theorem Run.asksNothing (h : Run cfg ok w) (hok : ∀ w a, ok w a → a.asksActuation = false) :
    ∀ e ∈ w.trace, e.asksActuation = false := by
  refine h.invariant (I := fun w => ∀ e ∈ w.trace, e.asksActuation = false)
    (by simp [World.initial]) (fun s a s' _ ih hstep hs => ?_)
  obtain ⟨new, heq, hnew⟩ := Extends.trace (step_extends hs)
  intro e he
  rw [heq] at he
  rcases List.mem_append.mp he with he | he
  · by_contra hasks
    have hasks' := (hnew e he).asks (by simpa using hasks)
    rw [hok s a hstep] at hasks'
    exact absurd hasks' (by simp)
  · exact ih e he

/-! ### The SDK calls in the trace -/

/-- The step of an SDK call records the call first, and no other. -/
theorem workerStep_sdk {o : Origin} {call : SdkCall}
    (hs : workerStep cfg ans w w.wk.pc = some w') (hcall : w.wk.pc.sdkCall = some (o, call)) :
    ∃ post r, w'.trace = post ++ .sdk o call r :: w.trace ∧ ∀ e ∈ post, ∀ o c r, e ≠ .sdk o c r := by
  cases hpc : w.wk.pc
  all_goals rw [hpc] at hs hcall
  all_goals simp only [Pc.sdkCall, Option.some.injEq, Prod.mk.injEq, reduceCtorEq] at hcall
  all_goals obtain ⟨rfl, rfl⟩ := hcall
  all_goals simp only [workerStep] at hs
  all_goals repeat' split at hs
  all_goals simp only [Option.some.injEq] at hs
  all_goals subst hs
  all_goals first
    | exact ⟨[], _, rfl, by simp⟩
    | exact ⟨[_], _, rfl, by simp⟩

/-- **Call rule.** What holds whenever the worker is about to make an SDK call holds before
    every SDK call in the trace. -/
theorem Run.sdkCalls {R : Origin → SdkCall → List Event → Prop} (h : Run cfg ok w)
    (hcall : ∀ w o call, Run cfg ok w → w.wk.pc.sdkCall = some (o, call) → R o call w.trace) :
    Historically (fun e older => ∀ o call r, e = .sdk o call r → R o call older) w.trace := by
  refine h.invariant (I := fun w => Historically (fun e older => ∀ o call r,
    e = .sdk o call r → R o call older) w.trace) trivial (fun s a s' hrun ih _ hs => ?_)
  by_cases hsdk : ∃ ans o call, a = .worker ans ∧ s.wk.pc.sdkCall = some (o, call)
  · obtain ⟨ans, o, call, rfl, hpc⟩ := hsdk
    obtain ⟨post, r, heq, hpost⟩ := workerStep_sdk hs hpc
    rw [heq]
    refine Historically.append ⟨?_, ih⟩ (fun pre e rest hsplit o' call' r' he => ?_)
    · intro o' call' r' he
      rw [Event.sdk.injEq] at he
      rw [← he.1, ← he.2.1]
      exact hcall s o call hrun hpc
    · exact absurd he (hpost e (by simp [hsplit]) o' call' r')
  · obtain ⟨new, heq, hnew⟩ := Extends.trace (step_extends hs)
    rw [heq]
    refine ih.append (fun pre e post hsplit o call r he => absurd ?_ hsdk)
    obtain ⟨pc, hpc, hsome⟩ := (hnew e (by simp [hsplit])).sdk o call r he
    cases a with
    | worker ans =>
      simp only [World.workerAt, Option.some.injEq] at hpc
      exact ⟨ans, o, call, rfl, hpc ▸ hsome⟩
    | _ => exact absurd hpc (by simp)

/-! ### The session in the trace -/

/-- Neither the start nor the end of a session. -/
def Event.sameSession (e : Event) : Prop := e ≠ .sessionOpened ∧ e ≠ .sessionClosed

/-- The history starts right after a session was opened. -/
def opened (h : List Event) : Prop := h.head? = some .sessionOpened

/-- The history ends inside a connected session. -/
def InSession (h : List Event) : Prop := Since Event.sameSession opened h

/-- Inside one session, the part of the history since any moment after its start. -/
theorem InSession.of_append {new h : List Event} (hin : InSession (new ++ h))
    (hnot : .sessionOpened ∉ new) : (∀ e ∈ new, e.sameSession) ∧ InSession h := by
  refine (since_append_iff ?_).mp hin
  rintro pre e post rfl hopen
  simp only [opened, List.head?_cons, Option.some.injEq] at hopen
  exact hnot (by simp [hopen])

theorem InSession.of_cons {e : Event} {h : List Event} (hin : InSession (e :: h))
    (hne : e ≠ .sessionOpened) : InSession h := by
  rcases hin with hopen | ⟨-, hin⟩
  · simp only [opened, List.head?_cons, Option.some.injEq] at hopen
    exact absurd hopen hne
  · exact hin

theorem Event.sameSession_of_byClient {e : Event} (h : e.byClient = true) : e.sameSession := by
  constructor <;> rintro rfl <;> exact absurd h (by simp [Event.byClient])

/-- A worker step other than `connect` and the session-end drain stays in its session. -/
theorem workerStep_sameSession (hs : workerStep cfg ans w w.wk.pc = some w')
    (hopen : w.wk.pc ≠ .connect) (hclose : w.wk.pc ≠ .drain) :
    ∃ new, w'.trace = new ++ w.trace ∧ ∀ e ∈ new, e.sameSession := by
  obtain ⟨new, heq, hnew⟩ := Extends.trace (workerStep_extends hs)
  refine ⟨new, heq, fun e he => ⟨fun ho => ?_, fun hc => ?_⟩⟩
  · exact hopen (Option.some.inj ((hnew e he).opened ho))
  · exact hclose (Option.some.inj ((hnew e he).closed hc))

/-- **Run lemma.** While the worker is in a session, so is the trace. -/
theorem Run.inSession (h : Run cfg ok w) : w.wk.pc.inSession = true → InSession w.trace := by
  refine h.worker_history (I := fun wk t => wk.pc.inSession = true → InSession t) ?_ ?_ ?_ ?_
  · intro hin
    exact absurd hin (by simp [World.initial, Pc.inSession])
  · intro wk t e he ih hin
    exact (ih hin).cons (Event.sameSession_of_byClient he)
  · intro wk t _ _ hin
    exact absurd hin (by simp [Pc.inSession])
  · intro w ans w' _ ih hs hin
    rcases workerStep_inSession hs hin with hpc | ⟨hin', hne⟩
    · rw [hpc] at hs
      simp only [workerStep, Option.some.injEq] at hs
      subst hs
      exact Since.now rfl
    · have hopen : w.wk.pc ≠ .connect := by
        intro hpc
        exact absurd hin' (by simp [hpc, Pc.inSession])
      obtain ⟨new, heq, hnew⟩ := workerStep_sameSession hs hopen hne
      rw [heq]
      exact (ih hin').append hnew

end HypertronBridge.Runtime
