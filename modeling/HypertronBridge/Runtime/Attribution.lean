import HypertronBridge.Runtime.Requests
import HypertronBridge.Runtime.Motion

namespace HypertronBridge.Runtime

open TransitionSystem History

/-!
# Every actuation is attributable

Commands reach the SDK in the order they were enqueued, each at most once and in the session
of its enqueue; the remaining actuating calls belong to a consumed stop request, to the stop
that ends a session, or to a motion tick.

* `Command.calls` — the SDK calls one command makes; `World.plan` — those still to come before
  those made, a sublist of what was enqueued;
* `CommandInv` — the plan, and that every command under way was enqueued in this session;
* `EstopHistory`, `StopHistory`, `MotionFlag` — what stands behind the other calls;
* `actuation_attributable` — the result.
-/

variable {cfg : RuntimeConfig} {w w' : World} {a : Action} {ans : Answer}
  {ok : World → Action → Prop}

/-! ### Commands in order -/

/-- The calls that executing a command makes, newest first: a mode command may send a zero move
    before its mode. -/
def Command.calls (c : Command) : List (Command × SdkCall) :=
  match c.kind with
  | .requestAuthority sdk => [(c, .requestAuthority sdk)]
  | .requestMode mode => [(c, .setMode mode), (c, .move .zero)]

/-- The calls that the command under execution may still make. -/
def Pc.callsLeft : Pc → List (Command × SdkCall)
  | .execAuthority p sdk => Command.calls ⟨.requestAuthority sdk, p⟩
  | .execMode p mode | .execZero p mode => Command.calls ⟨.requestMode mode, p⟩
  | .execSetMode p mode => [(⟨.requestMode mode, p⟩, .setMode mode)]
  | _ => []

/-- The call that the step at a program counter makes for a command. -/
def Pc.commandCall (pc : Pc) : List (Command × SdkCall) :=
  match pc.sdkCall with
  | some (.command c, call) => [(c, call)]
  | _ => []

/-- The command that an event enqueues. -/
@[simp] def Event.enqueues : Event → List Command
  | .enqueued c => [c]
  | _ => []

/-- The command call that an event records. -/
@[simp] def Event.commandCalls : Event → List (Command × SdkCall)
  | .sdk (.command c) call _ => [(c, call)]
  | _ => []

/-- The commands enqueued in a trace, newest first. -/
def enqueued (t : List Event) : List Command := t.flatMap Event.enqueues

/-- The SDK calls made for commands in a trace, newest first. -/
def commandCalls (t : List Event) : List (Command × SdkCall) := t.flatMap Event.commandCalls

/-- The command calls that may still come, then those made. -/
def World.plan (w : World) : List (Command × SdkCall) :=
  w.queue.items.reverse.flatMap Command.calls ++ w.wk.pc.callsLeft ++ commandCalls w.trace

/-- A worker step makes the next call of the plan, or drops some of it. -/
theorem workerStep_callsLeft
    (hs : workerStep cfg ans w w.wk.pc = some w') :
    (w'.queue.items.reverse.flatMap Command.calls ++ w'.wk.pc.callsLeft ++ w.wk.pc.commandCall).Sublist
      (w.queue.items.reverse.flatMap Command.calls ++ w.wk.pc.callsLeft) := by
  cases hpc : w.wk.pc
  all_goals rw [hpc] at hs
  all_goals simp only [workerStep] at hs
  all_goals repeat' split at hs
  all_goals simp only [Option.some.injEq, reduceCtorEq] at hs
  all_goals subst hs
  all_goals simp [Pc.callsLeft, Pc.commandCall, Pc.sdkCall, Command.calls]
  all_goals try rw [ThreadSafeQueue.tryPop_some ‹w.queue.tryPop = _›]
  all_goals try simp [Command.calls]

/-- The trace after a worker step has that step's command call and enqueues nothing. -/
theorem workerStep_commandCalls (hs : workerStep cfg ans w w.wk.pc = some w') :
    commandCalls w'.trace = w.wk.pc.commandCall ++ commandCalls w.trace ∧
      enqueued w'.trace = enqueued w.trace := by
  obtain ⟨new, heq, hnew⟩ := Extends.trace (workerStep_extends hs)
  constructor
  · cases hcall : w.wk.pc.sdkCall with
    | none =>
      have hnone : new.flatMap Event.commandCalls = [] := by
        refine List.flatMap_eq_nil_iff.mpr (fun e he => ?_)
        cases e with
        | sdk o call r =>
          obtain ⟨pc, hpc, hsome⟩ := (hnew _ he).sdk o call r rfl
          simp only [World.workerAt, Option.some.injEq] at hpc
          rw [hpc, hsome] at hcall
          exact absurd hcall (by simp)
        | _ => rfl
      rw [heq, commandCalls, List.flatMap_append, hnone, Pc.commandCall, hcall]
      rfl
    | some oc =>
      obtain ⟨o, call⟩ := oc
      obtain ⟨post, r, heq', hpost⟩ := workerStep_sdk hs hcall
      have hnone : post.flatMap Event.commandCalls = [] := by
        refine List.flatMap_eq_nil_iff.mpr (fun e he => ?_)
        cases e with
        | sdk o call r => exact absurd rfl (hpost _ he o call r)
        | _ => rfl
      rw [heq', commandCalls, List.flatMap_append, hnone, Pc.commandCall, hcall]
      cases o <;> rfl
  · have hnone : new.flatMap Event.enqueues = [] := by
      refine List.flatMap_eq_nil_iff.mpr (fun e he => ?_)
      cases e with
      | enqueued c => exact absurd ((hnew _ he).enqueue c rfl) (by simp)
      | _ => rfl
    rw [heq, enqueued, List.flatMap_append, hnone]
    rfl

/-- What a client's step does to the queue: nothing, or one command of its own call goes to the
    back, in a live session. -/
def ClientPush (w w' : World) : Prop :=
  (w'.queue = w.queue ∧ enqueued w'.trace = enqueued w.trace) ∨
    ∃ c, w'.queue.items = w.queue.items ++ [c] ∧ enqueued w'.trace = c :: enqueued w.trace ∧
      w'.trace.head? = some (.enqueued c) ∧ w.shared.sessionDown = false ∧
      (c.promise = w.nextPromise ∨ (w.calls c.promise).isSome = true) ∧
      w'.calls c.promise = none ∧ c.promise < w'.nextPromise

theorem step_clientPush (hlaw : Conserved w) (hs : step cfg a w = some w')
    (ha : w.workerAt a = none) : ClientPush w w' := by
  cases a
  case worker ans => exact absurd ha (by simp)
  case requestAuthority sdk =>
    simp only [step, World.requestAuthority, Option.some.injEq] at hs
    subst hs
    split
    · exact Or.inl ⟨rfl, rfl⟩
    · rename_i hdown
      split
      · rename_i hpush
        rcases w.queue.push_cases ⟨.requestAuthority sdk, w.nextPromise⟩ with heq | ⟨_, hitems⟩
        · exact absurd hpush (by simp [heq])
        · exact Or.inr ⟨_, hitems, rfl, rfl, by simpa using hdown, Or.inl rfl, hlaw.fresh,
            Nat.lt_succ_self _⟩
      · exact Or.inl ⟨rfl, rfl⟩
  case enqueueMode q =>
    simp only [step] at hs
    split at hs
    · rename_i mode hcall
      simp only [World.enqueueMode, Option.some.injEq] at hs
      subst hs
      split
      · exact Or.inl ⟨rfl, rfl⟩
      · rename_i hdown
        split
        · rename_i hpush
          rcases w.queue.push_cases ⟨.requestMode mode, q⟩ with heq | ⟨_, hitems⟩
          · exact absurd hpush (by simp [heq])
          · have hmade : q < w.nextPromise := hlaw.made (by simp [hcall])
            exact Or.inr ⟨_, hitems, rfl, rfl, by simpa using hdown,
              Or.inr (by simp [hcall]), by simp, hmade⟩
        · exact Or.inl ⟨rfl, rfl⟩
    · exact absurd hs (by simp)
  all_goals simp only [step, World.start, World.markEstop, World.supersedeEstop,
    World.requestMode, World.acceptMode, World.handleStatus] at hs
  all_goals repeat' split at hs
  all_goals simp only [Option.some.injEq, reduceCtorEq] at hs
  all_goals subst hs
  all_goals exact Or.inl ⟨by simp, by simp [enqueued]⟩

/-- Promises are numbered upwards. -/
theorem step_nextPromise_le (hs : step cfg a w = some w') : w.nextPromise ≤ w'.nextPromise := by
  cases a
  case worker ans => exact Nat.le_of_eq (workerStep_calls hs).2.symm
  all_goals simp only [step, World.start, World.markEstop, World.supersedeEstop,
    World.requestAuthority, World.requestMode, World.acceptMode, World.enqueueMode,
    World.handleStatus] at hs
  all_goals repeat' split at hs
  all_goals simp only [Option.some.injEq, reduceCtorEq] at hs
  all_goals subst hs
  all_goals simp

/-- No call of an old promise begins again. -/
theorem step_calls_none {p : PromiseId} (hs : step cfg a w = some w') (hp : p < w.nextPromise)
    (hnone : w.calls p = none) : w'.calls p = none := by
  cases a
  case worker ans => rw [(workerStep_calls hs).1, hnone]
  all_goals simp only [step, World.start, World.markEstop, World.supersedeEstop,
    World.requestAuthority, World.requestMode, World.acceptMode, World.enqueueMode,
    World.handleStatus] at hs
  all_goals repeat' split at hs
  all_goals simp only [Option.some.injEq, reduceCtorEq] at hs
  all_goals subst hs
  all_goals simp [Function.update_apply, hnone, Nat.ne_of_lt hp]
  -- An accepted mode request has a call in progress.
  all_goals rintro rfl
  all_goals simp_all

/-- The commands under way come from the queue. -/
theorem workerStep_commands (hs : workerStep cfg ans w w.wk.pc = some w') {c : Command}
    (hc : c ∈ w'.queue.items ++ w'.wk.pc.commands) :
    c ∈ w.queue.items ++ w.wk.pc.commands ∧ w.wk.pc ≠ .drain := by
  cases hpc : w.wk.pc
  all_goals rw [hpc] at hs
  all_goals simp only [workerStep] at hs
  all_goals repeat' split at hs
  all_goals simp only [Option.some.injEq, reduceCtorEq] at hs
  all_goals subst hs
  all_goals simp [Pc.commands] at hc ⊢
  all_goals try rw [ThreadSafeQueue.tryPop_some ‹w.queue.tryPop = _›]
  all_goals simp_all [or_comm]

/-- The newest event enqueues `c`. -/
def EnqueuedNow (c : Command) (h : List Event) : Prop := h.head? = some (.enqueued c)

/-- Commands go through the queue in order, once, and within a session. -/
structure CommandInv (w : World) : Prop where
  plan : w.plan.Sublist ((enqueued w.trace).flatMap Command.calls)
  nodup : ((enqueued w.trace).map Command.promise).Nodup
  old : ∀ c ∈ enqueued w.trace, c.promise < w.nextPromise ∧ w.calls c.promise = none
  queued : ∀ c ∈ w.queue.items ++ w.wk.pc.commands,
    Since Event.sameSession (EnqueuedNow c) w.trace

/-- **Step lemma, worker.** -/
theorem CommandInv.worker_step (h : CommandInv w) (hsession : SessionInv w)
    (hs : workerStep cfg ans w w.wk.pc = some w') : CommandInv w' := by
  obtain ⟨hcalls, henq⟩ := workerStep_commandCalls hs
  obtain ⟨hclient, hnext⟩ := workerStep_calls hs
  refine ⟨?_, by rw [henq]; exact h.nodup, by rw [henq, hclient, hnext]; exact h.old, fun c hc => ?_⟩
  · have hleft := (workerStep_callsLeft hs).append_right (commandCalls w.trace)
    rw [henq]
    refine List.Sublist.trans ?_ h.plan
    simpa only [World.plan, hcalls, List.append_assoc] using hleft
  · obtain ⟨hold, hne⟩ := workerStep_commands hs hc
    -- At the opening of a session nothing is under way.
    have hopen : w.wk.pc ≠ .connect := by
      intro hpc
      rw [hpc, hsession.idleQueue (by rw [hpc]; rfl)] at hold
      exact absurd hold (by simp [Pc.commands])
    obtain ⟨new, heq, hnew⟩ := workerStep_sameSession hs hopen hne
    rw [heq]
    exact (h.queued c hold).append hnew

/-- The events of clients make no command call. -/
theorem commandCalls_byClient {new t : List Event} (hnew : ∀ e ∈ new, e.byClient = true) :
    commandCalls (new ++ t) = commandCalls t := by
  have hnone : new.flatMap Event.commandCalls = [] := by
    refine List.flatMap_eq_nil_iff.mpr (fun e he => ?_)
    cases e with
    | sdk o call r => exact absurd (hnew _ he) (by simp [Event.byClient])
    | _ => rfl
  rw [commandCalls, List.flatMap_append, hnone]
  rfl

/-- **Step lemma, clients.** -/
theorem CommandInv.client_step (h : CommandInv w) (hlaw : Conserved w)
    (hs : step cfg a w = some w') (ha : w.workerAt a = none) : CommandInv w' := by
  have hnext := step_nextPromise_le hs
  obtain ⟨new, heq, hnew⟩ := Extends.trace (step_extends hs)
  have hbc : ∀ e ∈ new, e.byClient = true := fun e he => (hnew e he).client ha
  have hpc : w'.wk.pc.callsLeft = w.wk.pc.callsLeft ∧ w'.wk.pc.commands = w.wk.pc.commands := by
    rcases step_wk hs ha with hwk | ⟨hidle, hwk⟩
    · rw [hwk]
      exact ⟨rfl, rfl⟩
    · rw [hwk, hidle]
      exact ⟨rfl, rfl⟩
  have hcalls : commandCalls w'.trace = commandCalls w.trace := by
    rw [heq, commandCalls_byClient hbc]
  have hold : ∀ c ∈ enqueued w.trace, c.promise < w'.nextPromise ∧ w'.calls c.promise = none := by
    intro c hc
    obtain ⟨hlt, hnone⟩ := h.old c hc
    exact ⟨Nat.lt_of_lt_of_le hlt hnext, step_calls_none hs hlt hnone⟩
  have hkept : ∀ c ∈ w.queue.items ++ w.wk.pc.commands,
      Since Event.sameSession (EnqueuedNow c) w'.trace := by
    intro c hc
    rw [heq]
    exact (h.queued c hc).append (fun e he => Event.sameSession_of_byClient (hbc e he))
  rcases step_clientPush hlaw hs ha with ⟨hqueue, henq⟩ | ⟨c, hqueue, henq, hhead, _, hwho, hover, hmade⟩
  · refine ⟨?_, by rw [henq]; exact h.nodup, by rw [henq]; exact hold, ?_⟩
    · rw [World.plan, hqueue, hpc.1, hcalls, henq]
      exact h.plan
    · rw [hqueue, hpc.2]
      exact hkept
  · refine ⟨?_, ?_, ?_, ?_⟩
    · rw [World.plan, hqueue, hpc.1, hcalls, henq]
      simp only [List.reverse_append, List.reverse_singleton, List.singleton_append,
        List.flatMap_cons, List.append_assoc]
      exact List.Sublist.append_left (by simpa only [World.plan, List.append_assoc] using h.plan) _
    · rw [henq, List.map_cons, List.nodup_cons]
      refine ⟨fun hmem => ?_, h.nodup⟩
      -- The pushed command's promise is fresh, or its call was still in progress.
      obtain ⟨c', hc', hp⟩ := List.mem_map.mp hmem
      obtain ⟨hlt, hnone⟩ := h.old c' hc'
      rw [hp] at hlt hnone
      rcases hwho with hfresh | hcall
      · rw [hfresh] at hlt
        exact Nat.lt_irrefl _ hlt
      · rw [hnone] at hcall
        exact absurd hcall (by simp)
    · rw [henq]
      intro c' hc'
      rcases List.mem_cons.mp hc' with rfl | hc'
      · exact ⟨hmade, hover⟩
      · exact hold c' hc'
    · rw [hqueue, hpc.2]
      intro c' hc'
      simp only [List.append_assoc, List.mem_append, List.mem_singleton] at hc'
      rcases hc' with hc' | rfl | hc'
      · exact hkept c' (List.mem_append_left _ hc')
      · exact Since.now hhead
      · exact hkept c' (List.mem_append_right _ hc')

/-- **Run lemma.** -/
theorem Run.commands (h : Run cfg ok w) : CommandInv w := by
  refine h.invariant ⟨List.Sublist.refl _, List.Pairwise.nil, by simp [enqueued, World.initial],
    by simp [World.initial, Pc.commands]⟩ (fun s a s' hrun hi _ hs => ?_)
  rcases s.worker_or_client a with ⟨ans, rfl⟩ | ha
  · exact hi.worker_step hrun.session hs
  · exact hi.client_step hrun.conserved hs ha

/-! ### Stops -/

/-- The newest event consumes the stop request `p`. -/
def Consumed (p : PromiseId) (h : List Event) : Prop := h.head? = some (.estopConsumed p)

/-- The newest event is a read of the caches that allows the stop `o` to actuate: link and
    authority present, no link drop latched. -/
def Authorized (o : Origin) (h : List Event) : Prop :=
  h.head? = some (.authorityRead o true true false)

/-- Within the execution of one stop request: same session, no other request consumed, no
    damping call of a stop request made. -/
def Event.withinEstop (e : Event) : Prop :=
  e.sameSession ∧ (∀ p, e ≠ .estopConsumed p) ∧ ∀ p mode r, e ≠ .sdk (.estop p) (.setMode mode) r

/-- Within the stop of one session: same session, and its damping call not made. -/
def Event.withinStop (e : Event) : Prop :=
  e.sameSession ∧ ∀ mode r, e ≠ .sdk .stop (.setMode mode) r

/-- A stop request was consumed, and then it was read that it may actuate. -/
def Actuates (p : PromiseId) (h : List Event) : Prop :=
  Authorized (.estop p) h ∧ Since Event.withinEstop (Consumed p) h

theorem Event.withinEstop_of_byClient {e : Event} (h : e.byClient = true) : e.withinEstop := by
  refine ⟨Event.sameSession_of_byClient h, ?_, ?_⟩
  · rintro p rfl
    exact absurd h (by simp [Event.byClient])
  · rintro p mode r rfl
    exact absurd h (by simp [Event.byClient])

theorem Event.withinStop_of_byClient {e : Event} (h : e.byClient = true) : e.withinStop := by
  refine ⟨Event.sameSession_of_byClient h, ?_⟩
  rintro mode r rfl
  exact absurd h (by simp [Event.byClient])

/-- What stands behind the worker's execution of a stop request. -/
def EstopHistory (wk : Worker) (t : List Event) : Prop :=
  match wk.pc with
  | .estopAbort p | .estopDrain p | .estopUndo p _ | .estopRead p =>
      Since Event.withinEstop (Consumed p) t
  | .estopZero p | .estopDamp p _ => Since Event.withinEstop (Actuates p) t
  | _ => True

/-- What stands behind the stop that ends a session. -/
def StopHistory (wk : Worker) (t : List Event) : Prop :=
  match wk.pc with
  | .stopZero | .stopDamp _ => Since Event.withinStop (Authorized .stop) t
  | _ => True

/-- **Run lemma.** -/
theorem Run.estopHistory (h : Run cfg ok w) : EstopHistory w.wk w.trace := by
  refine h.worker_history trivial ?_ (fun _ _ _ _ => trivial) ?_
  · intro wk t e he ih
    unfold EstopHistory at ih ⊢
    split at ih <;> first
      | exact ih.cons (Event.withinEstop_of_byClient he)
      | trivial
  · intro w ans w' _ ih hs
    cases hpc : w.wk.pc
    all_goals rw [hpc] at hs
    all_goals simp only [EstopHistory, hpc] at ih
    all_goals simp only [workerStep] at hs
    all_goals repeat' split at hs
    all_goals simp only [Option.some.injEq, reduceCtorEq] at hs
    all_goals subst hs
    all_goals simp only [EstopHistory, World.goto_wk_pc, World.goto_trace, World.log_trace,
      World.control_trace, World.setPromise_trace, World.setQueue_trace, World.setEstop_trace,
      World.failModeTransition_false_trace, World.enterBackoff_wk_pc]
    -- What is left: the consumption, the abort, the three outcomes of the drain, the undoing of a
    -- drained mode request, the read that allows the stop, and its zero move.
    · exact Since.now rfl
    · split
      · exact (ih.cons (Event.withinEstop_of_byClient rfl)).cons (Event.withinEstop_of_byClient rfl)
      · exact ih.cons (Event.withinEstop_of_byClient rfl)
    · exact ih
    · exact ih
    · exact ih.cons (Event.withinEstop_of_byClient rfl)
    · exact (ih.cons (Event.withinEstop_of_byClient rfl)).cons (Event.withinEstop_of_byClient rfl)
    · rename_i hread
      simp only [Bool.or_eq_true, Bool.not_eq_true', not_or, Bool.not_eq_false,
        Bool.not_eq_true] at hread
      refine Since.now ⟨?_, ih.cons ⟨⟨by simp, by simp⟩, by simp, by simp⟩⟩
      simp [Authorized, hread]
    · exact ih.cons ⟨⟨by simp, by simp⟩, by simp, by simp⟩

/-- **Run lemma.** -/
theorem Run.stopHistory (h : Run cfg ok w) : StopHistory w.wk w.trace := by
  refine h.worker_history trivial ?_ (fun _ _ _ _ => trivial) ?_
  · intro wk t e he ih
    unfold StopHistory at ih ⊢
    split at ih <;> first
      | exact ih.cons (Event.withinStop_of_byClient he)
      | trivial
  · intro w ans w' _ ih hs
    cases hpc : w.wk.pc
    all_goals rw [hpc] at hs
    all_goals simp only [StopHistory, hpc] at ih
    all_goals simp only [workerStep] at hs
    all_goals repeat' split at hs
    all_goals simp only [Option.some.injEq, reduceCtorEq] at hs
    all_goals subst hs
    all_goals simp only [StopHistory, World.goto_wk_pc, World.goto_trace, World.log_trace,
      World.enterBackoff_wk_pc]
    case stopRead.isFalse hread =>
      simp only [Bool.or_eq_true, Bool.not_eq_true', not_or, Bool.not_eq_false,
        Bool.not_eq_true] at hread
      exact Since.now (by simp [Authorized, hread])
    case stopZero => exact ih.cons ⟨⟨by simp, by simp⟩, by simp⟩

/-! ### The last move sent -/

/-- The newest event is a nonzero move of a tick that succeeded. -/
def NonzeroSent (h : List Event) : Prop :=
  ∃ v r older, h = .sdk .tick (.move v) r :: older ∧ v.nonzero = true ∧ r.success = true

/-- Same session, and no zero move that succeeded. -/
def Event.keepsMotion (e : Event) : Prop :=
  e.sameSession ∧ ∀ o v r, e = .sdk o (.move v) r → v.nonzero = false → r.success = false

/-- Where `last_sent_nonzero_` speaks about the session: not before the loop resets it, and not
    between the zero move of a stop and the end of that stop. -/
def Pc.tracksMotion : Pc → Bool
  | .loopStart => false
  | .estopDamp _ moved | .stopDamp moved => !moved
  | pc => pc.inSession

/-- What `last_sent_nonzero_` says, and what the moves about to be sent read off it. -/
structure MotionFlag (wk : Worker) (t : List Event) : Prop where
  sent : wk.pc.tracksMotion = true → wk.lastSentNonzero = true →
    Since Event.keepsMotion NonzeroSent t
  tick : ∀ v, wk.pc = .tickMove v → v.nonzero = false → wk.lastSentNonzero = true
  zero : ∀ p mode, wk.pc = .execZero p mode → wk.lastSentNonzero = true

theorem Event.keepsMotion_of_byClient {e : Event} (h : e.byClient = true) : e.keepsMotion := by
  refine ⟨Event.sameSession_of_byClient h, ?_⟩
  rintro o v r rfl
  exact absurd h (by simp [Event.byClient])

/-- An SDK call that is no successful zero move. -/
theorem Event.keepsMotion_sdk {o : Origin} {call : SdkCall} {r : Outcome}
    (h : ∀ v, call = .move v → v.nonzero = false → r.success = false) :
    (Event.sdk o call r).keepsMotion := by
  refine ⟨⟨by simp, by simp⟩, fun o' v r' heq hv => ?_⟩
  rw [Event.sdk.injEq] at heq
  rw [← heq.2.2]
  exact h v heq.2.1 hv

/-- A worker step without an SDK call sets the flag nowhere, and opens or closes no session
    that it tracks. -/
theorem workerStep_flag (hs : workerStep cfg ans w w.wk.pc = some w')
    (hsdk : w.wk.pc.sdkCall = none) :
    (w'.wk.pc.tracksMotion = true → w'.wk.lastSentNonzero = true →
      w.wk.pc.tracksMotion = true ∧ w.wk.lastSentNonzero = true ∧ w.wk.pc ≠ .connect ∧
        w.wk.pc ≠ .drain) ∧
      (∀ v, w'.wk.pc = .tickMove v → v.nonzero = false → w'.wk.lastSentNonzero = true) ∧
      ∀ p mode, w'.wk.pc = .execZero p mode → w'.wk.lastSentNonzero = true := by
  cases hpc : w.wk.pc
  all_goals rw [hpc] at hs hsdk
  all_goals simp only [Pc.sdkCall, reduceCtorEq] at hsdk
  all_goals simp only [workerStep] at hs
  all_goals repeat' split at hs
  all_goals simp only [Option.some.injEq, reduceCtorEq] at hs
  all_goals subst hs
  all_goals simp [Pc.tracksMotion, Pc.inSession]
  case execMode.isTrue hlast => exact hlast
  case tickRead.isTrue hsend =>
    intro hzero
    simpa [hzero] using hsend

/-- **Run lemma.** -/
theorem Run.motionFlag (h : Run cfg ok w) : MotionFlag w.wk w.trace := by
  refine h.worker_history ⟨by simp [World.initial, Pc.tracksMotion, Pc.inSession],
    by simp [World.initial], by simp [World.initial]⟩ ?_ ?_ ?_
  · intro wk t e he ih
    exact ⟨fun ht hl => (ih.sent ht hl).cons (Event.keepsMotion_of_byClient he), ih.tick, ih.zero⟩
  · intro wk t _ _
    exact ⟨by simp [Pc.tracksMotion, Pc.inSession], by simp, by simp⟩
  · intro w ans w' _ ih hs
    cases hcall : w.wk.pc.sdkCall with
    | none =>
      obtain ⟨hsent, htick, hzero⟩ := workerStep_flag hs hcall
      refine ⟨fun ht hl => ?_, htick, hzero⟩
      obtain ⟨ht', hl', hopen, hclose⟩ := hsent ht hl
      obtain ⟨new, heq, hnew⟩ := Extends.trace (workerStep_extends hs)
      rw [heq]
      refine (ih.sent ht' hl').append (fun e he => ⟨⟨fun ho => ?_, fun hc => ?_⟩, fun o v r hmove => ?_⟩)
      · exact hopen (Option.some.inj ((hnew e he).opened ho))
      · exact hclose (Option.some.inj ((hnew e he).closed hc))
      · obtain ⟨pc, hpc, hsome⟩ := (hnew e he).sdk o _ r hmove
        rw [← Option.some.inj hpc, hcall] at hsome
        exact absurd hsome (by simp)
    | some oc =>
      obtain ⟨hsent, htick, hzero⟩ := ih
      cases hpc : w.wk.pc
      all_goals rw [hpc] at hs hcall hsent
      all_goals simp only [Pc.sdkCall, reduceCtorEq] at hcall
      all_goals simp only [workerStep] at hs
      all_goals repeat' split at hs
      all_goals simp only [Option.some.injEq] at hs
      all_goals subst hs
      all_goals refine ⟨?_, by simp, by simp⟩
      all_goals simp [Pc.tracksMotion, Pc.inSession] at hsent ⊢
      case tickMove.isTrue hok =>
        intro htarget
        exact Since.now ⟨_, _, _, rfl, htarget, hok⟩
      -- In the other cases the call is no move, or failed, or left the flag unset.
      all_goals intros
      all_goals have hkept : Since Event.keepsMotion NonzeroSent w.trace := by simp_all
      all_goals first
        | exact hkept.cons (Event.keepsMotion_sdk (by simp_all [Answer.outcome, Outcome.success]))
        | exact (hkept.cons (Event.keepsMotion_sdk (by simp))).cons ⟨⟨by simp, by simp⟩, by simp⟩

/-! ### The result -/

variable (cfg) in
/-- What stands behind an actuating call, made with `older` as the trace so far. -/
def Attributed (call : SdkCall) (older : List Event) : Origin → Prop
  -- One of the command's own calls, in the session of its enqueue; a zero only after a move.
  | .command c =>
      (c, call) ∈ c.calls ∧ Since Event.sameSession (EnqueuedNow c) older ∧ Asked c older ∧
        (call = .move .zero → Since Event.keepsMotion NonzeroSent older)
  -- Zero or damping, of a request latched, consumed and read to be allowed to actuate.
  | .estop p =>
      (call = .move .zero ∨ call = .setMode modeDamping) ∧
        Since Event.withinEstop (Actuates p) older ∧ Once (LatchedFor p) older
  | .stop =>
      (call = .move .zero ∨ call = .setMode modeDamping) ∧
        Since Event.withinStop (Authorized .stop) older
  | .tick => ∃ v, call = .move v ∧
      (v.nonzero = true → MoveHistory (ms cfg.deadmanMs) v older) ∧
      (v.nonzero = false → Since Event.keepsMotion NonzeroSent older)

/-- **Run lemma.** Whenever the worker makes an actuating call, it is attributed. -/
theorem Run.attributed {o : Origin} {call : SdkCall} (h : Run cfg ok w)
    (hcall : w.wk.pc.sdkCall = some (o, call)) : Attributed cfg call w.trace o := by
  have hflag := h.motionFlag
  have hqueued := h.commands.queued
  have hasked : ∀ c, Since Event.sameSession (EnqueuedNow c) w.trace → Asked c w.trace := by
    intro c hc
    obtain ⟨new, old, heq, -, hnow⟩ := since_iff_append.mp hc
    obtain ⟨older, rfl⟩ := List.head?_eq_some_iff.mp hnow
    exact h.requests.queued c (by simp [heq])
  cases hpc : w.wk.pc
  all_goals rw [hpc] at hcall hqueued
  all_goals simp only [Pc.sdkCall, Option.some.injEq, Prod.mk.injEq, reduceCtorEq] at hcall
  all_goals obtain ⟨rfl, rfl⟩ := hcall
  case estopZero p =>
    have hist := h.estopHistory
    rw [EstopHistory, hpc] at hist
    exact ⟨Or.inl rfl, hist, h.requests.worker p (by rw [hpc]; rfl)⟩
  case estopDamp p moved =>
    have hist := h.estopHistory
    rw [EstopHistory, hpc] at hist
    exact ⟨Or.inr rfl, hist, h.requests.worker p (by rw [hpc]; rfl)⟩
  case execAuthority p sdk =>
    have hc := hqueued ⟨.requestAuthority sdk, p⟩ (by simp [Pc.commands])
    exact ⟨by simp [Command.calls], hc, hasked _ hc, by simp⟩
  case execZero p mode =>
    have hc := hqueued ⟨.requestMode mode, p⟩ (by simp [Pc.commands])
    refine ⟨by simp [Command.calls], hc, hasked _ hc, fun _ => ?_⟩
    exact hflag.sent (by rw [hpc]; rfl) (hflag.zero p mode hpc)
  case execSetMode p mode =>
    have hc := hqueued ⟨.requestMode mode, p⟩ (by simp [Pc.commands])
    exact ⟨by simp [Command.calls], hc, hasked _ hc, by simp⟩
  case tickMove v =>
    refine ⟨v, rfl, fun hv => ?_, fun hv => ?_⟩
    · exact ⟨h.inSession (by rw [hpc]; rfl), h.tickMove hv hpc⟩
    · exact hflag.sent (by rw [hpc]; rfl) (hflag.tick v hpc hv)
  case stopZero =>
    have hist := h.stopHistory
    rw [StopHistory, hpc] at hist
    exact ⟨Or.inl rfl, hist⟩
  case stopDamp moved =>
    have hist := h.stopHistory
    rw [StopHistory, hpc] at hist
    exact ⟨Or.inr rfl, hist⟩

/-- A nonzero move that was sent goes back to a submission. -/
theorem submitted_of_moveHistory {v : Velocity} {t : List Event} {deadman : Time}
    (h : MoveHistory deadman v t) : ∃ e ∈ t, e.asksActuation = true := by
  obtain ⟨after, _, rfl, -, tr, _, rfl, ta, -, -, hkept⟩ := since_iff_append.mp h.2
  obtain ⟨between, _, rfl, -, command, before, rfl, -⟩ := since_iff_append.mp hkept
  exact ⟨.control ⟨ta, .acceptVelocity command, true⟩, by simp, rfl⟩

/-- An attributed call goes back to a client's request, or to a stop that ended a session with
    link and authority. -/
theorem asked_of_attributed {o : Origin} {call : SdkCall} {older : List Event}
    (h : Attributed cfg call older o)
    (hmoves : ∀ new e rest, older = new ++ e :: rest → ∀ v r, e = .sdk .tick (.move v) r →
      Attributed cfg (.move v) rest .tick) :
    (∃ e ∈ older, e.asksActuation = true) ∨ .authorityRead .stop true true false ∈ older := by
  cases o with
  | command c =>
    obtain ⟨-, -, hasked, -⟩ := h
    unfold Asked at hasked
    split at hasked
    · exact Or.inl ⟨_, hasked, rfl⟩
    · obtain ⟨name, -, hmem⟩ := hasked
      exact Or.inl ⟨_, hmem, rfl⟩
  | estop p =>
    obtain ⟨new, old, rfl, -, t, rest, rfl⟩ := since_iff_append.mp h.2.2
    exact Or.inl ⟨.requested p .estop, by simp, rfl⟩
  | stop =>
    obtain ⟨new, old, rfl, -, hauth⟩ := since_iff_append.mp h.2
    obtain ⟨rest, rfl⟩ := List.head?_eq_some_iff.mp hauth
    exact Or.inr (by simp)
  | tick =>
    obtain ⟨v, -, hnonzero, hzero⟩ := h
    cases hv : v.nonzero with
    | true => exact Or.inl (submitted_of_moveHistory (hnonzero hv))
    | false =>
      -- A zero follows a nonzero move, and that one goes back to a submission.
      obtain ⟨new, old, rfl, -, v', r, rest, rfl, hv', -⟩ := since_iff_append.mp (hzero hv)
      obtain ⟨v'', heq, hback, -⟩ := hmoves new _ rest rfl v' r rfl
      rw [SdkCall.move.injEq] at heq
      obtain ⟨e, he, hasks⟩ := submitted_of_moveHistory (hback (heq ▸ hv'))
      exact Or.inl ⟨e, by simp [he], hasks⟩

/-- **Every actuation is attributable.** The SDK calls of commands are, in order, among the
    calls of the commands enqueued, whose promises are all different; every actuating call is
    attributed; and a run that asks for no actuation, and that no stop ends with link and
    authority, makes none. -/
theorem actuation_attributable (hrun : Run cfg ok w) :
    (commandCalls w.trace).Sublist ((enqueued w.trace).flatMap Command.calls) ∧
      ((enqueued w.trace).map Command.promise).Nodup ∧
      (∀ new o call r older, w.trace = new ++ .sdk o call r :: older →
        Attributed cfg call older o) ∧
      ((∀ w a, ok w a → a.asksActuation = false) →
        .authorityRead .stop true true false ∉ w.trace → ∀ o call r, .sdk o call r ∉ w.trace) := by
  have hcalls := hrun.sdkCalls (R := fun o call older => Attributed cfg call older o)
    (fun s o call hs hcall => hs.attributed hcall)
  have hattr : ∀ new o call r older, w.trace = new ++ .sdk o call r :: older →
      Attributed cfg call older o :=
    fun new o call r older heq => historically_iff.mp hcalls new _ older heq o call r rfl
  refine ⟨?_, hrun.commands.nodup, hattr, fun hok hstop o call r hmem => ?_⟩
  · refine List.Sublist.trans ?_ hrun.commands.plan
    exact List.sublist_append_right _ _
  · obtain ⟨new, older, heq⟩ := List.append_of_mem hmem
    have hasked := asked_of_attributed (hattr new o call r older heq) (fun mid e rest hsplit v r' he =>
      hattr (new ++ .sdk o call r :: mid) .tick (.move v) r' rest (by rw [heq, hsplit, he]; simp))
    rcases hasked with ⟨e, he, hasks⟩ | hread
    · rw [hrun.asksNothing hok e (by simp [heq, he])] at hasks
      exact absurd hasks (by simp)
    · exact hstop (by simp [heq, hread])

/-- The authority request of a client, executed. -/
def requestingAuthority : List Action :=
  readying ++ [.requestAuthority true] ++ works 7 (obliging 0xB104)

/-- Its call is attributed to the command it enqueued. -/
theorem actuation_attributable_authority :
    ∃ w older r, Reachable {} w ∧ w.trace = [.resolved 0 r] ++
        .sdk (.command ⟨.requestAuthority true, 0⟩) (.requestAuthority true) (.returned r) :: older ∧
      Attributed {} (.requestAuthority true) older (.command ⟨.requestAuthority true, 0⟩) := by
  obtain ⟨w, hrun, hw⟩ := exists_run_of_exec {} (fun _ _ => True) requestingAuthority
    (fun w => w.trace.take 2 = [.resolved 0 (.ok "success"), .sdk (.command ⟨.requestAuthority true, 0⟩)
      (.requestAuthority true) (.returned (.ok "success"))]) (by decide +kernel)
  have htrace : w.trace = [.resolved 0 (.ok "success")] ++ .sdk (.command ⟨.requestAuthority true, 0⟩)
      (.requestAuthority true) (.returned (.ok "success")) :: w.trace.drop 2 := by
    have hsplit := List.take_append_drop 2 w.trace
    rw [of_decide_eq_true hw] at hsplit
    exact hsplit.symm
  exact ⟨w, w.trace.drop 2, .ok "success", hrun, htrace,
    (actuation_attributable hrun).2.2.1 _ _ _ _ _ htrace⟩

end HypertronBridge.Runtime
