import HypertronBridge.Runtime.Attribution
import HypertronBridge.Runtime.Estop
import HypertronBridge.Runtime.Revocation

namespace HypertronBridge.Runtime

open TransitionSystem History

/-!
# Link drops and queued commands

A report without a link latches the end of the session.  The worker looks at the latch when it
waits and once more right after; the stop check and the pop that follow are sections of their
own, so a drop that is latched between them comes too late for the command popped next:
`queued_command_survives_drop`.  In runs without such a drop the session-end drain fails what
was queued.

* `World.dropRace` — the windows;
* `Killed` — what becomes of a command that was queued when the drop was latched;
* `Pc.stepsToDrain`, `World.drainRank` — how far the worker is from the drain;
* `link_drop_kills_queued` — the result.
-/

variable {cfg : RuntimeConfig} {w w' w₀ w₁ : World} {a : Action} {ans : Answer}
  {ok : World → Action → Prop} {c : Command}

/-- The worker is past this iteration's latch check and will pop a command before it looks at the
    latch again: no stop mark makes it drain the queue first. -/
def World.popsNext (w : World) : Bool :=
  w.wk.pc.pastStopCheck || (w.wk.pc == .estopCheck && !w.shared.estopEngaged)

/-- The steps by which a queued command gets past a link drop: the drop is latched when the worker
    is about to pop; under the latch a newer stop request takes back the mark for which the
    worker would have drained the queue. -/
def World.dropRace (w : World) : Action → Bool
  | .status linked _ => !linked && w.popsNext && !w.queue.items.isEmpty
  | .markEstop _ =>
      w.shared.linkDropLatched && w.shared.estopEngaged && w.wk.pc == .estopCheck &&
        !w.queue.items.isEmpty
  | _ => false

/-! ### How far the drain is -/

/-- At most so many worker steps lead from a program counter to the end of a session whose link
    drop is latched, the commands in the queue aside. -/
def Pc.stepsToDrain : Pc → Nat
  | .drain => 1
  | .stopDamp _ => 2
  | .stopZero => 3
  | .stopRead => 4
  | .wait => 5
  | .loopStart | .checkTimeout | .checkComplete _ => 6
  | .checkRead _ => 7
  | .pollReady _ => 8
  | .pollOrphanFail _ => 9
  | .pollOrphanRead _ => 10
  | .pollApply _ => 11
  | .pollSnapshot => 12
  | .pollDue => 13
  | .settle => 14
  | .settleDue => 15
  | .tickMove _ => 16
  | .tickRead => 17
  | .tickDue => 18
  | .heartbeat => 19
  | .heartbeatDue => 20
  | .refreshRead => 21
  | .execFail _ _ _ | .execThrow _ _ => 22
  | .execAuthority _ _ | .execSetMode _ _ => 23
  | .execZero _ _ => 24
  | .execMode _ _ => 25
  | .pop => 26
  | .orphanFail => 27
  | .orphanRead => 28
  | .estopDamp _ _ => 29
  | .estopZero _ => 30
  | .estopRead _ => 31
  | .estopDrain _ => 32
  | .estopUndo _ _ | .estopAbort _ => 33
  | .estopCheck => 34
  | .recheck => 35
  | .readNow => 36
  | _ => 0

/-- The same with the commands that a stop drains one by one. -/
def World.drainRank (w : World) : Nat := w.wk.pc.stepsToDrain + 2 * w.queue.items.length

/-- Under the latch the worker of a session never waits. -/
theorem workerStep_enabled (hsession : SessionInv w) (hin : w.wk.pc.inSession = true)
    (hl : w.shared.linkDropLatched = true) (ans : Answer) :
    (workerStep cfg ans w w.wk.pc).isSome = true := by
  have hestop := hsession.estop
  have hwoken : w.woken = true := by simp [World.woken, hl]
  cases hpc : w.wk.pc
  all_goals rw [hpc] at hin
  all_goals simp only [Pc.inSession, Bool.false_eq_true] at hin
  all_goals simp only [workerStep]
  all_goals repeat' split
  all_goals first
    | rfl
    | simp_all

/-- Under the latch every worker step of a session brings the drain nearer. -/
theorem workerStep_drainRank (hin : w.wk.pc.inSession = true)
    (hl : w.shared.linkDropLatched = true) (hs : workerStep cfg ans w w.wk.pc = some w') :
    w'.drainRank < w.drainRank := by
  have hwoken : w.woken = true := by simp [World.woken, hl]
  unfold World.drainRank
  cases hpc : w.wk.pc
  all_goals rw [hpc] at hs hin
  all_goals simp only [Pc.inSession, Bool.false_eq_true] at hin
  all_goals simp only [workerStep] at hs
  all_goals repeat' split at hs
  all_goals simp only [Option.some.injEq, reduceCtorEq] at hs
  all_goals subst hs
  all_goals simp [Pc.stepsToDrain]
  -- What is popped leaves the queue; the other branches only move on.
  all_goals try rw [ThreadSafeQueue.tryPop_some ‹w.queue.tryPop = _›]
  all_goals try simp only [List.length_cons]
  all_goals try omega

/-! ### What becomes of a queued command -/

/-- What became, by `w'`, of the command `c` that was queued in `w` when the drop was latched: no
    SDK call was made for it, it was answered with nothing but a failure, and when the session is
    over it was answered; until then the worker comes nearer to the drain with every step. -/
structure Killed (cfg : RuntimeConfig) (c : Command) (w w' : World) : Prop where
  uncalled : ∀ new, w'.trace = new ++ w.trace → ∀ call r, .sdk (.command c) call r ∉ new
  failed : ∀ r, .resolved c.promise r ∈ w'.trace → r.success = false
  answered : ∀ new, w'.trace = new ++ w.trace → .sessionClosed ∈ new →
    c.promise ∈ answered w'.trace
  drains : ∀ new, w'.trace = new ++ w.trace → .sessionClosed ∉ new →
    (∀ ans, (step cfg (.worker ans) w').isSome = true) ∧
      ∀ a w'', step cfg a w' = some w'' →
        w''.drainRank + (if (w'.workerAt a).isSome then 1 else 0) ≤ w'.drainRank

/-! ### The defect -/

/-- An authority request that the worker is about to pop. -/
def queuedAuthority : List Action :=
  readying ++ [.requestAuthority true] ++ works 5 (obliging 0xB104)

/-- **The defect.** The link drops between the latch check and the pop, and the command that was
    queued then is executed. -/
theorem queued_command_survives_drop :
    ¬ ∀ cfg c authority w w₁ w', Reachable cfg w → w.shared.connected = true →
      c ∈ w.queue.items → step cfg (.status false authority) w = some w₁ →
      Reaches (step cfg) (fun _ _ => True) w₁ w' → Killed cfg c w w' := by
  intro hall
  obtain ⟨w, w₁, w', hrun, hdrop, hafter, hw⟩ := exists_stages_of_exec {} (fun _ _ => True)
    queuedAuthority (.status false false) (works 2 (obliging 0xB104))
    (fun w w' => w.shared.connected && decide (w.queue.items = [⟨.requestAuthority true, 0⟩]) &&
      decide (w'.trace.drop 4 = w.trace) && decide (.sdk (.command ⟨.requestAuthority true, 0⟩)
        (.requestAuthority true) (.returned (.ok "success")) ∈ w'.trace.take 4)) (by decide +kernel)
  simp only [Bool.and_eq_true, decide_eq_true_eq] at hw
  obtain ⟨⟨⟨hconn, hqueue⟩, htrace⟩, hcall⟩ := hw
  have hsplit : w'.trace = w'.trace.take 4 ++ w.trace := by rw [← htrace, List.take_append_drop]
  exact (hall {} _ false w w₁ w' hrun hconn (by simp [hqueue]) hdrop hafter).uncalled _ hsplit _ _
    hcall

/-! ### Without the race -/

/-- No command is left to a worker that is about to pop one under the latch. -/
def LatchInv (w : World) : Prop :=
  w.shared.linkDropLatched = true → w.popsNext = true → w.queue.items = []

/-- A worker step leaves the latch alone, but for the one that clears it before an `init`. -/
theorem workerStep_latch (hs : workerStep cfg ans w w.wk.pc = some w') :
    w'.shared.linkDropLatched = w.shared.linkDropLatched ∨
      (w.wk.pc = .clearLatch ∧ w'.shared.linkDropLatched = false) := by
  cases hpc : w.wk.pc
  all_goals rw [hpc] at hs
  all_goals simp only [workerStep] at hs
  all_goals repeat' split at hs
  all_goals simp only [Option.some.injEq, reduceCtorEq] at hs
  all_goals subst hs
  all_goals simp

/-- **Step lemma, worker.** -/
theorem LatchInv.worker_step (h : LatchInv w) (hs : workerStep cfg ans w w.wk.pc = some w') :
    LatchInv w' := by
  intro hl' hpops
  have hl : w.shared.linkDropLatched = true := by
    rcases workerStep_latch hs with hsame | ⟨-, hclear⟩
    · exact hsame ▸ hl'
    · exact absurd hl' (by simp [hclear])
  have hempty := h hl
  clear hl'
  cases hpc : w.wk.pc
  all_goals rw [hpc] at hs
  all_goals simp only [workerStep] at hs
  all_goals repeat' split at hs
  all_goals simp only [Option.some.injEq, reduceCtorEq] at hs
  all_goals subst hs
  all_goals simp [World.popsNext, Pc.pastStopCheck, hpc] at hpops hempty ⊢
  case h_1 hpop => exact ThreadSafeQueue.tryPop_none hpop
  all_goals simp_all

/-- Only status reports set the latch, and only stop requests touch the mark. -/
theorem clientStep_flags (hs : step cfg a w = some w') (ha : w.workerAt a = none)
    (hstatus : ∀ linked authority, a ≠ .status linked authority) :
    w'.shared.linkDropLatched = w.shared.linkDropLatched ∧
      ((∀ p, a ≠ .markEstop p) → w'.shared.estopEngaged = w.shared.estopEngaged) := by
  cases a
  case worker ans => exact absurd ha (by simp)
  case status linked authority => exact absurd rfl (hstatus linked authority)
  all_goals simp only [step, World.start, World.markEstop, World.requestAuthority,
    World.requestMode, World.acceptMode, World.enqueueMode] at hs
  all_goals repeat' split at hs
  all_goals simp only [Option.some.injEq, reduceCtorEq] at hs
  all_goals subst hs
  all_goals simp

/-- Under the latch a client's step leaves the queue alone. -/
theorem clientStep_queue (hlaw : Conserved w) (hl : w.shared.linkDropLatched = true)
    (hs : step cfg a w = some w') (ha : w.workerAt a = none) : w'.queue = w.queue := by
  rcases step_clientPush hlaw hs ha with ⟨hqueue, -⟩ | ⟨-, -, -, -, hup, -⟩
  · exact hqueue
  · exact absurd hup (by simp [Shared.sessionDown, hl])

/-- **Step lemma, clients.** A client's step that opens none of the windows. -/
theorem LatchInv.client_step (h : LatchInv w) (hlaw : Conserved w) (hrace : w.dropRace a = false)
    (hs : step cfg a w = some w') (ha : w.workerAt a = none) : LatchInv w' := by
  intro hl' hpops
  cases a
  case worker ans => exact absurd ha (by simp)
  case status linked authority =>
    simp only [step, Option.some.injEq] at hs
    subst hs
    have hpops' : w.popsNext = true := hpops
    cases hl : w.shared.linkDropLatched with
    | true => exact h hl hpops'
    | false =>
      have hdrop : linked = false := by simpa [hl] using hl'
      simpa [World.dropRace, hdrop, hpops'] using hrace
  case markEstop p =>
    have hl : w.shared.linkDropLatched = true := by
      rw [← (clientStep_flags hs rfl (by simp)).1]
      exact hl'
    rw [clientStep_queue hlaw hl hs rfl]
    simp only [step] at hs
    split at hs
    · have hdown : w.shared.sessionDown = true := by simp [Shared.sessionDown, hl]
      simp only [World.markEstop, hdown, if_true, Option.some.injEq] at hs
      subst hs
      -- The mark is gone now; if it was there, the window is open.
      cases hmark : w.shared.estopEngaged with
      | false => exact h hl (by simpa [World.popsNext, hmark] using hpops)
      | true =>
        simp [World.popsNext] at hpops
        rcases hpops with hpast | hpc
        · exact h hl (by simp [World.popsNext, hpast])
        · simpa [World.dropRace, hl, hmark, hpc] using hrace
    · exact absurd hs (by simp)
  all_goals
    obtain ⟨hlatch, hmark⟩ := clientStep_flags hs rfl (by simp)
    have hl : w.shared.linkDropLatched = true := hlatch ▸ hl'
    rw [clientStep_queue hlaw hl hs rfl]
    refine h hl ?_
    unfold World.popsNext at hpops ⊢
    rw [hmark (by simp)] at hpops
    rcases step_wk hs rfl with hwk | ⟨-, hwk⟩
    · exact hwk ▸ hpops
    · rw [hwk] at hpops
      exact absurd hpops (by simp [Pc.pastStopCheck])

/-- **Run lemma.** -/
theorem Run.latchInv (h : Run cfg (fun w a => w.dropRace a = false) w) : LatchInv w := by
  refine h.invariant (fun _ hpops => ?_) (fun s a s' hrun hi hok hs => ?_)
  · exact absurd hpops (by simp [World.initial, World.popsNext, Pc.pastStopCheck])
  · rcases s.worker_or_client a with ⟨ans, rfl⟩ | ha
    · exact hi.worker_step hs
    · exact hi.client_step hrun.conserved hok hs ha

/-- The part of the trace since the drop, and where the command is: it waits for the drain of the
    same session, the drain of a stop has it in hand, or it has failed. -/
structure Doomed (c : Command) (new : List Event) (w : World) : Prop where
  ending : .sessionClosed ∉ new → w.wk.pc.inSession = true ∧ w.shared.linkDropLatched = true
  fate : (c ∈ w.queue.items ∧ .sessionClosed ∉ new) ∨
    (∃ p, w.wk.pc = .estopUndo p c.promise ∧ .sessionClosed ∉ new) ∨
    ∃ r, .resolved c.promise r ∈ w.trace ∧ r.success = false
  uncalled : ∀ call r, .sdk (.command c) call r ∉ new

/-- Dropped commands are answered with the failure they are dropped for. -/
theorem resolved_dropCommands {r : Result} {cs : List Command} (hc : c ∈ cs) :
    .resolved c.promise r ∈ (w.dropCommands cfg r cs).trace := by
  induction cs generalizing w with
  | nil => exact absurd hc (by simp)
  | cons d ds ih =>
    rcases List.mem_cons.mp hc with rfl | hmem
    · simp only [World.dropCommands]
      refine World.dropCommands_induction (P := fun v => .resolved c.promise r ∈ v.trace) r ds
        (fun v _ _ _ _ hv => ?_) (fun v _ _ hv => ?_) ?_
      · simp [hv]
      · simp [hv]
      · simp
    · exact ih hmem

/-- The session-end drain fails every queued command and then records the end of the session. -/
theorem workerStep_drain (hpc : w.wk.pc = .drain) (hs : workerStep cfg ans w w.wk.pc = some w') :
    (∃ new, w'.trace = .sessionClosed :: (new ++ w.trace)) ∧
      ∀ c ∈ w.queue.items, ∃ r, .resolved c.promise r ∈ w'.trace ∧ r.success = false := by
  rw [hpc] at hs
  simp only [workerStep, Option.some.injEq] at hs
  subst hs
  constructor
  · have hext : World.Extends cfg (fun _ => True) w
        (World.failAllPending cfg { w with shared.connected := false }) :=
      World.Extends.failAllPending (v := { w with shared.connected := false }) .refl rfl
        (fun _ _ _ => trivial) (fun _ _ _ => trivial)
    obtain ⟨new, heq, -⟩ := hext.trace
    exact ⟨new, congrArg (List.cons _) heq⟩
  · refine fun c hc => ⟨_, List.mem_cons_of_mem _ (resolved_dropCommands ?_), rfl⟩
    simpa [ThreadSafeQueue.popAll] using hc

/-- A queued command that a worker step takes out of the queue, other than the pop: the drain of a
    stop has it in hand, or it has failed. -/
theorem workerStep_queued (hc : c ∈ w.queue.items) (hpop : w.wk.pc ≠ .pop)
    (hs : workerStep cfg ans w w.wk.pc = some w') :
    c ∈ w'.queue.items ∨ (∃ p, w'.wk.pc = .estopUndo p c.promise) ∨
      ∃ r, .resolved c.promise r ∈ w'.trace ∧ r.success = false := by
  by_cases hdrain : w.wk.pc = .drain
  · exact Or.inr (Or.inr ((workerStep_drain hdrain hs).2 c hc))
  cases hpc : w.wk.pc
  all_goals rw [hpc] at hs hpop hdrain
  case pop => exact absurd rfl hpop
  case drain => exact absurd rfl hdrain
  case estopDrain p =>
    -- The oldest command is in hand or answered; the younger ones stay.
    simp only [workerStep] at hs
    split at hs
    · rename_i htry
      rw [ThreadSafeQueue.tryPop_none htry] at hc
      exact absurd hc (by simp)
    all_goals
      rename_i htry
      simp only [Option.some.injEq] at hs
      subst hs
      rw [ThreadSafeQueue.tryPop_some htry] at hc
      rcases List.mem_cons.mp hc with rfl | hrest
    · exact Or.inr (Or.inl ⟨p, rfl⟩)
    · exact Or.inl hrest
    · exact Or.inr (Or.inr
        ⟨.failure sdkResFailed "command aborted by the emergency stop", by simp, rfl⟩)
    · exact Or.inl hrest
  all_goals simp only [workerStep] at hs
  all_goals repeat' split at hs
  all_goals simp only [Option.some.injEq, reduceCtorEq] at hs
  all_goals subst hs
  all_goals exact Or.inl (by simpa using hc)

/-- An SDK call for a command is made with its promise in hand. -/
theorem Pc.promises_of_sdkCall {pc : Pc} {call : SdkCall}
    (h : pc.sdkCall = some (.command c, call)) : pc.promises = [c.promise] := by
  cases pc
  all_goals simp only [Pc.sdkCall, Option.some.injEq, Prod.mk.injEq, Origin.command.injEq,
    reduceCtorEq, false_and] at h
  all_goals rw [← h.1]
  all_goals rfl

/-- A doomed command is not the one whose SDK call the worker is about to make. -/
theorem Doomed.not_calling {new : List Event} {call : SdkCall} (h : Doomed c new w)
    (hlaw : Conserved w) : w.wk.pc.sdkCall ≠ some (.command c, call) := by
  intro hcall
  -- Its promise would be in a second place.
  have hload := hlaw c.promise
  simp only [World.load, Pc.promises_of_sdkCall hcall, List.count_singleton_self] at hload
  have hone : (w.queue.items.map Command.promise).count c.promise = 0 ∧
      (answered w.trace).count c.promise = 0 := by
    split at hload <;> omega
  rcases h.fate with ⟨hmem, -⟩ | ⟨p, hpc, -⟩ | ⟨r, hres, -⟩
  · exact List.count_eq_zero.mp hone.1 (List.mem_map_of_mem hmem)
  · exact absurd hcall (by simp [hpc, Pc.sdkCall])
  · exact List.count_eq_zero.mp hone.2 (List.mem_flatMap.mpr ⟨_, hres, by simp⟩)

/-- **Step lemma, worker.** -/
theorem Doomed.worker_step {new : List Event} (h : Doomed c new w) (hlatch : LatchInv w)
    (hlaw : Conserved w) (hs : workerStep cfg ans w w.wk.pc = some w') :
    ∃ new', w'.trace = new' ++ w.trace ∧ Doomed c (new' ++ new) w' := by
  obtain ⟨new', heq, hnew⟩ := Extends.trace (workerStep_extends hs)
  refine ⟨new', heq, ?_, ?_, ?_⟩
  · intro hopen
    obtain ⟨hin, hl⟩ := h.ending (fun hmem => hopen (List.mem_append_right _ hmem))
    constructor
    · by_contra hout
      rcases workerStep_outside hs (by simpa using hout) with hpc | ⟨hout', -⟩
      · obtain ⟨⟨mid, hmid⟩, -⟩ := workerStep_drain hpc hs
        rw [heq, ← List.cons_append] at hmid
        exact hopen (by simp [List.append_cancel_right hmid])
      · rw [hin] at hout'
        exact absurd hout' (by simp)
    · rcases workerStep_latch hs with hsame | ⟨hpc, -⟩
      · rw [hsame]
        exact hl
      · rw [hpc] at hin
        exact absurd hin (by simp [Pc.inSession])
  · have hclosed : .sessionClosed ∉ new → w.wk.pc ≠ .drain → .sessionClosed ∉ new' ++ new := by
      intro hopen hne hmem
      rcases List.mem_append.mp hmem with hmem | hmem
      · exact hne (Option.some.inj ((hnew _ hmem).closed rfl))
      · exact hopen hmem
    rcases h.fate with ⟨hmem, hopen⟩ | ⟨p, hpc, hopen⟩ | ⟨r, hres, hr⟩
    · -- It waits in the queue, which under the latch the pop finds empty.
      by_cases hdrain : w.wk.pc = .drain
      · exact Or.inr (Or.inr ((workerStep_drain hdrain hs).2 c hmem))
      have hpop : w.wk.pc ≠ .pop := by
        intro hpc
        have hempty := hlatch (h.ending hopen).2 (by simp [World.popsNext, hpc, Pc.pastStopCheck])
        rw [hempty] at hmem
        exact absurd hmem (by simp)
      rcases workerStep_queued hmem hpop hs with hmem' | ⟨p, hpc'⟩ | hfailed
      · exact Or.inl ⟨hmem', hclosed hopen hdrain⟩
      · exact Or.inr (Or.inl ⟨p, hpc', hclosed hopen hdrain⟩)
      · exact Or.inr (Or.inr hfailed)
    · -- The drain of a stop had it in hand, and answers it.
      rw [hpc] at hs
      simp only [workerStep, Option.some.injEq] at hs
      subst hs
      exact Or.inr (Or.inr ⟨.failure sdkResFailed "command aborted by the emergency stop",
        by simp, rfl⟩)
    · exact Or.inr (Or.inr ⟨r, by rw [heq]; exact List.mem_append_right _ hres, hr⟩)
  · intro call r hmem
    rcases List.mem_append.mp hmem with hmem | hmem
    · obtain ⟨pc, hpc, hcall⟩ := (hnew _ hmem).sdk _ _ _ rfl
      rw [← Option.some.inj hpc] at hcall
      exact h.not_calling hlaw hcall
    · exact h.uncalled call r hmem

/-- **Step lemma, clients.** -/
theorem Doomed.client_step {new : List Event} (h : Doomed c new w) (hlaw : Conserved w)
    (hs : step cfg a w = some w') (ha : w.workerAt a = none) :
    ∃ new', w'.trace = new' ++ w.trace ∧ Doomed c (new' ++ new) w' := by
  obtain ⟨new', heq, hnew⟩ := Extends.trace (step_extends hs)
  have hbc : ∀ e ∈ new', e.byClient = true := fun e he => (hnew e he).client ha
  have hopen : .sessionClosed ∉ new' := fun hmem => absurd (hbc _ hmem) (by simp [Event.byClient])
  have hwk : w.wk.pc.inSession = true → w'.wk.pc = w.wk.pc := by
    intro hin
    rcases step_wk hs ha with hwk | ⟨hidle, -⟩
    · rw [hwk]
    · rw [hidle] at hin
      exact absurd hin (by simp [Pc.inSession])
  refine ⟨new', heq, ?_, ?_, ?_⟩
  · intro hnot
    obtain ⟨hin, hl⟩ := h.ending (fun hmem => hnot (List.mem_append_right _ hmem))
    rw [hwk hin]
    exact ⟨hin, (step_ending hs ha).2 hl⟩
  · rcases h.fate with ⟨hmem, hnot⟩ | ⟨p, hpc, hnot⟩ | ⟨r, hres, hr⟩
    · refine Or.inl ⟨?_, by simp [hopen, hnot]⟩
      rw [clientStep_queue hlaw (h.ending hnot).2 hs ha]
      exact hmem
    · exact Or.inr (Or.inl ⟨p, by rw [hwk (h.ending hnot).1, hpc], by simp [hopen, hnot]⟩)
    · exact Or.inr (Or.inr ⟨r, by rw [heq]; exact List.mem_append_right _ hres, hr⟩)
  · intro call r hmem
    rcases List.mem_append.mp hmem with hmem | hmem
    · exact absurd (hbc _ hmem) (by simp [Event.byClient])
    · exact h.uncalled call r hmem

/-- **Run lemma.** From the drop on the command stays doomed. -/
theorem Run.doomed {t : List Event} {new : List Event}
    (hrun : Run cfg (fun w a => w.dropRace a = false) w₁)
    (hafter : Reaches (step cfg) (fun w a => w.dropRace a = false) w₁ w)
    (htrace : w₁.trace = new ++ t) (h : Doomed c new w₁) :
    ∃ new', w.trace = new' ++ t ∧ Doomed c new' w := by
  refine hrun.invariant_from (I := fun w => ∃ new', w.trace = new' ++ t ∧ Doomed c new' w) hafter
    ⟨new, htrace, h⟩ (fun s a s' hs hi _ hstep => ?_)
  obtain ⟨new', heq, hd⟩ := hi
  have hmore : ∃ more, s'.trace = more ++ s.trace ∧ Doomed c (more ++ new') s' := by
    rcases s.worker_or_client a with ⟨ans, rfl⟩ | ha
    · exact hd.worker_step hs.latchInv hs.conserved hstep
    · exact hd.client_step hs.conserved hstep ha
  obtain ⟨more, hmore, hd'⟩ := hmore
  exact ⟨more ++ new', by rw [hmore, heq, List.append_assoc], hd'⟩

/-! ### The result -/

/-- A promise that is answered at most once has one answer. -/
theorem resolved_unique {p : PromiseId} {r r' : Result} {t : List Event}
    (hone : (answered t).count p ≤ 1) (h : .resolved p r ∈ t) (h' : .resolved p r' ∈ t) :
    r = r' := by
  induction t with
  | nil => exact absurd h (by simp)
  | cons e t ih =>
    have hmem : ∀ {r}, .resolved p r ∈ t → 0 < (answered t).count p := fun hr =>
      List.count_pos_iff.mpr (List.mem_flatMap.mpr ⟨_, hr, by simp⟩)
    rw [answered_cons, List.count_append] at hone
    rcases List.mem_cons.mp h with rfl | hold <;> rcases List.mem_cons.mp h' with heq | hold'
    · exact (Event.resolved.inj heq).2.symm
    · have hpos := hmem hold'
      simp only [Event.answers, List.count_singleton_self] at hone
      omega
    · have hpos := hmem hold
      rw [← heq] at hone
      simp only [Event.answers, List.count_singleton_self] at hone
      omega
    · exact ih (by omega) hold hold'

/-- **A link drop kills queued work.** In every run without such a race: a command that is queued
    when a report without a link latches the end of a session is never executed from then on, and
    fails. -/
theorem link_drop_kills_queued {authority : Bool}
    (hrun : Run cfg (fun w a => w.dropRace a = false) w) (hconn : w.shared.connected = true)
    (hc : c ∈ w.queue.items) (hrace : w.dropRace (.status false authority) = false)
    (hdrop : step cfg (.status false authority) w = some w₁)
    (hafter : Reaches (step cfg) (fun w a => w.dropRace a = false) w₁ w') : Killed cfg c w w' := by
  have hrun₁ : Run cfg (fun w a => w.dropRace a = false) w₁ := .tail hrun hrace hdrop
  have hrun' : Run cfg (fun w a => w.dropRace a = false) w' := hrun₁.trans hafter
  have hin : w.wk.pc.inSession = true := by rw [← hrun.session.connected, hconn]
  have hfirst : ∃ new, w₁.trace = new ++ w.trace ∧ Doomed c new w₁ := by
    simp only [step, Option.some.injEq] at hdrop
    subst hdrop
    refine ⟨[_, .statusReport false authority], rfl, fun _ => ⟨hin, by simp⟩,
      Or.inl ⟨hc, by simp⟩, by simp⟩
  obtain ⟨first, hfirst, hd₁⟩ := hfirst
  obtain ⟨new, htrace, hd⟩ := hrun₁.doomed hafter hfirst hd₁
  have hnew : ∀ new', w'.trace = new' ++ w.trace → new' = new := fun new' heq =>
    List.append_cancel_right (heq.symm.trans htrace)
  have hlaw := hrun'.conserved c.promise
  simp only [World.load] at hlaw
  have hone : (answered w'.trace).count c.promise ≤ 1 := by split at hlaw <;> omega
  constructor
  · intro new' heq
    rw [hnew new' heq]
    exact hd.uncalled
  · intro r hres
    have hpos : 0 < (answered w'.trace).count c.promise :=
      List.count_pos_iff.mpr (List.mem_flatMap.mpr ⟨_, hres, by simp⟩)
    -- An answered promise is in no other place.
    rcases hd.fate with ⟨hmem, -⟩ | ⟨p, hpc, -⟩ | ⟨r', hres', hr'⟩
    · have hqueued : 0 < (w'.queue.items.map Command.promise).count c.promise :=
        List.count_pos_iff.mpr (List.mem_map_of_mem hmem)
      split at hlaw <;> omega
    · have hheld : 0 < w'.wk.pc.promises.count c.promise :=
        List.count_pos_iff.mpr (by simp [hpc, Pc.promises])
      split at hlaw <;> omega
    · rw [resolved_unique hone hres hres']
      exact hr'
  · intro new' heq hclosed
    rw [hnew new' heq] at hclosed
    rcases hd.fate with ⟨-, hopen⟩ | ⟨-, -, hopen⟩ | ⟨r', hres', -⟩
    · exact absurd hclosed hopen
    · exact absurd hclosed hopen
    · exact List.mem_flatMap.mpr ⟨_, hres', by simp⟩
  · intro new' heq hopen
    rw [hnew new' heq] at hopen
    obtain ⟨hin', hl'⟩ := hd.ending hopen
    refine ⟨workerStep_enabled hrun'.session hin' hl', fun a w'' hs => ?_⟩
    rcases w'.worker_or_client a with ⟨ans, rfl⟩ | ha
    · have hrank := workerStep_drainRank hin' hl' hs
      simp only [World.workerAt, Option.isSome_some, if_true]
      omega
    · rw [ha]
      have hpc : w''.wk.pc = w'.wk.pc := by
        rcases step_wk hs ha with hwk | ⟨hidle, -⟩
        · rw [hwk]
        · rw [hidle] at hin'
          exact absurd hin' (by simp [Pc.inSession])
      simp [World.drainRank, hpc, clientStep_queue hrun'.conserved hl' hs ha]

/-- The queued authority request of a session whose link drops while its worker waits. -/
theorem link_drop_kills_queued_waiting :
    ∃ w w', Run {} (fun w a => w.dropRace a = false) w ∧
      w.queue.items = [⟨.requestAuthority true, 0⟩] ∧
      Killed {} ⟨.requestAuthority true, 0⟩ w w' ∧ 0 ∈ answered w'.trace := by
  obtain ⟨w, w₁, w', hrun, hdrop, hafter, hw⟩ := exists_stages_of_exec {}
    (fun w a => w.dropRace a = false) (readying ++ [.requestAuthority true]) (.status false false)
    (works 2 (obliging 0xB104))
    (fun w w' => w.shared.connected && decide (w.queue.items = [⟨.requestAuthority true, 0⟩]) &&
      !w.dropRace (.status false false) && decide (0 ∈ answered w'.trace)) (by decide +kernel)
  simp only [Bool.and_eq_true, Bool.not_eq_true', decide_eq_true_eq] at hw
  obtain ⟨⟨⟨hconn, hqueue⟩, hrace⟩, hanswered⟩ := hw
  exact ⟨w, w', hrun, hqueue,
    link_drop_kills_queued hrun hconn (by simp [hqueue]) hrace hdrop hafter, hanswered⟩

end HypertronBridge.Runtime
