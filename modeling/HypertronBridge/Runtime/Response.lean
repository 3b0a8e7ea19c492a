import HypertronBridge.Runtime.Requests
import HypertronBridge.Runtime.Termination

namespace HypertronBridge.Runtime

open TransitionSystem

/-!
# Answers in a bounded number of steps

In a connected session the worker goes round one loop.  An emergency stop that is marked, a command that is
queued and a mode transition whose deadline has passed wait for one place of it each, and keep the worker
awake until it comes there.  So each of them is answered after a bounded number of the worker's steps,
whatever clients and status callbacks do.

* `Pc.place`, `Pc.ahead` — the places of the loop, and how far it is to one of them;
* `estop_is_answered` — an emergency stop;
* `command_is_served` — a queued command;
* `transition_is_settled` — a transition past its deadline.
-/

variable {cfg : RuntimeConfig} {w w' : World} {a : Action} {ans : Answer} {as : List Action}
  {p : PromiseId}

/-! ### The loop of a session -/

/-- The places of the loop, counted down to the wait and on to the check of the emergency stop, which is the
    highest. -/
def Pc.place : Pc → Nat
  | .recheck => 0
  | .readNow => 1
  | .wait => 2
  | .loopStart | .checkTimeout | .checkComplete _ => 3
  | .checkRead _ => 4
  | .pollReady _ => 5
  | .pollOrphanFail _ => 6
  | .pollOrphanRead _ => 7
  | .pollApply _ => 8
  | .pollSnapshot => 9
  | .pollDue => 10
  | .settle => 11
  | .settleDue => 12
  | .tickMove _ => 13
  | .tickRead => 14
  | .tickDue => 15
  | .heartbeat => 16
  | .heartbeatDue => 17
  | .refreshRead => 18
  | .execThrow _ _ | .execFail _ _ _ => 19
  | .execSetMode _ _ | .execAuthority _ _ => 20
  | .execZero _ _ => 21
  | .execMode _ _ => 22
  | .pop => 23
  | .orphanFail => 24
  | .orphanRead => 25
  | .estopDamp _ _ => 26
  | .estopZero _ => 27
  | .estopRead _ => 28
  | .estopDrain _ => 29
  | .estopUndo _ _ => 30
  | .estopAbort _ => 31
  | .estopCheck => 32
  | _ => 0

/-- The steps to place `c` at most, besides those that the commands in the queue add in an emergency stop;
    the end of the session is nearer than any place of the loop. -/
def Pc.ahead (c : Nat) : Pc → Nat
  | .drain => 1
  | .stopDamp _ => 2
  | .stopZero => 3
  | .stopRead => 4
  | pc => 5 + (pc.place + 33 - c) % 33

theorem Pc.ahead_le (c : Nat) (pc : Pc) : pc.ahead c ≤ 37 := by
  have hmod : (pc.place + 33 - c) % 33 < 33 := Nat.mod_lt _ (by decide)
  unfold Pc.ahead
  split <;> omega

/-- The actions that can enqueue a command. -/
def Action.enqueues : Action → Bool
  | .requestAuthority _ | .enqueueMode _ => true
  | _ => false

/-- A client's step makes the queue longer by the command that it enqueues at most. -/
theorem clientStep_length (hs : step cfg a w = some w') (ha : w.workerAt a = none) :
    w'.queue.items.length ≤ w.queue.items.length + a.enqueues.toNat := by
  rcases step_queue hs ha with hqueue | ⟨c, hitems, -⟩
  · rw [hqueue]
    exact Nat.le_add_right _ _
  · have hlength : w'.queue.items.length = w.queue.items.length + 1 := by
      rw [hitems, List.length_append, List.length_singleton]
    cases henq : a.enqueues with
    | true => exact Nat.le_of_eq hlength
    | false =>
      -- no other client call pushes
      exfalso
      have hsame : w'.queue = w.queue := by
        cases a
        case worker ans => exact absurd ha (by simp)
        case requestAuthority sdk => exact absurd henq (by simp [Action.enqueues])
        case enqueueMode q => exact absurd henq (by simp [Action.enqueues])
        all_goals simp only [step, World.start, World.markEstop, World.requestMode, World.acceptMode,
          World.handleStatus] at hs
        all_goals repeat' split at hs
        all_goals simp only [Option.some.injEq, reduceCtorEq] at hs
        all_goals subst hs
        all_goals simp
      rw [hsame] at hlength
      omega

/-- What a session's worker does next is open to it unless it sleeps. -/
theorem inSession_enabled (hsession : SessionInv w) (hin : w.wk.pc.inSession = true)
    (hsleeps : w.sleeps = false) (ans : Answer) : ∃ w', step cfg (.worker ans) w = some w' := by
  refine worker_goes_on hsession (fun hidle => ?_) (fun hreturned => ?_) hsleeps ans
  · exact absurd hin (by simp [hidle, Pc.inSession])
  · exact absurd hin (by simp [hreturned, Pc.inSession])

/-- What has been answered stays answered. -/
theorem step_answered (hp : p ∈ answered w.trace) (hs : step cfg a w = some w') :
    p ∈ answered w'.trace := by
  obtain ⟨new, heq, -⟩ := Extends.trace (step_extends hs)
  rw [heq, answered, List.flatMap_append]
  exact List.mem_append_right _ hp

/-- **Rule.** A session's worker, kept awake, comes nearer to what is to happen with each of its steps; the
    others' steps put it off by `k` each, those that do so.  So it happens before the worker takes more steps
    than that. -/
theorem happens_within {P Q : World → Prop} (k : Nat) (adding : Action → Bool) (rank : World → Nat)
    (hworker : ∀ w ans w', Reachable cfg w → P w → workerStep cfg ans w w.wk.pc = some w' →
      Q w' ∨ P w' ∧ 1 + rank w' ≤ rank w)
    (hclient : ∀ w a w', Reachable cfg w → P w → step cfg a w = some w' → w.workerAt a = none →
      Q w' ∨ P w' ∧ rank w' ≤ rank w + k * (adding a).toNat)
    (hawake : ∀ w, Reachable cfg w → P w → w.wk.pc.inSession = true ∧ w.sleeps = false)
    (hkeep : ∀ w a w', Q w → step cfg a w = some w' → Q w')
    (hrun : Reachable cfg w) (hP : P w) (hpath : Path (step cfg) w as w') :
    Q w' ∨ (as.countP Action.isWorker ≤ rank w + k * as.countP adding ∧
      ∀ ans, ∃ w'', step cfg (.worker ans) w' = some w'') := by
  have hanswer := hpath.answers (I := fun w => Reachable cfg w ∧ P w) Action.isWorker
    (fun a => k * (adding a).toNat) rank
    (fun s a s' hI hs => by
      obtain ⟨hreach, hpending⟩ := hI
      have hreach' : Reachable cfg s' := hreach.tail trivial hs
      rcases s.worker_or_client a with ⟨ans, rfl⟩ | ha
      · rcases hworker s ans s' hreach hpending hs with hQ | ⟨hpending', hrank⟩
        · exact Or.inl hQ
        · exact Or.inr ⟨⟨hreach', hpending'⟩, Nat.le_add_right_of_le hrank⟩
      · rcases hclient s a s' hreach hpending hs ha with hQ | ⟨hpending', hrank⟩
        · exact Or.inl hQ
        · have hother : a.isWorker = false := by
            cases a with
            | worker ans => exact absurd ha (by simp)
            | _ => rfl
          rw [hother]
          exact Or.inr ⟨⟨hreach', hpending'⟩, by simpa using hrank⟩)
    hkeep ⟨hrun, hP⟩
  rcases hanswer with hQ | ⟨⟨hreach, hpending⟩, hle⟩
  · exact Or.inl hQ
  · rw [sum_adds] at hle
    obtain ⟨hin, hsleeps⟩ := hawake w' hreach hpending
    exact Or.inr ⟨by omega, inSession_enabled hreach.session hin hsleeps⟩

/-! ### An emergency stop -/

/-- The emergency stop of this promise is marked, or the worker executes it. -/
def StopPending (p : PromiseId) (w : World) : Prop :=
  w.wk.pc.estopRequest = some p ∨ w.shared.estopPromise = some p

/-- The worker's own way through an emergency stop, to its answer. -/
def Pc.stopRest : Pc → Nat
  | .estopDamp _ _ => 1
  | .estopZero _ => 2
  | .estopRead _ => 3
  | .estopDrain _ => 4
  | .estopUndo _ _ | .estopAbort _ => 5
  | _ => 0

/-- The steps to the answer of an emergency stop: each command in the queue takes two. -/
def World.stopRequestRank (p : PromiseId) (w : World) : Nat :=
  (if w.wk.pc.estopRequest = some p then w.wk.pc.stopRest else 6 + w.wk.pc.ahead 32) +
    2 * w.queue.items.length

/-- **Step lemma, the worker.** -/
theorem StopPending.worker (h : StopPending p w) (hsession : SessionInv w)
    (hs : workerStep cfg ans w w.wk.pc = some w') :
    p ∈ answered w'.trace ∨ StopPending p w' ∧ 1 + w'.stopRequestRank p ≤ w.stopRequestRank p := by
  by_cases hown : w.wk.pc.estopRequest = some p
  · -- the worker executes it
    cases hpc : w.wk.pc
    all_goals rw [hpc] at hs hown
    all_goals simp only [Pc.estopRequest, Option.some.injEq, reduceCtorEq] at hown
    all_goals subst hown
    all_goals simp only [workerStep] at hs
    all_goals repeat' split at hs
    all_goals simp only [Option.some.injEq] at hs
    all_goals subst hs
    all_goals simp [StopPending, World.stopRequestRank, hpc, Pc.estopRequest, Pc.stopRest]
    all_goals first
      | omega
      | (rename_i hpop
         have hlength := tryPop_length hpop
         omega)
  · have hslot : w.shared.estopPromise = some p := h.resolve_left hown
    have hin : w.wk.pc.inSession = true := by
      by_contra hout
      have hnone := hsession.idleEstop (by simpa using hout)
      exact absurd (hslot.symm.trans hnone) (by simp)
    cases hpc : w.wk.pc
    all_goals rw [hpc] at hs hown hin
    all_goals simp only [Pc.inSession, Bool.false_eq_true] at hin
    all_goals simp only [Pc.estopRequest, Option.some.injEq, reduceCtorEq, not_false_eq_true] at hown
    case estopCheck =>
      -- the worker takes the mark
      have hengaged : w.shared.estopEngaged = true := by rw [hsession.estop, hslot]; rfl
      simp only [workerStep, hengaged, hslot, Bool.not_true, Bool.false_eq_true, ↓reduceIte,
        Option.some.injEq] at hs
      subst hs
      refine Or.inr ⟨Or.inl rfl, ?_⟩
      simp [World.stopRequestRank, hpc, Pc.estopRequest, Pc.stopRest, Pc.ahead, Pc.place]
      omega
    case drain =>
      have hengaged : w.shared.estopEngaged = true := by rw [hsession.estop, hslot]; rfl
      simp only [workerStep, Option.some.injEq] at hs
      subst hs
      exact Or.inl (mem_answered_failAllPending cfg (w := { w with shared.connected := false })
        hsession.estop (Or.inr (by simp [hslot])))
    all_goals simp only [workerStep] at hs
    all_goals repeat' split at hs
    all_goals simp only [Option.some.injEq, reduceCtorEq] at hs
    all_goals subst hs
    all_goals simp [StopPending, World.stopRequestRank, hpc, Pc.estopRequest, Pc.ahead, Pc.place, hslot, hown]
    all_goals first
      | omega
      | (rename_i hpop
         have hlength := tryPop_length hpop
         omega)

/-- **Step lemma, the others.** They may answer the request, by a newer one, and may enqueue. -/
theorem StopPending.client (h : StopPending p w) (hsession : SessionInv w)
    (hs : step cfg a w = some w') (ha : w.workerAt a = none) :
    p ∈ answered w'.trace ∨
      StopPending p w' ∧ w'.stopRequestRank p ≤ w.stopRequestRank p + 2 * a.enqueues.toNat := by
  have hlength := clientStep_length hs ha
  rcases step_wk hs ha with hwk | ⟨hidle, -⟩
  · have hrank : w'.stopRequestRank p ≤ w.stopRequestRank p + 2 * a.enqueues.toNat := by
      unfold World.stopRequestRank
      rw [hwk]
      omega
    rcases h with hown | hslot
    · exact Or.inr ⟨Or.inl (by rw [hwk]; exact hown), hrank⟩
    · rcases step_estopPromise hsession hs hslot with hslot' | hanswered | habort
      · exact Or.inr ⟨Or.inr hslot', hrank⟩
      · exact Or.inl hanswered
      · exact Or.inr ⟨Or.inl (by rw [habort]; rfl), hrank⟩
  · -- a worker that has not started has nothing to answer
    exfalso
    rcases h with hown | hslot
    · exact absurd hown (by simp [hidle, Pc.estopRequest])
    · exact absurd hslot (by simp [hsession.idleEstop (by simp [hidle, Pc.inSession])])

/-- A pending stop request keeps the worker awake, in a session. -/
theorem StopPending.awake (h : StopPending p w) (hsession : SessionInv w) :
    w.wk.pc.inSession = true ∧ w.sleeps = false := by
  rcases h with hown | hslot
  · cases hpc : w.wk.pc
    all_goals rw [hpc] at hown
    all_goals simp only [Pc.estopRequest, reduceCtorEq] at hown
    all_goals simp [World.sleeps, hpc, Pc.inSession]
  · have hin : w.wk.pc.inSession = true := by
      by_contra hout
      exact absurd hslot (by simp [hsession.idleEstop (by simpa using hout)])
    have hengaged : w.shared.estopEngaged = true := by rw [hsession.estop, hslot]; rfl
    refine ⟨hin, ?_⟩
    unfold World.sleeps
    split
    · simp [World.woken, hengaged]
    · rename_i wakeAt hpc
      exact absurd hin (by simp [hpc, Pc.inSession])
    · rfl

theorem stopRequestRank_le : w.stopRequestRank p ≤ 43 + 2 * w.queue.items.length := by
  have hahead := w.wk.pc.ahead_le 32
  have hrest : w.wk.pc.stopRest ≤ 5 := by
    unfold Pc.stopRest
    split <;> omega
  unfold World.stopRequestRank
  split <;> omega

/-- **An emergency stop is answered.** From any state of a run in which the stop request of promise `p` is
    marked, or the worker executes it, whatever the clients, the status callbacks and the clock do in
    between: the request is answered before the worker takes more steps than 43 and two for each command
    that is in the queue or that a client tries to enqueue, and until then the worker's next step is open to
    it, whatever the SDK answers. -/
theorem estop_is_answered (hrun : Reachable cfg w) (hp : StopPending p w)
    (hpath : Path (step cfg) w as w') :
    p ∈ answered w'.trace ∨
      (as.countP Action.isWorker ≤ 43 + 2 * (w.queue.items.length + as.countP Action.enqueues) ∧
        ∀ ans, ∃ w'', step cfg (.worker ans) w' = some w'') := by
  have hbound := stopRequestRank_le (p := p) (w := w)
  rcases happens_within (P := StopPending p) (Q := fun w => p ∈ answered w.trace) 2 Action.enqueues
    (World.stopRequestRank p) (fun _ _ _ hreach h hs => h.worker hreach.session hs)
    (fun _ _ _ hreach h hs ha => h.client hreach.session hs ha)
    (fun _ hreach h => h.awake hreach.session) (fun _ _ _ h hs => step_answered h hs) hrun hp hpath
    with hans | ⟨hle, hopen⟩
  · exact Or.inl hans
  · exact Or.inr ⟨by omega, hopen⟩

/-- A marked stop request that the worker executes, not yet answered. -/
theorem estop_is_answered_marked : ∃ w w', Reachable {} w ∧ StopPending 0 w ∧
    Path (step {}) w (works 6 (obliging 0xB104)) w' ∧
    ∀ ans, ∃ w'', step {} (.worker ans) w' = some w'' := by
  obtain ⟨w, hrun, hw⟩ := exists_run_of_exec {} (fun _ _ => True)
    (readying ++ [.latchEstop, .markEstop 0])
    (fun w => w.shared.estopPromise = some 0 ∧
      (execGuarded (step {}) (fun _ _ => True) (works 6 (obliging 0xB104)) w).any
        (fun w' => 0 ∉ answered w'.trace)) (by decide +kernel)
  obtain ⟨hslot, hend⟩ := of_decide_eq_true hw
  obtain ⟨w', hex, hopen⟩ := (Option.any_eq_true _ _).mp hend
  have hpath := path_of_execGuarded _ hex
  have hanswered := estop_is_answered hrun (Or.inr hslot) hpath
  exact ⟨w, w', hrun, Or.inr hslot, hpath, (hanswered.resolve_left (of_decide_eq_true hopen)).2⟩

/-! ### A command -/

/-- The promise of the command that the worker has taken and not yet answered. -/
def Pc.carried : Pc → Option PromiseId
  | .execAuthority p _ | .execMode p _ | .execZero p _ | .execSetMode p _ | .execFail p _ _ => some p
  | .execThrow c _ => some c.promise
  | .estopUndo _ q => some q
  | _ => none

/-- The command of this promise is in the queue, or in the worker's hands. -/
def CommandPending (p : PromiseId) (w : World) : Prop :=
  w.wk.pc.carried = some p ∨ p ∈ w.queue.items.map Command.promise

/-- Its promise has an answer, or the watch for its mode is armed. -/
def Served (p : PromiseId) (w : World) : Prop :=
  p ∈ answered w.trace ∨ ∃ c d, c.promise = p ∧ .armed c d ∈ w.trace

/-- The worker's own way through a command. -/
def Pc.commandRest : Pc → Nat
  | .execMode _ _ => 4
  | .execZero _ _ => 3
  | .execSetMode _ _ | .execAuthority _ _ => 2
  | .execFail _ _ _ | .execThrow _ _ | .estopUndo _ _ => 1
  | _ => 0

/-- The steps until a command is served: one round of the loop for each command before it. -/
def World.commandRank (p : PromiseId) (w : World) : Nat :=
  if w.wk.pc.carried = some p then w.wk.pc.commandRest
  else 5 + 34 * (w.queue.items.map Command.promise).idxOf p + w.wk.pc.ahead 23

/-- The session-end drain answers what the queue holds. -/
theorem mem_answered_of_drained (hestop : w.shared.estopEngaged = w.shared.estopPromise.isSome)
    (h : p ∈ w.queue.items.map Command.promise) : p ∈ answered (w.failAllPending cfg).trace := by
  rw [← List.count_pos_iff, answered_failAllPending cfg hestop]
  have hpos := List.count_pos_iff.mpr h
  omega

/-- A popped command is the one that waits, or was before it. -/
theorem tryPop_idxOf {q q' : ThreadSafeQueue .rejectNew Command} {c : Command}
    (h : q.tryPop = (some c, q')) (hp : p ∈ q.items.map Command.promise) :
    p = c.promise ∨ p ≠ c.promise ∧ p ∈ q'.items.map Command.promise ∧
      (q.items.map Command.promise).idxOf p = (q'.items.map Command.promise).idxOf p + 1 := by
  rw [ThreadSafeQueue.tryPop_some h, List.map_cons] at hp ⊢
  rcases List.mem_cons.mp hp with heq | hmem
  · exact Or.inl heq
  · by_cases heq : p = c.promise
    · exact Or.inl heq
    · exact Or.inr ⟨heq, hmem, List.idxOf_cons_ne _ (Ne.symm heq)⟩

theorem Pc.commandRest_le (pc : Pc) : pc.commandRest ≤ 4 := by
  unfold Pc.commandRest
  split <;> omega

/-- A step that pops a command, and answers it or takes it in hand, is within a round of the loop. -/
theorem CommandPending.popped {q : ThreadSafeQueue .rejectNew Command} {c : Command}
    (hpop : w.queue.tryPop = (some c, q)) (hp : p ∈ w.queue.items.map Command.promise)
    (hfree : w.wk.pc.carried = none) (hqueue : w'.queue = q)
    (hround : w'.wk.pc.ahead 23 ≤ w.wk.pc.ahead 23 + 32)
    (hhand : Served c.promise w' ∨ w'.wk.pc.carried = some c.promise) :
    Served p w' ∨ CommandPending p w' ∧ 1 + w'.commandRank p ≤ w.commandRank p := by
  have hrest := w'.wk.pc.commandRest_le
  have hrank : w.commandRank p =
      5 + 34 * (w.queue.items.map Command.promise).idxOf p + w.wk.pc.ahead 23 := by
    simp [World.commandRank, hfree]
  rcases tryPop_idxOf hpop hp with rfl | ⟨-, hmem, hidx⟩
  · rcases hhand with hserved | hcarried
    · exact Or.inl hserved
    · refine Or.inr ⟨Or.inl hcarried, ?_⟩
      rw [hrank, World.commandRank, if_pos hcarried]
      omega
  · refine Or.inr ⟨Or.inr (by rw [hqueue]; exact hmem), ?_⟩
    rw [hrank, World.commandRank, hqueue, hidx]
    split <;> omega

/-- **Step lemma, the worker.** -/
theorem CommandPending.worker (h : CommandPending p w) (hsession : SessionInv w)
    (hs : workerStep cfg ans w w.wk.pc = some w') :
    Served p w' ∨ CommandPending p w' ∧ 1 + w'.commandRank p ≤ w.commandRank p := by
  by_cases hown : w.wk.pc.carried = some p
  · -- the worker executes it
    cases hpc : w.wk.pc
    all_goals rw [hpc] at hs hown
    all_goals simp only [Pc.carried, Option.some.injEq, reduceCtorEq] at hown
    all_goals subst hown
    all_goals simp only [workerStep] at hs
    all_goals repeat' split at hs
    all_goals simp only [Option.some.injEq] at hs
    all_goals subst hs
    all_goals simp [Served, CommandPending, World.commandRank, hpc, Pc.carried, Pc.commandRest]
    -- the last call succeeded: the watch is armed
    exact Or.inl (Or.inr ⟨_, rfl, _, Or.inl ⟨rfl, rfl⟩⟩)
  · have hqueued : p ∈ w.queue.items.map Command.promise := h.resolve_left hown
    have hin : w.wk.pc.inSession = true := by
      by_contra hout
      exact absurd hqueued (by simp [hsession.idleQueue (by simpa using hout)])
    cases hpc : w.wk.pc
    all_goals rw [hpc] at hs hown hin
    all_goals simp only [Pc.inSession, Bool.false_eq_true] at hin
    all_goals simp only [Pc.carried, Option.some.injEq, reduceCtorEq, not_false_eq_true] at hown
    case drain =>
      simp only [workerStep, Option.some.injEq] at hs
      subst hs
      exact Or.inl (Or.inl (mem_answered_of_drained (w := { w with shared.connected := false })
        hsession.estop hqueued))
    case pop =>
      simp only [workerStep] at hs
      repeat' split at hs
      all_goals rename_i hpop
      all_goals simp only [Option.some.injEq] at hs
      all_goals subst hs
      · -- the queue is not empty
        exact absurd hqueued (by simp [ThreadSafeQueue.tryPop_none hpop])
      all_goals refine CommandPending.popped hpop hqueued (by rw [hpc]; rfl) ?_ ?_ (Or.inr ?_)
      all_goals first
        | rfl
        | simp [hpc, Pc.ahead, Pc.place]
    case estopDrain p' =>
      simp only [workerStep] at hs
      repeat' split at hs
      all_goals rename_i hpop
      all_goals simp only [Option.some.injEq] at hs
      all_goals subst hs
      · exact absurd hqueued (by simp [ThreadSafeQueue.tryPop_none hpop])
      · refine CommandPending.popped hpop hqueued (by rw [hpc]; rfl) ?_ ?_ (Or.inr ?_)
        · rfl
        · simp [hpc, Pc.ahead, Pc.place]
        · rfl
      · -- an authority request is answered on the spot
        refine CommandPending.popped hpop hqueued (by rw [hpc]; rfl) ?_ ?_ (Or.inl (Or.inl ?_))
        · rfl
        · simp [hpc, Pc.ahead, Pc.place]
        · exact List.mem_cons_self ..
    all_goals simp only [workerStep] at hs
    all_goals repeat' split at hs
    all_goals simp only [Option.some.injEq, reduceCtorEq] at hs
    all_goals subst hs
    all_goals refine Or.inr ⟨Or.inr (by first | exact hqueued | simpa using hqueued), ?_⟩
    all_goals simp [World.commandRank, hpc, Pc.carried, Pc.ahead, Pc.place, hown]
    all_goals omega

/-- **Step lemma, the others.** They push behind it. -/
theorem CommandPending.client (h : CommandPending p w) (hsession : SessionInv w)
    (hs : step cfg a w = some w') (ha : w.workerAt a = none) :
    CommandPending p w' ∧ w'.commandRank p ≤ w.commandRank p := by
  rcases step_wk hs ha with hwk | ⟨hidle, -⟩
  · rcases h with hown | hqueued
    · refine ⟨Or.inl (by rw [hwk]; exact hown), ?_⟩
      rw [World.commandRank, World.commandRank, hwk, if_pos hown, if_pos hown]
    · have hqueue : p ∈ w'.queue.items.map Command.promise ∧
          (w'.queue.items.map Command.promise).idxOf p = (w.queue.items.map Command.promise).idxOf p := by
        rcases step_queue hs ha with hqueue | ⟨c, hitems, -⟩
        · rw [hqueue]
          exact ⟨hqueued, rfl⟩
        · rw [hitems, List.map_append]
          exact ⟨List.mem_append_left _ hqueued, List.idxOf_append_of_mem hqueued⟩
      refine ⟨Or.inr hqueue.1, ?_⟩
      rw [World.commandRank, World.commandRank, hwk, hqueue.2]
  · -- a worker that has not started has no command, and the queue is empty
    exfalso
    rcases h with hown | hqueued
    · exact absurd hown (by simp [hidle, Pc.carried])
    · exact absurd hqueued (by simp [hsession.idleQueue (by simp [hidle, Pc.inSession])])

/-- A pending command keeps the worker awake, in a session. -/
theorem CommandPending.awake (h : CommandPending p w) (hsession : SessionInv w) :
    w.wk.pc.inSession = true ∧ w.sleeps = false := by
  rcases h with hown | hqueued
  · cases hpc : w.wk.pc
    all_goals rw [hpc] at hown
    all_goals simp only [Pc.carried, reduceCtorEq] at hown
    all_goals simp [World.sleeps, hpc, Pc.inSession]
  · have hin : w.wk.pc.inSession = true := by
      by_contra hout
      exact absurd hqueued (by simp [hsession.idleQueue (by simpa using hout)])
    have hlength : 0 < w.queue.items.length := by
      rw [← List.length_map Command.promise]
      exact List.length_pos_of_mem hqueued
    refine ⟨hin, ?_⟩
    unfold World.sleeps
    split
    · simp [World.woken, hlength]
    · rename_i wakeAt hpc
      exact absurd hin (by simp [hpc, Pc.inSession])
    · rfl

/-- What is served stays served. -/
theorem Served.step (h : Served p w) (hs : step cfg a w = some w') : Served p w' := by
  rcases h with hans | ⟨c, d, hc, harmed⟩
  · exact Or.inl (step_answered hans hs)
  · obtain ⟨new, heq, -⟩ := Extends.trace (step_extends hs)
    exact Or.inr ⟨c, d, hc, by rw [heq]; exact List.mem_append_right _ harmed⟩

/-- **A command is served in its turn.** From any state of a run in which the command of promise `p` is in
    the queue, or in the worker's hands: whatever the clients, the status callbacks and the clock do in
    between, and whatever the SDK answers or throws, its promise is answered or the watch for its mode is
    armed before the worker takes more steps than 42 and 34 for each command before it; and until then the
    worker's next step is open to it. -/
theorem command_is_served (hrun : Reachable cfg w) (hp : CommandPending p w)
    (hpath : Path (step cfg) w as w') :
    Served p w' ∨
      (as.countP Action.isWorker ≤ 42 + 34 * (w.queue.items.map Command.promise).idxOf p ∧
        ∀ ans, ∃ w'', step cfg (.worker ans) w' = some w'') := by
  have hbound : w.commandRank p ≤ 42 + 34 * (w.queue.items.map Command.promise).idxOf p := by
    have hahead := w.wk.pc.ahead_le 23
    have hrest := w.wk.pc.commandRest_le
    unfold World.commandRank
    split <;> omega
  rcases happens_within (P := CommandPending p) (Q := Served p) 0 (fun _ => false) (World.commandRank p)
    (fun _ _ _ hreach h hs => h.worker hreach.session hs)
    (fun _ _ _ hreach h hs ha => Or.inr (h.client hreach.session hs ha))
    (fun _ hreach h => h.awake hreach.session) (fun _ _ _ h hs => h.step hs) hrun hp hpath
    with hserved | ⟨hle, hopen⟩
  · exact Or.inl hserved
  · exact Or.inr ⟨by omega, hopen⟩

/-- An authority request in the queue, not yet served. -/
theorem command_is_served_queued : ∃ w w', Reachable {} w ∧ CommandPending 0 w ∧
    Path (step {}) w (works 5 (obliging 0xB104)) w' ∧
    (Served 0 w' ∨ (works 5 (obliging 0xB104)).countP Action.isWorker ≤ 42 ∧
      ∀ ans, ∃ w'', step {} (.worker ans) w' = some w'') := by
  obtain ⟨w, hrun, hw⟩ := exists_run_of_exec {} (fun _ _ => True) (readying ++ [.requestAuthority true])
    (fun w => w.queue.items.map Command.promise = [0] ∧
      (execGuarded (step {}) (fun _ _ => True) (works 5 (obliging 0xB104)) w).isSome) (by decide +kernel)
  obtain ⟨hqueue, hend⟩ := of_decide_eq_true hw
  obtain ⟨w', hex⟩ := Option.isSome_iff_exists.mp hend
  have hpath := path_of_execGuarded _ hex
  have hpending : CommandPending 0 w := Or.inr (by rw [hqueue]; exact List.mem_singleton_self 0)
  have hserved := command_is_served hrun hpending hpath
  rw [hqueue] at hserved
  exact ⟨w, w', hrun, hpending, hpath, hserved⟩

/-! ### A transition past its deadline -/

/-- After the abort of an emergency stop no transition is armed, until it is over. -/
theorem Run.aborted {ok : World → Action → Prop} (h : Run cfg ok w) :
    w.wk.pc.estopRequest.isSome = true → (∀ p, w.wk.pc ≠ .estopAbort p) →
      w.wk.transition.active = false := by
  refine h.worker_history (I := fun wk _ => wk.pc.estopRequest.isSome = true →
    (∀ p, wk.pc ≠ .estopAbort p) → wk.transition.active = false) (by simp [World.initial, Pc.estopRequest])
    (fun _ _ _ _ ih => ih) (fun _ _ _ _ => by simp [Pc.estopRequest]) ?_
  intro w ans w' _ ih hs
  cases hpc : w.wk.pc
  all_goals rw [hpc] at hs
  all_goals simp only [hpc, Pc.estopRequest] at ih
  all_goals simp only [workerStep] at hs
  all_goals repeat' split at hs
  all_goals simp only [Option.some.injEq, reduceCtorEq] at hs
  all_goals subst hs
  all_goals simp_all [Pc.estopRequest]

/-- The transition of promise `p` is armed, and its deadline has passed. -/
def TransitionDue (p : PromiseId) (w : World) : Prop :=
  w.wk.transition.active = true ∧ w.wk.transition.promise = p ∧ w.wk.transition.deadline ≤ w.clock

/-- The steps until it is settled: on to the next reading of the clock, and from there to the settlement. -/
def World.settleRank (w : World) : Nat :=
  if w.wk.transition.deadline ≤ w.wk.now then w.wk.pc.ahead 11 else 40 + w.wk.pc.ahead 1

/-- **Step lemma, the worker.** -/
theorem TransitionDue.worker (h : TransitionDue p w) (hreach : Reachable cfg w)
    (hs : workerStep cfg ans w w.wk.pc = some w') :
    p ∈ answered w'.trace ∨ TransitionDue p w' ∧ 1 + w'.settleRank ≤ w.settleRank := by
  obtain ⟨hactive, rfl, hdue⟩ := h
  have hsession := hreach.session
  have htrans := hreach.transitionAt
  have hclock : w.clock ≤ w'.clock := step_clock_le (a := .worker ans) hs
  rcases step_transition (a := .worker ans) hsession htrans hs hactive with hsame | hans
  · have hactive' : w'.wk.transition.active = true := by rw [hsame]; exact hactive
    refine Or.inr ⟨⟨hactive', by rw [hsame], by rw [hsame]; exact hdue.trans hclock⟩, ?_⟩
    have hin : w.wk.pc.inSession = true := by
      by_contra hout
      exact absurd hactive (by simp [hsession.idleTransition (by simpa using hout)])
    have haborted := hreach.aborted
    clear hsame hclock
    cases hpc : w.wk.pc
    all_goals rw [hpc] at hs hin
    all_goals simp only [Pc.inSession, Bool.false_eq_true] at hin
    all_goals simp [hpc, Pc.estopRequest, hactive] at haborted
    all_goals simp only [TransitionAt, hpc, hactive, Bool.true_eq_false] at htrans
    all_goals simp only [workerStep] at hs
    all_goals repeat' split at hs
    all_goals simp only [Option.some.injEq, reduceCtorEq] at hs
    all_goals subst hs
    all_goals simp [World.settleRank, hpc, Pc.ahead, Pc.place, hactive, hdue] at hactive' ⊢
    -- a step either way goes on; only the settlement's place depends on the deadline
    all_goals first
      | (split <;> omega)
      | (rename_i hlater
         simp only [hactive, Bool.true_and, decide_eq_true_eq] at hlater
         rw [if_neg hlater, if_neg hlater]
         decide)
  · exact Or.inl hans

/-- **Step lemma, the others.** -/
theorem TransitionDue.client (h : TransitionDue p w) (hsession : SessionInv w)
    (hs : step cfg a w = some w') (ha : w.workerAt a = none) :
    TransitionDue p w' ∧ w'.settleRank ≤ w.settleRank := by
  obtain ⟨hactive, hp, hdue⟩ := h
  rcases step_wk hs ha with hwk | ⟨hidle, -⟩
  · refine ⟨⟨by rw [hwk]; exact hactive, by rw [hwk]; exact hp, ?_⟩, ?_⟩
    · rw [hwk]
      exact hdue.trans (step_clock_le hs)
    · rw [World.settleRank, World.settleRank, hwk]
  · exact absurd hactive (by simp [hsession.idleTransition (by simp [hidle, Pc.inSession])])

/-- A transition past its deadline keeps the worker awake, in a session. -/
theorem TransitionDue.awake (h : TransitionDue p w) (hsession : SessionInv w) :
    w.wk.pc.inSession = true ∧ w.sleeps = false := by
  obtain ⟨hactive, -, hdue⟩ := h
  have hin : w.wk.pc.inSession = true := by
    by_contra hout
    exact absurd hactive (by simp [hsession.idleTransition (by simpa using hout)])
  refine ⟨hin, ?_⟩
  unfold World.sleeps
  split
  · simp [World.woken, hactive, hdue]
  · rename_i wakeAt hpc
    exact absurd hin (by simp [hpc, Pc.inSession])
  · rfl

/-- **A transition is settled after its deadline.** From any state of a run in which the transition of
    promise `p` is armed and its deadline has passed: whatever the clients, the status callbacks and the
    clock do in between, and whatever the SDK answers, throws or reports, the promise is answered before the
    worker takes more steps than 77, and until then the worker's next step is open to it. -/
theorem transition_is_settled (hrun : Reachable cfg w) (hp : TransitionDue p w)
    (hpath : Path (step cfg) w as w') :
    p ∈ answered w'.trace ∨
      (as.countP Action.isWorker ≤ 77 ∧ ∀ ans, ∃ w'', step cfg (.worker ans) w' = some w'') := by
  have hbound : w.settleRank ≤ 77 := by
    have hnow := w.wk.pc.ahead_le 1
    have hsettle := w.wk.pc.ahead_le 11
    unfold World.settleRank
    split <;> omega
  rcases happens_within (P := TransitionDue p) (Q := fun w => p ∈ answered w.trace) 0 (fun _ => false)
    World.settleRank (fun _ _ _ hreach h hs => h.worker hreach hs)
    (fun _ _ _ hreach h hs ha => Or.inr (h.client hreach.session hs ha))
    (fun _ hreach h => h.awake hreach.session) (fun _ _ _ h hs => step_answered h hs) hrun hp hpath
    with hans | ⟨hle, hopen⟩
  · exact Or.inl hans
  · exact Or.inr ⟨by omega, hopen⟩

/-- A mode switch that never reaches its sport status: past its deadline, and not settled before the worker
    has read the clock. -/
theorem transition_is_settled_overdue : ∃ w w', Reachable {} w ∧ TransitionDue 0 w ∧
    Path (step {}) w (works 3 (obliging 0xB101)) w' ∧
    ∀ ans, ∃ w'', step {} (.worker ans) w' = some w'' := by
  obtain ⟨w, hrun, hw⟩ := exists_run_of_exec {} (fun _ _ => True)
    (readying ++ [.requestMode "damping", .acceptMode 0, .enqueueMode 0] ++ works 10 (obliging 0xB104) ++
      [.advance (ms 5000)])
    (fun w => w.wk.transition.active ∧ w.wk.transition.promise = 0 ∧ w.wk.transition.deadline ≤ w.clock ∧
      (execGuarded (step {}) (fun _ _ => True) (works 3 (obliging 0xB101)) w).any
        (fun w' => 0 ∉ answered w'.trace)) (by decide +kernel)
  obtain ⟨hactive, hp, hdue, hend⟩ := of_decide_eq_true hw
  obtain ⟨w', hex, hopen⟩ := (Option.any_eq_true _ _).mp hend
  have hpath := path_of_execGuarded _ hex
  have hsettled := transition_is_settled hrun ⟨hactive, hp, hdue⟩ hpath
  exact ⟨w, w', hrun, ⟨hactive, hp, hdue⟩, hpath, (hsettled.resolve_left (of_decide_eq_true hopen)).2⟩

end HypertronBridge.Runtime
