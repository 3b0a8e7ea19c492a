import HypertronBridge.Runtime.Termination

namespace HypertronBridge.Runtime

open TransitionSystem History

/-!
# When sessions end, and when the next attempt begins

The worker's own account of a run: each of its steps, with the state it was taken in and the answer of its
call.  It shows the times at which connection attempts ended and began, and which heartbeats failed.

* `Entry`, `Ledger` — the account, kept beside the runtime;
* `Ledger.Run.history` — the invariant rule for it;
* `attempts_back_off` — the pauses between attempts;
* `sessions_end_for_cause` — the ends of sessions.
-/

/-! ### The account -/

/-- A step of the worker: the state in which it was taken, and the answer of its call. -/
structure Entry where
  world : World
  answer : Answer

/-- The program counter of the step. -/
def Entry.pc (e : Entry) : Pc := e.world.wk.pc

/-- The runtime with the steps its worker has taken, newest first. -/
structure Ledger where
  world : World
  entries : List Entry := []

namespace Ledger

/-- A step of the runtime, and its entry when it is the worker's. -/
def step (cfg : RuntimeConfig) (a : Action) (l : Ledger) : Option Ledger :=
  (Runtime.step cfg a l.world).map fun w =>
    { world := w
      entries := match a with
        | .worker ans => ⟨l.world, ans⟩ :: l.entries
        | _ => l.entries }

/-- The states of the runs. -/
def Run (cfg : RuntimeConfig) (l : Ledger) : Prop :=
  Reaches (step cfg) (fun _ _ => True) { world := World.initial cfg } l

end Ledger

variable {cfg : RuntimeConfig} {w w' : World} {l : Ledger} {a : Action} {ans : Answer} {e : Entry}
  {h : List Entry}

/-- It is a run of the runtime. -/
theorem Ledger.Run.reachable (hrun : Ledger.Run cfg l) : Reachable cfg l.world := by
  refine Reaches.project Ledger.world hrun (fun s a s' _ hs => Or.inr ⟨a, trivial, ?_⟩)
  obtain ⟨w, hw, rfl⟩ := Option.map_eq_some_iff.mp hs
  exact hw

/-- **History rule.** What holds at the start, and is kept by the steps of clients and by those of the worker
    with their entries, holds in every state reached. -/
theorem Ledger.Run.history {I : World → List Entry → Prop} (hrun : Ledger.Run cfg l)
    (hinit : I (World.initial cfg) [])
    (hclient : ∀ w h a w', Reachable cfg w → I w h → Runtime.step cfg a w = some w' →
      w.workerAt a = none → I w' h)
    (hworker : ∀ w h ans w', Reachable cfg w → I w h → workerStep cfg ans w w.wk.pc = some w' →
      I w' (⟨w, ans⟩ :: h)) : I l.world l.entries := by
  refine Reaches.invariant (I := fun l => I l.world l.entries) hrun hinit (fun s a s' hs hI _ hstep => ?_)
  obtain ⟨w', hw, rfl⟩ := Option.map_eq_some_iff.mp hstep
  have hreach : Reachable cfg s.world := Ledger.Run.reachable hs
  rcases s.world.worker_or_client a with ⟨ans, rfl⟩ | ha
  · exact hworker _ _ ans _ hreach hI hw
  · have hkept : I w' s.entries := hclient _ _ a _ hreach hI hw ha
    cases a with
    | worker ans => exact absurd ha (by simp)
    | _ => exact hkept

/-! ### The pauses between attempts -/

/-- The attempts that have ended since the last one that became a session, this one included. -/
def attempts : List Entry → Nat
  | [] => 0
  | e :: older =>
      match e.pc with
      | .connect => 0
      | .deinit _ => attempts older + 1
      | _ => attempts older

/-- When the last attempt ended. -/
def lastEnd : List Entry → Option Time
  | [] => none
  | e :: older =>
      match e.pc with
      | .deinit _ => some e.world.clock
      | _ => lastEnd older

/-- The pause after the `n`th attempt in a row that becomes no session, in milliseconds: doubled each time, up
    to the largest one. -/
def RuntimeConfig.delay (cfg : RuntimeConfig) (n : Nat) : Nat :=
  max cfg.reconnectInitialDelayMs (min (cfg.reconnectInitialDelayMs * 2 ^ n) cfg.reconnectMaxDelayMs)

theorem RuntimeConfig.delay_zero : cfg.delay 0 = cfg.reconnectInitialDelayMs := by
  unfold delay
  rw [Nat.pow_zero, Nat.mul_one]
  omega

/-- The doubling of `wait_backoff`. -/
theorem RuntimeConfig.delay_succ (n : Nat) :
    max (min (cfg.delay n * 2) cfg.reconnectMaxDelayMs) (cfg.delay n) = cfg.delay (n + 1) := by
  unfold delay
  have hgrows : cfg.reconnectInitialDelayMs ≤ cfg.reconnectInitialDelayMs * 2 ^ n :=
    Nat.le_mul_of_pos_right _ (Nat.two_pow_pos n)
  rw [Nat.pow_succ, ← Nat.mul_assoc]
  omega

/-- An `init` starts no sooner after the end of the attempt before it than the pause that is due. -/
def BacksOff (cfg : RuntimeConfig) (e : Entry) (older : List Entry) : Prop :=
  e.pc = .initCall → ∀ ended, lastEnd older = some ended →
    ended + ms (cfg.delay (attempts older - 1)) ≤ e.world.clock

/-- The attempt has ended, and its pause is not over. -/
def Pc.pauses : Pc → Bool
  | .checkStopAfterSession | .backoff _ => true
  | _ => false

/-- What the worker has kept of a pause that began at `ended` and lasts `pause`. -/
def Paused (ended pause : Time) (w : World) : Prop :=
  ended ≤ w.clock ∧
    match w.wk.pc with
    | .backoff wakeAt => ended + pause ≤ wakeAt
    | .checkStop => w.shared.stopRequested = true ∨ ended + pause ≤ w.clock
    | .preflight | .checkStopAfterPreflight | .clearLatch | .initCall => ended + pause ≤ w.clock
    | _ => True

/-- The pauses against the worker's account. -/
structure BackoffInv (cfg : RuntimeConfig) (w : World) (h : List Entry) : Prop where
  fresh : w.wk.pc = .idle → lastEnd h = none
  counted : w.wk.pc.pauses = true → 0 < attempts h
  delay : w.wk.pc ≠ .returned →
    w.wk.backoffMs = cfg.delay (if w.wk.pc.pauses then attempts h - 1 else attempts h)
  paused : ∀ ended, lastEnd h = some ended → Paused ended (ms (cfg.delay (attempts h - 1))) w
  law : Historically (BacksOff cfg) h

/-- Time that passes and clients' steps keep a pause. -/
theorem Paused.client {ended pause : Time} (hp : Paused ended pause w) (hpc : w'.wk.pc = w.wk.pc)
    (hclock : w.clock ≤ w'.clock) (hstop : w.shared.stopRequested = true → w'.shared.stopRequested = true) :
    Paused ended pause w' := by
  obtain ⟨hended, hrest⟩ := hp
  refine ⟨hended.trans hclock, ?_⟩
  rw [hpc]
  split at hrest
  · exact hrest
  · exact hrest.imp hstop (fun hle => hle.trans hclock)
  all_goals first
    | exact hrest.trans hclock
    | exact trivial

/-- **Step lemma, the others.** -/
theorem BackoffInv.client (hi : BackoffInv cfg w h) (hs : step cfg a w = some w')
    (ha : w.workerAt a = none) : BackoffInv cfg w' h := by
  have hclock := step_clock_le hs
  rcases step_wk hs ha with hwk | ⟨hidle, hwk⟩
  · refine ⟨?_, ?_, ?_, fun ended hended => ?_, hi.law⟩
    · rw [hwk]
      exact hi.fresh
    · rw [hwk]
      exact hi.counted
    · rw [hwk]
      exact hi.delay
    · exact (hi.paused ended hended).client (by rw [hwk]) hclock (clientStep_stop hs ha)
  · -- the start: no attempt has ended yet
    have hfresh := hi.fresh hidle
    have hdelay := hi.delay (by simp [hidle])
    refine ⟨fun hpc => absurd hpc (by simp [hwk]), fun hp => absurd hp (by simp [hwk, Pc.pauses]), fun _ => ?_,
      fun ended hended => absurd (hfresh.symm.trans hended) (by simp), hi.law⟩
    rw [hwk]
    simpa [hidle, Pc.pauses] using hdelay

/-- The worker's delay is the one of its account. -/
theorem BackoffInv.worker_delay (hi : BackoffInv cfg w h) (hs : workerStep cfg ans w w.wk.pc = some w')
    (hreturned : w'.wk.pc ≠ .returned) : w'.wk.backoffMs =
      cfg.delay (if w'.wk.pc.pauses then attempts (⟨w, ans⟩ :: h) - 1 else attempts (⟨w, ans⟩ :: h)) := by
  have hcounted := hi.counted
  have hdelay := hi.delay
  cases hpc : w.wk.pc
  all_goals rw [hpc] at hs hcounted hdelay
  all_goals simp only [workerStep] at hs
  all_goals repeat' split at hs
  all_goals simp only [Option.some.injEq, reduceCtorEq] at hs
  all_goals subst hs
  all_goals simp [Pc.pauses] at hcounted hdelay hreturned
  all_goals simp [attempts, Entry.pc, hpc, Pc.pauses]
  case connect => exact RuntimeConfig.delay_zero.symm
  case backoff.isTrue =>
    -- the pause is over: the next one is twice as long
    have hnext : attempts h - 1 + 1 = attempts h := Nat.sub_add_cancel hcounted
    rw [hdelay, RuntimeConfig.delay_succ, hnext]
  all_goals exact hdelay

/-- The worker keeps the pause that is under way. -/
theorem BackoffInv.worker_paused (hi : BackoffInv cfg w h) (hs : workerStep cfg ans w w.wk.pc = some w')
    {ended : Time} (hended : lastEnd (⟨w, ans⟩ :: h) = some ended) :
    Paused ended (ms (cfg.delay (attempts (⟨w, ans⟩ :: h) - 1))) w' := by
  have hdelay := hi.delay
  have hpaused := hi.paused ended
  cases hpc : w.wk.pc
  all_goals rw [hpc] at hs hdelay
  all_goals simp only [Paused, hpc] at hpaused
  all_goals simp [lastEnd, Entry.pc, hpc] at hended
  all_goals simp only [attempts, Entry.pc, hpc]
  case deinit k =>
    -- the attempt ends here, and its pause begins
    subst hended
    simp only [workerStep, Option.some.injEq] at hs
    subst hs
    simp only [Pc.pauses, ne_eq, reduceCtorEq, not_false_eq_true, Bool.false_eq_true, if_false,
      true_imp_iff] at hdelay
    cases k with
    | retry => exact ⟨Nat.le_refl _, by simp [hdelay]⟩
    | sessionOver => exact ⟨Nat.le_refl _, trivial⟩
    | quit => exact ⟨Nat.le_refl _, trivial⟩
  all_goals obtain ⟨hle, hpause⟩ := hpaused hended
  all_goals simp only [workerStep] at hs
  all_goals repeat' split at hs
  all_goals simp only [Option.some.injEq, reduceCtorEq] at hs
  all_goals subst hs
  all_goals simp [Pc.pauses] at hdelay
  all_goals simp [Paused]
  case checkStop.isFalse hstop => exact ⟨hle, hpause.resolve_left hstop⟩
  case checkStopAfterSession.isFalse =>
    rw [hdelay]
    exact ⟨hle, Nat.add_le_add_right hle _⟩
  case backoff.isTrue hover =>
    -- it is over, or cut short by a stop
    rw [Bool.or_eq_true, decide_eq_true_eq] at hover
    exact ⟨hle, hover.imp id hpause.trans⟩
  all_goals first
    | exact hle
    | exact ⟨hle, hpause⟩

/-- A pause follows the end of an attempt. -/
theorem workerStep_pauses (hcounted : w.wk.pc.pauses = true → 0 < attempts h)
    (hs : workerStep cfg ans w w.wk.pc = some w') (hpauses : w'.wk.pc.pauses = true) :
    0 < attempts (⟨w, ans⟩ :: h) := by
  cases hpc : w.wk.pc
  all_goals rw [hpc] at hs hcounted
  all_goals simp only [workerStep] at hs
  all_goals repeat' split at hs
  all_goals simp only [Option.some.injEq, reduceCtorEq] at hs
  all_goals subst hs
  all_goals simp [Pc.pauses] at hcounted hpauses
  all_goals simp [attempts, Entry.pc, hpc, hcounted]

/-- **Step lemma, the worker.** -/
theorem BackoffInv.worker (hi : BackoffInv cfg w h) (hs : workerStep cfg ans w w.wk.pc = some w') :
    BackoffInv cfg w' (⟨w, ans⟩ :: h) := by
  refine ⟨?_, ?_, hi.worker_delay hs, fun ended => hi.worker_paused hs, ?_, hi.law⟩
  · exact fun hidle => absurd hidle (workerStep_leaves hs).2.1
  · exact workerStep_pauses hi.counted hs
  · intro (hpc : w.wk.pc = .initCall) ended hended
    have hp := (hi.paused ended hended).2
    rw [hpc] at hp
    exact hp

/-- **Pauses between attempts.** In every run, an `init` starts no sooner after the end of the attempt before
    it than the pause that is due: the initial one after a session or at the first failure, doubled with each
    further failure in a row, up to the largest one. -/
theorem attempts_back_off (hrun : Ledger.Run cfg l) : Historically (BacksOff cfg) l.entries := by
  have hinit : BackoffInv cfg (World.initial cfg) [] :=
    ⟨fun _ => rfl, fun hp => absurd hp (by simp [World.initial, Pc.pauses]),
      fun _ => RuntimeConfig.delay_zero.symm, fun ended hended => absurd hended (by simp [lastEnd]), trivial⟩
  exact (hrun.history (I := BackoffInv cfg) hinit (fun _ _ _ _ _ hi hs ha => hi.client hs ha)
    (fun _ _ _ _ _ hi hs => hi.worker hs)).law

/-- Execute a schedule from the start. -/
def Ledger.exec (cfg : RuntimeConfig) (schedule : List Action) : Option Ledger :=
  execGuarded (Ledger.step cfg) (fun _ _ => True) schedule { world := World.initial cfg }

theorem Ledger.exists_run_of_exec (cfg : RuntimeConfig) (schedule : List Action) (P : Ledger → Bool)
    (hexec : (Ledger.exec cfg schedule).any P = true) : ∃ l, Ledger.Run cfg l ∧ P l = true :=
  exists_reaches_of_execGuarded schedule P hexec

/-- Two failed preflights, and the attempt after them. -/
def twoFailures : List Action :=
  .start :: works 6 { ready := false } ++ [.advance (ms 1000)] ++ works 7 { ready := false } ++
    [.advance (ms 2000)] ++ works 6 (obliging 0xB104)

/-- The attempt after two failures starts two seconds after the second one at the earliest. -/
theorem attempts_back_off_twice : ∃ l e older ended, Ledger.Run {} l ∧ l.entries = e :: older ∧
    e.pc = .initCall ∧ attempts older = 2 ∧ lastEnd older = some ended ∧ ended + ms 2000 ≤ e.world.clock := by
  obtain ⟨l, hrun, hl⟩ := Ledger.exists_run_of_exec {} twoFailures
    (fun l => l.entries.head?.map Entry.pc = some .initCall ∧ attempts l.entries.tail = 2 ∧
      (lastEnd l.entries.tail).isSome) (by decide +kernel)
  obtain ⟨hpc, hattempts, hended⟩ := of_decide_eq_true hl
  have hlaw := attempts_back_off hrun
  cases hentries : l.entries with
  | nil => exact absurd hpc (by simp [hentries])
  | cons e older =>
    rw [hentries] at hpc hattempts hended hlaw
    obtain ⟨ended, hended⟩ := Option.isSome_iff_exists.mp hended
    have hpause := hlaw.1 (Option.some.inj hpc) ended hended
    rw [show attempts older = 2 from hattempts] at hpause
    exact ⟨l, e, older, ended, hrun, hentries, Option.some.inj hpc, hattempts, hended, hpause⟩

/-! ### The ends of sessions -/

/-- The heartbeats of this session that have failed in a row. -/
def failures : List Entry → Nat
  | [] => 0
  | e :: older =>
      match e.pc with
      | .loopStart => 0
      | .heartbeat => if e.answer.result.success then 0 else failures older + 1
      | _ => failures older

/-- The newest step leaves `run_connected_loop`: it sees a link drop, it is the heartbeat after which as many
    have failed in a row as are allowed, or the last one of a stop. -/
def LeavesLoop (cfg : RuntimeConfig) : List Entry → Prop
  | [] => False
  | e :: older =>
      match e.pc with
      | .wait | .recheck =>
          e.world.shared.stopRequested = false ∧ e.world.shared.linkDropLatched = true
      | .heartbeat =>
          e.answer.result.success = false ∧ failures (e :: older) = max 1 cfg.heartbeatMaxFailures
      | .stopRead =>
          e.world.shared.stopRequested = true ∧
            (!e.world.shared.sdkLinked || !e.world.shared.controlAuthority ||
              e.world.shared.linkDropLatched) = true
      | .stopDamp _ => e.world.shared.stopRequested = true
      | _ => False

/-- The session-end drain follows a step that leaves the loop, and each of these. -/
def EndsForCause (cfg : RuntimeConfig) (e : Entry) (older : List Entry) : Prop :=
  e.pc = .drain ↔ LeavesLoop cfg older

/-- The worker executes the stop that ends the session. -/
def Pc.stopping : Pc → Bool
  | .stopRead | .stopZero | .stopDamp _ => true
  | _ => false

/-- The loop against the worker's account. -/
structure LoopInv (cfg : RuntimeConfig) (w : World) (h : List Entry) : Prop where
  counted : w.wk.heartbeatFailures = failures h
  allowed : w.wk.pc.inSession = true → w.wk.pc ≠ .loopStart → w.wk.pc ≠ .drain →
    failures h < max 1 cfg.heartbeatMaxFailures
  requested : w.wk.pc.stopping = true → w.shared.stopRequested = true
  leaves : w.wk.pc = .drain ↔ LeavesLoop cfg h
  law : Historically (EndsForCause cfg) h

/-- **Step lemma, the others.** -/
theorem LoopInv.client (hi : LoopInv cfg w h) (hs : step cfg a w = some w') (ha : w.workerAt a = none) :
    LoopInv cfg w' h := by
  rcases step_wk hs ha with hwk | ⟨hidle, hwk⟩
  · refine ⟨?_, ?_, fun hp => clientStep_stop hs ha (hi.requested ?_), ?_, hi.law⟩
    · rw [hwk]
      exact hi.counted
    · rw [hwk]
      exact hi.allowed
    · rw [← hwk]
      exact hp
    · rw [hwk]
      exact hi.leaves
  · have hcounted := hi.counted
    have hleaves := hi.leaves
    refine ⟨?_, ?_, ?_, ?_, hi.law⟩
    · rw [hwk]
      exact hcounted
    · simp [hwk, Pc.inSession]
    · simp [hwk, Pc.stopping]
    · simpa [hwk, hidle] using hleaves

/-- The failed heartbeats are counted, and the last one that is allowed ends the loop. -/
theorem LoopInv.worker_failures (hi : LoopInv cfg w h) (hs : workerStep cfg ans w w.wk.pc = some w') :
    w'.wk.heartbeatFailures = failures (⟨w, ans⟩ :: h) ∧
      (w'.wk.pc.inSession = true → w'.wk.pc ≠ .loopStart → w'.wk.pc ≠ .drain →
        failures (⟨w, ans⟩ :: h) < max 1 cfg.heartbeatMaxFailures) := by
  obtain ⟨hcounted, hallowed, -, -, -⟩ := hi
  cases hpc : w.wk.pc
  all_goals rw [hpc] at hs hallowed
  all_goals simp only [failures, Entry.pc, hpc]
  case heartbeat =>
    have hbelow := hallowed rfl (by simp) (by simp)
    simp only [workerStep] at hs
    split at hs
    · rename_i hsuccess
      simp only [Option.some.injEq] at hs
      subst hs
      rw [if_pos hsuccess]
      exact ⟨rfl, fun _ _ _ => by omega⟩
    · rename_i hfailed
      rw [if_neg hfailed, ← hcounted]
      split at hs
      all_goals simp only [Option.some.injEq] at hs
      all_goals subst hs
      · exact ⟨rfl, fun _ _ hpc' => absurd rfl hpc'⟩
      · rename_i hbelow'
        exact ⟨rfl, fun _ _ _ => Nat.lt_of_not_le hbelow'⟩
  all_goals simp only [workerStep] at hs
  all_goals repeat' split at hs
  all_goals simp only [Option.some.injEq, reduceCtorEq] at hs
  all_goals subst hs
  all_goals simp [Pc.inSession] at hallowed
  all_goals simp [Pc.inSession, hcounted]
  all_goals omega

/-- The steps that leave the loop are those after which the worker drains. -/
theorem LoopInv.worker_leaves (hi : LoopInv cfg w h) (hs : workerStep cfg ans w w.wk.pc = some w') :
    w'.wk.pc = .drain ↔ LeavesLoop cfg (⟨w, ans⟩ :: h) := by
  obtain ⟨hcounted, hallowed, hrequested, -, -⟩ := hi
  cases hpc : w.wk.pc
  all_goals rw [hpc] at hs hallowed hrequested
  all_goals simp only [LeavesLoop, Entry.pc, hpc]
  case heartbeat =>
    have hbelow := hallowed rfl (by simp) (by simp)
    simp only [failures, Entry.pc, hpc]
    simp only [workerStep] at hs
    split at hs
    · rename_i hsuccess
      simp only [Option.some.injEq] at hs
      subst hs
      simp [hsuccess]
    · rename_i hfailed
      rw [if_neg hfailed, ← hcounted]
      split at hs
      all_goals rename_i hreached
      all_goals simp only [Option.some.injEq] at hs
      all_goals subst hs
      -- one more than an allowed number is the largest one or still allowed
      · refine ⟨fun _ => ⟨by simpa using hfailed, by omega⟩, fun _ => rfl⟩
      · refine ⟨fun hpc' => absurd hpc' (by simp), fun hlast => absurd hlast.2 (by omega)⟩
  all_goals simp only [workerStep] at hs
  all_goals repeat' split at hs
  all_goals simp only [Option.some.injEq, reduceCtorEq] at hs
  all_goals subst hs
  all_goals simp_all [Pc.stopping, World.woken]

/-- **Step lemma, the worker.** -/
theorem LoopInv.worker (hi : LoopInv cfg w h) (hs : workerStep cfg ans w w.wk.pc = some w') :
    LoopInv cfg w' (⟨w, ans⟩ :: h) := by
  obtain ⟨hcounted, hallowed⟩ := hi.worker_failures hs
  refine ⟨hcounted, hallowed, ?_, hi.worker_leaves hs, hi.leaves, hi.law⟩
  have hrequested := hi.requested
  cases hpc : w.wk.pc
  all_goals rw [hpc] at hs hrequested
  all_goals simp only [workerStep] at hs
  all_goals repeat' split at hs
  all_goals simp only [Option.some.injEq, reduceCtorEq] at hs
  all_goals subst hs
  all_goals simp_all [Pc.stopping]

/-- **Sessions end for a cause, and causes end sessions.** In every run, the worker drains a session after a
    link drop that it sees, after the last step of a requested stop, and after the heartbeat with which as many
    have failed in a row as are allowed, one at least; and each of these is followed by the drain. -/
theorem sessions_end_for_cause (hrun : Ledger.Run cfg l) : Historically (EndsForCause cfg) l.entries := by
  have hinit : LoopInv cfg (World.initial cfg) [] :=
    ⟨rfl, fun hin => absurd hin (by simp [World.initial, Pc.inSession]),
      fun hp => absurd hp (by simp [World.initial, Pc.stopping]), by simp [World.initial, LeavesLoop], trivial⟩
  exact (hrun.history (I := LoopInv cfg) hinit (fun _ _ _ _ _ hi hs ha => hi.client hs ha)
    (fun _ _ _ _ _ hi hs => hi.worker hs)).law

/-- A session that ends with its first failed heartbeat. -/
theorem sessions_end_for_cause_heartbeat : ∃ l e older, Ledger.Run {} l ∧ l.entries = e :: older ∧
    e.pc = .drain ∧ LeavesLoop {} older := by
  obtain ⟨l, hrun, hl⟩ := Ledger.exists_run_of_exec {}
    (.start :: works 13 (obliging 0xB104) ++ [.advance (ms 100)] ++ works 8 (obliging 0xB104) ++
      works 2 { result := .failure sdkResTimeout "timeout" })
    (fun l => l.entries.head?.map Entry.pc = some .drain) (by decide +kernel)
  have hpc := of_decide_eq_true hl
  have hlaw := sessions_end_for_cause hrun
  cases hentries : l.entries with
  | nil => exact absurd hpc (by simp [hentries])
  | cons e older =>
    rw [hentries] at hpc hlaw
    exact ⟨l, e, older, hrun, hentries, Option.some.inj hpc, hlaw.1.mp (Option.some.inj hpc)⟩

end HypertronBridge.Runtime
