import HypertronBridge.Runtime.Motion
import HypertronBridge.Runtime.Response
import HypertronBridge.Runtime.Zeroing

namespace HypertronBridge.Runtime

open TransitionSystem RobotController

/-!
# Stale motion is taken back

The robot keeps the velocity that it was sent last.  When the controller's velocity is older than the deadman
and the worker's `last_sent_nonzero_` is set, the worker sends a zero with the next motion tick that is due,
and it comes to that tick in a bounded number of its own steps.

* `Event.takesBack` — what ends the wait: a zero move, the end of the session, or a new submission;
* `Overdue` — `last_sent_nonzero_` is set, the deadman has passed, and a tick is due;
* `stale_motion_is_taken_back` — the result.
-/

variable {cfg : RuntimeConfig} {w w' : World} {a : Action} {ans : Answer} {as : List Action}
  {c c' : RobotController} {t t' : List Event} {deadman now : Time} {P : Event → Prop}

/-- A zero move, whatever came back, the end of the session, or the submission of a velocity. -/
def Event.takesBack : Event → Bool
  | .sdk _ (.move v) _ => !v.nonzero
  | .sessionClosed => true
  | .control call =>
      match call.op with
      | .acceptVelocity _ => true
      | _ => false
  | _ => false

/-- A velocity that is stored is older than the deadman. -/
def Stale (deadman now : Time) (c : RobotController) : Prop :=
  c.hasVelocity = true → c.lastVelocityTime + deadman < now

/-- A motion tick that finds it stale sends a zero. -/
theorem Stale.tickTarget (h : Stale (ms cfg.deadmanMs) w.clock w.ctl) : w.tickTarget cfg = .zero := by
  unfold World.tickTarget
  dsimp only
  split
  · rename_i hacc
    obtain ⟨hv, hfresh, -⟩ := velocityForTick_cases hacc
    have hold := h hv
    exact absurd (Nat.sub_le_iff_le_add.mp hfresh) (by rw [Nat.add_comm]; exact Nat.not_le_of_lt hold)
  · rfl

/-- Only a submission stores a velocity. -/
theorem Extends.stale (hext : Extends deadman now P c t c' t') (h : Stale deadman now c) :
    t.countP Event.takesBack < t'.countP Event.takesBack ∨
      Stale deadman now c' ∧ t.countP Event.takesBack ≤ t'.countP Event.takesBack := by
  induction hext with
  | refl => exact Or.inr ⟨h, Nat.le_refl _⟩
  | @control c' t' op _ _ ih =>
    have hle : t'.countP Event.takesBack ≤
        (Event.control (op.call deadman now c') :: t').countP Event.takesBack := by
      rw [List.countP_cons]
      exact Nat.le_add_right ..
    rcases ih with hlt | ⟨hstale, hle'⟩
    · exact Or.inl (Nat.lt_of_lt_of_le hlt hle)
    · by_cases hv : (op.apply deadman now c').2.hasVelocity = true
      · rcases apply_hasVelocity hv with ⟨command, rfl, -⟩ | ⟨hold, -, -, htime⟩
        · refine Or.inl (Nat.lt_of_le_of_lt hle' ?_)
          rw [List.countP_cons_of_pos (by rfl)]
          exact Nat.lt_succ_self _
        · refine Or.inr ⟨fun _ => ?_, hle'.trans hle⟩
          rw [htime]
          exact hstale hold
      · exact Or.inr ⟨fun hv' => absurd hv' hv, hle'.trans hle⟩
  | @other c' t' e _ _ _ ih =>
    have hle : t'.countP Event.takesBack ≤ (e :: t').countP Event.takesBack := by
      rw [List.countP_cons]
      exact Nat.le_add_right ..
    exact ih.imp (fun hlt => Nat.lt_of_lt_of_le hlt hle) (fun hkept => ⟨hkept.1, hkept.2.trans hle⟩)

/-- The worker is about to send a nonzero velocity that it has read. -/
def Pc.movesOn : Pc → Bool
  | .tickMove v => v.nonzero
  | _ => false

/-- In a session, `last_sent_nonzero_` is set and no step is about to unset it, and a motion tick is due, apart
    from one that has read the controller before. -/
structure TickDue (cfg : RuntimeConfig) (w : World) : Prop where
  session : w.wk.pc.inSession = true
  moving : w.wk.lastSentNonzero = true
  kept : w.wk.pc.clearsFlag = false
  due : w.wk.nextMotionRefresh ≤ w.clock
  again : w.wk.pc.movesOn = true → w.wk.now + ms cfg.motionRefreshPeriod ≤ w.clock

/-- And the controller's velocity is older than the deadman. -/
structure Overdue (cfg : RuntimeConfig) (w : World) : Prop extends TickDue cfg w where
  stale : Stale (ms cfg.deadmanMs) w.clock w.ctl

/-- The steps to the zero move: on to the next reading of the clock, and from there to the tick's move. -/
def Worker.tickRank (wk : Worker) : Nat :=
  if wk.pc.movesOn then 80
  else if wk.nextMotionRefresh ≤ wk.now then wk.pc.ahead 13
  else 40 + wk.pc.ahead 1

/-- An emergency stop on the way takes two steps more for each command in the queue. -/
def World.tickRank (w : World) : Nat := w.wk.tickRank + 2 * w.queue.items.length

theorem tickRank_le (wk : Worker) : wk.tickRank ≤ 80 := by
  have htick := wk.pc.ahead_le 13
  have hnow := wk.pc.ahead_le 1
  unfold Worker.tickRank
  split
  · exact Nat.le_refl _
  · split <;> omega

/-- A longer trace takes back as often, at least. -/
theorem World.Extends.takesBack {P : Event → Prop} (hext : World.Extends cfg P w w') :
    w.trace.countP Event.takesBack ≤ w'.trace.countP Event.takesBack := by
  obtain ⟨new, heq, -⟩ := Extends.trace hext
  rw [heq, List.countP_append]
  exact Nat.le_add_left ..

/-- The tick, once it is reached, sends a zero. -/
theorem TickDue.tick (h : TickDue cfg w) (htarget : w.tickTarget cfg = .zero)
    (hs : workerStep cfg ans w w.wk.pc = some w')
    (hpc : w.wk.pc = .tickDue ∨ w.wk.pc = .tickRead ∨ ∃ v, w.wk.pc = .tickMove v) :
    w.trace.countP Event.takesBack < w'.trace.countP Event.takesBack ∨
      TickDue cfg w' ∧ 1 + w'.tickRank ≤ w.tickRank := by
  obtain ⟨-, hmoving, -, hdue, hagain⟩ := h
  rcases hpc with hpc | hpc | ⟨v, hpc⟩
  · rw [hpc] at hs
    simp only [workerStep] at hs
    split at hs
    all_goals simp only [Option.some.injEq] at hs
    all_goals subst hs
    all_goals refine Or.inr ⟨⟨rfl, hmoving, rfl, hdue, fun hmoves => absurd hmoves (by simp [Pc.movesOn])⟩, ?_⟩
    · simp [World.tickRank, Worker.tickRank, hpc, Pc.movesOn, Pc.ahead, Pc.place]
      split <;> omega
    · rename_i hnow
      have hlater : ¬ w.wk.nextMotionRefresh ≤ w.wk.now := fun hle => hnow (by simp [hle])
      simp [World.tickRank, Worker.tickRank, hpc, Pc.movesOn, Pc.ahead, Pc.place, hlater]
      omega
  · rw [hpc] at hs
    simp only [workerStep, htarget, Velocity.nonzero_zero, hmoving, Bool.or_true, if_true,
      Option.some.injEq] at hs
    subst hs
    refine Or.inr ⟨⟨rfl, hmoving, rfl, hdue, fun hmoves => absurd hmoves (by simp [Pc.movesOn])⟩, ?_⟩
    simp [World.tickRank, Worker.tickRank, hpc, Pc.movesOn, Pc.ahead, Pc.place]
    split <;> omega
  · rw [hpc] at hs hagain
    simp only [workerStep, Option.some.injEq] at hs
    subst hs
    by_cases hv : v.nonzero = true
    · refine Or.inr ⟨⟨rfl, ?_, rfl, hagain hv, fun hmoves => absurd hmoves (by simp [Pc.movesOn])⟩, ?_⟩
      · show (if _ then _ else _) = true
        split
        · exact hv
        · exact hmoving
      · simp [World.tickRank, Worker.tickRank, hpc, Pc.movesOn, hv, Pc.ahead, Pc.place]
        split <;> omega
    · refine Or.inl ?_
      show _ < (Event.sdk .tick (.move v) (.returned ans.result) :: w.trace).countP Event.takesBack
      rw [List.countP_cons_of_pos (by simp [Event.takesBack, hv])]
      exact Nat.lt_succ_self _

/-- **Step lemma, the worker.** It comes nearer to the tick that is due. -/
theorem TickDue.worker (h : TickDue cfg w) (htarget : w.tickTarget cfg = .zero)
    (hs : workerStep cfg ans w w.wk.pc = some w') :
    w.trace.countP Event.takesBack < w'.trace.countP Event.takesBack ∨
      TickDue cfg w' ∧ 1 + w'.tickRank ≤ w.tickRank := by
  by_cases htaken : w.trace.countP Event.takesBack < w'.trace.countP Event.takesBack
  · exact Or.inl htaken
  have htick := h.tick htarget hs
  obtain ⟨hsession, hmoving, hkept, hdue, -⟩ := h
  cases hpc : w.wk.pc
  case tickDue => exact htick (Or.inl hpc)
  case tickRead => exact htick (Or.inr (Or.inl hpc))
  case tickMove v => exact htick (Or.inr (Or.inr ⟨v, hpc⟩))
  case drain =>
    -- the end of the session
    refine absurd ?_ htaken
    rw [hpc] at hs
    simp only [workerStep, Option.some.injEq] at hs
    subst hs
    show _ < (Event.sessionClosed :: _).countP Event.takesBack
    rw [List.countP_cons_of_pos (by rfl)]
    exact Nat.lt_succ_of_le (World.Extends.takesBack (World.Extends.failAllPending
      (P := fun _ => True) (v := { w with shared.connected := false }) .refl rfl
      (fun _ _ _ => trivial) (fun _ _ _ => trivial)))
  all_goals clear htick
  all_goals rw [hpc] at hs hsession hkept
  all_goals simp only [Pc.inSession, Pc.clearsFlag, Bool.false_eq_true, reduceCtorEq] at hsession hkept
  all_goals try subst hkept
  all_goals simp only [workerStep] at hs
  all_goals repeat' split at hs
  all_goals simp only [Option.some.injEq, reduceCtorEq] at hs
  all_goals subst hs
  all_goals simp [Event.takesBack] at htaken
  all_goals refine Or.inr ⟨⟨?_, ?_, ?_, ?_, ?_⟩, ?_⟩
  all_goals simp [World.tickRank, Worker.tickRank, hpc, Pc.inSession, Pc.clearsFlag, Pc.movesOn, Pc.ahead,
    Pc.place, hmoving, hdue]
  all_goals first
    | contradiction
    | omega
    | (split <;> omega)
    | (rename_i hpop
       have hlength := tryPop_length hpop
       split <;> omega)

/-- **Step lemma, the worker.** -/
theorem Overdue.worker (h : Overdue cfg w) (hs : workerStep cfg ans w w.wk.pc = some w') :
    w.trace.countP Event.takesBack < w'.trace.countP Event.takesBack ∨
      Overdue cfg w' ∧ 1 + w'.tickRank ≤ w.tickRank := by
  have hclock : w.clock ≤ w'.clock := step_clock_le (a := .worker ans) hs
  rcases (workerStep_extends hs).stale h.stale with hlt | ⟨hstale, -⟩
  · exact Or.inl hlt
  · refine (h.toTickDue.worker h.stale.tickTarget hs).imp id (fun hnext => ⟨⟨hnext.1, ?_⟩, hnext.2⟩)
    exact fun hv => Nat.lt_of_lt_of_le (hstale hv) hclock

/-- **Step lemma, the others.** They may submit a velocity, and may enqueue. -/
theorem Overdue.client (h : Overdue cfg w) (hs : step cfg a w = some w') (ha : w.workerAt a = none) :
    w.trace.countP Event.takesBack < w'.trace.countP Event.takesBack ∨
      Overdue cfg w' ∧ w'.tickRank ≤ w.tickRank + 2 * a.enqueues.toNat := by
  have hclock : w.clock ≤ w'.clock := step_clock_le hs
  have hlength := clientStep_length hs ha
  rcases (step_extends hs).stale h.stale with hlt | ⟨hstale, -⟩
  · exact Or.inl hlt
  · rcases step_wk hs ha with hwk | ⟨hidle, -⟩
    · refine Or.inr ⟨⟨⟨?_, ?_, ?_, ?_, fun hmoves => ?_⟩, fun hv => ?_⟩, ?_⟩
      · rw [hwk]
        exact h.session
      · rw [hwk]
        exact h.moving
      · rw [hwk]
        exact h.kept
      · rw [hwk]
        exact h.due.trans hclock
      · rw [hwk] at hmoves ⊢
        exact (h.again hmoves).trans hclock
      · exact Nat.lt_of_lt_of_le (hstale hv) hclock
      · rw [World.tickRank, World.tickRank, hwk]
        omega
    · exact absurd h.session (by simp [hidle, Pc.inSession])

/-- A tick that is due keeps the worker awake. -/
theorem TickDue.awake (h : TickDue cfg w) : w.sleeps = false := by
  unfold World.sleeps
  split
  · have hdeadline : w.wk.waitDeadline ≤ w.clock := by
      refine Nat.le_trans ?_ h.due
      unfold Worker.waitDeadline
      dsimp only
      split
      · rename_i hsooner
        rw [Bool.and_eq_true, decide_eq_true_eq] at hsooner
        exact hsooner.2.le.trans (min_le_right ..)
      · exact min_le_right ..
    simp [Nat.not_lt_of_le hdeadline]
  · rename_i wakeAt hpc
    exact absurd h.session (by simp [hpc, Pc.inSession])
  · rfl

/-- **Stale motion is taken back.** From any state of a run in which `last_sent_nonzero_` is set, the
    controller's velocity is older than the deadman and a motion tick is due: whatever the clients, the status
    callbacks and the clock do in between, and whatever the SDK answers or throws, a zero move is called, the
    session ends or a client submits a velocity before the worker takes more steps than 80 and two for each
    command that is in the queue or that a client tries to enqueue; and until then its next step is open to
    it. -/
theorem stale_motion_is_taken_back (hrun : Reachable cfg w) (hd : Overdue cfg w)
    (hpath : Path (step cfg) w as w') :
    w.trace.countP Event.takesBack < w'.trace.countP Event.takesBack ∨
      (as.countP Action.isWorker ≤ 80 + 2 * (w.queue.items.length + as.countP Action.enqueues) ∧
        ∀ ans, ∃ w'', step cfg (.worker ans) w' = some w'') := by
  have hbound := tickRank_le w.wk
  have hgrows : ∀ {v v' : World} {a : Action}, step cfg a v = some v' →
      v.trace.countP Event.takesBack ≤ v'.trace.countP Event.takesBack :=
    fun hs => World.Extends.takesBack (step_extends hs)
  rcases happens_within
    (P := fun v => w.trace.countP Event.takesBack ≤ v.trace.countP Event.takesBack ∧ Overdue cfg v)
    (Q := fun v => w.trace.countP Event.takesBack < v.trace.countP Event.takesBack) 2 Action.enqueues
    World.tickRank
    (fun _ _ _ _ h hs => (h.2.worker hs).imp (fun hlt => Nat.lt_of_le_of_lt h.1 hlt)
      (fun hnext => ⟨⟨h.1.trans (hgrows (a := .worker _) hs), hnext.1⟩, hnext.2⟩))
    (fun _ _ _ _ h hs ha => (h.2.client hs ha).imp (fun hlt => Nat.lt_of_le_of_lt h.1 hlt)
      (fun hnext => ⟨⟨h.1.trans (hgrows hs), hnext.1⟩, hnext.2⟩))
    (fun _ _ h => ⟨h.2.session, h.2.awake⟩) (fun _ _ _ hlt hs => Nat.lt_of_lt_of_le hlt (hgrows hs))
    hrun ⟨Nat.le_refl _, hd⟩ hpath with htaken | ⟨hle, hopen⟩
  · exact Or.inl htaken
  · unfold World.tickRank at hle
    exact Or.inr ⟨by omega, hopen⟩

/-- A velocity that was sent, and silence beyond the deadman: not yet taken back before the next tick. -/
theorem stale_motion_is_taken_back_silence : ∃ w w', Reachable {} w ∧ Overdue {} w ∧
    Path (step {}) w (works 3 (obliging 0xB104)) w' ∧
    ∀ ans, ∃ w'', step {} (.worker ans) w' = some w'' := by
  obtain ⟨w, hrun, hw⟩ := exists_run_of_exec {} (fun _ _ => True)
    (readying ++ [.submitVelocity forward, .advance (ms 20)] ++ works 13 (obliging 0xB104) ++
      [.advance (ms 200)])
    (fun w => w.wk.pc.inSession ∧ w.wk.lastSentNonzero ∧ w.wk.pc.clearsFlag = false ∧
      w.wk.nextMotionRefresh ≤ w.clock ∧ w.wk.pc.movesOn = false ∧
      w.ctl.lastVelocityTime + ms 100 < w.clock ∧
      (execGuarded (step {}) (fun _ _ => True) (works 3 (obliging 0xB104)) w).any
        (fun w' => ¬ w.trace.countP Event.takesBack < w'.trace.countP Event.takesBack))
    (by decide +kernel)
  obtain ⟨hsession, hmoving, hkept, hdue, hmoves, hstale, hend⟩ := of_decide_eq_true hw
  obtain ⟨w', hex, hopen⟩ := (Option.any_eq_true _ _).mp hend
  have hpath := path_of_execGuarded _ hex
  have hoverdue : Overdue {} w :=
    ⟨⟨hsession, hmoving, hkept, hdue, fun hmoves' => absurd (hmoves.symm.trans hmoves') (by simp)⟩,
      fun _ => hstale⟩
  have htaken := stale_motion_is_taken_back hrun hoverdue hpath
  exact ⟨w, w', hrun, hoverdue, hpath, (htaken.resolve_left (of_decide_eq_true hopen)).2⟩

end HypertronBridge.Runtime
