import HypertronBridge.Runtime.Motion

namespace HypertronBridge.Runtime

open TransitionSystem History

/-!
# Commanded motion is taken back

The worker takes commanded motion back by a zero move when `last_sent_nonzero_` is set.  The
flag follows the moves that *succeeded*, so it misses a nonzero move whose call failed although
the robot may have received it: `failed_move_is_not_taken_back`.  Where the first nonzero move
of a motion succeeds the flag covers every move issued, and motion is always taken back.

* `unzeroed` — what the session may have left moving, read off the trace;
* `TakesBackMotion` — a rejected tick sends a zero, and modes are set at rest only;
* `World.firstMoveHeard` — the condition; `motion_taken_back` — the result under it.
-/

variable {cfg : RuntimeConfig} {w w' : World} {a : Action} {ans : Answer}
  {ok : World → Action → Prop}

/-- A nonzero move was issued in this session, whatever came back, and no zero move has
    succeeded since. -/
def unzeroed : List Event → Bool
  | [] => false
  | .sessionOpened :: _ => false
  | .sdk _ (.move v) r :: older => v.nonzero || (!r.success && unzeroed older)
  | _ :: older => unzeroed older

/-- A motion tick that the controller rejects goes on to a zero move while the session is
    unzeroed, and `set_mode` is called for a command only when it is not. -/
def TakesBackMotion (cfg : RuntimeConfig) (w : World) : Prop :=
  (w.wk.pc = .tickRead → (w.ctl.velocityForTick (ms cfg.deadmanMs) w.clock).accepted = false →
    unzeroed w.trace = true →
    ∀ ans w', step cfg (.worker ans) w = some w' → w'.wk.pc = .tickMove .zero) ∧
    ∀ p mode, w.wk.pc = .execSetMode p mode → unzeroed w.trace = false

/-- A submission whose first move the SDK fails, and then silence beyond the deadman: the next
    motion tick is rejected and sends nothing. -/
def failingMove : List Action :=
  readying ++ [.submitVelocity forward, .advance (ms 20)] ++ works 10 (obliging 0xB104) ++
    [.worker { result := .failure sdkResTimeout "timeout" }] ++ works 2 (obliging 0xB104) ++
    [.advance (ms 200)] ++ works 10 (obliging 0xB104)

/-- **The defect.** The tick after this failed move and the silence sends no zero, so the robot
    is left with what it may have received. -/
theorem failed_move_is_not_taken_back :
    ¬ ∀ cfg w, Reachable cfg w → TakesBackMotion cfg w := by
  intro hall
  obtain ⟨w, hrun, hw⟩ := exists_run_of_exec {} (fun _ _ => True) failingMove
    (fun w => w.wk.pc = .tickRead && !(w.ctl.velocityForTick (ms 100) w.clock).accepted &&
      unzeroed w.trace && (step {} (.worker (obliging 0xB104)) w).any (fun w' => w'.wk.pc = .settleDue))
    (by decide +kernel)
  simp only [Bool.and_eq_true, decide_eq_true_eq, Bool.not_eq_true', Option.any_eq_true] at hw
  obtain ⟨⟨⟨hpc, hrej⟩, hmoved⟩, w', hs, hnext⟩ := hw
  have hzero := (hall {} w hrun).1 hpc hrej hmoved _ w' hs
  rw [hnext] at hzero
  exact absurd hzero (by simp)

/-! ### Where the first move of every motion succeeds -/

/-- Where the worker sends a nonzero move at rest, that move succeeds. -/
def World.firstMoveHeard (w : World) : Action → Bool
  | .worker ans =>
      match w.wk.pc with
      | .tickMove v => !v.nonzero || w.wk.lastSentNonzero || ans.result.success
      | _ => true
  | _ => true

/-- Events that are no SDK call and open no session leave it as unzeroed as it was. -/
theorem unzeroed_append {new t : List Event} (hopen : .sessionOpened ∉ new)
    (hsdk : ∀ o call r, .sdk o call r ∉ new) : unzeroed (new ++ t) = unzeroed t := by
  induction new with
  | nil => rfl
  | cons e new ih =>
    have htail := ih (fun h => hopen (by simp [h])) (fun o call r h => hsdk o call r (by simp [h]))
    cases e with
    | sessionOpened => exact absurd hopen (by simp)
    | sdk o call r => exact absurd (hsdk o call r) (by simp)
    | _ => exact htail

theorem unzeroed_byClient {e : Event} (h : e.byClient = true) (t : List Event) :
    unzeroed (e :: t) = unzeroed t := by
  show unzeroed ([e] ++ t) = unzeroed t
  refine unzeroed_append ?_ ?_
  · rw [List.mem_singleton]
    rintro rfl
    exact absurd h (by simp [Event.byClient])
  · intro o call r
    rw [List.mem_singleton]
    rintro rfl
    exact absurd h (by simp [Event.byClient])

/-- Where the next step clears the flag: the start of the loop, and the end of a stop whose
    zero move succeeded. -/
def Pc.clearsFlag : Pc → Bool
  | .loopStart => true
  | .estopDamp _ moved | .stopDamp moved => moved
  | _ => false

/-- `last_sent_nonzero_` covers every nonzero move issued in the session. -/
structure FlagCovers (wk : Worker) (t : List Event) : Prop where
  flag : wk.pc.inSession = true → unzeroed t = true → wk.lastSentNonzero = true
  clear : wk.pc.clearsFlag = true → unzeroed t = false
  mode : ∀ p mode, wk.pc = .execSetMode p mode → wk.lastSentNonzero = false

/-- A worker step that makes no SDK call and opens no session resets the flag at the start of
    the loop only, and goes on to `set_mode` only with the flag unset. -/
theorem workerStep_lastSent (hs : workerStep cfg ans w w.wk.pc = some w')
    (hsdk : w.wk.pc.sdkCall = none) (hopen : w.wk.pc ≠ .connect) :
    (w'.wk.pc.inSession = true → w.wk.pc.inSession = true ∧
      (w.wk.pc.clearsFlag = true ∨ w'.wk.lastSentNonzero = w.wk.lastSentNonzero)) ∧
      w'.wk.pc.clearsFlag = false ∧
      ∀ p mode, w'.wk.pc = .execSetMode p mode → w'.wk.lastSentNonzero = false := by
  cases hpc : w.wk.pc
  all_goals rw [hpc] at hs hsdk
  all_goals simp only [Pc.sdkCall, reduceCtorEq] at hsdk
  all_goals simp only [workerStep] at hs
  all_goals repeat' split at hs
  all_goals simp only [Option.some.injEq, reduceCtorEq] at hs
  all_goals subst hs
  all_goals simp [Pc.inSession, Pc.clearsFlag]
  case connect => exact hopen hpc
  case execMode.isFalse hlast => simpa using hlast

/-- **Step lemma.** The worker's steps keep the flag over every nonzero move. -/
theorem FlagCovers.worker_step (h : FlagCovers w.wk w.trace)
    (hok : w.firstMoveHeard (.worker ans) = true) (hs : workerStep cfg ans w w.wk.pc = some w') :
    FlagCovers w'.wk w'.trace := by
  by_cases hopen : w.wk.pc = .connect
  · rw [hopen] at hs
    simp only [workerStep, Option.some.injEq] at hs
    subst hs
    exact ⟨fun _ => by simp [unzeroed], fun _ => by simp [unzeroed], by simp⟩
  cases hcall : w.wk.pc.sdkCall with
  | none =>
    obtain ⟨hin, hclear, hmode⟩ := workerStep_lastSent hs hcall hopen
    obtain ⟨new, heq, hnew⟩ := Extends.trace (workerStep_extends hs)
    have hsame : unzeroed w'.trace = unzeroed w.trace := by
      rw [heq]
      refine unzeroed_append (fun he => hopen ?_) (fun o call r he => ?_)
      · exact Option.some.inj ((hnew _ he).opened rfl)
      · obtain ⟨pc, hpc, hsome⟩ := (hnew _ he).sdk o call r rfl
        rw [← Option.some.inj hpc, hcall] at hsome
        exact absurd hsome (by simp)
    refine ⟨fun hin' hmoved => ?_, fun hpc => absurd hpc (by simp [hclear]), hmode⟩
    obtain ⟨hsession, hcleared | hkept⟩ := hin hin'
    · rw [hsame, h.clear hcleared] at hmoved
      exact absurd hmoved (by simp)
    · rw [hkept]
      exact h.flag hsession (hsame ▸ hmoved)
  | some oc =>
    obtain ⟨hflag, hclear, hmode⟩ := h
    cases hpc : w.wk.pc
    all_goals rw [hpc] at hs hcall hflag hclear
    all_goals simp only [Pc.sdkCall, reduceCtorEq] at hcall
    all_goals simp only [World.firstMoveHeard, hpc] at hok
    all_goals simp only [workerStep] at hs
    all_goals repeat' split at hs
    all_goals simp only [Option.some.injEq] at hs
    all_goals subst hs
    all_goals simp only [Pc.clearsFlag, Pc.inSession] at hclear hflag
    all_goals refine ⟨?_, ?_, ?_⟩
    all_goals simp [Pc.inSession, Pc.clearsFlag, unzeroed, Answer.outcome, Outcome.success]
    all_goals first
      | done
      | (simp_all; done)
      | (cases hv : Velocity.nonzero _ <;> simp_all)

/-- **Run lemma.** -/
theorem Run.flagCovers (h : Run cfg (fun w a => w.firstMoveHeard a = true) w) :
    FlagCovers w.wk w.trace := by
  refine h.guarded_history ⟨by simp [World.initial, Pc.inSession], fun _ => rfl,
    by simp [World.initial]⟩ ?_ ?_ (fun s ans s' _ hok ih hs => ih.worker_step hok hs)
  · intro wk t e he ih
    refine ⟨?_, ?_, ih.mode⟩ <;> rw [unzeroed_byClient he]
    · exact ih.flag
    · exact ih.clear
  · intro wk t _ _
    exact ⟨by simp [Pc.inSession], by simp [Pc.clearsFlag], by simp⟩

/-- **Commanded motion is taken back.** In every run in which each nonzero move sent at rest
    succeeds, a rejected tick of an unzeroed session sends a zero move, and modes are set only in
    sessions that are not unzeroed. -/
theorem motion_taken_back (hrun : Run cfg (fun w a => w.firstMoveHeard a = true) w) :
    TakesBackMotion cfg w := by
  obtain ⟨hflag, -, hmode⟩ := hrun.flagCovers
  constructor
  · intro hpc hrej hmoved ans w' hs
    have hlast : w.wk.lastSentNonzero = true := hflag (by rw [hpc]; rfl) hmoved
    simp only [step, hpc, workerStep, hlast, Bool.or_true, if_true, Option.some.injEq] at hs
    subst hs
    simp [World.tickTarget, hrej]
  · intro p mode hpc
    by_contra hmoved
    have hlast := hflag (by rw [hpc]; rfl) (by simpa using hmoved)
    rw [hmode p mode hpc] at hlast
    exact absurd hlast (by simp)

/-- A move that succeeded, a second one that failed, and then silence beyond the deadman. -/
def stalledMove : List Action :=
  moving ++ [.advance (ms 20)] ++ works 12 (obliging 0xB104) ++
    [.worker { result := .failure sdkResTimeout "timeout" }] ++ works 2 (obliging 0xB104) ++
    [.advance (ms 200)] ++ works 10 (obliging 0xB104)

/-- Its last tick is rejected, and goes on to the zero move. -/
theorem motion_taken_back_stalled :
    ∃ w, Run {} (fun w a => w.firstMoveHeard a = true) w ∧ w.wk.pc = .tickRead ∧
      unzeroed w.trace = true ∧
      ∀ ans w', step {} (.worker ans) w = some w' → w'.wk.pc = .tickMove .zero := by
  obtain ⟨w, hrun, hw⟩ := exists_run_of_exec {} (fun w a => w.firstMoveHeard a = true) stalledMove
    (fun w => w.wk.pc = .tickRead && !(w.ctl.velocityForTick (ms 100) w.clock).accepted &&
      unzeroed w.trace)
    (by decide +kernel)
  simp only [Bool.and_eq_true, decide_eq_true_eq, Bool.not_eq_true'] at hw
  obtain ⟨⟨hpc, hrej⟩, hmoved⟩ := hw
  exact ⟨w, hrun, hpc, hmoved, (motion_taken_back hrun).1 hpc hrej hmoved⟩

end HypertronBridge.Runtime
