import HypertronBridge.Node.Executor
import HypertronBridge.Runtime.Motion
import Mathlib.Algebra.Group.Int.Defs

namespace HypertronBridge.Node

open TransitionSystem History HypertronBridge.Runtime

/-!
# Where the motion comes from

The node is the only source of velocities: every nonzero move that reaches the SDK is the clamped
velocity of one `/cmd_vel` message, the newest that was submitted before the tick that read it.

* `clampUnit_inUnit` — the callback's clamp, which the controller's clamp keeps;
* `step_submissions` — only `submit_velocity` submits, in the runtime and in the node;
* `CommandHistory` — what stands behind every submission, and the callback that makes it;
* `motion_is_from_cmd_vel` — the result.
-/

/-! ### Velocities from -1 to 1 -/

/-- Finite, and from -1 to 1. -/
def inUnit (x : Binary32) : Bool := x.isFinite && !x.lt .negOne && !Binary32.one.lt x

theorem order_negOne : Binary32.negOne.order = -(127 * 2 ^ 23) := rfl

theorem order_one : Binary32.one.order = 127 * 2 ^ 23 := rfl

/-- A magnitude of at most one is finite. -/
theorem isFinite_of_order {x : Binary32} (hlo : Binary32.negOne.order ≤ x.order)
    (hhi : x.order ≤ Binary32.one.order) : x.isFinite = true := by
  rw [order_negOne] at hlo
  rw [order_one] at hhi
  unfold Binary32.isFinite
  rw [bne_iff_ne]
  intro hexponent
  unfold Binary32.order at hlo hhi
  rw [hexponent] at hlo hhi
  have h255 : (255 : BitVec 8).toNat = 255 := rfl
  rw [h255] at hlo hhi
  cases hsign : x.sign with
  | true =>
    rw [hsign, if_pos rfl] at hlo
    omega
  | false =>
    rw [hsign, if_neg Bool.false_ne_true] at hhi
    omega

theorem inUnit_of_order {x : Binary32} (hlo : Binary32.negOne.order ≤ x.order)
    (hhi : x.order ≤ Binary32.one.order) : inUnit x = true := by
  unfold inUnit Binary32.lt
  simp [isFinite_of_order hlo hhi, Int.not_lt.mpr hlo, Int.not_lt.mpr hhi]

/-- `std::min` with one leaves no NaN, and at most one. -/
theorem min_one_le {v : Binary32} (hv : v.isNaN = false) :
    (if v.lt .one then v else Binary32.one).isNaN = false ∧
      (if v.lt .one then v else Binary32.one).order ≤ Binary32.one.order := by
  by_cases hlt : v.lt .one = true
  · rw [if_pos hlt]
    simp only [Binary32.lt, Bool.and_eq_true, decide_eq_true_eq] at hlt
    exact ⟨hv, hlt.2.le⟩
  · rw [if_neg hlt]
    exact ⟨rfl, le_refl _⟩

/-- **The clamp of a callback.** -/
theorem clampUnit_inUnit {v : Binary32} (hv : v.isNaN = false) : inUnit (clampUnit v) = true := by
  obtain ⟨-, hhi⟩ := min_one_le hv
  unfold clampUnit
  dsimp only
  generalize (if v.lt .one then v else Binary32.one) = low at hhi
  by_cases hlt : Binary32.negOne.lt low = true
  · rw [if_pos hlt]
    simp only [Binary32.lt, Bool.and_eq_true, decide_eq_true_eq] at hlt
    exact inUnit_of_order hlt.2.le hhi
  · rw [if_neg hlt]
    decide

/-- The controller's clamp changes nothing then. -/
theorem clamp_of_inUnit {x : Binary32} (hx : inUnit x = true) : x.clamp .negOne .one = x := by
  simp only [inUnit, Bool.and_eq_true, Bool.not_eq_true'] at hx
  obtain ⟨⟨-, hlo⟩, hhi⟩ := hx
  unfold Binary32.clamp
  rw [hlo, hhi]
  rfl

/-- Every component is finite, and from -1 to 1. -/
structure InUnit (v : Velocity) : Prop where
  vx : inUnit v.vx = true
  vy : inUnit v.vy = true
  vyaw : inUnit v.vyaw = true

theorem InUnit.clamp {v : Velocity} (h : InUnit v) : v.clamp = v := by
  unfold Velocity.clamp
  rw [clamp_of_inUnit h.vx, clamp_of_inUnit h.vy, clamp_of_inUnit h.vyaw]

/-- What a finite message submits. -/
theorem Twist.inUnit {twist : Twist} (h : twist.isFinite = true) : InUnit twist.velocity := by
  simp only [Twist.isFinite, Bool.and_eq_true] at h
  obtain ⟨⟨hx, hy⟩, hz⟩ := h
  exact ⟨clampUnit_inUnit (Binary64.toBinary32_not_nan hx),
    clampUnit_inUnit (Binary64.toBinary32_not_nan hy), clampUnit_inUnit (Binary64.toBinary32_not_nan hz)⟩

/-! ### Who submits -/

/-- An event by which a velocity is submitted. -/
def submits : Runtime.Event → Option (Time × Velocity)
  | .control ⟨t, .acceptVelocity v, _⟩ => some (t, v)
  | _ => none

/-- Where only `submit_velocity` is asked, nothing else is submitted. -/
theorem submits_eq_none {e : Runtime.Event} (h : e.asksActuation = false) : submits e = none := by
  unfold submits
  split
  · exact absurd h (by simp [Runtime.Event.asksActuation])
  · rfl

/-- **In the runtime.** -/
theorem step_submissions {cfg : RuntimeConfig} {a : Runtime.Action} {w w' : World}
    (hs : Runtime.step cfg a w = some w') : ∃ new, w'.trace = new ++ w.trace ∧
      ∀ e ∈ new, ∀ t v, submits e = some (t, v) → a = .submitVelocity v ∧ t = w.clock := by
  by_cases hasks : a.asksActuation = true
  · cases a
    all_goals simp only [Runtime.step, World.requestAuthority, World.requestMode] at hs
    all_goals repeat' split at hs
    all_goals simp only [Option.some.injEq, reduceCtorEq, Runtime.Action.asksActuation,
      Bool.false_eq_true] at hs hasks
    all_goals subst hs
    case submitVelocity velocity =>
      refine ⟨[_], rfl, fun e he t v hsub => ?_⟩
      rw [List.mem_singleton.mp he] at hsub
      simp only [submits, Operation.call, Option.some.injEq, Prod.mk.injEq] at hsub
      exact ⟨by rw [hsub.2], hsub.1.symm⟩
    case latchEstop => exact ⟨[_, _], rfl, by simp [submits, Operation.call]⟩
    all_goals first
      | exact ⟨[_, _], rfl, by simp [submits]⟩
      | exact ⟨[_], rfl, by simp [submits]⟩
  · obtain ⟨new, heq, hnew⟩ := Extends.trace (step_extends hs)
    refine ⟨new, heq, fun e he t v hsub => ?_⟩
    have hnone : submits e = none := by
      refine submits_eq_none (Bool.eq_false_iff.mpr (fun hask => hasks ((hnew e he).asks hask)))
    rw [hnone] at hsub
    exact absurd hsub (by simp)

/-- **In the node.** -/
theorem System.step_submissions {cfg : NodeConfig} {b : Action} {s s' : System}
    (hs : System.step cfg b s = some s') : ∃ new, s'.world.trace = new ++ s.world.trace ∧
      ∀ e ∈ new, ∀ t v, submits e = some (t, v) →
        b = .runtime (.submitVelocity v) ∧ t = s.world.clock := by
  have hworld := System.step_world hs
  cases hb : b.inRuntime with
  | none =>
    rw [hb] at hworld
    exact ⟨[], by rw [← Option.some.inj hworld]; rfl, by simp⟩
  | some a =>
    rw [hb] at hworld
    obtain ⟨new, heq, hnew⟩ := Node.step_submissions hworld
    refine ⟨new, heq, fun e he t v hsub => ?_⟩
    obtain ⟨rfl, ht⟩ := hnew e he t v hsub
    cases b with
    | runtime a => exact ⟨congrArg Action.runtime (Option.some.inj hb), ht⟩
    | _ => exact absurd hb (by simp [Action.inRuntime])

/-! ### What stands behind a submission -/

variable {cfg : ExecutorConfig} {s s' : Executor} {m : Move}

/-- A finite message has just been taken. -/
def TookFinite (twist : Twist) (log : List Turn) : Prop :=
  log.head? = some (.took (.cmdVel twist)) ∧ twist.isFinite = true

/-- Every submission in the trace is one of the callback, right after a finite message was taken. -/
structure CommandHistory (s : Executor) : Prop where
  submissions : ∀ e ∈ s.system.world.trace, ∀ t v, submits e = some (t, v) →
    ∃ twist, .submitted twist t ∈ s.log ∧ v = twist.velocity
  entry : ∀ twist, s.entry = some (.submit twist) → TookFinite twist s.log
  turns : Historically (fun e older => ∀ twist t, e = .submitted twist t → TookFinite twist older) s.log

/-- Where the callback submits, and that no section leads to it. -/
theorem Ran.submit_spec {entry : Entry} {part : EntrySection} {s : System} (h : Ran cfg s entry part) :
    (∀ twist, part.next ≠ some (.submit twist)) ∧
      (∀ e ∈ part.turns, ∀ twist t, e = .submitted twist t → entry = .submit twist) ∧
      ∀ v, part.action = some (.runtime (.submitVelocity v)) →
        ∃ twist, v = twist.velocity ∧ .submitted twist s.world.clock ∈ part.turns := by
  cases h
  case submit twist next hnext =>
    refine ⟨fun twist' => ?_, by simp, fun v hv => ?_⟩
    · rcases hnext with rfl | ⟨message, rfl⟩
      · simp
      · simp
    · simp only [Option.some.injEq, Action.runtime.injEq, Runtime.Action.submitVelocity.injEq] at hv
      exact ⟨twist, hv.symm, by simp⟩
  all_goals simp

/-- The callback of a message submits a velocity only of a finite `/cmd_vel` message. -/
theorem Incoming.entry_submit {message : Incoming} {twist : Twist}
    (h : message.entry = some (.submit twist)) : message = .cmdVel twist ∧ twist.isFinite = true := by
  cases message
  all_goals simp only [Incoming.entry, Option.ite_none_right_eq_some, Option.some.injEq, reduceCtorEq,
    and_false, Entry.submit.injEq] at h
  obtain ⟨hfinite, rfl⟩ := h
  exact ⟨rfl, hfinite⟩

/-- What is recorded at the end of a section besides its turns. -/
theorem ne_submitted_of_returns {next : Option Entry} {e : Turn} (he : e ∈ returns next) (twist : Twist)
    (t : Time) : e ≠ .submitted twist t := by
  cases next with
  | none =>
    rw [List.mem_singleton.mp he]
    simp
  | some entry => exact absurd he (by simp [returns])

/-- The section of a callback keeps the order of the turns. -/
theorem CommandHistory.turns_goOn (h : CommandHistory s) {entry : Entry} {part : EntrySection}
    (hentry : s.entry = some entry) (hran : Ran cfg s.system entry part) :
    Historically (fun e older => ∀ twist t, e = .submitted twist t → TookFinite twist older)
      (returns part.next ++ part.turns ++ s.log) := by
  rw [List.append_assoc]
  refine (h.turns.append ?_).append ?_
  · intro pre e post hsplit twist t he
    obtain rfl := hran.submit_spec.2.1 e (by simp [hsplit]) twist t he
    -- the submission is the only turn of its section
    cases hran with
    | submit _ _ =>
      obtain rfl : post = [] := by
        cases pre <;> simp_all
      exact h.entry twist hentry
  · intro pre e post hsplit twist t he
    have hmem : e ∈ returns part.next := by simp [hsplit]
    exact absurd he (ne_submitted_of_returns hmem twist t)

/-- **Step lemma.** -/
theorem CommandHistory.step (h : CommandHistory s) (hs : Moved cfg s m s') : CommandHistory s' := by
  cases hs with
  | @took message hidle =>
    refine ⟨fun e he t v hsub => ?_, fun twist htwist => ?_, ?_⟩
    · obtain ⟨twist, hmem, hv⟩ := h.submissions e he t v hsub
      exact ⟨twist, by simp [hmem], hv⟩
    · obtain ⟨rfl, hfinite⟩ := Incoming.entry_submit htwist
      have hentry : (Incoming.cmdVel twist).entry = some (.submit twist) := htwist
      show TookFinite twist (returns (Incoming.cmdVel twist).entry ++ .took (.cmdVel twist) :: s.log)
      rw [hentry]
      exact ⟨rfl, hfinite⟩
    · show Historically _ (returns message.entry ++ ([.took message] ++ s.log))
      refine Historically.append (Historically.append h.turns ?_) ?_
      · intro pre e post hsplit twist t he
        cases pre <;> simp_all
      · intro pre e post hsplit twist t he
        have hmem : e ∈ returns message.entry := by simp [hsplit]
        exact absurd he (ne_submitted_of_returns hmem twist t)
  | @stayed entry part hentry hran hnone =>
    refine ⟨fun e he t v hsub => ?_, fun twist htwist => ?_, h.turns_goOn hentry hran⟩
    · obtain ⟨twist, hmem, hv⟩ := h.submissions e he t v hsub
      exact ⟨twist, List.mem_append_right _ hmem, hv⟩
    · exact absurd htwist (hran.submit_spec.1 twist)
  | @acted entry part b system hentry hran hb hs =>
    refine ⟨fun e he t v hsub => ?_, fun twist htwist => ?_, h.turns_goOn hentry hran⟩
    · obtain ⟨new, heq, hnew⟩ := System.step_submissions hs
      show ∃ twist, _ ∈ returns part.next ++ part.turns ++ s.log ∧ _
      rw [heq] at he
      rcases List.mem_append.mp he with he | he
      · obtain ⟨hbv, rfl⟩ := hnew e he t v hsub
        obtain ⟨twist, hv, hturn⟩ := hran.submit_spec.2.2 v (hb.trans (congrArg some hbv))
        exact ⟨twist, by simp [hturn], hv⟩
      · obtain ⟨twist, hmem, hv⟩ := h.submissions e he t v hsub
        exact ⟨twist, List.mem_append_right _ hmem, hv⟩
    · exact absurd htwist (hran.submit_spec.1 twist)
  | @others b system hb hs =>
    refine ⟨fun e he t v hsub => ?_, h.entry, h.turns⟩
    obtain ⟨new, heq, hnew⟩ := System.step_submissions hs
    rw [heq] at he
    rcases List.mem_append.mp he with he | he
    · obtain ⟨rfl, -⟩ := hnew e he t v hsub
      exact absurd hb (by simp [Action.byOthers])
    · exact h.submissions e he t v hsub

/-- **Run lemma.** -/
theorem Executor.Run.commandHistory (h : Executor.Run cfg s) : CommandHistory s := by
  refine h.invariant ⟨?_, ?_, trivial⟩ (fun _ _ _ _ hi hs => hi.step hs)
  · intro e he
    exact absurd he (by simp [Executor.initial, System.initial, World.initial])
  · intro twist htwist
    exact absurd htwist (by simp [Executor.initial])

/-! ### Every nonzero move -/

/-- **Where the motion comes from.** Before every nonzero move of every run stands the tick that read its
    velocity, with no other tick in between, and before that, at most the deadman earlier and with no other
    submission in between, a submission by the callback of a finite `/cmd_vel` message, taken right before
    it, whose clamped velocity it is; that is finite and within -1 and 1. -/
theorem motion_is_from_cmd_vel (hrun : Executor.Run cfg s) {new older : List Runtime.Event} {o : Origin}
    {v : Velocity} {r : Outcome} (htrace : s.system.world.trace = new ++ .sdk o (.move v) r :: older)
    (hv : v.nonzero = true) :
    ∃ after tr between ta before, older = after ++ .control ⟨tr, .velocityForTick, true⟩ ::
        (between ++ .control ⟨ta, .acceptVelocity v, true⟩ :: before) ∧
      ta ≤ tr ∧ tr - ta ≤ ms cfg.node.runtime.deadmanMs ∧
      (∀ e ∈ after, ∀ t o, e ≠ .control ⟨t, .velocityForTick, o⟩) ∧ (∀ e ∈ between, submits e = none) ∧
      ∃ twist newer log, s.log = newer ++ .submitted twist ta :: .took (.cmdVel twist) :: log ∧
        twist.isFinite = true ∧ v = twist.velocity ∧ InUnit v := by
  have hhistory := hrun.commandHistory
  obtain ⟨-, hsince⟩ := historically_iff.mp hrun.reachable.moves new _ older htrace o _ r rfl v rfl hv
  obtain ⟨after, _, rfl, hafter, tr, _, rfl, ta, hle, hfresh, hkept⟩ := since_iff_append.mp hsince
  obtain ⟨between, _, rfl, hbetween, command, before, rfl, -, hclamp⟩ := since_iff_append.mp hkept
  -- the accepted command is what the callback submitted, which the controller's clamp keeps
  obtain ⟨twist, hmem, hcommand⟩ := hhistory.submissions (.control ⟨ta, .acceptVelocity command, true⟩)
    (by simp [htrace]) ta command rfl
  obtain ⟨newer, log, hlog⟩ := List.append_of_mem hmem
  obtain ⟨htook, hfinite⟩ := historically_iff.mp hhistory.turns newer _ log hlog twist ta rfl
  obtain ⟨log, rfl⟩ := List.head?_eq_some_iff.mp htook
  have hunit := Twist.inUnit hfinite
  obtain rfl : command = v := by rw [← hclamp, hcommand, hunit.clamp]
  refine ⟨after, tr, between, ta, before, rfl, hle, hfresh, fun e he => (hafter e he).2, fun e he => ?_,
    twist, newer, log, hlog, hfinite, hcommand, hcommand ▸ hunit⟩
  cases hsub : submits e with
  | none => rfl
  | some tv =>
    unfold submits at hsub
    split at hsub
    · exact absurd ((hbetween _ he).2 _ rfl) (by simp [Call.revokesVelocity])
    · exact absurd hsub (by simp)

/-! A message that asks for more than full speed, taken once the robot is ready. -/

/-- Connect, report link and authority, and poll the state, so that the driver gets ready. -/
def settingUp : List Move :=
  elsewhere (runtimeSteps (.start :: works 13 (obliging 0xB104) ++
    [.status true true, .advance (ms 500)] ++ works 13 (obliging 0xB104)) ++
    [.poll { sdkLinked := true, errorCode := 0, sportStatus := 0xB104 }] ++
    runtimeSteps (works 4 (obliging 0xB104)) ++ List.replicate 3 .onState)

/-- Twice full speed ahead. -/
def tooFast : Twist := ⟨.positive 0x400 0, .zero, .zero⟩

/-- The robot goes ahead at full speed. -/
theorem motion_is_from_cmd_vel_clamped : ∃ s older, Executor.Run { node := .plain } s ∧
    s.system.world.trace = .sdk .tick (.move forward) (.returned (.ok "success")) :: older ∧
      ∃ twist newer log ta, s.log = newer ++ .submitted twist ta :: .took (.cmdVel twist) :: log ∧
        forward = twist.velocity ∧ InUnit forward := by
  obtain ⟨s, hrun, hhead⟩ := Executor.exists_run_of_exec { node := .plain }
    (settingUp ++ [.take (.cmdVel tooFast), .proceed] ++
      elsewhere (runtimeSteps (.advance (ms 20) :: works 11 (obliging 0xB104))))
    (fun s => s.system.world.trace.head? =
      some (.sdk .tick (.move forward) (.returned (.ok "success")))) (by decide +kernel)
  obtain ⟨older, htrace⟩ := List.head?_eq_some_iff.mp (of_decide_eq_true hhead)
  obtain ⟨-, -, -, ta, -, -, -, -, -, -, twist, newer, log, hlog, -, hv, hunit⟩ :=
    motion_is_from_cmd_vel hrun (show s.system.world.trace = [] ++ _ from htrace) (by decide)
  exact ⟨s, older, hrun, htrace, twist, newer, log, ta, hlog, hv, hunit⟩

end HypertronBridge.Node
