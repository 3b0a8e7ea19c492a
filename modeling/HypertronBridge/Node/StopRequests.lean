import HypertronBridge.Node.Executor
import HypertronBridge.Runtime.Estop

namespace HypertronBridge.Node

open TransitionSystem HypertronBridge.Runtime

/-!
# The emergency stop, as requested and as published

Two places hold the emergency stop: the node's own flag, which is published, and the controller's latch,
which gates the motion.  Both are what the last `/emergency_stop` request asked for, whatever sessions,
modes and errors come and go: the callback writes the one before the other, and nothing else writes either.

* `lastStop` — what the last request asked for;
* `System.step_published`, `System.step_latch` — who writes the flag, and who writes the latch;
* `StopHistory` — both, while the callback has written neither or one, and afterwards;
* `stop_is_last_request` — the result.
-/

variable {cfg : ExecutorConfig} {s s' : Executor} {m : Move}

/-! ### Who writes -/

/-- A section of an observer call leaves the flag alone. -/
theorem ObserverCall.run_estopLatched (cfg : NodeConfig) (v : Vars) (c : ObserverCall) :
    (c.run cfg v).vars.estopLatched = v.estopLatched := by
  cases c <;> rfl

/-- **The flag.** -/
theorem System.step_published {cfg : NodeConfig} {b : Action} {s s' : System}
    (hs : System.step cfg b s = some s') :
    s'.vars.estopLatched = match b with
      | .estop latched => latched
      | _ => s.vars.estopLatched := by
  cases b
  case runtime a =>
    cases a
    all_goals simp only [System.step] at hs
    case worker ans =>
      split at hs
      · exact absurd hs (by simp)
      · obtain ⟨w, -, rfl⟩ := Option.map_eq_some_iff.mp hs
        rfl
    all_goals
      obtain ⟨w, -, rfl⟩ := Option.map_eq_some_iff.mp hs
      rfl
  case poll snapshot =>
    rw [System.step, Option.ite_none_right_eq_some] at hs
    obtain ⟨w, -, rfl⟩ := Option.map_eq_some_iff.mp hs.2
    rfl
  case call i =>
    obtain ⟨c, -, rfl⟩ := Option.map_eq_some_iff.mp hs
    exact c.run_estopLatched cfg s.vars
  case onState =>
    obtain ⟨c, -, rfl⟩ := Option.map_eq_some_iff.mp hs
    exact c.run_estopLatched cfg s.vars
  case sport sample =>
    obtain rfl := Option.some.inj hs
    dsimp only
    split_ifs <;> rfl
  all_goals
    obtain rfl := Option.some.inj hs
    rfl

/-- **The latch.** -/
theorem System.step_latch {cfg : NodeConfig} {b : Action} {s s' : System}
    (hs : System.step cfg b s = some s') :
    s'.world.ctl.estopLatched = match b with
      | .runtime .latchEstop => true
      | .runtime .clearEstop => false
      | _ => s.world.ctl.estopLatched := by
  have hworld := System.step_world hs
  cases b
  case runtime a =>
    have hw : Runtime.step cfg.runtime a s.world = some s'.world := hworld
    cases a
    case latchEstop | clearEstop =>
      rw [← Option.some.inj hw]
      rfl
    all_goals exact step_estopLatched hw (by simp) (by simp)
  case poll snapshot => exact step_estopLatched (a := .worker _) hworld (by simp) (by simp)
  all_goals rw [← Option.some.inj hworld]

/-! ### What the requests asked for -/

/-- What the last request asked for. -/
def lastStop : List Turn → Bool
  | [] => false
  | .took (.emergencyStop data) :: _ => data
  | _ :: older => lastStop older

/-- A turn that takes no such request. -/
def Turn.keepsStop (e : Turn) : Prop := ∀ data, e ≠ .took (.emergencyStop data)

theorem lastStop_cons {e : Turn} {older : List Turn} (he : e.keepsStop) :
    lastStop (e :: older) = lastStop older := by
  rw [lastStop]
  rintro data rfl
  exact he data rfl

theorem lastStop_append {new older : List Turn} (hnew : ∀ e ∈ new, e.keepsStop) :
    lastStop (new ++ older) = lastStop older := by
  induction new with
  | nil => rfl
  | cons e new ih =>
    obtain ⟨he, hnew⟩ := List.forall_mem_cons.mp hnew
    exact (lastStop_cons he).trans (ih hnew)

namespace Executor

/-- The stop as it is published. -/
def publishedStop (cfg : ExecutorConfig) (s : Executor) : Bool :=
  (robotState cfg.node s.system.vars).emergencyStop

/-- The stop that gates the motion. -/
def latch (s : Executor) : Bool := s.system.world.ctl.estopLatched

/-- No callback is about to write either. -/
def Settled (s : Executor) : Prop :=
  ∀ data, s.entry ≠ some (.writeEstop data) ∧ s.entry ≠ some (.triggerEstop data)

end Executor

/-- The stop in both places: before the callback's first write, before its second one, and otherwise. -/
def StopHistory (cfg : ExecutorConfig) (s : Executor) : Prop :=
  match s.entry with
  | some (.writeEstop data) => ∃ older, s.log = .took (.emergencyStop data) :: older ∧
      s.publishedStop cfg = lastStop older ∧ s.latch = lastStop older
  | some (.triggerEstop data) => ∃ older, s.log = .took (.emergencyStop data) :: older ∧
      s.publishedStop cfg = data ∧ s.latch = lastStop older
  | _ => s.publishedStop cfg = lastStop s.log ∧ s.latch = lastStop s.log

theorem stopHistory_of_settled (h : s.Settled) :
    StopHistory cfg s ↔ s.publishedStop cfg = lastStop s.log ∧ s.latch = lastStop s.log := by
  unfold StopHistory
  split
  · rename_i data hentry
    exact absurd hentry (h data).1
  · rename_i data hentry
    exact absurd hentry (h data).2
  · rfl

/-- What is recorded when a callback returns is no request. -/
theorem keepsStop_of_returns {next : Option Entry} : ∀ e ∈ returns next, e.keepsStop := by
  intro e he data
  cases next with
  | none =>
    rw [List.mem_singleton.mp he]
    simp
  | some entry => exact absurd he (by simp [returns])

/-- A message other than a stop request. -/
theorem Incoming.entry_settled {message : Incoming} (h : ∀ data, message ≠ .emergencyStop data) :
    ∀ data, message.entry ≠ some (.writeEstop data) ∧ message.entry ≠ some (.triggerEstop data) := by
  intro data
  cases message
  case emergencyStop data' => exact absurd rfl (h data')
  all_goals
    simp only [Incoming.entry]
    try split_ifs
  all_goals simp

/-- The sections that write neither the flag nor the latch, from callbacks that are not about to. -/
theorem Ran.settled {entry : Entry} {part : EntrySection} {s : System} (h : Ran cfg s entry part)
    (hentry : ∀ data, entry ≠ .writeEstop data ∧ entry ≠ .triggerEstop data) :
    (∀ data, part.next ≠ some (.writeEstop data) ∧ part.next ≠ some (.triggerEstop data)) ∧
      (∀ e ∈ part.turns, e.keepsStop) ∧ ∀ b, part.action = some b →
        (∀ data, b ≠ .estop data) ∧ b ≠ .runtime .latchEstop ∧ b ≠ .runtime .clearEstop := by
  cases h
  case writeEstop data => exact absurd rfl (hentry data).1
  case clearEstop => exact absurd rfl (hentry false).2
  case latchEstop => exact absurd rfl (hentry true).2
  case submit twist next hnext =>
    refine ⟨fun data => ?_, by simp [Turn.keepsStop], by simp⟩
    rcases hnext with rfl | ⟨message, rfl⟩
    · simp
    · simp
  all_goals simp [Turn.keepsStop]

/-- What other steps keep. -/
theorem System.step_keepsStop {b : Action} {system : System}
    (hs : System.step cfg.node b s.system = some system)
    (hb : (∀ data, b ≠ .estop data) ∧ b ≠ .runtime .latchEstop ∧ b ≠ .runtime .clearEstop) :
    system.vars.estopLatched = s.system.vars.estopLatched ∧
      system.world.ctl.estopLatched = s.latch := by
  obtain ⟨hestop, hlatch, hclear⟩ := hb
  refine ⟨(System.step_published hs).trans ?_, (System.step_latch hs).trans ?_⟩
  · split
    · rename_i latched _
      exact absurd rfl (hestop latched)
    · rfl
  · split
    · exact absurd rfl hlatch
    · exact absurd rfl hclear
    · rfl

/-- A step of another thread keeps both, and the requests. -/
theorem StopHistory.others (h : StopHistory cfg s) {b : Action} {system : System}
    (hb : b.byOthers = true) (hs : System.step cfg.node b s.system = some system) :
    StopHistory cfg { s with system } := by
  have hothers : (∀ data, b ≠ .estop data) ∧ b ≠ .runtime .latchEstop ∧ b ≠ .runtime .clearEstop := by
    refine ⟨?_, ?_, ?_⟩
    · rintro data rfl
      exact absurd hb (by simp [Action.byOthers])
    · rintro rfl
      exact absurd hb (by simp [Action.byOthers])
    · rintro rfl
      exact absurd hb (by simp [Action.byOthers])
  obtain ⟨hflag, hlatch⟩ := System.step_keepsStop hs hothers
  have hflag' : ({ s with system } : Executor).publishedStop cfg = s.publishedStop cfg := hflag
  have hlatch' : ({ s with system } : Executor).latch = s.latch := hlatch
  unfold StopHistory at h ⊢
  rw [hflag', hlatch']
  exact h

/-- A settled callback goes on. -/
theorem StopHistory.goesOn (h : StopHistory cfg s) {entry : Entry} {part : EntrySection}
    (hentry : s.entry = some entry)
    (hsettled : ∀ data, entry ≠ .writeEstop data ∧ entry ≠ .triggerEstop data)
    (hran : Ran cfg s.system entry part) {system : System}
    (hflag : system.vars.estopLatched = s.system.vars.estopLatched)
    (hlatch : system.world.ctl.estopLatched = s.latch) :
    StopHistory cfg
      { system, entry := part.next, log := returns part.next ++ part.turns ++ s.log } := by
  obtain ⟨hnext, hturns, -⟩ := hran.settled hsettled
  have hbefore : s.Settled := fun data => by
    rw [hentry]
    exact ⟨fun heq => (hsettled data).1 (Option.some.inj heq),
      fun heq => (hsettled data).2 (Option.some.inj heq)⟩
  rw [stopHistory_of_settled hbefore] at h
  refine (stopHistory_of_settled (s := ⟨system, part.next, _⟩) hnext).mpr ?_
  have hlog : lastStop (returns part.next ++ part.turns ++ s.log) = lastStop s.log := by
    refine lastStop_append (fun e he => ?_)
    rcases List.mem_append.mp he with he | he
    · exact keepsStop_of_returns e he
    · exact hturns e he
  rw [hlog]
  exact ⟨hflag.trans h.1, hlatch.trans h.2⟩

/-- **Step lemma.** -/
theorem StopHistory.step (h : StopHistory cfg s) (hs : Moved cfg s m s') : StopHistory cfg s' := by
  cases hs with
  | @took message hidle =>
    rw [stopHistory_of_settled (fun data => by simp [hidle])] at h
    by_cases hstop : ∃ data, message = .emergencyStop data
    · obtain ⟨data, rfl⟩ := hstop
      exact ⟨s.log, rfl, h⟩
    · have hother : ∀ data, message ≠ .emergencyStop data := fun data heq => hstop ⟨data, heq⟩
      refine (stopHistory_of_settled (s := ⟨s.system, message.entry, _⟩)
        (Incoming.entry_settled hother)).mpr ?_
      have hlog : lastStop (returns message.entry ++ .took message :: s.log) = lastStop s.log := by
        refine (lastStop_append keepsStop_of_returns).trans (lastStop_cons (fun data heq => ?_))
        exact hother data (Turn.took.inj heq)
      show s.publishedStop cfg = lastStop (returns message.entry ++ .took message :: s.log) ∧
        s.latch = lastStop (returns message.entry ++ .took message :: s.log)
      rw [hlog]
      exact h
  | @stayed entry part hentry hran hnone =>
    refine h.goesOn hentry (fun data => ?_) hran rfl rfl
    constructor
    · rintro rfl
      cases hran
      exact absurd hnone (by simp)
    · rintro rfl
      cases hran
      all_goals exact absurd hnone (by simp)
  | @acted entry part b system hentry hran hb hs =>
    by_cases hsettled : ∀ data, entry ≠ .writeEstop data ∧ entry ≠ .triggerEstop data
    · obtain ⟨hflag, hlatch⟩ := System.step_keepsStop hs ((hran.settled hsettled).2.2 b hb)
      exact h.goesOn hentry hsettled hran hflag hlatch
    · -- the two sections that write
      unfold StopHistory at h
      rw [hentry] at h
      cases hran
      case writeEstop data =>
        obtain ⟨older, hlog, -, hlatch⟩ := h
        obtain rfl := Option.some.inj hb
        exact ⟨older, hlog, System.step_published hs, (System.step_latch hs).trans hlatch⟩
      case clearEstop | latchEstop =>
        obtain ⟨older, hlog, hflag, -⟩ := h
        obtain rfl := Option.some.inj hb
        refine ⟨(System.step_published hs).trans (hflag.trans ?_), (System.step_latch hs).trans ?_⟩
        all_goals
          show _ = lastStop s.log
          rw [hlog]
          rfl
      all_goals exact absurd (fun data => by simp) hsettled
  | others hb hs => exact h.others hb hs

/-- **The emergency stop is what was last requested.** In every state of every run, the stop that is
    published and the stop that gates the motion are what the last `/emergency_stop` request asked for,
    except while its callback has not written one of them yet; and while the latch holds, a motion tick that
    reads the controller gets zero, and no mode but damping is accepted. -/
theorem stop_is_last_request (hrun : Executor.Run cfg s) :
    StopHistory cfg s ∧ (s.latch = true →
      s.system.world.tickTarget cfg.node.runtime = .zero ∧ ∀ now name,
        (s.system.world.ctl.requestMode now name).1.accepted = true → modeOf name = some modeDamping) := by
  refine ⟨hrun.invariant ?_ (fun _ _ _ _ hi hs => hi.step hs), fun hlatch => ⟨?_, fun now name hacc => ?_⟩⟩
  · exact ⟨rfl, rfl⟩
  · have hnot : s.system.world.ctl.movementReady = false := by
      rw [Bool.eq_false_iff]
      intro hready
      have hopen := (RobotController.movementReady_iff.mp hready).2.2.2.2.2
      exact absurd hlatch (by simp [Executor.latch, hopen])
    simp [World.tickTarget, RobotController.velocityForTick, hnot]
  · rcases RobotController.requestMode_cases now name s.system.world.ctl with
      ⟨mode, hmode, -, -, -, hdamping, -⟩ | ⟨hrejected, -⟩
    · rw [hmode, hdamping hlatch]
    · rw [hrejected] at hacc
      exact absurd hacc (by simp)

/-- A stop request, and a link drop that ends the session. -/
def stopped : List Move :=
  elsewhere (runtimeSteps (.start :: works 13 (obliging 0xB104))) ++
    [.take (.emergencyStop true), .proceed, .proceed, .proceed] ++
    elsewhere (runtimeSteps (.status true true :: .status false false ::
      works 2 (obliging 0xB104)))

/-- The session is over, and the stop stands in both places. -/
theorem stop_is_last_request_dropped : ∃ s, Executor.Run { node := .plain } s ∧
    s.system.world.trace.head? = some .sessionClosed ∧ lastStop s.log = true ∧
      s.publishedStop { node := .plain } = true ∧ s.latch = true ∧
      s.system.world.tickTarget {} = .zero := by
  obtain ⟨s, hrun, hs⟩ := Executor.exists_run_of_exec { node := .plain } stopped
    (fun s => decide (s.system.world.trace.head? = some .sessionClosed) && lastStop s.log &&
      decide (s.entry = some (.startWait (.emergencyStop true) 0))) (by decide +kernel)
  simp only [Bool.and_eq_true, decide_eq_true_eq] at hs
  obtain ⟨⟨hclosed, hlast⟩, hentry⟩ := hs
  obtain ⟨hhistory, hhold⟩ := stop_is_last_request hrun
  obtain ⟨hflag, hlatch⟩ := (stopHistory_of_settled (fun data => by simp [hentry])).mp hhistory
  rw [hlast] at hflag hlatch
  exact ⟨s, hrun, hclosed, hlast, hflag, hlatch, (hhold hlatch).1⟩

end HypertronBridge.Node
