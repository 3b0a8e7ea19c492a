import HypertronBridge.Node.Step
import Mathlib.Tactic.IntervalCases

namespace HypertronBridge.Node

open TransitionSystem HypertronBridge.Adapter HypertronBridge.Runtime

/-!
# The published link state

`status_linked_` and `status_authority_` are the node's copy of the runtime's caches, written by
`on_status` only.  The teardown of a session clears the caches and reports nothing, so the node
goes on publishing the link of the ended session: `ended_session_is_published`.  Two status
callbacks that overlap can also reach the node in the other order than the runtime.

* `PublishesCaches` — the node's copy and its message are the runtime's caches;
* `System.owed` — the report on its way to the node;
* `System.linkRace` — the condition; `published_link_state` — the result under it.
-/

variable {cfg : NodeConfig} {s s' : System} {b : Action} {ok : System → Action → Prop}

/-- No status callback is in progress. -/
def System.NoStatusCall (s : System) : Prop := ∀ i c, s.calls i = some c → c.ofStatus = false

/-- The node's link state, and the one that a robot state composed now carries, is the runtime's. -/
structure PublishesCaches (cfg : NodeConfig) (s : System) : Prop where
  copy : s.vars.status = s.world.cached
  message : ((robotState cfg s.vars).sdkLinked, (robotState cfg s.vars).controlAuthority) =
    s.world.cached

/-! ### The defect -/

/-- A linked and authorised session that ends with a failed heartbeat, up to the clearing of the
    caches. -/
def heartbeatEnd : List Action :=
  runtimeSteps (.start :: works 13 (obliging 0xB104)) ++
    [.runtime (.status true true), .call 0, .call 0, .runtime (.advance (ms 100))] ++
    runtimeSteps (works 8 (obliging 0xB104)) ++
    [.runtime (.worker { result := .failure sdkResTimeout "timeout" })] ++
    runtimeSteps (works 2 (obliging 0xB104))

/-- **The defect.** The session is over and the caches are cleared; the node says linked. -/
theorem ended_session_is_published :
    ¬ ∀ cfg s, System.Run cfg (fun _ _ => True) s → s.NoStatusCall → PublishesCaches cfg s := by
  intro hall
  obtain ⟨s, hrun, hs⟩ := System.exists_run_of_exec .plain (fun _ _ => True) heartbeatEnd
    (fun s => decide (s.nextCall = 1) && (s.calls 0).isNone && decide (s.vars.status = (true, true)) &&
      decide (s.world.cached = (false, false))) (by decide +kernel)
  simp only [Bool.and_eq_true, decide_eq_true_eq, Option.isNone_iff_eq_none] at hs
  obtain ⟨⟨⟨hnext, hcall⟩, hstatus⟩, hcached⟩ := hs
  have hidle : s.NoStatusCall := by
    intro i c hc
    have hnone : s.calls i = none := by
      rcases Nat.eq_zero_or_pos i with rfl | hi
      · exact hcall
      · exact hrun.fresh i (by omega)
    rw [hnone] at hc
    exact absurd hc (by simp)
  have hcopy := (hall _ s hrun hidle).copy
  rw [hstatus, hcached] at hcopy
  exact absurd hcopy (by simp)

/-! ### Where the copies stay together -/

/-- What the newest status report says, as long as its `on_status` has not written it. -/
def System.owed (s : System) : Option (Bool × Bool) :=
  match s.calls s.newest with
  | some (.statusWrite linked authority) => some (linked, authority)
  | _ => none

/-- The steps that separate the copies: the teardown clears caches that hold something, and an
    `on_status` writes an older report over the newest one. -/
def System.linkRace (s : System) : Action → Bool
  | .runtime (.worker _) =>
      match s.world.wk.pc with
      | .invalidateCaches _ => s.world.cached != (false, false)
      | _ => false
  | .call i =>
      match s.calls i with
      | some (.statusWrite linked authority) =>
          s.owed.isNone && s.world.cached != (linked, authority)
      | _ => false
  | _ => false

/-- The node's copy is the runtime's, once the newest report has reached it. -/
def LinkCopy (s : System) : Prop := s.owed.getD s.vars.status = s.world.cached

/-- Only the first section of `on_status` writes the link state. -/
theorem ObserverCall.run_status (cfg : NodeConfig) (v : Vars) {c : ObserverCall}
    (hc : ∀ linked authority, c ≠ .statusWrite linked authority) :
    (c.run cfg v).vars.status = v.status := by
  cases c
  case statusWrite linked authority => exact absurd rfl (hc linked authority)
  all_goals rfl

/-- No section is followed by a first one. -/
theorem ObserverCall.next_ne_statusWrite (cfg : NodeConfig) (v : Vars) (c : ObserverCall)
    (linked authority : Bool) : (c.run cfg v).next ≠ some (.statusWrite linked authority) := by
  cases c <;> simp only [run] <;> repeat' split
  all_goals simp

theorem System.owed_eq_none (h : ∀ linked authority, s.calls s.newest ≠
    some (.statusWrite linked authority)) : s.owed = none := by
  unfold owed
  split
  · rename_i linked authority hcall
    exact absurd hcall (h linked authority)
  · rfl

/-- `on_imu` starts with a section of its own. -/
theorem onImu_ne_statusWrite (sample : ImuSample) (linked authority : Bool) :
    onImu cfg sample ≠ .statusWrite linked authority := by
  unfold onImu
  repeat' split
  all_goals simp

/-- A call other than `on_status` brings no report. -/
theorem System.owed_begin {c : ObserverCall} (hfresh : Fresh s)
    (hc : ∀ linked authority, c ≠ .statusWrite linked authority) : (s.begin c).owed = s.owed := by
  by_cases hnew : s.newest = s.nextCall
  · have hnone : s.owed = none := System.owed_eq_none (fun l a heq => by
      rw [hnew, hfresh _ (Nat.le_refl _)] at heq
      exact absurd heq (by simp))
    rw [hnone]
    refine System.owed_eq_none (fun l a heq => hc l a ?_)
    simpa [hnew] using heq
  · unfold owed
    simp only [begin_calls, begin_newest, Function.update_of_ne hnew]

/-- A worker step keeps the caches, or clears them where they hold nothing. -/
theorem worker_cached {w w' : World} {ans : Runtime.Answer} {cfg : RuntimeConfig}
    (hs : workerStep cfg ans w w.wk.pc = some w')
    (hclear : ∀ k, w.wk.pc = .invalidateCaches k → w.cached = (false, false)) :
    w'.cached = w.cached := by
  by_cases hpc : ∃ k, w.wk.pc = .invalidateCaches k
  · obtain ⟨k, hpc⟩ := hpc
    rw [hclear k hpc]
    rw [hpc] at hs
    simp only [workerStep, Option.some.injEq] at hs
    subst hs
    rfl
  · exact (workerStep_cached hs).2 (fun k hk => hpc ⟨k, hk⟩)

/-- **Step lemma, sections on SDK threads.** -/
theorem LinkCopy.call_step {i : Nat} {c : ObserverCall} (h : LinkCopy s)
    (hrace : s.linkRace (.call i) = false) (hc : s.calls i = some c) :
    LinkCopy { s with
      vars := (c.run cfg s.vars).vars
      calls := Function.update s.calls i (c.run cfg s.vars).next
      history := (c.run cfg s.vars).events ++ s.history } := by
  unfold LinkCopy at h ⊢
  by_cases hi : i = s.newest
  · have hgone : System.owed { s with
        vars := (c.run cfg s.vars).vars
        calls := Function.update s.calls i (c.run cfg s.vars).next
        history := (c.run cfg s.vars).events ++ s.history } = none := by
      refine System.owed_eq_none (fun linked authority => ?_)
      simpa [hi] using c.next_ne_statusWrite cfg s.vars linked authority
    rw [hgone, ← h]
    by_cases hfirst : ∃ linked authority, c = .statusWrite linked authority
    · obtain ⟨linked, authority, rfl⟩ := hfirst
      have howed : s.owed = some (linked, authority) := by
        unfold System.owed
        rw [← hi, hc]
      rw [howed]
      rfl
    · have hother : ∀ linked authority, c ≠ .statusWrite linked authority :=
        fun l a heq => hfirst ⟨l, a, heq⟩
      have howed : s.owed = none := by
        refine System.owed_eq_none (fun l a heq => ?_)
        rw [← hi, hc] at heq
        exact hother l a (Option.some.inj heq)
      rw [howed]
      exact c.run_status cfg s.vars hother
  · have hsame : System.owed { s with
        vars := (c.run cfg s.vars).vars
        calls := Function.update s.calls i (c.run cfg s.vars).next
        history := (c.run cfg s.vars).events ++ s.history } = s.owed := by
      unfold System.owed
      simp only [Function.update_of_ne (Ne.symm hi)]
    rw [hsame]
    cases howed : s.owed with
    | some v =>
      rw [howed] at h
      exact h
    | none =>
      rw [howed] at h
      by_cases hfirst : ∃ linked authority, c = .statusWrite linked authority
      · -- The newest report is written, so an older one must say the same.
        obtain ⟨linked, authority, rfl⟩ := hfirst
        simp only [System.linkRace, hc, howed, Option.isNone_none, Bool.true_and, bne_eq_false_iff_eq]
          at hrace
        exact hrace.symm
      · have hother : ∀ linked authority, c ≠ .statusWrite linked authority :=
          fun l a heq => hfirst ⟨l, a, heq⟩
        rw [← h]
        exact c.run_status cfg s.vars hother

/-- **Step lemma.** -/
theorem LinkCopy.step (h : LinkCopy s) (hfresh : Fresh s) (hworker : OnWorker s)
    (hrace : s.linkRace b = false) (hs : Stepped cfg s b s') : LinkCopy s' := by
  cases hs with
  | worker hidle hpoll hw =>
    have hkept := worker_cached hw (fun k hk => by simpa [System.linkRace, hk] using hrace)
    exact h.trans hkept.symm
  | poll hpc hw =>
    have hkept := (workerStep_cached hw).2 (fun k hk => by simp [hpc] at hk)
    exact h.trans hkept.symm
  | client ha hstatus hw => exact h.trans (step_cached hw ha hstatus).1.symm
  | status => simp [LinkCopy, System.owed, System.begin, World.cached]
  | @imu sample =>
    have howed := System.owed_begin (s := { s with history := .imuDelivered sample :: s.history })
      hfresh (c := onImu cfg sample) (onImu_ne_statusWrite sample)
    exact Eq.trans (congrArg (fun o : Option (Bool × Bool) => o.getD s.vars.status) howed) h
  | other _ hstatus _ _ => exact (congrArg (s.owed.getD ·) hstatus).trans h
  | call hc => exact h.call_step hrace hc
  | @onState c hc =>
    have hother := hworker.ofState c hc
    have hkept := c.run_status cfg s.vars (fun l a heq => by
      rw [heq] at hother
      exact absurd hother (by simp [ObserverCall.ofState]))
    exact (congrArg (s.owed.getD ·) hkept).trans h

/-- **Run lemma.** -/
theorem System.Run.linkCopy (h : System.Run cfg (fun s b => s.linkRace b = false) s) :
    LinkCopy s := by
  have hreach : Reaches (System.step cfg) (fun s b => s.linkRace b = false) (System.initial cfg) s :=
    h
  exact hreach.invariant rfl (fun t b t' (ht : System.Run cfg _ t) hi hok hs =>
    hi.step ht.fresh ht.onWorker hok (stepped hs))

/-! ### The result -/

/-- **The published link state is the runtime's.** In every run in which the teardown finds the
    caches empty and no older report is written over the newest one, the node's copy and its
    messages are the runtime's caches whenever no status callback is in progress. -/
theorem published_link_state (hrun : System.Run cfg (fun s b => s.linkRace b = false) s)
    (hidle : s.NoStatusCall) : PublishesCaches cfg s := by
  have howed : s.owed = none := by
    refine System.owed_eq_none (fun linked authority hcall => ?_)
    exact absurd (hidle _ _ hcall) (by simp [ObserverCall.ofStatus])
  have hcopy : s.vars.status = s.world.cached := by
    have h := hrun.linkCopy
    rw [LinkCopy, howed] at h
    exact h
  exact ⟨hcopy, hcopy⟩

/-- A link drop that is reported and published. -/
def reportedDrop : List Action :=
  runtimeSteps (.start :: works 13 (obliging 0xB104)) ++
    [.runtime (.status true true), .call 0, .call 0, .runtime (.status false false)] ++
    List.replicate 3 (.call 1) ++ runtimeSteps (works 4 (obliging 0xB104))

/-- The session has ended, and the node says so. -/
theorem published_link_state_drop :
    ∃ s, System.Run .plain (fun s b => s.linkRace b = false) s ∧ s.world.cached = (false, false) ∧
      .robotState (robotState .plain s.vars) ∈ s.history ∧ PublishesCaches .plain s := by
  obtain ⟨s, hrun, hs⟩ := System.exists_run_of_exec .plain (fun s b => s.linkRace b = false)
    reportedDrop
    (fun s => decide (s.nextCall = 2) && (s.calls 0).isNone && (s.calls 1).isNone &&
      decide (s.world.cached = (false, false)) &&
      decide (.robotState (robotState .plain s.vars) ∈ s.history)) (by decide +kernel)
  simp only [Bool.and_eq_true, decide_eq_true_eq, Option.isNone_iff_eq_none] at hs
  obtain ⟨⟨⟨⟨hnext, hzero⟩, hone⟩, hcached⟩, hpublished⟩ := hs
  refine ⟨s, hrun, hcached, hpublished, published_link_state hrun (fun i c hc => ?_)⟩
  have hnone : s.calls i = none := by
    rcases Nat.lt_or_ge i 2 with hi | hi
    · interval_cases i
      · exact hzero
      · exact hone
    · exact hrun.fresh i (by omega)
  rw [hnone] at hc
  exact absurd hc (by simp)

end HypertronBridge.Node
