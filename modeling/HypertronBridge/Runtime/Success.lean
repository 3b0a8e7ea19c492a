import HypertronBridge.Runtime.Attribution

namespace HypertronBridge.Runtime

open TransitionSystem History

/-!
# No false success

A success that a caller sees was earned: the SDK granted the authority request, executed zero
and damping of the stop request, or took the mode and later reported its stable status.

* `Watched` — the armed transition goes back to a successful `set_mode` of its command;
* `Polled` — a poll before the deadline, after that call and in its session;
* `EstopMoved` — the zero move of a stop request, after its latch;
* `Done`, `success_is_earned` — what a success means for each kind of request.
-/

variable {cfg : RuntimeConfig} {w w' : World} {a : Action} {ans : Answer}
  {ok : World → Action → Prop}

/-! ### The watched transition -/

/-- The newest events: the SDK took `mode` for the command, and the watch was armed for it. -/
def Watched (mode : UInt16) (p : PromiseId) (deadline : Time) (h : List Event) : Prop :=
  ∃ r older, h = .armed ⟨.requestMode mode, p⟩ deadline ::
    .sdk (.command ⟨.requestMode mode, p⟩) (.setMode mode) (.returned r) :: older ∧
    r.success = true ∧ Asked ⟨.requestMode mode, p⟩ older

/-- The newest event is a poll of snapshot `s`, in an iteration before the deadline of a watched
    transition of the same session. -/
def Polled (mode : UInt16) (p : PromiseId) (s : SdkSnapshot) (h : List Event) : Prop :=
  ∃ now deadline older, h = .polled now s :: older ∧ now < deadline ∧
    Since Event.sameSession (Watched mode p deadline) older

/-- The worker is in its state poll, or about to decide on one. -/
def Pc.polls : Pc → Bool
  | .pollDue | .pollSnapshot | .pollApply _ | .pollOrphanRead _ | .pollOrphanFail _ | .pollReady _
  | .checkRead _ | .checkComplete _ | .checkTimeout => true
  | _ => false

/-- The snapshot that the worker is working on. -/
def Pc.snapshot : Pc → Option SdkSnapshot
  | .pollApply s | .pollOrphanRead s | .pollOrphanFail s | .pollReady s | .checkRead s
  | .checkComplete s => some s
  | _ => none

/-- What a worker step does to the watch and the poll. -/
theorem workerStep_watch (hs : workerStep cfg ans w w.wk.pc = some w') :
    (w'.wk.transition.active = true →
      (w'.wk.transition = w.wk.transition ∧ w.wk.pc ≠ .drain) ∨
        ∃ p mode, w.wk.pc = .execSetMode p mode) ∧
      (w'.wk.pc.polls = true → w'.wk.transition.active = true →
        w'.wk.transition = w.wk.transition ∧ w'.wk.now = w.wk.now ∧
          (w.wk.pc.polls = true ∨ w.wk.now < w.wk.transition.deadline)) ∧
      (∀ s, w'.wk.pc.snapshot = some s → w.wk.pc.snapshot = some s ∨
        (w.wk.pc = .pollSnapshot ∧ w'.trace = .polled w.wk.now s :: w.trace)) ∧
      ∀ s, w'.wk.pc = .checkComplete s → s.sportStatus = w'.wk.transition.stableStatus := by
  cases hpc : w.wk.pc
  all_goals rw [hpc] at hs
  all_goals simp only [workerStep] at hs
  all_goals repeat' split at hs
  all_goals simp only [Option.some.injEq, reduceCtorEq] at hs
  all_goals subst hs
  all_goals simp [Pc.polls, Pc.snapshot]
  case settleDue.isFalse hdue =>
    intro hactive
    simpa [hactive] using hdue
  case checkRead.isFalse.isFalse.isTrue hstable => exact hstable

/-- What stands behind the armed transition, and behind a poll that may confirm it. -/
structure WatchHistory (wk : Worker) (t : List Event) : Prop where
  armed : wk.transition.active = true → ∃ mode,
    wk.transition.stableStatus = stableStatusFor mode ∧
      Since Event.sameSession (Watched mode wk.transition.promise wk.transition.deadline) t
  due : wk.pc.polls = true → wk.transition.active = true → wk.now < wk.transition.deadline
  polled : ∀ s, wk.pc.snapshot = some s → wk.transition.active = true → ∃ mode,
    wk.transition.stableStatus = stableStatusFor mode ∧
      Since Event.sameSession (Polled mode wk.transition.promise s) t
  complete : ∀ s, wk.pc = .checkComplete s → s.sportStatus = wk.transition.stableStatus

/-- Arming the watch records the `set_mode` that succeeded. -/
theorem execSetMode_armed {p : PromiseId} {mode : UInt16} (hpc : w.wk.pc = .execSetMode p mode)
    (hasked : Asked ⟨.requestMode mode, p⟩ w.trace) (hidle : w.wk.transition.active = false)
    (hs : workerStep cfg ans w w.wk.pc = some w') (hactive : w'.wk.transition.active = true) :
    w'.wk.transition.stableStatus = stableStatusFor mode ∧
      Watched mode w'.wk.transition.promise w'.wk.transition.deadline w'.trace := by
  rw [hpc] at hs
  simp only [workerStep] at hs
  repeat' split at hs
  all_goals simp only [Option.some.injEq] at hs
  all_goals subst hs
  -- Only the branch that arms the watch leaves it armed.
  all_goals try (simp [hidle] at hactive; done)
  rename_i hthrow hfail _
  refine ⟨rfl, ans.result, w.trace, ?_, by simpa using hfail, hasked⟩
  simp [Answer.outcome, hthrow]

/-- **Run lemma.** -/
theorem Run.watchHistory (h : Run cfg ok w) : WatchHistory w.wk w.trace := by
  refine h.worker_history ⟨by simp [World.initial], by simp [World.initial],
    by simp [World.initial], by simp [World.initial]⟩ ?_ ?_ ?_
  · intro wk t e he ih
    have hsame := Event.sameSession_of_byClient he
    refine ⟨fun ha => ?_, ih.due, fun s hs ha => ?_, ih.complete⟩
    · obtain ⟨mode, hst, hsince⟩ := ih.armed ha
      exact ⟨mode, hst, hsince.cons hsame⟩
    · obtain ⟨mode, hst, hsince⟩ := ih.polled s hs ha
      exact ⟨mode, hst, hsince.cons hsame⟩
  · intro wk t _ ih
    exact ⟨ih.armed, by simp [Pc.polls], by simp [Pc.snapshot], by simp⟩
  · intro w ans w' hrun ih hs
    obtain ⟨hactive, hdue, hsnap, hcomplete⟩ := workerStep_watch hs
    have hsession := hrun.session
    -- While a transition is armed there is a session, so `connect` is not next.
    have hopen : w.wk.transition.active = true → w.wk.pc ≠ .connect := by
      intro ha hpc
      rw [hsession.idleTransition (by rw [hpc]; rfl)] at ha
      exact absurd ha (by simp)
    have hnow : w'.wk.pc.polls = true → w'.wk.transition.active = true →
        w'.wk.now < w'.wk.transition.deadline := by
      intro hp ha
      obtain ⟨htr, hn, hfresh⟩ := hdue hp ha
      rw [htr] at ha ⊢
      rw [hn]
      rcases hfresh with hp' | hlt
      · exact ih.due hp' ha
      · exact hlt
    refine ⟨fun ha => ?_, hnow, fun s hsn ha => ?_, hcomplete⟩
    · rcases hactive ha with ⟨htr, hclose⟩ | ⟨p, mode, hpc⟩
      · rw [htr] at ha ⊢
        obtain ⟨mode, hst, hsince⟩ := ih.armed ha
        obtain ⟨new, heq, hnew⟩ := workerStep_sameSession hs (hopen ha) hclose
        rw [heq]
        exact ⟨mode, hst, hsince.append hnew⟩
      · have hidle : w.wk.transition.active = false := by
          have htrans := hrun.transitionAt
          rw [TransitionAt, hpc] at htrans
          exact htrans
        have hattr := hrun.attributed (o := .command ⟨.requestMode mode, p⟩) (by rw [hpc]; rfl)
        obtain ⟨hst, hwatch⟩ := execSetMode_armed hpc hattr.2.2.1 hidle hs ha
        exact ⟨mode, hst, Since.now hwatch⟩
    · have hpolls : w'.wk.pc.polls = true := by
        cases hpc : w'.wk.pc <;> simp [hpc, Pc.snapshot, Pc.polls] at hsn ⊢
      have htr := (hdue hpolls ha).1
      rw [htr] at ha ⊢
      rcases hsnap s hsn with hsn | ⟨hpc, htrace⟩
      · obtain ⟨mode, hst, hsince⟩ := ih.polled s hsn ha
        have hclose : w.wk.pc ≠ .drain := by
          intro hpc
          exact absurd hsn (by simp [hpc, Pc.snapshot])
        obtain ⟨new, heq, hnew⟩ := workerStep_sameSession hs (hopen ha) hclose
        rw [heq]
        exact ⟨mode, hst, hsince.append hnew⟩
      · obtain ⟨mode, hst, hsince⟩ := ih.armed ha
        rw [htrace]
        exact ⟨mode, hst, Since.now ⟨w.wk.now, w.wk.transition.deadline, w.trace, rfl,
          ih.due (by rw [hpc]; rfl) ha, hsince⟩⟩

/-! ### The executed stop request -/

/-- The newest event is the zero move of stop request `p`; it succeeded, after the latch. -/
def EstopMoved (p : PromiseId) (h : List Event) : Prop :=
  ∃ r older, h = .sdk (.estop p) (.move .zero) (.returned r) :: older ∧ r.success = true ∧
    Once (LatchedFor p) older

/-- The worker comes to the damping call by the zero move. -/
theorem workerStep_estopDamp {p : PromiseId} {moved : Bool}
    (hs : workerStep cfg ans w w.wk.pc = some w') (hpc : w'.wk.pc = .estopDamp p moved) :
    w.wk.pc = .estopZero p ∧ moved = ans.result.success ∧
      w'.trace = .sdk (.estop p) (.move .zero) (.returned ans.result) :: w.trace := by
  cases hw : w.wk.pc
  all_goals rw [hw] at hs
  all_goals simp only [workerStep] at hs
  all_goals repeat' split at hs
  all_goals simp only [Option.some.injEq, reduceCtorEq] at hs
  all_goals subst hs
  all_goals simp at hpc ⊢
  exact ⟨hpc.1, hpc.2.symm, by rw [hpc.1]⟩

/-- **Run lemma.** A damping call that follows a successful zero follows it in one session. -/
theorem Run.estopMoved {p : PromiseId} (h : Run cfg ok w) :
    w.wk.pc = .estopDamp p true → Since Event.sameSession (EstopMoved p) w.trace := by
  refine h.worker_history (I := fun wk t => wk.pc = .estopDamp p true →
    Since Event.sameSession (EstopMoved p) t) (by simp [World.initial]) ?_ (by simp) ?_
  · intro wk t e he ih hpc
    exact (ih hpc).cons (Event.sameSession_of_byClient he)
  · intro w ans w' hrun _ hs hpc
    obtain ⟨hw, hmoved, htrace⟩ := workerStep_estopDamp hs hpc
    rw [htrace]
    exact Since.now ⟨ans.result, w.trace, rfl, hmoved.symm, hrun.requests.worker p (by rw [hw]; rfl)⟩

/-- **Run lemma.** A mode command fails with a failure. -/
theorem Run.execFail {p : PromiseId} {mode : UInt16} {r : Result} (h : Run cfg ok w) :
    w.wk.pc = .execFail p mode r → r.success = false := by
  refine h.worker_history (I := fun wk _ => wk.pc = .execFail p mode r → r.success = false)
    (by simp [World.initial]) (fun _ _ _ _ ih => ih) (by simp) ?_
  intro w ans w' _ _ hs hpc
  cases hw : w.wk.pc
  all_goals rw [hw] at hs
  all_goals simp only [workerStep] at hs
  all_goals repeat' split at hs
  all_goals simp only [Option.some.injEq, reduceCtorEq] at hs
  all_goals subst hs
  all_goals simp at hpc
  all_goals obtain ⟨-, -, rfl⟩ := hpc
  -- The two rejected calls hand on a code that is not success; the third code is a constant.
  · simpa [Result.failure, Result.success] using ‹¬ans.result.success = true›
  · simpa [Result.failure, Result.success] using ‹(!ans.result.success) = true›
  · rfl

/-! ### What a success means -/

/-- What was done, with `older` as the trace so far, for a request of promise `p` to succeed. -/
def Done (p : PromiseId) (older : List Event) : Request → Prop
  | .authority sdk => ∃ r rest, older = .sdk (.command ⟨.requestAuthority sdk, p⟩)
      (.requestAuthority sdk) (.returned r) :: rest ∧ r.success = true
  | .estop => ∃ r rest, older = .sdk (.estop p) (.setMode 0xA101) (.returned r) :: rest ∧
      r.success = true ∧ Since Event.sameSession (EstopMoved p) rest
  | .mode name => ∃ mode s, modeOf name = some mode ∧ s.sportStatus = stableStatusFor mode ∧
      Since Event.sameSession (Polled mode p s) older
  | .clearEstop => ∃ t o rest, older = .requested p .clearEstop :: .control ⟨t, .clearEstop, o⟩ :: rest

/-- A success goes back to a request for which it was done. -/
def Earned (p : PromiseId) (older : List Event) : Prop :=
  ∃ request, .requested p request ∈ older ∧ Done p older request

theorem requested_of_latched {p : PromiseId} {t : List Event} (h : Once (LatchedFor p) t) :
    .requested p .estop ∈ t := by
  obtain ⟨new, old, rfl, -, τ, rest, rfl⟩ := since_iff_append.mp h
  simp

/-- Whether the answers among new events are earned, when only the newest can be one. -/
theorem earned_head {q : PromiseId} {r₀ : Result} {rest t : List Event}
    (hrest : ∀ e ∈ rest, ∀ p r, e ≠ .resolved p r)
    (hearned : r₀.success = true → Earned q (rest ++ t)) :
    ∀ pre p r post, .resolved q r₀ :: rest = pre ++ .resolved p r :: post → r.success = true →
      Earned p (post ++ t) := by
  intro pre p r post hsplit hok
  cases pre with
  | nil =>
    simp only [List.nil_append, List.cons.injEq, Event.resolved.injEq] at hsplit
    obtain ⟨⟨rfl, rfl⟩, rfl⟩ := hsplit
    exact hearned hok
  | cons e pre =>
    simp only [List.cons_append, List.cons.injEq] at hsplit
    exact absurd rfl (hrest (.resolved p r) (by simp [hsplit.2]) p r)

/-- An executed authority request succeeds only if the SDK granted it. -/
theorem execAuthority_earned {p : PromiseId} {sdk : Bool} (hrun : Run cfg ok w)
    (hpc : w.wk.pc = .execAuthority p sdk) (hs : workerStep cfg ans w w.wk.pc = some w') :
    ∃ new, w'.trace = new ++ w.trace ∧ ∀ pre p r post, new = pre ++ .resolved p r :: post →
      r.success = true → Earned p (post ++ w.trace) := by
  have hattr := hrun.attributed (o := .command ⟨.requestAuthority sdk, p⟩) (by rw [hpc]; rfl)
  have hasked : .requested p (.authority sdk) ∈ w.trace := hattr.2.2.1
  rw [hpc] at hs
  simp only [workerStep] at hs
  split at hs <;> rename_i hthrow <;> simp only [Option.some.injEq] at hs <;> subst hs
  · refine ⟨[_], rfl, fun pre p r post hsplit => ?_⟩
    cases pre <;> simp at hsplit
  · refine ⟨[_, _], rfl, earned_head (by simp) (fun hok => ?_)⟩
    refine ⟨.authority sdk, by simp [hasked], ans.result, w.trace, ?_, hok⟩
    simp [Answer.outcome, hthrow]

/-- An executed stop request succeeds only if zero and damping both went through. -/
theorem estopDamp_earned {p : PromiseId} {moved : Bool} (hrun : Run cfg ok w)
    (hpc : w.wk.pc = .estopDamp p moved) (hs : workerStep cfg ans w w.wk.pc = some w') :
    ∃ new, w'.trace = new ++ w.trace ∧ ∀ pre p r post, new = pre ++ .resolved p r :: post →
      r.success = true → Earned p (post ++ w.trace) := by
  have hlatched := hrun.requests.worker p (by rw [hpc]; rfl)
  have hmoved := hrun.estopMoved (p := p)
  rw [hpc] at hs hmoved
  simp only [workerStep, Option.some.injEq] at hs
  subst hs
  refine ⟨[_, _], rfl, earned_head (by simp) (fun hok => ?_)⟩
  cases moved with
  | false => exact absurd hok (by simp [Result.failure, Result.success, sdkResFailed, sdkResSuccess])
  | true =>
    refine ⟨.estop, by simp [requested_of_latched hlatched], ans.result, w.trace, rfl, ?_, hmoved rfl⟩
    by_contra hfail
    rw [if_neg (by simpa using hfail)] at hok
    exact absurd hok (by decide)

/-- A confirmed transition was watched and polled in time. -/
theorem checkComplete_earned {s : SdkSnapshot} (hrun : Run cfg ok w)
    (hpc : w.wk.pc = .checkComplete s) (hs : workerStep cfg ans w w.wk.pc = some w') :
    ∃ new, w'.trace = new ++ w.trace ∧ ∀ pre p r post, new = pre ++ .resolved p r :: post →
      r.success = true → Earned p (post ++ w.trace) := by
  have hactive : w.wk.transition.active = true := by
    have htrans := hrun.transitionAt
    rw [TransitionAt, hpc] at htrans
    exact htrans
  have hwatch := hrun.watchHistory
  obtain ⟨mode, hstable, hpolled⟩ := hwatch.polled s (by rw [hpc]; rfl) hactive
  have hstatus := hwatch.complete s hpc
  -- The poll goes back to the command, and that to the request.
  obtain ⟨_, _, htrace, -, now, deadline, _, rfl, -, hsince⟩ := since_iff_append.mp hpolled
  obtain ⟨_, _, rfl, -, r, rest, rfl, -, name, hname, hreq⟩ := since_iff_append.mp hsince
  rw [hpc] at hs
  simp only [workerStep, Option.some.injEq] at hs
  subst hs
  refine ⟨[_, _], rfl, earned_head (by simp) (fun _ => ?_)⟩
  refine ⟨.mode name, by simp [htrace, hreq], mode, s, hname, by rw [hstatus, hstable], ?_⟩
  exact hpolled.cons ⟨by simp, by simp⟩

/-- **Step lemma.** The answers of a step that succeed are earned. -/
theorem step_earned (hrun : Run cfg ok w) (hs : step cfg a w = some w') :
    ∃ new, w'.trace = new ++ w.trace ∧ ∀ pre p r post, new = pre ++ .resolved p r :: post →
      r.success = true → Earned p (post ++ w.trace) := by
  by_cases hat : ∃ p, w.successAt p a
  · obtain ⟨p, hat⟩ := hat
    cases a
    case clearEstop =>
      simp only [step, Option.some.injEq] at hs
      subst hs
      exact ⟨[_, _, _], rfl,
        earned_head (by simp) (fun _ => ⟨.clearEstop, by simp, _, _, w.trace, rfl⟩)⟩
    case worker ans =>
      cases hpc : w.wk.pc
      all_goals simp only [World.successAt, hpc] at hat
      case execAuthority q sdk => exact execAuthority_earned hrun hpc hs
      case estopDamp q moved => exact estopDamp_earned hrun hpc hs
      case execFail q mode r =>
        rw [hrun.execFail hpc] at hat
        exact absurd hat.2 (by simp)
      case checkComplete s => exact checkComplete_earned hrun hpc hs
    all_goals exact absurd hat (by simp [World.successAt])
  · obtain ⟨new, heq, hnew⟩ := Extends.trace (step_extends hs)
    refine ⟨new, heq, fun pre p r post hsplit hok => absurd ⟨p, ?_⟩ hat⟩
    exact (hnew (.resolved p r) (by simp [hsplit])).success p r rfl hok

/-- **No false success.** A future that resolves with success stands for a request for which
    it was done: the SDK granted the authority; after the latch and in one session a zero move
    and damping succeeded; the SDK took the mode of the command, and a later poll of the same
    session, in an iteration before the deadline, found its stable status; the controller released
    the latch right before. -/
theorem success_is_earned (hrun : Reachable cfg w) {new older : List Event} {p : PromiseId}
    {r : Result} {request : Request} (htrace : w.trace = new ++ .resolved p r :: older)
    (hok : r.success = true) (hreq : .requested p request ∈ w.trace) : Done p older request := by
  have hearned : Historically (fun e older => ∀ p r, e = .resolved p r → r.success = true →
      Earned p older) w.trace := by
    refine hrun.invariant (I := fun w => Historically (fun e older => ∀ p r, e = .resolved p r →
      r.success = true → Earned p older) w.trace) trivial (fun s a s' hs' ih _ hs => ?_)
    obtain ⟨new, heq, hnew⟩ := step_earned hs' hs
    rw [heq]
    exact ih.append (fun pre e post hsplit p r he => hnew pre p r post (he ▸ hsplit))
  obtain ⟨request', hmem, hdone⟩ := historically_iff.mp hearned new _ older htrace p r rfl hok
  rw [hrun.requests.unique p request request' hreq (by simp [htrace, hmem])]
  exact hdone

/-- A stand request that the next poll confirms. -/
def standing : List Action :=
  readying ++ [.requestMode "stand", .acceptMode 0, .enqueueMode 0, .advance (ms 500)] ++
    works 21 (obliging 0xB102)

/-- Its success was earned. -/
theorem success_is_earned_standing :
    ∃ w older r, Reachable {} w ∧ w.trace = .resolved 0 r :: older ∧ r.success = true ∧
      Done 0 older (.mode "stand") := by
  obtain ⟨w, hrun, hw⟩ := exists_run_of_exec {} (fun _ _ => True) standing
    (fun w => w.trace.head? = some (.resolved 0 (.ok "mode transition reached the stable sport status")) ∧
      .requested 0 (.mode "stand") ∈ w.trace) (by decide +kernel)
  obtain ⟨hhead, hreq⟩ := of_decide_eq_true hw
  obtain ⟨older, htrace⟩ := List.head?_eq_some_iff.mp hhead
  exact ⟨w, older, _, hrun, htrace, rfl,
    success_is_earned hrun (show w.trace = [] ++ _ from htrace) rfl hreq⟩

end HypertronBridge.Runtime
