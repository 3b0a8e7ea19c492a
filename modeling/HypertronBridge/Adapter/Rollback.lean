import HypertronBridge.Adapter.Lifecycle

namespace HypertronBridge.Adapter

open TransitionSystem Threads

/-!
# Calls that fail and roll back

`init` and the subscriptions install their callback before the vendor call and take it back when that
fails.  Whatever else runs in between, only a frame that holds the lifecycle mutex writes callbacks or
enters `Initializing`, so what a failed call finds when it acquires the mutex is there when it
releases it.

* `LockSpan` — a call from its acquisition of the lifecycle mutex to its release;
* `Undisturbed` — what the frames without the mutex keep;
* `SpanAt`, `LockSpan.spanAt` — what a call has done at each of its sections;
* `failed_calls_roll_back` — the result.
-/

variable {ι κ : Type} [DecidableEq ι] [DecidableEq κ] {bound : κ → VendorFn → Bool}
  {s s' : System ι κ} {b : Action ι κ} {i j : ι} {a : κ} {c : ApiCall} {l : CallLocals} {pc : CallPc}
  {rest : List (Frame κ)} {t : Turn κ} {x x' x₀ : Impl}

/-- The callbacks of the subscriptions. -/
def Impl.subscriptions (x : Impl) (topic : SubscriptionTopic) : Option CallbackId :=
  x.callback (.data topic)

/-- A call of `a` on thread `i`, above `rest`: in `s` it is about to acquire the lifecycle mutex, and
    in `s'` the same call is about to release it and return `r`. -/
structure LockSpan (bound : κ → VendorFn → Bool) (i : ι) (a : κ) (c : ApiCall) (rest : List (Frame κ))
    (r : Result) (s s' : System ι κ) : Prop where
  run : System.Run bound (fun _ _ => True) s
  acquires : ∃ l, s.stack i = .call a c l .lockLifecycle :: rest
  during : ∃ ans s₁, System.step bound (.run i ans) s = some s₁ ∧
    Reaches (System.step bound) (fun s _ => rest.length < (s.stack i).length) s₁ s'
  releases : ∃ l, s'.stack i = .call a c l (.unlock (.result r)) :: rest

/-! ### Frames without the mutex -/

/-- What a call that holds the mutex can rely on. -/
structure Undisturbed (x x' : Impl) : Prop where
  callback : x'.callback = x.callback
  generation : x'.generation = x.generation
  state : x.state = .uninitialized → x'.state = .uninitialized

theorem Undisturbed.refl (x : Impl) : Undisturbed x x := ⟨rfl, rfl, id⟩

/-- A call that does not hold the mutex. -/
theorem callStep_undisturbed {bound : VendorFn → Bool} {ans : Answer} {s : InCall κ}
    (hs : callStep bound ans s pc = some t) (hpc : pc.holdsLifecycle = false) :
    Undisturbed s.impl t.impl := by
  obtain ⟨a, c, l, th, x⟩ := s
  cases pc
  all_goals simp only [CallPc.holdsLifecycle, reduceCtorEq] at hpc
  all_goals simp only [callStep] at hs
  all_goals repeat' split at hs
  all_goals simp only [Option.some.injEq, reduceCtorEq] at hs
  all_goals subst hs
  case publish => exact ⟨rfl, rfl, fun _ => rfl⟩
  all_goals exact ⟨rfl, rfl, id⟩

omit [DecidableEq κ] in
/-- A delivery. -/
theorem deliveryStep_undisturbed {r : Raw} {d : Payload} {th : ThreadLocals κ} {pc : DeliveryPc κ} :
    Undisturbed x (deliveryStep a r d th x pc).impl := by
  have hdeliver : Undisturbed x (x.deliver d) := by cases d <;> exact ⟨rfl, rfl, id⟩
  unfold deliveryStep
  repeat' split
  · exact ⟨hdeliver.callback, hdeliver.generation, hdeliver.state⟩
  all_goals exact ⟨rfl, rfl, id⟩

/-! ### What a call has done -/

/-- A subscription keeps what it replaced, and leaves the other callbacks alone. -/
def Installed (x₀ x : Impl) (l : CallLocals) : ApiCall → Prop
  | .subscribe topic _ _ _ =>
      l.previous = x₀.subscriptions topic ∧
        ∀ other, other ≠ topic → x.subscriptions other = x₀.subscriptions other
  | _ => True

/-- What a failed call is to leave: the subscriptions as it found them; and an `init` that had
    entered, no trace of it. -/
def RolledBack (x₀ x : Impl) : ApiCall → Prop
  | .subscribe _ _ _ _ => x.subscriptions = x₀.subscriptions
  | .init _ _ => x.generation = x₀.generation ∨ (x.state = .uninitialized ∧ x.callback .status = none)
  | _ => True

/-- What a call that found `x₀` when it acquired the mutex has made of it, by its section.  After the
    check for a teardown request nothing is promised of a call that claimed one. -/
def SpanAt (x₀ : Impl) (c : ApiCall) (l : CallLocals) (x : Impl) : CallPc → Prop
  | .enter | .deferRequest | .cachedSnapshot | .lockLifecycle => False
  | .open => x.subscriptions = x₀.subscriptions ∧ x.generation = x₀.generation
  | .unbound | .pushScope | .vendor _ | .inVendor _ | .tail | .settle => Installed x₀ x l c
  | .unlock (.result r) => r.success = false → RolledBack x₀ x c
  | _ => True

/-- The other frames keep it. -/
theorem SpanAt.undisturbed (h : SpanAt x₀ c l x pc) (hx : Undisturbed x x') :
    SpanAt x₀ c l x' pc := by
  have hsub : x'.subscriptions = x.subscriptions := by
    funext topic
    exact congrFun hx.callback _
  have hinstalled : Installed x₀ x l c → Installed x₀ x' l c := by
    unfold Installed
    rw [hsub]
    exact id
  cases pc with
  | «open» =>
    refine ⟨hsub.trans h.1, hx.generation.trans h.2⟩
  | unlock ret =>
    cases ret with
    | result r =>
      intro hfail
      have hback := h hfail
      cases c with
      | subscribe => exact hsub.trans hback
      | init =>
        rcases hback with hkept | ⟨hstate, hstatus⟩
        · exact Or.inl (hx.generation.trans hkept)
        · exact Or.inr ⟨hx.state hstate, (congrFun hx.callback _).trans hstatus⟩
      | _ => trivial
    | _ => trivial
  | unbound | pushScope | vendor | inVendor | tail | settle => exact hinstalled h
  | _ => exact h

/-! ### The call's own turns -/

theorem Impl.setCallback_self (topic : Topic) (callback : Option CallbackId) :
    (x.setCallback topic callback).callback topic = callback := by
  simp [Impl.setCallback]

/-- Installing and taking back is the identity on the subscriptions. -/
theorem Installed.takenBack {topic : SubscriptionTopic} {frequency : UInt16}
    {callback : Option CallbackId} {timeoutMs : UInt32}
    (h : Installed x₀ x l (.subscribe topic frequency callback timeoutMs)) :
    (x.setCallback (.data topic) l.previous).subscriptions = x₀.subscriptions := by
  funext other
  show Function.update x.callback (.data topic) l.previous (.data other) = _
  by_cases hother : other = topic
  · subst hother
    rw [Function.update_self]
    exact h.1
  · rw [Function.update_of_ne (by simpa using hother)]
    exact h.2 other hother

omit [DecidableEq κ] in
/-- The opening section refuses, or it installs. -/
theorem openSection_spanAt {bound : VendorFn → Bool} {s : InCall κ}
    (hat : SpanAt x₀ s.call s.locals s.impl .open) :
    ∃ l' pc', (openSection bound s).next = some (.call s.adapter s.call l' pc') ∧
      SpanAt x₀ s.call l' (openSection bound s).impl pc' := by
  obtain ⟨a, c, l, th, x⟩ := s
  obtain ⟨hsub, hgen⟩ := hat
  dsimp only at hsub hgen
  have hnext : ∀ {l' : CallLocals} {x' : Impl}, Installed x₀ x' l' c →
      SpanAt x₀ c l' x' (if c.isBound bound then CallPc.pushScope else .unbound) := by
    intro l' x' h
    split
    · exact h
    · exact h
  unfold openSection
  cases c with
  | init onStatus timeoutMs =>
    dsimp only
    repeat' split
    · exact ⟨l, _, rfl, fun _ => Or.inl hgen⟩
    · exact ⟨l, _, rfl, fun _ => Or.inl hgen⟩
    all_goals exact ⟨l, _, rfl, trivial⟩
  | subscribe topic frequency callback timeoutMs =>
    dsimp only
    split
    · exact ⟨l, _, rfl, fun _ => hsub⟩
    · -- the callback is swapped in, and the previous one of its topic is kept
      refine ⟨_, _, rfl, hnext ⟨?_, fun other hother => ?_⟩⟩
      · rw [← hsub]
        rfl
      · rw [← hsub]
        exact Function.update_of_ne (by simpa using hother) _ _
  | snapshot =>
    dsimp only
    split
    · exact ⟨l, _, rfl, trivial⟩
    · exact ⟨_, _, rfl, hnext trivial⟩
  | _ =>
    dsimp only
    split
    · exact ⟨l, _, rfl, fun _ => trivial⟩
    · exact ⟨l, _, rfl, hnext trivial⟩

omit [DecidableEq κ] in
/-- An unbound vendor function. -/
theorem unboundSection_spanAt {s : InCall κ} (hat : Installed x₀ s.impl s.locals s.call) :
    ∃ l' pc', (unboundSection s).next = some (.call s.adapter s.call l' pc') ∧
      SpanAt x₀ s.call l' (unboundSection s).impl pc' := by
  obtain ⟨a, c, l, th, x⟩ := s
  refine ⟨l, _, rfl, fun _ => ?_⟩
  cases c with
  | init =>
    have hnone := Impl.setCallback_self (x := x) .status none
    exact Or.inr ⟨rfl, hnone⟩
  | subscribe => exact hat.takenBack
  | _ => trivial

omit [DecidableEq κ] in
/-- The end of an entry point. -/
theorem settleSection_spanAt {s : InCall κ} (hat : Installed x₀ s.impl s.locals s.call) :
    ∃ l' pc', (settleSection s).next = some (.call s.adapter s.call l' pc') ∧
      SpanAt x₀ s.call l' (settleSection s).impl pc' := by
  obtain ⟨a, c, l, th, x⟩ := s
  unfold settleSection
  cases c with
  | init =>
    dsimp only
    split
    · exact ⟨l, _, rfl, fun hfail => absurd hfail (by simp)⟩
    · have hnone := Impl.setCallback_self (x := x) .status none
      exact ⟨l, _, rfl, fun _ => Or.inr ⟨rfl, hnone⟩⟩
  | subscribe =>
    dsimp only
    split
    · exact ⟨l, _, rfl, fun hfail => absurd hfail (by simp)⟩
    · exact ⟨l, _, rfl, fun _ => hat.takenBack⟩
  | snapshot => exact ⟨l, _, rfl, trivial⟩
  | _ => exact ⟨l, _, rfl, fun _ => trivial⟩

/-- A vendor call touches no callback. -/
theorem Installed.store {ans : Answer} {v : VendorCall} (h : Installed x₀ x l c) :
    Installed x₀ x (l.store ans v) c := by
  cases c with
  | subscribe => cases v <;> exact h
  | _ => trivial

/-- **Step lemma, the call itself.** -/
theorem SpanAt.turn {bound : VendorFn → Bool} {ans : Answer} {s : InCall κ}
    (hat : SpanAt x₀ s.call s.locals s.impl pc) (hs : callStep bound ans s pc = some t) :
    t.next = none ∨ ∃ l' pc', t.next = some (.call s.adapter s.call l' pc') ∧
      SpanAt x₀ s.call l' t.impl pc' := by
  cases pc with
  | enter | deferRequest | cachedSnapshot | lockLifecycle => exact absurd hat id
  | «open» =>
    obtain rfl := Option.some.inj hs
    exact Or.inr (openSection_spanAt hat)
  | unbound =>
    obtain rfl := Option.some.inj hs
    exact Or.inr (unboundSection_spanAt hat)
  | settle =>
    obtain rfl := Option.some.inj hs
    exact Or.inr (settleSection_spanAt hat)
  | pushScope =>
    obtain rfl := Option.some.inj hs
    exact Or.inr ⟨_, _, rfl, hat⟩
  | vendor n =>
    simp only [callStep, Option.some.injEq] at hs
    subst hs
    split
    · exact Or.inr ⟨_, _, rfl, hat⟩
    · exact Or.inr ⟨_, _, rfl, hat⟩
  | inVendor n =>
    obtain ⟨v, -, rfl⟩ := Option.map_eq_some_iff.mp hs
    exact Or.inr ⟨_, _, rfl, Installed.store hat⟩
  | tail =>
    simp only [callStep, Option.some.injEq] at hs
    subst hs
    split
    · exact Or.inr ⟨_, _, rfl, trivial⟩
    · exact Or.inr ⟨_, _, rfl, hat⟩
  | unlock | unlockTeardown =>
    obtain rfl := Option.some.inj hs
    exact Or.inl rfl
  | unlockForTeardown | deinitCall | inDeinit | publish =>
    obtain rfl := Option.some.inj hs
    exact Or.inr ⟨_, _, rfl, trivial⟩
  | lockTeardown | ensureCheck | lockForTeardown | close | unlockForWait | drain =>
    simp only [callStep] at hs
    split at hs
    all_goals simp only [Option.some.injEq, reduceCtorEq] at hs
    all_goals subst hs
    all_goals exact Or.inr ⟨_, _, rfl, trivial⟩

/-! ### The whole span -/

variable [Fintype ι]

/-- While one frame holds the mutex, the one that takes its turn on another place does not. -/
theorem Held.lifecycle_elsewhere {f : Frame κ} (h : Held s a) (hstack : s.stack j = f :: rest)
    (hours : Frame.call a c l pc ∈ s.below j rest i) (hpc : pc.holdsLifecycle = true) :
    Frame.lifecycleOf a f = false := by
  have hcount := h.lifecycle
  rw [count_before hstack] at hcount
  have hle := Bool.toNat_le (s.impl a).lifecycleMutex
  have hpos : 0 < count (Frame.lifecycleOf a) (s.below j rest) :=
    count_pos.mpr ⟨i, _, hours, by simp [Frame.lifecycleOf, Frame.callAt, hpc]⟩
  cases hf : Frame.lifecycleOf a f
  · rfl
  · rw [hf, Bool.toNat_true] at hcount
    omega

/-- The turn of another frame. -/
theorem SpanAt.elsewhere {f : Frame κ} (hat : SpanAt x₀ c l (s.impl a) pc) (hheld : Held s a)
    (hstack : s.stack j = f :: rest) (hours : Frame.call a c l pc ∈ s.below j rest i)
    (hturn : f.adapter = a → Frame.lifecycleOf a f = false → Undisturbed (s.impl a) t.impl) :
    SpanAt x₀ c l ((s.take j f.adapter rest t).impl a) pc := by
  by_cases hf : f.adapter = a
  · have himpl : (s.take j f.adapter rest t).impl a = t.impl := by
      rw [hf]
      exact take_impl
    rw [himpl]
    by_cases hpc : pc.holdsLifecycle = true
    · exact hat.undisturbed (hturn hf (hheld.lifecycle_elsewhere hstack hours hpc))
    · -- a call that has given the mutex up is promised nothing
      cases pc
      all_goals first
        | exact absurd hat id
        | exact absurd rfl hpc
        | trivial
  · have himpl : (s.take j f.adapter rest t).impl a = s.impl a :=
      Function.update_of_ne (Ne.symm hf) _ _
    rw [himpl]
    exact hat

/-- The call is over, or it is in progress and has done what its section says. -/
def Spans (x₀ : Impl) (i : ι) (a : κ) (c : ApiCall) (rest : List (Frame κ)) (s : System ι κ) : Prop :=
  s.stack i = rest ∨ ∃ above l pc, s.stack i = above ++ .call a c l pc :: rest ∧
    SpanAt x₀ c l (s.impl a) pc

/-- **Step lemma.** -/
theorem Spans.step (h : Spans x₀ i a c rest s) (hheld : Held s a)
    (hbusy : rest.length < (s.stack i).length) (hs : Stepped bound s b s') :
    Spans x₀ i a c rest s' := by
  rcases h with hover | ⟨above, l, pc, hours, hat⟩
  · rw [hover] at hbusy
    exact absurd hbusy (lt_irrefl _)
  have hpush : ∀ {j : ι} {f : Frame κ}, Spans x₀ i a c rest (s.push j f) := by
    intro j f
    by_cases hj : i = j
    · subst hj
      refine Or.inr ⟨f :: above, l, pc, ?_, hat⟩
      show Function.update s.stack i (f :: s.stack i) i = _
      rw [Function.update_self, hours]
      rfl
    · exact Or.inr ⟨above, l, pc, (Function.update_of_ne hj _ _).trans hours, hat⟩
  -- a frame above the call, or on another thread
  have helsewhere : ∀ {j : ι} {f : Frame κ} {rest' : List (Frame κ)} {t : Turn κ},
      s.stack j = f :: rest' → (i = j → above ≠ []) →
      (f.adapter = a → Frame.lifecycleOf a f = false → Undisturbed (s.impl a) t.impl) →
      Spans x₀ i a c rest (s.take j f.adapter rest' t) := by
    intro j f rest' t hstack habove hturn
    by_cases hj : i = j
    · subst hj
      obtain ⟨g, above', rfl⟩ := List.exists_cons_of_ne_nil (habove rfl)
      have hrest : rest' = above' ++ .call a c l pc :: rest :=
        (List.cons.inj (hstack.symm.trans hours)).2
      refine Or.inr ⟨t.next.toList ++ above', l, pc, ?_, hat.elsewhere (i := i) hheld hstack ?_ hturn⟩
      · show Function.update s.stack i (t.next.toList ++ rest') i = _
        rw [Function.update_self, hrest, List.append_assoc]
      · simp [System.below, hrest]
    · refine Or.inr ⟨above, l, pc, (Function.update_of_ne hj _ _).trans hours,
        hat.elsewhere (i := i) hheld hstack ?_ hturn⟩
      simp [System.below, Function.update_of_ne hj, hours]
  cases hs with
  | called => exact hpush
  | delivered => exact hpush
  | @call j ans a' c' l' pc' rest' t hstack ht =>
    by_cases hown : i = j ∧ above = []
    · -- the call's own turn: it returns, or goes on to its next section
      obtain ⟨rfl, rfl⟩ := hown
      obtain ⟨hframe, rfl⟩ := List.cons.inj (hstack.symm.trans hours)
      obtain ⟨rfl, rfl, rfl, rfl⟩ := Frame.call.inj hframe
      rcases hat.turn ht with hnone | ⟨l'', pc'', hnext, hat'⟩
      · refine Or.inl ?_
        show Function.update s.stack i (t.next.toList ++ rest') i = rest'
        rw [Function.update_self, hnone]
        rfl
      · refine Or.inr ⟨[], l'', pc'', ?_, by rw [take_impl]; exact hat'⟩
        show Function.update s.stack i (t.next.toList ++ rest') i = _
        rw [Function.update_self, hnext]
        rfl
    · refine helsewhere (f := .call a' c' l' pc') hstack (fun hj hnil => hown ⟨hj, hnil⟩) ?_
      intro ha hfree
      obtain rfl : a' = a := ha
      exact callStep_undisturbed ht (by simpa [Frame.lifecycleOf, Frame.callAt] using hfree)
  | @delivery j ans a' r d pc' rest' hstack =>
    refine helsewhere (f := .delivery a' r d pc') hstack ?_ ?_
    · rintro rfl rfl
      exact absurd (hstack.symm.trans hours) (by simp)
    · intro ha _
      obtain rfl : a' = a := ha
      exact deliveryStep_undisturbed

/-- **Run lemma.** -/
theorem LockSpan.spanAt {r : Result} (h : LockSpan bound i a c rest r s s') :
    r.success = false → RolledBack (s.impl a) (s'.impl a) c := by
  obtain ⟨hrun, ⟨l, hstack⟩, ⟨ans, s₁, hlock, hduring⟩, ⟨l', hends⟩⟩ := h
  have hrun₁ : System.Run bound (fun _ _ => True) s₁ := Reaches.tail hrun trivial hlock
  have hstart : Spans (s.impl a) i a c rest s₁ := by
    simp only [System.step, hstack, callStep] at hlock
    split at hlock
    · exact absurd hlock (by simp)
    · obtain rfl := Option.some.inj hlock
      refine Or.inr ⟨[], l, .open, ?_, ?_⟩
      · simp [System.take, InCall.goto]
      · rw [take_impl]
        exact ⟨rfl, rfl⟩
  -- the call stays in progress up to the release, whatever turns are taken in between
  have hspans : Spans (s.impl a) i a c rest s' := by
    have hinv := hduring.invariant
      (I := fun s' => System.Run bound (fun _ _ => True) s' ∧ Spans (s.impl a) i a c rest s')
      ⟨hrun₁, hstart⟩ (fun m b m' _ hm hbusy hs =>
        ⟨Reaches.tail hm.1 trivial hs, hm.2.step (hm.1.held a) hbusy (stepped hs)⟩)
    exact hinv.2
  rcases hspans with hover | ⟨above, l'', pc, hours, hat⟩
  · rw [hends] at hover
    exact absurd hover (List.cons_ne_self _ _)
  · -- the frame about to release the mutex is the call's own
    obtain rfl : above = [] := by
      have hlength := congrArg List.length (hends.symm.trans hours)
      simp only [List.length_cons, List.length_append] at hlength
      exact List.length_eq_zero_iff.mp (by omega)
    obtain ⟨hframe, -⟩ := List.cons.inj (hends.symm.trans hours)
    obtain ⟨-, -, rfl, rfl⟩ := Frame.call.inj hframe
    exact hat

omit [Fintype ι] in
/-- The release changes the mutex only. -/
theorem unlock_step {ans : Answer} {r : Return} (hstack : s.stack i = .call a c l (.unlock r) :: rest)
    (hs : System.step bound (.run i ans) s = some s') :
    s'.impl = Function.update s.impl a { s.impl a with lifecycleMutex := false } := by
  simp only [System.step, hstack, callStep, Option.map_some, Option.some.injEq] at hs
  rw [← hs]
  rfl

/-- The sections of an `init` or a subscription that installs nothing: the check for the callback
    context, the acquisition of the mutex, an opening section that refuses, and the release. -/
inductive Refusing (a : κ) (c : ApiCall) (rest : List (Frame κ)) : CallPc → List (Frame κ) → Prop
  | check (stack : List (Frame κ)) : Refusing a c rest .enter stack
  | acquire (stack : List (Frame κ)) : Refusing a c rest .lockLifecycle stack
  | refuse (l : CallLocals) (r : Return) : Refusing a c rest .open (.call a c l (.unlock r) :: rest)
  | release (r : Return) (stack : List (Frame κ)) : Refusing a c rest (.unlock r) stack

/-- The call installs a callback. -/
def ApiCall.installs : ApiCall → Bool
  | .init _ _ | .subscribe _ _ _ _ => true
  | _ => false

/-- What failed calls of `a` leave. -/
structure RollsBack (bound : κ → VendorFn → Bool) (ι : Type) [DecidableEq ι] (a : κ) : Prop where
  /-- A subscription that fails, and claimed no teardown: when it releases the mutex, the three
      callbacks are those that it found when it acquired it. -/
  subscribe : ∀ (i : ι) topic frequency callback timeoutMs rest r s s' ans s'',
    LockSpan bound i a (.subscribe topic frequency callback timeoutMs) rest r s s' →
    r.success = false → System.step bound (.run i ans) s' = some s'' →
      (s'.impl a).subscriptions = (s.impl a).subscriptions ∧
      (s''.impl a).subscriptions = (s.impl a).subscriptions
  /-- An `init` that has entered `Initializing` and fails, and claimed no teardown: from the end of its
      last section to the release the adapter is uninitialized, without a status callback. -/
  init : ∀ (i : ι) onStatus timeoutMs rest r s s',
    LockSpan bound i a (.init onStatus timeoutMs) rest r s s' →
    r.success = false → (s'.impl a).generation ≠ (s.impl a).generation →
      (s'.impl a).state = .uninitialized ∧ (s'.impl a).callback .status = none
  /-- A call that is refused changes no field: each of its sections leaves everything but the mutex
      that it acquires and releases. -/
  refused : ∀ (i : ι) c l pc rest (s s' : System ι κ) ans, c.installs = true →
    s.stack i = .call a c l pc :: rest → System.step bound (.run i ans) s = some s' →
    Refusing a c rest pc (s'.stack i) → s'.impl =
      Function.update s.impl a { s.impl a with lifecycleMutex := (s'.impl a).lifecycleMutex }

omit [DecidableEq ι] [DecidableEq κ] [Fintype ι] in
/-- An opening section that refuses. -/
theorem openSection_refuses {bound : VendorFn → Bool} {s : InCall κ} {l' : CallLocals} {r : Return}
    (hc : s.call.installs = true)
    (h : (openSection bound s).next = some (.call s.adapter s.call l' (.unlock r))) :
    (openSection bound s).impl = s.impl := by
  obtain ⟨a, c, l, th, x⟩ := s
  have hnext : (if c.isBound bound then CallPc.pushScope else .unbound) ≠ .unlock r := by
    split <;> simp
  cases c with
  | init =>
    by_cases hdown : x.state = .shuttingDown
    · simp only [openSection, if_pos hdown]
      rfl
    · by_cases hup : x.state ≠ .uninitialized
      · simp only [openSection, if_neg hdown, if_pos hup]
        rfl
      · simp only [openSection, if_neg hdown, if_neg hup] at h
        exact absurd (Frame.call.inj (Option.some.inj h)).2.2.2 hnext
  | subscribe =>
    by_cases hdown : x.state ≠ .initialized
    · simp only [openSection, if_pos hdown]
      rfl
    · simp only [openSection, if_neg hdown] at h
      exact absurd (Frame.call.inj (Option.some.inj h)).2.2.2 hnext
  | _ => exact absurd hc (by simp [ApiCall.installs])

omit [Fintype ι] in
/-- A section of a refused call. -/
theorem refusing_step {ans : Answer} (hc : c.installs = true)
    (hstack : s.stack i = .call a c l pc :: rest) (hs : System.step bound (.run i ans) s = some s')
    (hrefuses : Refusing a c rest pc (s'.stack i)) : s'.impl =
      Function.update s.impl a { s.impl a with lifecycleMutex := (s'.impl a).lifecycleMutex } := by
  simp only [System.step, hstack] at hs
  obtain ⟨t, ht, rfl⟩ := Option.map_eq_some_iff.mp hs
  rw [take_impl]
  suffices himpl : t.impl = { s.impl a with lifecycleMutex := t.impl.lifecycleMutex } by
    show Function.update s.impl a t.impl = _
    rw [← himpl]
  generalize hstack' : (s.take i a rest t).stack i = stack' at hrefuses
  cases hrefuses with
  | check =>
    -- only `deinit` and `snapshot` do anything else in the callback context
    simp only [callStep, Option.some.injEq] at ht
    subst ht
    split
    · cases c with
      | deinit | snapshot => exact absurd hc (by simp [ApiCall.installs])
      | _ => rfl
    · rfl
  | acquire =>
    simp only [callStep] at ht
    split at ht
    · exact absurd ht (by simp)
    · obtain rfl := Option.some.inj ht
      rfl
  | refuse l' r =>
    obtain rfl := Option.some.inj ht
    -- the frame that the section leaves is the one that is about to release
    have hnext : (openSection (bound a) ⟨a, c, l, s.thread i, s.impl a⟩).next.toList ++ rest =
        .call a c l' (.unlock r) :: rest := by
      simpa [System.take] using hstack'
    have hsome : (openSection (bound a) ⟨a, c, l, s.thread i, s.impl a⟩).next =
        some (.call a c l' (.unlock r)) := by
      cases hn : (openSection (bound a) ⟨a, c, l, s.thread i, s.impl a⟩).next with
      | none =>
        rw [hn] at hnext
        exact absurd hnext.symm (List.cons_ne_self _ _)
      | some f =>
        rw [hn] at hnext
        rw [(List.cons.inj hnext).1]
    rw [openSection_refuses hc hsome]
  | release =>
    obtain rfl := Option.some.inj ht
    rfl

/-- **Failed calls.** Whatever the vendor delivers, the project's callbacks call and other threads do
    meanwhile, a call that fails rolls back. -/
theorem failed_calls_roll_back (bound : κ → VendorFn → Bool) (a : κ) : RollsBack bound ι a where
  subscribe i topic frequency callback timeoutMs rest r s s' ans s'' h hfail hs := by
    have hback : (s'.impl a).subscriptions = (s.impl a).subscriptions := h.spanAt hfail
    refine ⟨hback, ?_⟩
    obtain ⟨l, hstack⟩ := h.releases
    rw [unlock_step hstack hs, Function.update_self]
    exact hback
  init i onStatus timeoutMs rest r s s' h hfail hentered := by
    have hback : _ ∨ _ := h.spanAt hfail
    exact hback.resolve_left hentered
  refused i c l pc rest s s' ans hc hstack hs hrefuses := refusing_step hc hstack hs hrefuses

/-- The stack is this call alone, at this section. -/
def isAt (c : ApiCall) (pc : CallPc) : List (Frame Unit) → Bool
  | [.call _ c' _ pc'] => decide (c' = c) && decide (pc' = pc)
  | _ => false

theorem of_isAt {stack : List (Frame Unit)} (h : isAt c pc stack = true) :
    ∃ l, stack = [.call () c l pc] := by
  unfold isAt at h
  split at h
  · rename_i l _
    simp only [Bool.and_eq_true, decide_eq_true_eq] at h
    obtain ⟨rfl, rfl⟩ := h
    exact ⟨l, rfl⟩
  · exact absurd h (by simp)

/-- A session with a subscription, and a second subscription up to its lock. -/
def subscribed (i : ι) : List (Action ι Unit) :=
  .call i () (.init (some 7) 100) :: turns i 10 ++ .call i () (.subscribeImu 50 (some 8) 100) ::
    turns i 10 ++ .call i () (.subscribeImu 50 (some 9) 100) :: turns i 1

/-- The second subscription fails, and the first one's callback is back. -/
theorem failed_calls_roll_back_resubscribe : ∃ (r : Result) (s s' : System (Fin 1) Unit),
    LockSpan (fun _ _ => true) 0 () (.subscribeImu 50 (some 9) 100) [] r s s' ∧ r.success = false ∧
      (s.impl ()).subscriptions .imu = some 8 ∧ (s'.impl ()).subscriptions = (s.impl ()).subscriptions := by
  obtain ⟨s, hrun, hs⟩ := System.exists_run_of_exec (fun _ _ => true) (fun _ _ => True)
    (subscribed (0 : Fin 1))
    (fun s => isAt (.subscribeImu 50 (some 9) 100) .lockLifecycle (s.stack 0) &&
      decide ((s.impl ()).subscriptions .imu = some 8) &&
      (System.step (fun _ _ => true) (.run 0 {}) s).any (fun s₁ =>
        (execGuarded (System.step (fun _ _ => true)) (fun s _ => 0 < (s.stack 0).length)
            (turns 0 7 { code := sdkResFailed }) s₁).any
          (fun s' => isAt (.subscribeImu 50 (some 9) 100)
              (.unlock (.result (mapVendorResult sdkResFailed))) (s'.stack 0) &&
            (System.step (fun _ _ => true) (.run 0 {}) s').isSome))) (by decide +kernel)
  simp only [Bool.and_eq_true, Option.any_eq_true, decide_eq_true_eq, Option.isSome_iff_exists] at hs
  obtain ⟨⟨hacquires, hfirst⟩, s₁, hs₁, s', hexec, hreleases, s'', hs''⟩ := hs
  have hspan : LockSpan (fun _ _ => true) 0 () (.subscribeImu 50 (some 9) 100) [] _ s s' :=
    ⟨hrun, of_isAt hacquires, ⟨_, s₁, hs₁, reaches_of_execGuarded _ .refl hexec⟩, of_isAt hreleases⟩
  have hfail : (mapVendorResult sdkResFailed).success = false := by decide
  exact ⟨_, s, s', hspan, hfail, hfirst,
    ((failed_calls_roll_back (fun _ _ => true) ()).subscribe 0 _ _ _ _ _ _ _ _ _ _ hspan hfail hs'').1⟩

end HypertronBridge.Adapter
