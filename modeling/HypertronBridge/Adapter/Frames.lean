import HypertronBridge.Adapter.Step

namespace HypertronBridge.Adapter

open TransitionSystem Threads

/-!
# What the frames of an adapter hold

The mutexes of an adapter and its in-flight count are told by the program counters of its frames.

* `Stepped`, `stepped` — what one step does;
* `Frame.callAt`, `Frame.inFlightOf` — kinds of frames of one adapter;
* `System.Run.held` — every run keeps the two mutexes and the in-flight count equal to the frames
  that hold them.
-/

variable {ι κ : Type} [DecidableEq ι] [DecidableEq κ] {bound : κ → VendorFn → Bool}
  {s s' : System ι κ} {b : Action ι κ} {ok : System ι κ → Action ι κ → Prop} {i : ι} {a : κ}
  {rest : List (Frame κ)} {t : Turn κ}

/-! ### What a step does -/

/-- A frame that has just been pushed. -/
def Frame.isNew : Frame κ → Prop
  | .call _ _ l pc => l = {} ∧ pc = .enter
  | .delivery _ _ _ pc => pc = .gate

/-- **What one step does.** A thread gets a new frame, or its top frame takes its turn. -/
inductive Stepped (bound : κ → VendorFn → Bool) (s : System ι κ) : Action ι κ → System ι κ → Prop
  | called {i : ι} {a : κ} {c : ApiCall} (hmay : mayCall (s.stack i) = true) :
      Stepped bound s (.call i a c) (s.push i (.call a c {} .enter))
  | delivered {i : ι} {a : κ} {r : Raw} {d : Payload} (hmay : mayDeliver (s.stack i) = true)
      (hraw : r ∈ (s.impl a).raws) (htopic : d.topic = r.topic) :
      Stepped bound s (.deliver i a r d) (s.push i (.delivery a r d .gate))
  | call {i : ι} {ans : Answer} {a : κ} {c : ApiCall} {l : CallLocals} {pc : CallPc}
      {rest : List (Frame κ)} {t : Turn κ} (hstack : s.stack i = .call a c l pc :: rest)
      (ht : callStep (bound a) ans ⟨a, c, l, s.thread i, s.impl a⟩ pc = some t) :
      Stepped bound s (.run i ans) (s.take i a rest t)
  | delivery {i : ι} {ans : Answer} {a : κ} {r : Raw} {d : Payload} {pc : DeliveryPc κ}
      {rest : List (Frame κ)} (hstack : s.stack i = .delivery a r d pc :: rest) :
      Stepped bound s (.run i ans) (s.take i a rest (deliveryStep a r d (s.thread i) (s.impl a) pc))

/-- **Inversion.** -/
theorem stepped (hs : System.step bound b s = some s') : Stepped bound s b s' := by
  cases b
  all_goals simp only [System.step] at hs
  case call i a c =>
    split at hs
    · rename_i hmay
      rw [← Option.some.inj hs]
      exact .called hmay
    · exact absurd hs (by simp)
  case deliver i a r d =>
    split at hs
    · rename_i hmay
      simp only [Bool.and_eq_true, decide_eq_true_eq, beq_iff_eq] at hmay
      rw [← Option.some.inj hs]
      exact .delivered hmay.1.1 hmay.1.2 hmay.2
    · exact absurd hs (by simp)
  case run i ans =>
    split at hs
    · exact absurd hs (by simp)
    · rename_i hstack
      obtain ⟨t, ht, rfl⟩ := Option.map_eq_some_iff.mp hs
      exact .call hstack ht
    · rename_i hstack
      rw [← Option.some.inj hs]
      exact .delivery hstack

/-! ### Kinds of frames -/

/-- A public call of `a` that is as `P` says. -/
def Frame.callAt (a : κ) (P : ApiCall → CallLocals → CallPc → Bool) : Frame κ → Bool
  | .call b c l pc => decide (b = a) && P c l pc
  | .delivery _ _ _ _ => false

/-- A delivery of `a` that is counted in flight. -/
def Frame.inFlightOf (a : κ) : Frame κ → Bool
  | .call _ _ _ _ => false
  | .delivery _ _ _ .gate => false
  | .delivery b _ _ _ => decide (b = a)

/-- The call holds the lifecycle mutex. -/
def CallPc.holdsLifecycle : CallPc → Bool
  | .open | .unbound | .pushScope | .vendor _ | .inVendor _ | .tail | .settle | .unlock _
  | .unlockForTeardown | .close | .deinitCall | .inDeinit | .unlockForWait _ => true
  | _ => false

/-- The call holds the teardown mutex. -/
def CallPc.holdsTeardown : CallPc → Bool
  | .ensureCheck | .unlockTeardown | .lockForTeardown | .close | .deinitCall | .inDeinit
  | .unlockForWait _ | .drain | .publish _ => true
  | _ => false

/-- The call holds the lifecycle mutex of `a`. -/
def Frame.lifecycleOf (a : κ) : Frame κ → Bool := Frame.callAt a (fun _ _ pc => pc.holdsLifecycle)

/-- The call holds the teardown mutex of `a`. -/
def Frame.teardownOf (a : κ) : Frame κ → Bool := Frame.callAt a (fun _ _ pc => pc.holdsTeardown)

/-- The adapter of a frame. -/
def Frame.adapter : Frame κ → κ
  | .call a _ _ _ | .delivery a _ _ _ => a

/-- A kind of frames of `a` that a frame does not belong to from its start. -/
structure KindOf (a : κ) (p : Frame κ → Bool) : Prop where
  adapter : ∀ f, p f = true → f.adapter = a
  not_new : ∀ f, f.isNew → p f = false

theorem kindOf_callAt {P : ApiCall → CallLocals → CallPc → Bool}
    (hP : ∀ c, P c {} .enter = false) : KindOf a (Frame.callAt a P) := by
  constructor
  · intro f hf
    cases f with
    | call b c l pc =>
      simp only [Frame.callAt, Bool.and_eq_true, decide_eq_true_eq] at hf
      exact hf.1
    | delivery => exact absurd hf (by simp [Frame.callAt])
  · intro f hf
    cases f with
    | call b c l pc =>
      obtain ⟨rfl, rfl⟩ := hf
      simp [Frame.callAt, hP]
    | delivery => rfl

theorem kindOf_lifecycleOf : KindOf a (Frame.lifecycleOf a) := kindOf_callAt (fun _ => rfl)

theorem kindOf_teardownOf : KindOf a (Frame.teardownOf a) := kindOf_callAt (fun _ => rfl)

theorem kindOf_inFlightOf : KindOf a (Frame.inFlightOf a) := by
  constructor
  · intro f hf
    cases f with
    | call => exact absurd hf (by simp [Frame.inFlightOf])
    | delivery b r d pc => cases pc <;> simp_all [Frame.inFlightOf, Frame.adapter]
  · intro f hf
    cases f with
    | call => rfl
    | delivery b r d pc =>
      obtain rfl : pc = .gate := hf
      rfl

/-- A call goes on in a frame of its adapter. -/
theorem callStep_of {bound : VendorFn → Bool} {ans : Answer} {s : InCall κ} {pc : CallPc}
    (hs : callStep bound ans s pc = some t) : ∀ f ∈ t.next, ∃ l pc', f = .call s.adapter s.call l pc' := by
  obtain ⟨a, c, l, th, x⟩ := s
  cases pc
  all_goals simp only [callStep, openSection, unboundSection, settleSection] at hs
  all_goals repeat' split at hs
  all_goals simp only [Option.some.injEq, Option.map_eq_some_iff, reduceCtorEq] at hs
  case inVendor n =>
    obtain ⟨v, -, rfl⟩ := hs
    simp [InCall.goto]
  all_goals subst hs
  all_goals simp [InCall.goto, InCall.ret]


/-! ### The fields that a section leaves alone -/

namespace Impl

variable {x : Impl} {topic : Topic} {callback : Option CallbackId}

@[simp] theorem closeGate_lifecycleMutex : x.closeGate.lifecycleMutex = x.lifecycleMutex := by
  unfold closeGate
  split_ifs <;> rfl

@[simp] theorem closeGate_teardownMutex : x.closeGate.teardownMutex = x.teardownMutex := by
  unfold closeGate
  split_ifs <;> rfl

@[simp] theorem closeGate_inFlight : x.closeGate.inFlight = x.inFlight := by
  unfold closeGate
  split_ifs <;> rfl

@[simp] theorem setCallback_lifecycleMutex :
    (x.setCallback topic callback).lifecycleMutex = x.lifecycleMutex := rfl
@[simp] theorem setCallback_teardownMutex :
    (x.setCallback topic callback).teardownMutex = x.teardownMutex := rfl
@[simp] theorem setCallback_inFlight :
    (x.setCallback topic callback).inFlight = x.inFlight := rfl
@[simp] theorem setCallback_state : (x.setCallback topic callback).state = x.state := rfl
@[simp] theorem enterInit_lifecycleMutex :
    (x.enterInit callback).lifecycleMutex = x.lifecycleMutex := rfl
@[simp] theorem enterInit_teardownMutex :
    (x.enterInit callback).teardownMutex = x.teardownMutex := rfl
@[simp] theorem enterInit_inFlight : (x.enterInit callback).inFlight = x.inFlight := rfl
@[simp] theorem enterInit_state : (x.enterInit callback).state = .initializing := rfl
@[simp] theorem failInit_lifecycleMutex : x.failInit.lifecycleMutex = x.lifecycleMutex := rfl
@[simp] theorem failInit_teardownMutex : x.failInit.teardownMutex = x.teardownMutex := rfl
@[simp] theorem failInit_inFlight : x.failInit.inFlight = x.inFlight := rfl
@[simp] theorem failInit_state : x.failInit.state = .uninitialized := rfl
@[simp] theorem deliver_lifecycleMutex (d : Payload) :
    (x.deliver d).lifecycleMutex = x.lifecycleMutex := by cases d <;> rfl
@[simp] theorem deliver_teardownMutex (d : Payload) :
    (x.deliver d).teardownMutex = x.teardownMutex := by cases d <;> rfl
@[simp] theorem deliver_state (d : Payload) : (x.deliver d).state = x.state := by cases d <;> rfl

end Impl

/-! ### Mutexes and counts -/

/-- A turn hands the mutexes on. -/
theorem callStep_mutexes {bound : VendorFn → Bool} {ans : Answer} {s : InCall κ} {pc : CallPc}
    (hs : callStep bound ans s pc = some t)
    (hlifecycle : pc.holdsLifecycle = true → s.impl.lifecycleMutex = true)
    (hteardown : pc.holdsTeardown = true → s.impl.teardownMutex = true) :
    ((t.next.any (Frame.lifecycleOf s.adapter)).toNat + s.impl.lifecycleMutex.toNat =
        pc.holdsLifecycle.toNat + t.impl.lifecycleMutex.toNat) ∧
      ((t.next.any (Frame.teardownOf s.adapter)).toNat + s.impl.teardownMutex.toNat =
        pc.holdsTeardown.toNat + t.impl.teardownMutex.toNat) := by
  obtain ⟨a, c, l, th, x⟩ := s
  cases pc
  all_goals simp only [CallPc.holdsLifecycle, CallPc.holdsTeardown, Bool.false_eq_true, false_imp_iff,
    true_imp_iff] at hlifecycle hteardown
  all_goals simp only [callStep, openSection, unboundSection, settleSection] at hs
  all_goals repeat' split at hs
  all_goals simp only [Option.some.injEq, Option.map_eq_some_iff, reduceCtorEq] at hs
  case inVendor n =>
    obtain ⟨v, -, rfl⟩ := hs
    simp [InCall.goto, Frame.lifecycleOf, Frame.teardownOf, Frame.callAt, CallPc.holdsLifecycle,
      CallPc.holdsTeardown, hlifecycle]
  all_goals subst hs
  all_goals simp_all [InCall.goto, InCall.ret, Frame.lifecycleOf, Frame.teardownOf, Frame.callAt,
    CallPc.holdsLifecycle, CallPc.holdsTeardown]

/-- A public call leaves the in-flight count alone. -/
theorem callStep_inFlight {bound : VendorFn → Bool} {ans : Answer} {s : InCall κ} {pc : CallPc}
    (hs : callStep bound ans s pc = some t) : t.impl.inFlight = s.impl.inFlight := by
  obtain ⟨a, c, l, th, x⟩ := s
  cases pc
  all_goals simp only [callStep, openSection, unboundSection, settleSection] at hs
  all_goals repeat' split at hs
  all_goals simp only [Option.some.injEq, Option.map_eq_some_iff, reduceCtorEq] at hs
  case inVendor n =>
    obtain ⟨v, -, rfl⟩ := hs
    rfl
  all_goals subst hs
  all_goals simp [InCall.goto, InCall.ret]

/-! ### One adapter at a time -/

/-- The adapter of an event. -/
def Event.adapter : Event κ → κ
  | .entered a | .vendorCalled a _ | .vendorReturned a _ _ | .returnCheck a _ | .published a _
  | .callbackStarted a _ _ | .callbackEnded a _ _ | .returned a _ _ => a

/-- The event is of a delivery, not of a public call. -/
def Event.byDelivery : Event κ → Bool
  | .callbackStarted _ _ _ | .callbackEnded _ _ _ => true
  | _ => false

/-- The frames under the top one of a thread, and those of all other threads. -/
def System.below (s : System ι κ) (i : ι) (rest : List (Frame κ)) : ι → List (Frame κ) :=
  Function.update s.stack i rest

theorem callStep_events {bound : VendorFn → Bool} {ans : Answer} {s : InCall κ} {pc : CallPc}
    (hs : callStep bound ans s pc = some t) :
    t.events = [] ∨ ∃ e, t.events = [e] ∧ e.adapter = s.adapter ∧ e.byDelivery = false := by
  obtain ⟨a, c, l, th, x⟩ := s
  cases pc
  all_goals simp only [callStep, openSection, unboundSection, settleSection] at hs
  all_goals repeat' split at hs
  all_goals simp only [Option.some.injEq, Option.map_eq_some_iff, reduceCtorEq] at hs
  case inVendor n =>
    obtain ⟨v, -, rfl⟩ := hs
    simp [InCall.goto, Event.adapter, Event.byDelivery]
  all_goals subst hs
  all_goals simp [InCall.goto, InCall.ret, Event.adapter, Event.byDelivery]

/-- **A step as one adapter sees it**: it happens elsewhere, or a frame of the adapter takes its
    turn. -/
inductive Local (bound : κ → VendorFn → Bool) (s : System ι κ) (a : κ) :
    Action ι κ → System ι κ → Prop
  | elsewhere {b : Action ι κ} {s' : System ι κ} (himpl : s'.impl a = s.impl a)
      (hcount : ∀ [Fintype ι] p, KindOf a p → count p s'.stack = count p s.stack)
      (hhistory : s'.history = s.history ∨ ∃ e, s'.history = e :: s.history ∧ e.adapter ≠ a) :
      Local bound s a b s'
  | call {i : ι} {ans : Answer} {c : ApiCall} {l : CallLocals} {pc : CallPc}
      {rest : List (Frame κ)} {t : Turn κ} (hstack : s.stack i = .call a c l pc :: rest)
      (ht : callStep (bound a) ans ⟨a, c, l, s.thread i, s.impl a⟩ pc = some t) :
      Local bound s a (.run i ans) (s.take i a rest t)
  | delivery {i : ι} {ans : Answer} {r : Raw} {d : Payload} {pc : DeliveryPc κ}
      {rest : List (Frame κ)} (hstack : s.stack i = .delivery a r d pc :: rest) :
      Local bound s a (.run i ans)
        (s.take i a rest (deliveryStep a r d (s.thread i) (s.impl a) pc))

section

variable [Fintype ι] {p : Frame κ → Bool} {f : Frame κ}

omit [DecidableEq κ] in
/-- Before its turn a frame counts on top of the others. -/
theorem count_before (hstack : s.stack i = f :: rest) :
    count p s.stack = count p (s.below i rest) + (p f).toNat := count_pop hstack

/-- After it, what takes its place does. -/
theorem count_after : count p (s.take i a rest t).stack =
    count p (s.below i rest) + (t.next.any p).toNat := count_replace t.next

omit [DecidableEq κ] in
/-- A new frame is of no kind. -/
theorem count_pushed (hp : KindOf a p) (hf : f.isNew) :
    count p (s.push i f).stack = count p s.stack := by
  have h := count_push (p := p) (S := s.stack) (i := i) f
  rw [hp.not_new f hf] at h
  exact h

/-- The turn of another adapter's frame. -/
theorem count_elsewhere (hp : KindOf a p) (hstack : s.stack i = f :: rest) (hf : f.adapter ≠ a)
    (hnext : ∀ g ∈ t.next, g.adapter ≠ a) :
    count p (s.take i f.adapter rest t).stack = count p s.stack := by
  have hnot : ∀ g : Frame κ, g.adapter ≠ a → p g = false := by
    intro g hg
    by_contra h
    exact hg (hp.adapter g (by simpa using h))
  have hany : t.next.any p = false := by
    cases hn : t.next with
    | none => rfl
    | some g => exact hnot g (hnext g hn)
  rw [count_before hstack, count_after, hnot f hf, hany]

end

omit [DecidableEq κ] in
theorem deliveryStep_adapter {r : Raw} {d : Payload} {th : ThreadLocals κ} {x : Impl}
    {pc : DeliveryPc κ} {b : κ} : (∀ f ∈ (deliveryStep b r d th x pc).next, f.adapter = b) ∧
      ((deliveryStep b r d th x pc).events = [] ∨ ∃ e, (deliveryStep b r d th x pc).events = [e] ∧
        e.adapter = b ∧ e.byDelivery = true) := by
  unfold deliveryStep
  repeat' split
  all_goals simp [Frame.adapter, Event.adapter, Event.byDelivery]

/-- **One adapter at a time.** -/
theorem Stepped.local (hs : Stepped bound s b s') (a : κ) : Local bound s a b s' := by
  have hevents : ∀ {b : κ} {i : ι} {rest : List (Frame κ)} {t : Turn κ} {m : Bool}, b ≠ a →
      (t.events = [] ∨ ∃ e, t.events = [e] ∧ e.adapter = b ∧ e.byDelivery = m) →
      (s.take i b rest t).history = s.history ∨
        ∃ e, (s.take i b rest t).history = e :: s.history ∧ e.adapter ≠ a := by
    rintro b i rest t m hb (hnil | ⟨e, he, hadapter, -⟩)
    · exact Or.inl (congrArg (· ++ s.history) hnil)
    · exact Or.inr ⟨e, congrArg (· ++ s.history) he, hadapter ▸ hb⟩
  cases hs with
  | called => exact .elsewhere rfl (fun p hp => count_pushed hp ⟨rfl, rfl⟩) (Or.inl rfl)
  | delivered => exact .elsewhere rfl (fun p hp => count_pushed hp rfl) (Or.inl rfl)
  | @call i ans b c l pc rest t hstack ht =>
    by_cases hb : b = a
    · subst hb
      exact .call hstack ht
    · refine .elsewhere (Function.update_of_ne (Ne.symm hb) _ _) (fun p hp => ?_)
        (hevents hb (callStep_events ht))
      refine count_elsewhere hp hstack hb (fun g hg => ?_)
      obtain ⟨l', pc', rfl⟩ := callStep_of ht g hg
      exact hb
  | @delivery i ans b r d pc rest hstack =>
    by_cases hb : b = a
    · subst hb
      exact .delivery hstack
    · refine .elsewhere (Function.update_of_ne (Ne.symm hb) _ _) (fun p hp => ?_)
        (hevents hb deliveryStep_adapter.2)
      refine count_elsewhere hp hstack hb (fun g hg => ?_)
      rw [deliveryStep_adapter.1 g hg]
      exact hb

/-- A step records at most one event. -/
theorem Local.history (hs : Local bound s a b s') :
    s'.history = s.history ∨ ∃ e, s'.history = e :: s.history := by
  have hevents : ∀ {i : ι} {rest : List (Frame κ)} {t : Turn κ} {m : Bool},
      (t.events = [] ∨ ∃ e, t.events = [e] ∧ e.adapter = a ∧ e.byDelivery = m) →
      (s.take i a rest t).history = s.history ∨
        ∃ e, (s.take i a rest t).history = e :: s.history := by
    rintro i rest t m (hnil | ⟨e, he, -⟩)
    · exact Or.inl (congrArg (· ++ s.history) hnil)
    · exact Or.inr ⟨e, congrArg (· ++ s.history) he⟩
  cases hs with
  | elsewhere _ _ hhistory =>
    rcases hhistory with hkept | ⟨e, he, -⟩
    · exact Or.inl hkept
    · exact Or.inr ⟨e, he⟩
  | call _ ht => exact hevents (callStep_events ht)
  | delivery _ => exact hevents deliveryStep_adapter.2

/-- A public call of `a` takes the turn that records `e`. -/
def CallTurn (bound : κ → VendorFn → Bool) (s : System ι κ) (a : κ) (e : Event κ)
    (s' : System ι κ) : Prop :=
  ∃ i ans c l pc rest t, s.stack i = .call a c l pc :: rest ∧
    callStep (bound a) ans ⟨a, c, l, s.thread i, s.impl a⟩ pc = some t ∧ t.events = [e] ∧
    s' = s.take i a rest t

/-- A delivery of `a` takes the turn that records `e`. -/
def DeliveryTurn (s : System ι κ) (a : κ) (e : Event κ) (s' : System ι κ) : Prop :=
  ∃ i r d pc rest, s.stack i = .delivery a r d pc :: rest ∧
    (deliveryStep a r d (s.thread i) (s.impl a) pc).events = [e] ∧
    s' = s.take i a rest (deliveryStep a r d (s.thread i) (s.impl a) pc)

/-- Whose turn an event of `a` is. -/
theorem Local.event {e : Event κ} (hs : Local bound s a b s') (he : s'.history = e :: s.history)
    (ha : e.adapter = a) : (e.byDelivery = false ∧ CallTurn bound s a e s') ∨
      (e.byDelivery = true ∧ DeliveryTurn s a e s') := by
  have hsingle : ∀ {t : Turn κ}, t.events ++ s.history = e :: s.history → t.events = [e] := by
    intro t h
    have happend : t.events ++ s.history = [e] ++ s.history := h
    exact (List.append_left_inj _).mp happend
  cases hs with
  | elsewhere _ _ hhistory =>
    -- what happens elsewhere records no event of `a`
    rcases hhistory with hkept | ⟨e', he', hadapter⟩
    · rw [hkept] at he
      exact absurd he.symm (List.cons_ne_self _ _)
    · rw [he'] at he
      rw [(List.cons.inj he).1] at hadapter
      exact absurd ha hadapter
  | @call i ans c l pc rest t hstack ht =>
    have hevents := hsingle (t := t) he
    refine Or.inl ⟨?_, i, ans, c, l, pc, rest, t, hstack, ht, hevents, rfl⟩
    rcases callStep_events ht with hnil | ⟨e', he', -, hby⟩
    · rw [hevents] at hnil
      exact absurd hnil (by simp)
    · rw [hevents, List.singleton_inj] at he'
      rw [he']
      exact hby
  | @delivery i ans r d pc rest hstack =>
    have hevents := hsingle (t := deliveryStep a r d (s.thread i) (s.impl a) pc) he
    refine Or.inr ⟨?_, i, r, d, pc, rest, hstack, hevents, rfl⟩
    rcases (deliveryStep_adapter (b := a)).2 with hnil | ⟨e', he', -, hby⟩
    · rw [hevents] at hnil
      exact absurd hnil (by simp)
    · rw [hevents, List.singleton_inj] at he'
      rw [he']
      exact hby

@[simp] theorem take_impl : (s.take i a rest t).impl a = t.impl := Function.update_self ..

/-! ### The invariant -/

variable [Fintype ι]

/-- The mutexes of `a` are held by at most one frame each, and its in-flight count is the number of
    its deliveries that have passed the gate. -/
structure Held (s : System ι κ) (a : κ) : Prop where
  lifecycle : count (Frame.lifecycleOf a) s.stack = (s.impl a).lifecycleMutex.toNat
  teardown : count (Frame.teardownOf a) s.stack = (s.impl a).teardownMutex.toNat
  inFlight : count (Frame.inFlightOf a) s.stack = (s.impl a).inFlight

/-- **Step lemma.** -/
theorem Held.step (h : Held s a) (hs : Local bound s a b s') : Held s' a := by
  obtain ⟨hlifecycle, hteardown, hinFlight⟩ := h
  cases hs with
  | elsewhere himpl hcount _ =>
    -- neither the frames of `a` nor its fields have changed
    refine ⟨?_, ?_, ?_⟩
    · rw [himpl, hcount _ kindOf_lifecycleOf, hlifecycle]
    · rw [himpl, hcount _ kindOf_teardownOf, hteardown]
    · rw [himpl, hcount _ kindOf_inFlightOf, hinFlight]
  | @call i ans c l pc rest t hstack ht =>
    rw [count_before hstack] at hlifecycle hteardown hinFlight
    have htop : (Frame.lifecycleOf a (.call a c l pc) = pc.holdsLifecycle) ∧
        (Frame.teardownOf a (.call a c l pc) = pc.holdsTeardown) ∧
        Frame.inFlightOf a (.call a c l pc) = false := by
      simp [Frame.lifecycleOf, Frame.teardownOf, Frame.callAt, Frame.inFlightOf]
    rw [htop.1] at hlifecycle
    rw [htop.2.1] at hteardown
    rw [htop.2.2] at hinFlight
    -- a public call is never in flight, before its turn or after it
    have hnone : t.next.any (Frame.inFlightOf a) = false := by
      cases hn : t.next with
      | none => rfl
      | some g =>
        obtain ⟨l', pc', rfl⟩ := callStep_of ht g hn
        rfl
    have h₃ := callStep_inFlight ht
    -- a section that holds a mutex is counted, so the mutex is locked
    obtain ⟨h₁, h₂⟩ := callStep_mutexes ht
      (fun hpc => by
        rw [hpc] at hlifecycle
        cases hm : (s.impl a).lifecycleMutex
        · simp [hm] at hlifecycle
        · rfl)
      (fun hpc => by
        rw [hpc] at hteardown
        cases hm : (s.impl a).teardownMutex
        · simp [hm] at hteardown
        · rfl)
    dsimp only at h₁ h₂ h₃
    refine ⟨?_, ?_, ?_⟩
    · rw [count_after, take_impl]
      omega
    · rw [count_after, take_impl]
      omega
    · rw [count_after, take_impl, h₃, hnone]
      exact hinFlight
  | @delivery i ans r d pc rest hstack =>
    rw [count_before hstack] at hlifecycle hteardown hinFlight
    refine ⟨?_, ?_, ?_⟩
    all_goals rw [count_after, take_impl]
    all_goals unfold deliveryStep
    all_goals repeat' split
    all_goals simp_all [Frame.lifecycleOf, Frame.teardownOf, Frame.callAt, Frame.inFlightOf]
    all_goals omega

/-- **Run lemma.** -/
theorem System.Run.held (h : System.Run bound ok s) (a : κ) : Held s a := by
  have hreach : Reaches (System.step bound) ok ({} : System ι κ) s := h
  exact hreach.invariant (I := fun s => Held s a) ⟨count_nil, count_nil, count_nil⟩
    (fun _ _ _ _ hi _ hs => hi.step ((stepped hs).local a))

end HypertronBridge.Adapter
