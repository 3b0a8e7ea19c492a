import HypertronBridge.Adapter.Frames
import HypertronBridge.Lib.History

namespace HypertronBridge.Adapter

open TransitionSystem Threads History

/-!
# The state word of an adapter

Four sections write the state: `init` enters and settles, a teardown closes and publishes.

* `Frame.pastOpenOf`, `Frame.waitingOf` — the frames that stand between two of them;
* `StateTurn`, `callStep_state` — what a public call does to the state;
* `Waits` — a teardown that waits keeps `ShuttingDown` to itself, in every run;
* `Past` — an entry point keeps the state that it found or made, unless a publication overwrites it;
* `Shut` — the gate is closed, and stays so until an `init` enters.
-/

variable {ι κ : Type} [DecidableEq ι] [DecidableEq κ] {bound : κ → VendorFn → Bool}
  {s s' : System ι κ} {b : Action ι κ} {ok : System ι κ → Action ι κ → Prop} {i : ι} {a : κ}
  {rest : List (Frame κ)} {t : Turn κ} {f : Frame κ} {m : Bool}

/-! ### Frames between two writes -/

/-- Between the section that checks the state and the end of the entry point. -/
def CallPc.pastOpen : CallPc → Bool
  | .unbound | .pushScope | .vendor _ | .inVendor _ | .tail | .settle | .unlockForTeardown => true
  | _ => false

/-- In a teardown that waits for the callbacks in flight, before its publication. -/
def CallPc.waits : CallPc → Bool
  | .unlockForWait w | .publish w => w
  | .deinitCall | .inDeinit | .drain => true
  | _ => false

/-- An entry point of `a` past its check of the state: an `init` call, or another one. -/
def Frame.pastOpenOf (a : κ) (m : Bool) : Frame κ → Bool :=
  Frame.callAt a (fun c _ pc => c.isInit == m && pc.pastOpen)

/-- A teardown of `a` that waits. -/
def Frame.waitingOf (a : κ) : Frame κ → Bool := Frame.callAt a (fun _ _ pc => pc.waits)

theorem kindOf_pastOpenOf : KindOf a (Frame.pastOpenOf a m) :=
  kindOf_callAt (fun c => by simp [CallPc.pastOpen])

theorem kindOf_waitingOf : KindOf a (Frame.waitingOf a) := kindOf_callAt (fun _ => rfl)

theorem CallPc.holdsLifecycle_of_pastOpen {pc : CallPc} (h : pc.pastOpen = true) :
    pc.holdsLifecycle = true := by
  cases pc <;> first | rfl | exact absurd h (by simp [pastOpen])

theorem CallPc.holdsTeardown_of_waits {pc : CallPc} (h : pc.waits = true) :
    pc.holdsTeardown = true := by
  cases pc <;> first | rfl | exact absurd h (by simp [waits])

theorem CallPc.waits_of_pastOpen {pc : CallPc} (h : pc.pastOpen = true) : pc.waits = false := by
  cases pc <;> first | rfl | exact absurd h (by simp [pastOpen])

theorem lifecycleOf_of_pastOpenOf (h : Frame.pastOpenOf a m f = true) :
    Frame.lifecycleOf a f = true := by
  cases f with
  | call b c l pc =>
    simp only [Frame.pastOpenOf, Frame.lifecycleOf, Frame.callAt, Bool.and_eq_true] at h ⊢
    exact ⟨h.1, CallPc.holdsLifecycle_of_pastOpen h.2.2⟩
  | delivery => exact h

theorem teardownOf_of_waitingOf (h : Frame.waitingOf a f = true) :
    Frame.teardownOf a f = true := by
  cases f with
  | call b c l pc =>
    simp only [Frame.waitingOf, Frame.teardownOf, Frame.callAt, Bool.and_eq_true] at h ⊢
    exact ⟨h.1, CallPc.holdsTeardown_of_waits h.2⟩
  | delivery => exact h

/-! ### Writes of the state -/

/-- The frame that takes its turn. -/
def InCall.frame (s : InCall κ) (pc : CallPc) : Frame κ := .call s.adapter s.call s.locals pc

/-- **What a turn of a public call does to the state.** -/
inductive StateTurn (a : κ) (c : ApiCall) (x : Impl) (f : Frame κ) (pc : CallPc) (t : Turn κ) : Prop
  /-- Nothing; nor does the frame start anything. -/
  | keep (hstate : t.impl.state = x.state)
      (hpast : ∀ m, t.next.any (Frame.pastOpenOf a m) = true → Frame.pastOpenOf a m f = true)
      (hwaiting : t.next.any (Frame.waitingOf a) = Frame.waitingOf a f)
      (hevents : ∀ e ∈ t.events, e ≠ .entered a ∧ (∀ w, e ≠ .published a w) ∧
        ∀ c, e ≠ .returnCheck a c)
  /-- `init` enters. -/
  | enter (hpc : pc = .open) (hstate : x.state = .uninitialized)
      (hstate' : t.impl.state = .initializing)
      (hpast : ∀ m, t.next.any (Frame.pastOpenOf a m) = m)
      (hwaiting : t.next.any (Frame.waitingOf a) = false) (hevents : t.events = [.entered a])
  /-- Another entry point finds the adapter initialized. -/
  | call (hpc : pc = .open) (hstate : x.state = .initialized)
      (hstate' : t.impl.state = .initialized)
      (hpast : ∀ m, t.next.any (Frame.pastOpenOf a m) = !m)
      (hwaiting : t.next.any (Frame.waitingOf a) = false) (hevents : t.events = [])
  /-- `init` settles. -/
  | settle (hframe : Frame.pastOpenOf a true f = true)
      (hstate : t.impl.state = .uninitialized ∨ t.impl.state = .initialized)
      (hpast : ∀ m, t.next.any (Frame.pastOpenOf a m) = false)
      (hwaiting : t.next.any (Frame.waitingOf a) = false) (hevents : t.events = [])
  /-- A teardown closes the gate. -/
  | close (hpc : pc = .close) (himpl : t.impl = x.closeGate)
      (hpast : ∀ m, t.next.any (Frame.pastOpenOf a m) = false)
      (hwaiting : t.next.any (Frame.waitingOf a) = x.needWait) (hevents : t.events = [])
  /-- A teardown publishes. -/
  | publish (w : Bool) (hpc : pc = .publish w) (hstate : t.impl.state = .uninitialized)
      (hpast : ∀ m, t.next.any (Frame.pastOpenOf a m) = false)
      (hwaiting : t.next.any (Frame.waitingOf a) = false) (hevents : t.events = [.published a w])
  /-- `ensure_uninitialized` decides to return. -/
  | check (hpc : pc = .ensureCheck) (htorn : x.isTornDown = true) (himpl : t.impl = x)
      (hpast : ∀ m, t.next.any (Frame.pastOpenOf a m) = false)
      (hwaiting : t.next.any (Frame.waitingOf a) = false)
      (hevents : t.events = [.returnCheck a c])

omit [DecidableEq ι] in
/-- The kinds of a call that goes on at `pc`. -/
theorem goto_kinds (s : InCall κ) (pc : CallPc) (events : List (Event κ)) :
    (∀ m, (s.goto pc events).next.any (Frame.pastOpenOf s.adapter m) =
        (s.call.isInit == m && pc.pastOpen)) ∧
      (s.goto pc events).next.any (Frame.waitingOf s.adapter) = pc.waits := by
  simp [InCall.goto, Frame.pastOpenOf, Frame.waitingOf, Frame.callAt]

theorem openSection_state {bound : VendorFn → Bool} {s : InCall κ} :
    StateTurn s.adapter s.call s.impl (s.frame .open) .open (openSection bound s) := by
  obtain ⟨a, c, l, th, x⟩ := s
  have hnext : (if c.isBound bound then CallPc.pushScope else .unbound).pastOpen = true := by
    split <;> rfl
  have hrefused : ∀ r, StateTurn a c x (.call a c l .open) .open
      ((⟨a, c, l, th, x⟩ : InCall κ).goto (.unlock r)) := by
    intro r
    obtain ⟨hpast, hwaiting⟩ := goto_kinds ⟨a, c, l, th, x⟩ (.unlock r) []
    refine .keep rfl (fun m h => ?_) (hwaiting.trans ?_) (by simp [InCall.goto])
    · rw [hpast m] at h
      exact absurd h (by simp [CallPc.pastOpen])
    · simp [Frame.waitingOf, Frame.callAt, CallPc.waits]
  unfold openSection
  cases c
  all_goals dsimp only
  all_goals generalize (if ApiCall.isBound bound _ then CallPc.pushScope else .unbound) = next at hnext ⊢
  case init onStatus t =>
    split_ifs with hdown hstate
    · exact hrefused _
    · exact hrefused _
    · obtain ⟨hpast, hwaiting⟩ := goto_kinds ⟨a, .init onStatus t, l, th, x.enterInit onStatus⟩ next
        [.entered a]
      refine .enter rfl (not_not.mp hstate) rfl (fun m => ?_) ?_ rfl
      · exact (hpast m).trans (by cases m <;> simp [ApiCall.isInit, hnext])
      · exact hwaiting.trans (CallPc.waits_of_pastOpen hnext)
  case subscribe topic f callback t =>
    split_ifs with hstate
    · exact hrefused _
    · obtain ⟨hpast, hwaiting⟩ := goto_kinds (⟨a, .subscribe topic f callback t,
        { l with previous := x.callback (.data topic) }, th, x.setCallback (.data topic) callback⟩)
        next []
      refine .call rfl (not_not.mp hstate) (not_not.mp hstate) (fun m => ?_) ?_ rfl
      · exact (hpast m).trans (by cases m <;> simp [ApiCall.isInit, hnext])
      · exact hwaiting.trans (CallPc.waits_of_pastOpen hnext)
  case snapshot =>
    split_ifs with hstate
    · exact hrefused _
    · obtain ⟨hpast, hwaiting⟩ := goto_kinds (⟨a, .snapshot,
        { l with out := cachedSnapshot x.toCaches }, th, x⟩) next []
      refine .call rfl (not_not.mp hstate) (not_not.mp hstate) (fun m => ?_) ?_ rfl
      · exact (hpast m).trans (by cases m <;> simp [ApiCall.isInit, hnext])
      · exact hwaiting.trans (CallPc.waits_of_pastOpen hnext)
  all_goals
    split_ifs with hstate
    · exact hrefused _
    · obtain ⟨hpast, hwaiting⟩ := goto_kinds ⟨a, _, l, th, x⟩ next []
      refine .call rfl (not_not.mp hstate) (not_not.mp hstate) (fun m => ?_) ?_ rfl
      · exact (hpast m).trans (by cases m <;> simp [ApiCall.isInit, hnext])
      · exact hwaiting.trans (CallPc.waits_of_pastOpen hnext)

/-- The two ends of an entry point: `init` settles, the others keep the state. -/
theorem unlock_state (s : InCall κ) (pc : CallPc) (x : Impl) (r : Return) (hpc : pc.pastOpen = true)
    (hinit : s.call.isInit = true → x.state = .uninitialized ∨ x.state = .initialized)
    (hother : s.call.isInit = false → x.state = s.impl.state) :
    StateTurn s.adapter s.call s.impl (s.frame pc) pc ({ s with impl := x }.goto (.unlock r)) := by
  obtain ⟨hpast, hwaiting⟩ := goto_kinds { s with impl := x } (.unlock r) []
  simp only [CallPc.pastOpen, Bool.and_false] at hpast
  cases hc : s.call.isInit with
  | true =>
    refine .settle ?_ (hinit hc) hpast hwaiting rfl
    simp [InCall.frame, Frame.pastOpenOf, Frame.callAt, hc, hpc]
  | false =>
    refine .keep (hother hc) (fun m h => absurd h (by simp [hpast])) (hwaiting.trans ?_)
      (by simp [InCall.goto])
    rw [show Frame.waitingOf s.adapter (s.frame pc) = pc.waits by
      simp [InCall.frame, Frame.waitingOf, Frame.callAt], CallPc.waits_of_pastOpen hpc]
    rfl

theorem unboundSection_state {s : InCall κ} :
    StateTurn s.adapter s.call s.impl (s.frame .unbound) .unbound (unboundSection s) := by
  obtain ⟨a, c, l, th, x⟩ := s
  refine unlock_state ⟨a, c, l, th, x⟩ .unbound _ _ rfl (fun h => ?_) (fun h => ?_)
  · cases c <;> first | exact Or.inl rfl | exact absurd h (by simp [ApiCall.isInit])
  · cases c <;> first | rfl | exact absurd h (by simp [ApiCall.isInit])

theorem settleSection_state {s : InCall κ} :
    StateTurn s.adapter s.call s.impl (s.frame .settle) .settle (settleSection s) := by
  obtain ⟨a, c, l, th, x⟩ := s
  unfold settleSection
  cases c
  all_goals dsimp only
  case init onStatus t =>
    split_ifs
    · exact unlock_state ⟨a, .init onStatus t, l, th, x⟩ .settle { x with state := .initialized } _ rfl
        (fun _ => Or.inr rfl) (fun h => absurd h (by simp [ApiCall.isInit]))
    · exact unlock_state ⟨a, .init onStatus t, l, th, x⟩ .settle x.failInit _ rfl
        (fun _ => Or.inl rfl) (fun h => absurd h (by simp [ApiCall.isInit]))
  case subscribe topic f callback t =>
    split_ifs
    · exact unlock_state ⟨a, .subscribe topic f callback t, l, th, x⟩ .settle x _ rfl
        (fun h => absurd h (by simp [ApiCall.isInit])) (fun _ => rfl)
    · exact unlock_state ⟨a, .subscribe topic f callback t, l, th, x⟩ .settle
        (x.setCallback (.data topic) l.previous) _ rfl
        (fun h => absurd h (by simp [ApiCall.isInit])) (fun _ => rfl)
  all_goals
    refine unlock_state ⟨a, _, l, th, x⟩ .settle x _ rfl (fun h => ?_) (fun _ => rfl)
    exact absurd h (by simp [ApiCall.isInit])

/-- A teardown runs the vendor's only where it waits. -/
theorem Impl.needWait_of_runVendorDeinit {bound : VendorFn → Bool} {x : Impl}
    (h : x.runVendorDeinit bound = true) : x.needWait = true := by
  simp only [runVendorDeinit, Bool.and_eq_true] at h
  simp [needWait, h.1.1]

theorem callStep_stateTurn {bound : VendorFn → Bool} {ans : Answer} {s : InCall κ} {pc : CallPc}
    (hs : callStep bound ans s pc = some t) :
    StateTurn s.adapter s.call s.impl (s.frame pc) pc t := by
  cases pc
  case «open» =>
    obtain rfl := Option.some.inj hs
    exact openSection_state
  case unbound =>
    obtain rfl := Option.some.inj hs
    exact unboundSection_state
  case settle =>
    obtain rfl := Option.some.inj hs
    exact settleSection_state
  case close =>
    obtain rfl := Option.some.inj hs
    have hnext : (if s.impl.runVendorDeinit bound then CallPc.deinitCall
        else .unlockForWait s.impl.needWait).pastOpen = false := by
      split <;> rfl
    have hwaits : (if s.impl.runVendorDeinit bound then CallPc.deinitCall
        else .unlockForWait s.impl.needWait).waits = s.impl.needWait := by
      split_ifs with hrun
      · exact (Impl.needWait_of_runVendorDeinit hrun).symm
      · rfl
    obtain ⟨hpast, hwaiting⟩ := goto_kinds { s with impl := s.impl.closeGate }
      (if s.impl.runVendorDeinit bound then CallPc.deinitCall else .unlockForWait s.impl.needWait) []
    refine .close rfl rfl (fun m => ?_) (hwaiting.trans hwaits) rfl
    rw [hpast m, hnext, Bool.and_false]
  case publish w =>
    obtain rfl := Option.some.inj hs
    obtain ⟨hpast, hwaiting⟩ := goto_kinds { s with impl.state := .uninitialized } .ensureCheck
      [.published s.adapter w]
    simp only [CallPc.pastOpen, Bool.and_false] at hpast
    exact .publish w rfl rfl hpast hwaiting rfl
  case ensureCheck =>
    simp only [callStep] at hs
    obtain rfl := Option.some.inj hs
    split_ifs with htorn
    · obtain ⟨hpast, hwaiting⟩ := goto_kinds s .unlockTeardown [.returnCheck s.adapter s.call]
      simp only [CallPc.pastOpen, Bool.and_false] at hpast
      exact .check rfl htorn rfl hpast hwaiting rfl
    · refine .keep rfl ?_ ?_ ?_
      all_goals simp [InCall.goto, InCall.frame, Frame.pastOpenOf, Frame.waitingOf, Frame.callAt,
        CallPc.pastOpen, CallPc.waits]
  case inVendor n =>
    obtain ⟨v, -, rfl⟩ := Option.map_eq_some_iff.mp hs
    refine .keep rfl ?_ ?_ ?_
    all_goals simp [InCall.goto, InCall.frame, Frame.pastOpenOf, Frame.waitingOf, Frame.callAt,
      CallPc.pastOpen, CallPc.waits]
  case unlockForWait w =>
    obtain rfl := Option.some.inj hs
    cases w
    all_goals refine .keep rfl ?_ ?_ ?_
    all_goals simp [InCall.goto, InCall.frame, Frame.pastOpenOf, Frame.waitingOf, Frame.callAt,
      CallPc.pastOpen, CallPc.waits]
  all_goals simp only [callStep] at hs
  all_goals repeat' split at hs
  all_goals simp only [Option.some.injEq, reduceCtorEq] at hs
  all_goals subst hs
  all_goals refine .keep rfl ?_ ?_ ?_
  all_goals simp [InCall.goto, InCall.ret, InCall.frame, Frame.pastOpenOf, Frame.waitingOf,
    Frame.callAt, CallPc.pastOpen, CallPc.waits]

/-- **Inversion.** -/
theorem callStep_state {bound : VendorFn → Bool} {ans : Answer} {c : ApiCall} {l : CallLocals}
    {th : ThreadLocals κ} {x : Impl} {pc : CallPc}
    (hs : callStep bound ans ⟨a, c, l, th, x⟩ pc = some t) :
    StateTurn a c x (.call a c l pc) pc t := callStep_stateTurn hs

/-- A delivery leaves the state alone, and is none of these kinds. -/
theorem deliveryStep_state {r : Raw} {d : Payload} {th : ThreadLocals κ} {x : Impl}
    {pc : DeliveryPc κ} : (deliveryStep a r d th x pc).impl.state = x.state ∧
      ∀ P, (deliveryStep a r d th x pc).next.any (Frame.callAt a P) = false := by
  unfold deliveryStep
  repeat' split
  all_goals simp [Frame.callAt]

/-! ### The states of a whole run -/

variable [Fintype ι]

/-- The turn of a frame that holds the lifecycle mutex: no other frame does, and none has passed
    its check. -/
theorem Held.pastOpen_below (h : Held s a) (hstack : s.stack i = f :: rest)
    (hf : Frame.lifecycleOf a f = true) (m : Bool) :
    count (Frame.pastOpenOf a m) (s.below i rest) = 0 := by
  have hcount := h.lifecycle
  rw [count_before hstack, hf] at hcount
  have hle := Bool.toNat_le (s.impl a).lifecycleMutex
  have hpast := count_le (S := s.below i rest)
    (fun f => lifecycleOf_of_pastOpenOf (a := a) (m := m) (f := f))
  simp only [Bool.toNat_true] at hcount
  omega

/-- The turn of a frame that holds the teardown mutex: no other frame does, and no other teardown
    waits. -/
theorem Held.waiting_below (h : Held s a) (hstack : s.stack i = f :: rest)
    (hf : Frame.teardownOf a f = true) : count (Frame.waitingOf a) (s.below i rest) = 0 := by
  have hcount := h.teardown
  rw [count_before hstack, hf] at hcount
  have hle := Bool.toNat_le (s.impl a).teardownMutex
  have hwaiting := count_le (S := s.below i rest) (fun f => teardownOf_of_waitingOf (a := a) (f := f))
  simp only [Bool.toNat_true] at hcount
  omega

/-- The gate as a teardown leaves it. -/
theorem Impl.closeGate_state (x : Impl) : x.closeGate.state =
    if x.needWait then .shuttingDown else .uninitialized := by
  unfold closeGate needWait
  split_ifs <;> simp_all

/-- A teardown that waits has the state to itself. -/
def Waits (s : System ι κ) (a : κ) : Prop :=
  0 < count (Frame.waitingOf a) s.stack →
    (s.impl a).state = .shuttingDown ∧ count (Frame.pastOpenOf a true) s.stack = 0

/-- **Step lemma.** -/
theorem Waits.step (h : Waits s a) (hheld : Held s a) (hs : Local bound s a b s') : Waits s' a := by
  cases hs with
  | elsewhere himpl hcount _ =>
    unfold Waits
    rw [hcount _ kindOf_waitingOf, hcount _ kindOf_pastOpenOf, himpl]
    exact h
  | @delivery i ans r d pc rest hstack =>
    unfold Waits at h ⊢
    rw [take_impl, count_after, count_after, deliveryStep_state.1, Frame.waitingOf, Frame.pastOpenOf,
      deliveryStep_state.2, deliveryStep_state.2]
    rw [count_before hstack, count_before hstack] at h
    exact h
  | @call i ans c l pc rest t hstack ht =>
    unfold Waits at h ⊢
    rw [take_impl, count_after, count_after]
    rw [count_before hstack, count_before hstack] at h
    intro hwait
    cases callStep_state ht with
    | keep hstate hpast hwaiting _ =>
      -- What waits after the turn has waited before it.
      obtain ⟨hdown, hnone⟩ := h (by rw [← hwaiting]; exact hwait)
      refine ⟨hstate.trans hdown, ?_⟩
      have hclosed : t.next.any (Frame.pastOpenOf a true) = false := by
        by_contra hopen
        rw [hpast true (by simpa using hopen)] at hnone
        exact absurd hnone (by simp)
      rw [hclosed]
      simp only [Bool.toNat_false]
      omega
    | enter hpc hstate _ _ hwaiting _ | call hpc hstate _ _ hwaiting _ =>
      -- A check that passes has not found the state shut.
      rw [hwaiting] at hwait
      have hdown := (h (by simp only [Bool.toNat_false] at hwait; omega)).1
      rw [hdown] at hstate
      exact absurd hstate (by simp)
    | settle hframe _ _ hwaiting _ =>
      rw [hwaiting] at hwait
      have hnone := (h (by simp only [Bool.toNat_false] at hwait; omega)).2
      rw [hframe] at hnone
      exact absurd hnone (by simp)
    | close hpc himpl hpast hwaiting _ =>
      -- It holds both mutexes, so no other teardown waits and no call is past its check.
      subst hpc
      have hbelow := hheld.waiting_below hstack
        (by simp [Frame.teardownOf, Frame.callAt, CallPc.holdsTeardown])
      have hnone := hheld.pastOpen_below hstack
        (by simp [Frame.lifecycleOf, Frame.callAt, CallPc.holdsLifecycle]) true
      rw [hwaiting, hbelow] at hwait
      have hneed : (s.impl a).needWait = true := by
        by_contra hneed
        rw [Bool.not_eq_true] at hneed
        rw [hneed] at hwait
        exact absurd hwait (by simp)
      refine ⟨?_, ?_⟩
      · rw [himpl, Impl.closeGate_state]
        exact if_pos hneed
      · rw [hpast true, hnone]
        rfl
    | publish w hpc _ _ hwaiting _ =>
      subst hpc
      have hbelow := hheld.waiting_below hstack
        (by simp [Frame.teardownOf, Frame.callAt, CallPc.holdsTeardown])
      rw [hwaiting, hbelow] at hwait
      exact absurd hwait (by simp)
    | check hpc _ _ _ hwaiting _ =>
      subst hpc
      have hbelow := hheld.waiting_below hstack
        (by simp [Frame.teardownOf, Frame.callAt, CallPc.holdsTeardown])
      rw [hwaiting, hbelow] at hwait
      exact absurd hwait (by simp)

/-- **Run lemma.** -/
theorem System.Run.waits (h : System.Run bound ok s) (a : κ) : Waits s a := by
  have hreach : Reaches (System.step bound) ok ({} : System ι κ) s := h
  refine hreach.invariant (I := fun s => Waits s a) (fun hpos => ?_)
    (fun s _ _ (hrun : System.Run bound ok s) hi _ hs => hi.step (hrun.held a) ((stepped hs).local a))
  exact absurd hpos (by simp)

/-- The state that an entry point past its check relies on. -/
def State.during (m : Bool) : State := if m then .initializing else .initialized

/-- An entry point past its check finds the state as it found or made it. -/
def Past (s : System ι κ) (a : κ) (m : Bool) : Prop :=
  0 < count (Frame.pastOpenOf a m) s.stack → (s.impl a).state = State.during m

omit [Fintype ι] in
/-- The state that the publication of a teardown of `a` finds, when the teardown has not waited. -/
def System.publishesOver (s : System ι κ) (a : κ) : Action ι κ → Option State
  | .run i _ =>
      match s.stack i with
      | .call b _ _ (.publish false) :: _ => if b = a then some (s.impl a).state else none
      | _ => none
  | _ => none

/-- **Step lemma.** -/
theorem Past.step (h : Past s a m) (hheld : Held s a) (hwaits : Waits s a)
    (hover : s.publishesOver a b ≠ some (State.during m)) (hs : Local bound s a b s') :
    Past s' a m := by
  have hduring : State.during m ≠ .uninitialized ∧ State.during m ≠ .shuttingDown := by
    cases m <;> simp [State.during]
  cases hs with
  | elsewhere himpl hcount _ =>
    unfold Past
    rw [hcount _ kindOf_pastOpenOf, himpl]
    exact h
  | @delivery i ans r d pc rest hstack =>
    unfold Past at h ⊢
    rw [take_impl, count_after, deliveryStep_state.1, Frame.pastOpenOf, deliveryStep_state.2]
    rw [count_before hstack] at h
    exact h
  | @call i ans c l pc rest t hstack ht =>
    have hbefore : count (Frame.pastOpenOf a m) s.stack =
        count (Frame.pastOpenOf a m) (s.below i rest) + (Frame.pastOpenOf a m (.call a c l pc)).toNat :=
      count_before hstack
    unfold Past at h ⊢
    rw [take_impl, count_after]
    intro hopen
    -- Where what takes the frame's place is not of the kind, another frame is.
    have hother : t.next.any (Frame.pastOpenOf a m) = false → (s.impl a).state = State.during m := by
      intro hnext
      rw [hnext] at hopen
      exact h (by simp only [Bool.toNat_false] at hopen; omega)
    cases callStep_state ht with
    | keep hstate hpast _ _ =>
      rw [hstate]
      cases hnext : t.next.any (Frame.pastOpenOf a m) with
      | true =>
        apply h
        rw [hbefore, hpast m hnext]
        exact Nat.succ_pos _
      | false => exact hother hnext
    | enter _ hstate hstate' hpast _ _ =>
      cases m with
      | true => exact hstate'
      | false =>
        rw [hother (hpast false)] at hstate
        exact absurd hstate hduring.1
    | call _ hstate hstate' hpast _ _ =>
      cases m with
      | true =>
        rw [hother (hpast true)] at hstate
        exact absurd hstate (by simp [State.during])
      | false => exact hstate'
    | settle hframe _ hpast _ _ =>
      -- It holds the lifecycle mutex, and leaves the kind itself.
      have hnone := hheld.pastOpen_below hstack (lifecycleOf_of_pastOpenOf hframe) m
      rw [hpast m, hnone] at hopen
      exact absurd hopen (by simp)
    | close hpc _ hpast _ _ =>
      subst hpc
      have hnone := hheld.pastOpen_below hstack
        (by simp [Frame.lifecycleOf, Frame.callAt, CallPc.holdsLifecycle]) m
      rw [hpast m, hnone] at hopen
      exact absurd hopen (by simp)
    | publish w hpc _ hpast _ _ =>
      -- A teardown that waits has the state to itself; one that does not is the condition.
      subst hpc
      have hstate := hother (hpast m)
      cases w with
      | true =>
        have hwait : 0 < count (Frame.waitingOf a) s.stack :=
          count_pos.mpr ⟨i, _, by rw [hstack]; exact List.mem_cons_self,
            by simp [Frame.waitingOf, Frame.callAt, CallPc.waits]⟩
        rw [(hwaits hwait).1] at hstate
        exact absurd hstate.symm hduring.2
      | false => exact absurd (by simp [System.publishesOver, hstack, hstate]) hover
    | check _ htorn _ hpast _ _ =>
      -- An adapter that is torn down is in neither of these states.
      have hstate := hother (hpast m)
      simp only [Impl.isTornDown, Bool.and_eq_true, beq_iff_eq] at htorn
      exact absurd (hstate.symm.trans htorn.1.1) hduring.1

/-- **Run lemma.** -/
theorem System.Run.past (h : System.Run bound ok s)
    (hok : ∀ s b, ok s b → s.publishesOver a b ≠ some (State.during m)) : Past s a m := by
  have hreach : Reaches (System.step bound) ok ({} : System ι κ) s := h
  refine hreach.invariant (I := fun s => Past s a m) (fun hpos => absurd hpos (by simp)) ?_
  intro s b s' (hrun : System.Run bound ok s) hi hguard hs
  exact hi.step (hrun.held a) (hrun.waits a) (hok s b hguard) ((stepped hs).local a)

/-! ### A shut adapter -/

/-- The gate is closed, and no `init` is under way that would open it. -/
structure Shut (s : System ι κ) (a : κ) : Prop where
  closed : (s.impl a).state.accepts = false
  idle : count (Frame.pastOpenOf a true) s.stack = 0

/-- **Step lemma.** Only an `init` that enters opens the gate; meanwhile nothing new is in flight. -/
theorem Shut.step (h : Shut s a) (hs : Local bound s a b s')
    (hentry : s'.history ≠ .entered a :: s.history) :
    Shut s' a ∧ (s'.impl a).inFlight ≤ (s.impl a).inFlight := by
  obtain ⟨hclosed, hidle⟩ := h
  cases hs with
  | elsewhere himpl hcount _ =>
    rw [himpl]
    exact ⟨⟨by rw [himpl]; exact hclosed, by rw [hcount _ kindOf_pastOpenOf]; exact hidle⟩, Nat.le_refl _⟩
  | @delivery i ans r d pc rest hstack =>
    rw [count_before hstack] at hidle
    refine ⟨⟨?_, ?_⟩, ?_⟩
    · rw [take_impl, deliveryStep_state.1]
      exact hclosed
    · rw [count_after, Frame.pastOpenOf, deliveryStep_state.2]
      exact hidle
    · rw [take_impl]
      cases pc
      -- Only the gate counts a delivery in, and it is closed.
      case gate =>
        show (if (s.impl a).state.accepts then _ else _ : Turn κ).impl.inFlight ≤ _
        rw [hclosed]
        exact Nat.le_refl _
      case counted callback => cases callback <;> exact Nat.le_refl _
      case executing => exact Nat.le_refl _
      case leave => exact Nat.sub_le _ _
  | @call i ans c l pc rest t hstack ht =>
    rw [count_before hstack] at hidle
    have hinFlight : t.impl.inFlight = (s.impl a).inFlight := callStep_inFlight ht
    rw [take_impl, hinFlight]
    refine ⟨⟨?_, ?_⟩, Nat.le_refl _⟩
    · rw [take_impl]
      cases callStep_state ht with
      | keep hstate _ _ _ => rw [hstate, hclosed]
      | enter _ _ _ _ _ hevents => exact absurd (congrArg (· ++ s.history) hevents) hentry
      | call _ hstate _ _ _ _ =>
        rw [hstate] at hclosed
        exact absurd hclosed (by simp [State.accepts])
      | settle hframe _ _ _ _ =>
        rw [hframe] at hidle
        exact absurd hidle (by simp)
      | close _ himpl _ _ _ =>
        rw [himpl, Impl.closeGate_state]
        split_ifs <;> rfl
      | publish _ _ hstate _ _ _ => rw [hstate]; rfl
      | check _ _ himpl _ _ _ => rw [himpl, hclosed]
    · rw [count_after]
      have hstay : t.next.any (Frame.pastOpenOf a true) = false := by
        cases callStep_state ht with
        | keep _ hpast _ _ =>
          by_contra hopen
          rw [hpast true (by simpa using hopen)] at hidle
          exact absurd hidle (by simp)
        | enter _ _ _ _ _ hevents => exact absurd (congrArg (· ++ s.history) hevents) hentry
        | call _ _ _ hpast _ _ | settle _ _ hpast _ _ | close _ _ hpast _ _ | publish _ _ _ hpast _ _
        | check _ _ _ hpast _ _ => exact hpast true
      rw [hstay]
      simp only [Bool.toNat_false]
      omega

/-- Since some moment no `init` has entered. -/
def NoEntrySince (a : κ) (start : List (Event κ) → Prop) : List (Event κ) → Prop :=
  Since (fun e => e ≠ .entered a) start

omit [DecidableEq ι] [DecidableEq κ] [Fintype ι] in
/-- That moment is now, or the step is no entry. -/
theorem NoEntrySince.step {start : List (Event κ) → Prop} (h : NoEntrySince a start s'.history)
    (hhistory : s'.history = s.history ∨ ∃ e, s'.history = e :: s.history) :
    (∃ e, s'.history = e :: s.history ∧ start (e :: s.history)) ∨
      NoEntrySince a start s.history ∧ s'.history ≠ .entered a :: s.history := by
  rcases hhistory with hkept | ⟨e, he⟩
  · rw [hkept] at h ⊢
    exact Or.inr ⟨h, fun heq => List.cons_ne_self _ _ heq.symm⟩
  · rw [he] at h ⊢
    rcases h with hstart | ⟨hkeep, hsince⟩
    · exact Or.inl ⟨e, rfl, hstart⟩
    · exact Or.inr ⟨hsince, fun heq => hkeep (List.cons.inj heq).1⟩

end HypertronBridge.Adapter
