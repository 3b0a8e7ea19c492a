import HypertronBridge.Adapter.Lifecycle

namespace HypertronBridge.Adapter

open TransitionSystem Threads History

/-!
# Deliveries across generations

The gate looks at the state word alone.  A raw callback of an older generation is kept out while no
newer one is `Initializing` or `Initialized`; when one is, it is taken for one of that generation,
`old_callback_is_taken`.

* `TornDown` — a teardown that closed the gate in a generation has published;
* `InvokedLate`, `Unheard` — an invocation after that, and one without effect;
* `System.Run.generation` — generations are numbered by the entries of `init`;
* `TornDown.shut_or_newer` — from the closing of the gate on, in every run;
* `old_callbacks_are_unheard` — what becomes of old raw callbacks.
-/

variable {ι κ : Type} [DecidableEq ι] [DecidableEq κ] {bound : κ → VendorFn → Bool}
  {s s' : System ι κ} {b : Action ι κ} {ok : System ι κ → Action ι κ → Prop} {a : κ} {i : ι} {k : Nat}
  {r : Raw} {d : Payload} {rest : List (Frame κ)}

/-- How many `init` calls of `a` have entered. -/
def entries (a : κ) : List (Event κ) → Nat
  | [] => 0
  | .entered b :: older => entries a older + if b = a then 1 else 0
  | _ :: older => entries a older

/-- How many teardowns of `a` have published. -/
def publications (a : κ) (h : List (Event κ)) : Nat :=
  h.countP (fun e => match e with
    | .published b _ => decide (b = a)
    | _ => false)

/-- A teardown of `a` is about to close the gate. -/
def closes (a : κ) : List (Frame κ) → Bool
  | .call b _ _ .close :: _ => decide (b = a)
  | _ => false

/-- A teardown has closed the gate in generation `k`, and has published since, whether it waited or not. -/
def TornDown (bound : κ → VendorFn → Bool) (a : κ) (k : Nat) (s : System ι κ) : Prop :=
  ∃ s₀ i ans s₁, System.Run bound (fun _ _ => True) s₀ ∧ closes a (s₀.stack i) = true ∧
    (s₀.impl a).generation = k ∧ System.step bound (.run i ans) s₀ = some s₁ ∧
    Reaches (System.step bound) (fun _ _ => True) s₁ s ∧
    publications a s₁.history < publications a s.history

/-- A raw callback of generation `k`, invoked after the teardown of `k` has published, has come to
    the gate. -/
def InvokedLate (bound : κ → VendorFn → Bool) (a : κ) (k : Nat) (i : ι) (r : Raw) (d : Payload)
    (rest : List (Frame κ)) (s : System ι κ) : Prop :=
  r.generation = k ∧ s.stack i = .delivery a r d .gate :: rest ∧
    ∃ s₀ s₁, TornDown bound a k s₀ ∧ System.step bound (.deliver i a r d) s₀ = some s₁ ∧
      Reaches (System.step bound) (fun _ _ => True) s₁ s

/-- The caches that deliveries write. -/
def Impl.delivered (x : Impl) : Bool × Bool × SportSample :=
  (x.statusLinked, x.statusAuthority, x.latestSport)

/-- The step leaves the caches alone and ends the invocation, which runs no project callback. -/
structure Unheard (a : κ) (i : ι) (rest : List (Frame κ)) (s s' : System ι κ) : Prop where
  delivered : (s'.impl a).delivered = (s.impl a).delivered
  ended : s'.stack i = rest
  quiet : s'.history = s.history

/-! ### Old callbacks in a new generation -/

/-- It is a run. -/
theorem TornDown.run (h : TornDown bound a k s) : System.Run bound (fun _ _ => True) s := by
  obtain ⟨s₀, i, ans, s₁, hrun, -, -, hs, hlater, -⟩ := h
  have hreach : Reaches (System.step bound) (fun _ _ => True) ({} : System ι κ) s₀ := hrun
  exact (hreach.tail trivial hs).trans hlater

/-- A schedule up to the closing of the gate, and one from there on. -/
theorem TornDown.exists_of_exec (bound : κ → VendorFn → Bool) (a : κ) (k : Nat) (i : ι)
    (before after : List (Action ι κ)) (P : System ι κ → Bool)
    (h : ((System.exec bound (fun _ _ => True) before).bind fun s₀ =>
      (System.step bound (.run i {}) s₀).bind fun s₁ =>
        (execGuarded (System.step bound) (fun _ _ => True) after s₁).map fun s =>
          closes a (s₀.stack i) && decide ((s₀.impl a).generation = k) &&
            decide (publications a s₁.history < publications a s.history) && P s) = some true) :
    ∃ s, TornDown bound a k s ∧ P s = true := by
  obtain ⟨s₀, hbefore, h⟩ := Option.bind_eq_some_iff.mp h
  obtain ⟨s₁, hstep, h⟩ := Option.bind_eq_some_iff.mp h
  obtain ⟨s, hafter, hP⟩ := Option.map_eq_some_iff.mp h
  simp only [Bool.and_eq_true, decide_eq_true_eq] at hP
  obtain ⟨⟨⟨hcloses, hgeneration⟩, hpublished⟩, hP⟩ := hP
  exact ⟨s, ⟨s₀, i, {}, s₁, reaches_of_execGuarded before .refl hbefore, hcloses, hgeneration, hstep,
    reaches_of_execGuarded after .refl hafter, hpublished⟩, hP⟩

/-- A late invocation on a vendor thread. -/
theorem InvokedLate.deliver (htorn : TornDown bound a r.generation s) (hidle : s.stack i = [])
    (hs : System.step bound (.deliver i a r d) s = some s') :
    s' = s.push i (.delivery a r d .gate) ∧ InvokedLate bound a r.generation i r d [] s' := by
  have hpush : s' = s.push i (.delivery a r d .gate) := by
    cases stepped hs with
    | delivered => rfl
  refine ⟨hpush, rfl, ?_, s, s', htorn, hs, .refl⟩
  rw [hpush]
  simp [System.push, hidle]

/-- One generation, up to the closing of the gate in its teardown. -/
def closing (i : ι) : List (Action ι Unit) :=
  .call i () (.init (some 7) 100) :: turns i 10 ++ .call i () .deinit :: turns i 4

/-- The rest of the teardown, and the next generation. -/
def reinitializing (i : ι) : List (Action ι Unit) :=
  turns i 7 ++ .call i () (.init (some 8) 100) :: turns i 10

/-- The first generation's status callback, invoked late, changes the caches of the second. -/
theorem old_callback_is_taken : ¬ ∀ (bound : Unit → VendorFn → Bool) (k : Nat) (i : Fin 2) (r : Raw)
    (d : Payload) (rest : List (Frame Unit)) (s s' : System (Fin 2) Unit) (ans : Answer),
    InvokedLate bound () k i r d rest s → System.step bound (.run i ans) s = some s' →
      Unheard () i rest s s' := by
  intro hall
  obtain ⟨s, htorn, hs⟩ := TornDown.exists_of_exec (fun _ _ => true) () 1 (0 : Fin 2) (closing 0)
    (reinitializing 0)
    (fun s => !(s.impl ()).statusLinked && (s.stack 1).isEmpty &&
      (System.step (fun _ _ => true) (.deliver 1 () ⟨.status, 1⟩ (.status true true)) s).any
        (fun s₁ => (System.step (fun _ _ => true) (.run 1 {}) s₁).any
          (fun s' => (s'.impl ()).statusLinked))) (by decide +kernel)
  simp only [Bool.and_eq_true, Bool.not_eq_true', List.isEmpty_iff, Option.any_eq_true] at hs
  obtain ⟨⟨hunlinked, hempty⟩, s₁, hs₁, s', hs', hlinked⟩ := hs
  obtain ⟨hpush, hlate⟩ := InvokedLate.deliver htorn hempty hs₁
  have hdelivered := (hall _ _ _ _ _ _ _ _ _ hlate hs').delivered
  have hkept : s₁.impl () = s.impl () := by rw [hpush]; rfl
  simp only [Impl.delivered, hkept, hlinked, hunlinked, Prod.mk.injEq] at hdelivered
  exact absurd hdelivered.1 (by simp)

/-! ### Between two generations -/

/-- Only an entry begins a generation. -/
theorem callStep_generation {bound : VendorFn → Bool} {ans : Answer} {s : InCall κ} {pc : CallPc}
    {t : Turn κ} {h : List (Event κ)} (hs : callStep bound ans s pc = some t) :
    t.impl.generation + entries s.adapter h =
      s.impl.generation + entries s.adapter (t.events ++ h) := by
  obtain ⟨a, c, l, th, x⟩ := s
  have hclose : x.closeGate.generation = x.generation := by
    unfold Impl.closeGate
    split_ifs <;> rfl
  cases pc
  all_goals simp only [callStep, openSection, unboundSection, settleSection] at hs
  all_goals repeat' split at hs
  all_goals simp only [Option.some.injEq, Option.map_eq_some_iff, reduceCtorEq] at hs
  case inVendor n =>
    obtain ⟨v, -, rfl⟩ := hs
    simp [InCall.goto, entries]
  all_goals subst hs
  all_goals simp [InCall.goto, InCall.ret, entries, Impl.setCallback, Impl.failInit, Impl.enterInit,
    hclose]
  all_goals omega

/-- **Run lemma.** Generations are numbered by the entries. -/
theorem System.Run.generation (h : System.Run bound ok s) :
    (s.impl a).generation = entries a s.history := by
  have hreach : Reaches (System.step bound) ok ({} : System ι κ) s := h
  refine hreach.invariant (I := fun s => (s.impl a).generation = entries a s.history) rfl ?_
  intro s b s' _ hi _ hs
  cases (stepped hs).local a with
  | elsewhere himpl _ hhistory =>
    rw [himpl, hi]
    rcases hhistory with hkept | ⟨e, he, hadapter⟩
    · rw [hkept]
    · rw [he]
      cases e with
      | entered b => simp [entries, show b ≠ a from hadapter]
      | _ => rfl
  | call hstack ht =>
    have hturn := callStep_generation (h := s.history) ht
    rw [take_impl]
    dsimp only at hturn
    simp only [System.take]
    omega
  | @delivery i ans r d pc rest hstack =>
    have hdeliver : ((s.impl a).deliver d).generation = (s.impl a).generation := by cases d <;> rfl
    rw [take_impl]
    simp only [System.take]
    unfold deliveryStep
    repeat' split
    all_goals simp [entries, hdeliver, hi]

variable [Fintype ι]

/-- **Step lemma, the closing.** A teardown that closes the gate leaves the adapter shut. -/
theorem shut_of_closes {ans : Answer} (hheld : Held s a) (hcloses : closes a (s.stack i) = true)
    (hs : System.step bound (.run i ans) s = some s') : Shut s' a ∧ s'.history = s.history := by
  unfold closes at hcloses
  split at hcloses
  · rename_i b c l rest hstack
    obtain rfl := of_decide_eq_true hcloses
    simp only [System.step, hstack] at hs
    obtain ⟨t, ht, rfl⟩ := Option.map_eq_some_iff.mp hs
    obtain rfl := Option.some.inj ht
    refine ⟨⟨?_, ?_⟩, rfl⟩
    · rw [take_impl]
      show (s.impl b).closeGate.state.accepts = false
      rw [Impl.closeGate_state]
      split_ifs <;> rfl
    · -- it holds the lifecycle mutex, so no `init` is past its check
      have hnone := hheld.pastOpen_below hstack
        (by simp [Frame.lifecycleOf, Frame.callAt, CallPc.holdsLifecycle]) true
      rw [count_after, hnone]
      simp only [InCall.goto, Option.any_some, Frame.pastOpenOf, Frame.callAt]
      split_ifs <;> simp [CallPc.pastOpen]
  · exact absurd hcloses (by simp)

/-- **Run lemma.** From the closing of the gate in a generation on, the adapter is shut or another `init`
    has entered. -/
theorem TornDown.shut_or_newer (htorn : TornDown bound a k s) :
    Reaches (System.step bound) (fun _ _ => True) s s' → Shut s' a ∨ k < (s'.impl a).generation := by
  intro hlater
  have hrun := htorn.run
  obtain ⟨s₀, i, ans, s₁, hrun₀, hcloses, hgeneration, hs, hreach, -⟩ := htorn
  obtain ⟨hshut, hhistory⟩ := shut_of_closes (hrun₀.held a) hcloses hs
  have hfrom : k ≤ entries a s'.history ∧ (entries a s'.history = k → Shut s' a) := by
    refine (hreach.trans hlater).invariant
      (I := fun s => k ≤ entries a s.history ∧ (entries a s.history = k → Shut s a)) ?_ ?_
    · rw [hhistory, ← hrun₀.generation, hgeneration]
      exact ⟨Nat.le_refl _, fun _ => hshut⟩
    · intro s b s' _ hi _ hs
      have hlocal := (stepped hs).local a
      rcases hlocal.history with hkept | ⟨e, he⟩
      · rw [hkept]
        exact ⟨hi.1, fun hk => ((hi.2 hk).step hlocal
          (hkept ▸ fun heq => List.cons_ne_self _ _ heq.symm)).1⟩
      · rw [he]
        by_cases hentry : e = .entered a
        · subst hentry
          simp only [entries, if_true]
          exact ⟨by omega, fun hk => absurd hk (by omega)⟩
        · have hsame : entries a (e :: s.history) = entries a s.history := by
            cases e with
            | entered b => simp [entries, show b ≠ a from fun h => hentry (h ▸ rfl)]
            | _ => rfl
          rw [hsame]
          exact ⟨hi.1, fun hk => ((hi.2 hk).step hlocal
            (he ▸ fun heq => hentry (List.cons.inj heq).1)).1⟩
  have hrun' : System.Run bound (fun _ _ => True) s' := Reaches.trans hrun hlater
  rw [hrun'.generation]
  rcases Nat.lt_or_eq_of_le hfrom.1 with hlt | heq
  · exact Or.inr hlt
  · exact Or.inl (hfrom.2 heq.symm)

/-- A newer generation than `k` is `Initializing` or `Initialized`. -/
def Superseded (a : κ) (k : Nat) (s : System ι κ) : Prop :=
  k < (s.impl a).generation ∧ ((s.impl a).state = .initializing ∨ (s.impl a).state = .initialized)

omit [Fintype ι] in
/-- The gate step of a delivery. -/
theorem gate_step {ans : Answer} (hstack : s.stack i = .delivery a r d .gate :: rest)
    (hs : System.step bound (.run i ans) s = some s') :
    s' = s.take i a rest (deliveryStep a r d (s.thread i) (s.impl a) .gate) := by
  simp only [System.step, hstack, Option.some.injEq] at hs
  exact hs.symm

/-- **Old callbacks.** A raw callback that is invoked after a teardown of its generation has published is
    without effect unless a newer generation is `Initializing` or `Initialized` when the gate is asked; and
    at all times the gate does with it what it would do with one of any other generation. -/
theorem old_callbacks_are_unheard {ans : Answer} (hlate : InvokedLate bound a k i r d rest s)
    (hs : System.step bound (.run i ans) s = some s') :
    (¬ Superseded a k s → Unheard a i rest s s') ∧
      ∀ g s'', System.step bound (.run i ans)
          { s with stack := Function.update s.stack i (.delivery a ⟨r.topic, g⟩ d .gate :: rest) } =
          some s'' → s''.impl = s'.impl ∧ s''.thread = s'.thread ∧ s''.history = s'.history := by
  obtain ⟨-, hstack, s₀, s₁, htorn, hinvoked, hlater⟩ := hlate
  have hfrom := htorn.shut_or_newer ((Reaches.refl.tail trivial hinvoked).trans hlater)
  obtain rfl := gate_step hstack hs
  refine ⟨fun hnone => ?_, fun g s'' hs'' => ?_⟩
  · have hclosed : (s.impl a).state.accepts = false := by
      rcases hfrom with hshut | hnewer
      · exact hshut.closed
      · cases hstate : (s.impl a).state with
        | initializing => exact absurd ⟨hnewer, Or.inl hstate⟩ hnone
        | initialized => exact absurd ⟨hnewer, Or.inr hstate⟩ hnone
        | uninitialized => rfl
        | shuttingDown => rfl
    have hgate : deliveryStep a r d (s.thread i) (s.impl a) .gate =
        { impl := s.impl a, thread := s.thread i, next := none } := by
      simp only [deliveryStep, hclosed, Bool.false_eq_true, if_false]
    rw [hgate]
    exact ⟨by rw [take_impl], by simp [System.take], rfl⟩
  · have hstack'' : Function.update s.stack i (.delivery a ⟨r.topic, g⟩ d .gate :: rest) i =
        .delivery a ⟨r.topic, g⟩ d .gate :: rest := Function.update_self ..
    obtain rfl := gate_step (s := { s with stack := _ }) hstack'' hs''
    have hsame : (deliveryStep a ⟨r.topic, g⟩ d (s.thread i) (s.impl a) .gate).impl =
        (deliveryStep a r d (s.thread i) (s.impl a) .gate).impl ∧
        (deliveryStep a ⟨r.topic, g⟩ d (s.thread i) (s.impl a) .gate).thread =
        (deliveryStep a r d (s.thread i) (s.impl a) .gate).thread ∧
        (deliveryStep a ⟨r.topic, g⟩ d (s.thread i) (s.impl a) .gate).events =
        (deliveryStep a r d (s.thread i) (s.impl a) .gate).events := by
      simp only [deliveryStep]
      split <;> simp
    simp only [System.take, hsame, and_self]

/-- The second generation, after the teardown of the first, up to a failure of its `init`. -/
def failingAgain (i : ι) : List (Action ι Unit) :=
  turns i 7 ++ .call i () (.init (some 8) 100) :: turns i 10 { code := sdkResFailed }

/-- The status callback of the first generation comes to nothing when the `init` of the second has failed. -/
theorem old_callbacks_are_unheard_failed : ∃ s s' : System (Fin 2) Unit,
    InvokedLate (fun _ _ => true) () 1 1 ⟨.status, 1⟩ (.status true true) [] s ∧
      (s.impl ()).generation = 2 ∧
      System.step (fun _ _ => true) (.run 1 {}) s = some s' ∧ Unheard () 1 [] s s' := by
  obtain ⟨s, htorn, hs⟩ := TornDown.exists_of_exec (fun _ _ => true) () 1 (0 : Fin 2) (closing 0)
    (failingAgain 0)
    (fun s => decide ((s.impl ()).state = .uninitialized) && decide ((s.impl ()).generation = 2) &&
      (s.stack 1).isEmpty &&
      (System.step (fun _ _ => true) (.deliver 1 () ⟨.status, 1⟩ (.status true true)) s).any
        (fun s₁ => (System.step (fun _ _ => true) (.run 1 {}) s₁).isSome)) (by decide +kernel)
  simp only [Bool.and_eq_true, decide_eq_true_eq, List.isEmpty_iff, Option.any_eq_true,
    Option.isSome_iff_exists] at hs
  obtain ⟨⟨⟨hstate, hgeneration⟩, hempty⟩, s₁, hs₁, s', hs'⟩ := hs
  obtain ⟨hpush, hlate⟩ := InvokedLate.deliver htorn hempty hs₁
  have hkept : s₁.impl () = s.impl () := by rw [hpush]; rfl
  refine ⟨s₁, s', hlate, hkept ▸ hgeneration, hs', (old_callbacks_are_unheard hlate hs').1 ?_⟩
  rintro ⟨-, hopen⟩
  rw [hkept, hstate] at hopen
  exact absurd hopen (by simp)

end HypertronBridge.Adapter
