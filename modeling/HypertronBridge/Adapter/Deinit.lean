import HypertronBridge.Adapter.Lifecycle

namespace HypertronBridge.Adapter

open TransitionSystem Threads History

/-!
# After `deinit` nothing runs

`ensure_uninitialized` returns when it finds the adapter uninitialized with nothing in flight.  A
teardown that found nothing to wait for publishes `Uninitialized` in a section of its own, and an
`init` that has entered in between is overwritten: `deinit` returns under its feet, and its
callbacks run afterwards, `callbacks_run_after_deinit`.

* `NothingRuns` — at the return check nothing runs, and nothing starts before the next entry;
* `nothing_runs_after_deinit` — the result where a publication without a wait never overwrites
  `Initializing`.
-/

variable {ι κ : Type} [DecidableEq ι] [DecidableEq κ] {bound : κ → VendorFn → Bool}
  {s s' : System ι κ} {b : Action ι κ} {ok : System ι κ → Action ι κ → Prop} {a : κ}

/-- A project callback of `a` executes. -/
def Frame.executes (a : κ) : Frame κ → Bool
  | .delivery b _ _ (.executing _ _) => decide (b = a)
  | _ => false

/-- `deinit` has just decided to return. -/
def decided (a : κ) (h : List (Event κ)) : Prop := h.head? = some (.returnCheck a .deinit)

/-- When `deinit` decides to return no project callback executes, and none starts before some
    `init` enters. -/
structure NothingRuns (bound : κ → VendorFn → Bool) (s : System ι κ) (a : κ) : Prop where
  executes : ∀ b s', System.step bound b s = some s' →
    s'.history = .returnCheck a .deinit :: s.history → ∀ i, ∀ f ∈ s.stack i, f.executes a = false
  starts : Historically (fun e older => ∀ r callback, e = .callbackStarted a r callback →
    ¬ NoEntrySince a (decided a) older) s.history

/-! ### The defect -/

/-- No `init` has entered since `deinit` decided to return. -/
def decidedSince (a : κ) : List (Event κ) → Bool
  | [] => false
  | .returnCheck b c :: older => decide (b = a) && decide (c = .deinit) || decidedSince a older
  | .entered b :: older => decide (b ≠ a) && decidedSince a older
  | _ :: older => decidedSince a older

theorem noEntrySince_of_decidedSince {h : List (Event κ)} (hd : decidedSince a h = true) :
    NoEntrySince a (decided a) h := by
  induction h with
  | nil => exact absurd hd (by simp [decidedSince])
  | cons e h ih =>
    cases e with
    | returnCheck b c =>
      simp only [decidedSince, Bool.or_eq_true, Bool.and_eq_true, decide_eq_true_eq] at hd
      rcases hd with ⟨rfl, rfl⟩ | hd
      · exact Since.now rfl
      · exact Since.cons (ih hd) (by simp)
    | entered b =>
      simp only [decidedSince, Bool.and_eq_true, decide_eq_true_eq] at hd
      exact Since.cons (ih hd.2) (by simp [hd.1])
    | _ => exact Since.cons (ih hd) (by simp)

/-- An `init` of thread `i` fails while its status callback runs on thread `j`; `deinit` finds that
    callback in flight, its teardown no longer does; an `init` of thread `k` enters before the
    publication. -/
def overtaken (i j k : ι) : List (Action ι Unit) :=
  .call i () (.init (some 7) 100) :: turns i 5 ++ linkedReport j () :: turns j 2 ++
    turns i 1 { code := sdkResFailed } ++ turns i 4 ++ .call i () .deinit :: turns i 3 ++ turns j 2 ++
    turns i 3 ++ .call k () (.init (some 8) 100) :: turns k 5 ++ turns i 2 ++ turns k 4 ++
    linkedReport j () :: turns j 2

/-- **The defect.** A callback starts after `deinit` has decided to return, with no `init` entering
    in between. -/
theorem callbacks_run_after_deinit : ¬ ∀ (bound : Unit → VendorFn → Bool) (s : System (Fin 3) Unit),
    System.Run bound (fun _ _ => True) s → NothingRuns bound s () := by
  intro hall
  obtain ⟨s, hrun, hs⟩ := System.exists_run_of_exec (fun _ _ => true) (fun _ _ => True)
    (overtaken (0 : Fin 3) 1 2)
    (fun s => decide (s.history.head? = some (.callbackStarted () ⟨.status, 1⟩ 8)) &&
      decidedSince () s.history.tail) (by decide +kernel)
  simp only [Bool.and_eq_true, decide_eq_true_eq, List.head?_eq_some_iff] at hs
  obtain ⟨⟨older, hhistory⟩, hdecided⟩ := hs
  rw [hhistory, List.tail_cons] at hdecided
  have hstarts := (hall _ s hrun).starts
  rw [hhistory] at hstarts
  exact hstarts.1 _ _ rfl (noEntrySince_of_decidedSince hdecided)

/-! ### Where no entry is overwritten -/

variable [Fintype ι]

/-- Since `deinit` decided to return, the gate is shut and nothing is in flight. -/
structure AfterDeinit (s : System ι κ) (a : κ) : Prop where
  shut : NoEntrySince a (decided a) s.history → Shut s a ∧ (s.impl a).inFlight = 0
  starts : Historically (fun e older => ∀ r callback, e = .callbackStarted a r callback →
    ¬ NoEntrySince a (decided a) older) s.history

/-- **Step lemma, the decision.** -/
theorem Past.decides (h : Past s a true) (hs : Local bound s a b s')
    (hdecided : s'.history = .returnCheck a .deinit :: s.history) :
    (s.impl a).inFlight = 0 ∧ Shut s' a ∧ (s'.impl a).inFlight = 0 := by
  rcases hs.event hdecided rfl with ⟨-, i, ans, c, l, pc, rest, t, hstack, ht, hevents, rfl⟩ | ⟨hby, -⟩
  · cases callStep_state ht with
    | keep _ _ _ hquiet => exact absurd rfl ((hquiet _ (by simp [hevents])).2.2 .deinit)
    | enter _ _ _ _ _ he | publish _ _ _ _ _ he | call _ _ _ _ _ he | settle _ _ _ _ he
    | close _ _ _ _ he =>
      rw [he] at hevents
      exact absurd hevents (by simp)
    | check hpc htorn himpl hpast _ _ =>
      simp only [Impl.isTornDown, Bool.and_eq_true, beq_iff_eq, Bool.not_eq_true'] at htorn
      obtain ⟨⟨hstate, -⟩, hflight⟩ := htorn
      have hidle : count (Frame.pastOpenOf a true) s.stack = 0 := by
        by_contra hopen
        rw [h (by omega)] at hstate
        exact absurd hstate (by simp [State.during])
      rw [count_before hstack] at hidle
      refine ⟨hflight, ⟨?_, ?_⟩, ?_⟩
      · rw [take_impl, himpl, hstate]
        rfl
      · rw [count_after, hpast true]
        simp only [Bool.toNat_false]
        omega
      · rw [take_impl, himpl, hflight]
  · exact absurd hby (by simp [Event.byDelivery])

/-- A callback starts in a step of a delivery that is in flight. -/
theorem Held.starts (h : Held s a) (hs : Local bound s a b s') {r : Raw} {callback : CallbackId}
    (hstart : s'.history = .callbackStarted a r callback :: s.history) :
    0 < (s.impl a).inFlight := by
  rcases hs.event hstart rfl with ⟨hby, -⟩ | ⟨-, i, r', d, pc, rest, hstack, hevents, -⟩
  · exact absurd hby (by simp [Event.byDelivery])
  · rw [← h.inFlight]
    refine count_pos.mpr ⟨i, _, by rw [hstack]; exact List.mem_cons_self, ?_⟩
    cases pc with
    | gate =>
      simp only [deliveryStep] at hevents
      split at hevents <;> exact absurd hevents (by simp)
    | _ => simp [Frame.inFlightOf]

/-- **Step lemma.** -/
theorem AfterDeinit.step (h : AfterDeinit s a) (hheld : Held s a) (hpast : Past s a true)
    (hs : Local bound s a b s') : AfterDeinit s' a := by
  constructor
  · intro hsince
    rcases hsince.step hs.history with ⟨e, he, hstart⟩ | ⟨hold, hentry⟩
    · have hdecided : e = .returnCheck a .deinit := Option.some.inj hstart
      rw [hdecided] at he
      exact (hpast.decides hs he).2
    · obtain ⟨hshut, hflight⟩ := h.shut hold
      obtain ⟨hshut', hle⟩ := hshut.step hs hentry
      exact ⟨hshut', by omega⟩
  · rcases hs.history with hkept | ⟨e, he⟩
    · rw [hkept]
      exact h.starts
    · rw [he]
      refine ⟨fun r callback hstart hsince => ?_, h.starts⟩
      rw [hstart] at he
      have hpos := hheld.starts hs he
      rw [(h.shut hsince).2] at hpos
      exact absurd hpos (Nat.lt_irrefl 0)

/-- **Run lemma.** -/
theorem System.Run.afterDeinit
    (h : System.Run bound (fun s b => s.publishesOver a b ≠ some .initializing) s) :
    AfterDeinit s a := by
  have hreach : Reaches (System.step bound)
    (fun s b => s.publishesOver a b ≠ some .initializing) ({} : System ι κ) s := h
  refine hreach.invariant (I := fun s => AfterDeinit s a) ⟨fun hsince => ?_, trivial⟩ ?_
  · exact absurd hsince (by simp [NoEntrySince, Since, decided])
  · intro s b s' (hrun : System.Run bound _ s) hi hok hs
    exact hi.step (hrun.held a) (hrun.past (fun _ _ hguard => hguard)) ((stepped hs).local a)

/-- **After `deinit` nothing runs.** In every run in which no teardown of `a` that has not waited
    publishes over `Initializing`, no project callback executes when `deinit` decides to return,
    and none starts before some `init` enters after that. -/
theorem nothing_runs_after_deinit
    (hrun : System.Run bound (fun s b => s.publishesOver a b ≠ some .initializing) s) :
    NothingRuns bound s a := by
  have hpast : Past s a true := hrun.past (fun _ _ hguard => hguard)
  refine ⟨fun b s' hs hdecided => ?_, hrun.afterDeinit.starts⟩
  have hflight := (hpast.decides ((stepped hs).local a) hdecided).1
  have hnone := count_eq_zero.mp ((hrun.held a).inFlight.trans hflight)
  intro i f hf
  have hcounted := hnone i f hf
  cases f with
  | call => rfl
  | delivery b' r d pc => cases pc <;> first | rfl | exact hcounted

/-- The same threads, with the publication before the second `init`. -/
def inTurn (i j k : ι) : List (Action ι Unit) :=
  .call i () (.init (some 7) 100) :: turns i 5 ++ linkedReport j () :: turns j 2 ++
    turns i 1 { code := sdkResFailed } ++ turns i 4 ++ .call i () .deinit :: turns i 3 ++ turns j 2 ++
    turns i 5 ++ .call k () (.init (some 8) 100) :: turns k 5 ++ turns k 4 ++
    linkedReport j () :: turns j 2

/-- `deinit` returns, another `init` enters, and its callback runs. -/
theorem nothing_runs_after_deinit_reinit :
    ∃ s : System (Fin 3) Unit, System.Run (fun _ _ => true)
        (fun s b => s.publishesOver () b ≠ some .initializing) s ∧
      (∃ older, s.history = .callbackStarted () ⟨.status, 1⟩ 8 :: older ∧
        .returnCheck () .deinit ∈ older) ∧ NothingRuns (fun _ _ => true) s () := by
  obtain ⟨s, hrun, hs⟩ := System.exists_run_of_exec (fun _ _ => true)
    (fun s b => s.publishesOver () b ≠ some .initializing) (inTurn (0 : Fin 3) 1 2)
    (fun s => decide (s.history.head? = some (.callbackStarted () ⟨.status, 1⟩ 8)) &&
      decide (.returnCheck () .deinit ∈ s.history.tail)) (by decide +kernel)
  simp only [Bool.and_eq_true, decide_eq_true_eq, List.head?_eq_some_iff] at hs
  obtain ⟨⟨older, hhistory⟩, hcheck⟩ := hs
  rw [hhistory, List.tail_cons] at hcheck
  exact ⟨s, hrun, ⟨older, hhistory, hcheck⟩, nothing_runs_after_deinit hrun⟩

end HypertronBridge.Adapter
