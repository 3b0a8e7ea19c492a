import HypertronBridge.Adapter.Deinit

namespace HypertronBridge.Adapter

open TransitionSystem

/-!
# Re-entry from project callbacks

A public call is turned away when the thread's marker names its adapter or its adapter has a vendor
call in progress on the thread.  The marker names one adapter only: where a callback that a vendor
thread runs for `a` calls another adapter, and that one's vendor delivers to it there, a call on `a` is
not recognised, `reentry_is_missed`.

* `innermost`, `scopes` — what the markers of a thread are to hold, read off its stack;
* `Marked`, `System.Run.marked` — they hold it, in every run;
* `Answers` — a public call that is turned away;
* `reentry_recognised` — the result where the innermost callback is one of the same adapter, or a
  vendor call of that adapter is in progress.
-/

variable {ι κ : Type} [DecidableEq ι] [DecidableEq κ] {bound : κ → VendorFn → Bool}
  {s s' : System ι κ} {b : Action ι κ} {ok : System ι κ → Action ι κ → Prop} {i : ι} {a : κ}
  {rest : List (Frame κ)} {t : Turn κ} {f : Frame κ}

/-! ### The markers of a thread -/

/-- The adapter whose project callback a thread executes, innermost. -/
def innermost : List (Frame κ) → Option κ
  | [] => none
  | .delivery a _ _ (.executing _ _) :: _ => some a
  | _ :: rest => innermost rest

/-- The call stands between the push and the pop of `VendorCallScope`. -/
def CallPc.inScope : CallPc → Bool
  | .vendor _ | .inVendor _ => true
  | _ => false

/-- The adapter of a frame in a vendor call. -/
def Frame.scope : Frame κ → Option κ
  | .call a _ _ pc => if pc.inScope then some a else none
  | .delivery _ _ _ _ => none

/-- The adapters that have a vendor call in progress on a thread, innermost first. -/
def scopes (stack : List (Frame κ)) : List κ := stack.filterMap Frame.scope

/-- Every callback that executes holds the marker it found. -/
def Saved : List (Frame κ) → Prop
  | [] => True
  | .delivery _ _ _ (.executing _ previous) :: rest => previous = innermost rest ∧ Saved rest
  | _ :: rest => Saved rest

/-- The markers of thread `i` are as its stack says. -/
structure Marked (s : System ι κ) (i : ι) : Prop where
  active : (s.thread i).active = innermost (s.stack i)
  vendorFrames : (s.thread i).vendorFrames = scopes (s.stack i)
  saved : Saved (s.stack i)

omit [DecidableEq ι] [DecidableEq κ] in
theorem scopes_cons : scopes (f :: rest) = f.scope.toList ++ scopes rest := by
  unfold scopes
  cases hf : f.scope <;> simp [hf]

/-- A public call keeps the marker of callbacks, and its own vendor frame while it is in a vendor
    call. -/
theorem callStep_markers {bound : VendorFn → Bool} {ans : Answer} {s : InCall κ} {pc : CallPc}
    (below : List κ) (hs : callStep bound ans s pc = some t)
    (hframes : s.thread.vendorFrames = (Frame.scope (s.frame pc)).toList ++ below) :
    t.thread.active = s.thread.active ∧
      t.thread.vendorFrames = (t.next.bind Frame.scope).toList ++ below := by
  obtain ⟨a, c, l, th, x⟩ := s
  cases pc
  all_goals simp only [InCall.frame, Frame.scope, CallPc.inScope, if_true, if_false,
    Bool.false_eq_true, Option.toList_none, Option.toList_some, List.nil_append,
    List.singleton_append] at hframes
  all_goals simp only [callStep, openSection, unboundSection, settleSection] at hs
  all_goals repeat' split at hs
  all_goals simp only [Option.some.injEq, Option.map_eq_some_iff, reduceCtorEq] at hs
  case inVendor n =>
    obtain ⟨v, -, rfl⟩ := hs
    simp [InCall.goto, Frame.scope, CallPc.inScope, hframes]
  all_goals subst hs
  all_goals simp [InCall.goto, InCall.ret, Frame.scope, CallPc.inScope, hframes]

/-- **Step lemma.** -/
theorem Marked.step (h : ∀ i, Marked s i) (hs : Stepped bound s b s') :
    ∀ j, Marked s' j := by
  intro j
  obtain ⟨hactive, hframes, hsaved⟩ := h j
  -- A thread that takes no part keeps stack and markers.
  have hother : ∀ {i : ι} {a : κ} {rest : List (Frame κ)} {t : Turn κ}, j ≠ i →
      Marked (s.take i a rest t) j := by
    intro i a rest t hj
    refine ⟨?_, ?_, ?_⟩
    all_goals simp only [System.take, Function.update_of_ne hj]
    · exact hactive
    · exact hframes
    · exact hsaved
  have hpush : ∀ {i : ι} {f : Frame κ}, f.isNew → Marked (s.push i f) j := by
    intro i f hf
    by_cases hj : j = i
    · subst hj
      have hstack : (s.push j f).stack j = f :: s.stack j := Function.update_self ..
      have hmarks : innermost (f :: s.stack j) = innermost (s.stack j) ∧ f.scope = none ∧
          (Saved (f :: s.stack j) ↔ Saved (s.stack j)) := by
        cases f with
        | call =>
          obtain ⟨rfl, rfl⟩ := hf
          exact ⟨rfl, rfl, Iff.rfl⟩
        | delivery =>
          obtain rfl := hf
          exact ⟨rfl, rfl, Iff.rfl⟩
      refine ⟨?_, ?_, ?_⟩
      · rw [hstack, hmarks.1]
        exact hactive
      · rw [hstack, scopes_cons, hmarks.2.1]
        exact hframes
      · rw [hstack, hmarks.2.2]
        exact hsaved
    · have hstack : (s.push i f).stack j = s.stack j := Function.update_of_ne hj ..
      exact ⟨hactive.trans (by rw [hstack]), hframes.trans (by rw [hstack]), by rw [hstack]; exact hsaved⟩
  cases hs with
  | called => exact hpush ⟨rfl, rfl⟩
  | delivered => exact hpush rfl
  | @call i ans a c l pc rest t hstack ht =>
    by_cases hj : j = i
    · subst hj
      rw [hstack] at hactive hframes hsaved
      rw [scopes_cons] at hframes
      obtain ⟨hkept, hnext⟩ := callStep_markers (scopes rest) ht hframes
      refine ⟨?_, ?_, ?_⟩
      all_goals simp only [System.take, Function.update_self]
      · rw [hkept]
        cases hn : t.next with
        | none => exact hactive
        | some g =>
          obtain ⟨l', pc', rfl⟩ := callStep_of ht g hn
          exact hactive
      · rw [hnext]
        cases hn : t.next with
        | none => rfl
        | some g => exact scopes_cons.symm
      · cases hn : t.next with
        | none => exact hsaved
        | some g =>
          obtain ⟨l', pc', rfl⟩ := callStep_of ht g hn
          exact hsaved
    · exact hother hj
  | @delivery i ans a r d pc rest hstack =>
    by_cases hj : j = i
    · subst hj
      rw [hstack] at hactive hframes hsaved
      refine ⟨?_, ?_, ?_⟩
      all_goals simp only [System.take, Function.update_self]
      all_goals unfold deliveryStep
      all_goals repeat' split
      all_goals simp_all [innermost, scopes_cons, Frame.scope, Saved]
    · exact hother hj

/-- **Run lemma.** -/
theorem System.Run.marked (h : System.Run bound ok s) (i : ι) : Marked s i := by
  have hreach : Reaches (System.step bound) ok ({} : System ι κ) s := h
  exact hreach.invariant (I := fun s => ∀ i, Marked s i) (fun _ => ⟨rfl, rfl, trivial⟩)
    (fun _ _ _ _ hi _ hs => Marked.step hi (stepped hs)) i

/-! ### Calls that are turned away -/

/-- The sections of a call that is turned away: the check, and what `deinit` and `snapshot` do then. -/
def CallPc.answers (c : ApiCall) : CallPc → Bool
  | .enter => true
  | .deferRequest => c == .deinit
  | .cachedSnapshot => c == .snapshot
  | _ => false

/-- What such a call returns: `deinit` nothing, `snapshot` the caches, any other a `Running`
    failure. -/
def ApiCall.reentrantReturn (x : Impl) : ApiCall → Return
  | .deinit => .done
  | .snapshot => .snapshot (cachedSnapshot x.toCaches)
  | _ => .result reentrantFailure

/-- What such a call changes: `deinit` records the request. -/
def ApiCall.reentrantEffect (x : Impl) : ApiCall → Impl
  | .deinit => { x with deferredTeardown := true }
  | _ => x

/-- The turn of a call that is turned away: it goes from the check to its answer, or it returns. -/
inductive Answers (a : κ) (c : ApiCall) (l : CallLocals) (th : ThreadLocals κ) (x : Impl) :
    CallPc → Turn κ → Prop
  | checks (pc : CallPc) (hpc : pc ≠ .enter) (hanswers : pc.answers c = true) :
      Answers a c l th x .enter { impl := x, thread := th, next := some (.call a c l pc) }
  | returns (pc : CallPc) :
      Answers a c l th x pc
        { impl := c.reentrantEffect x, thread := th, next := none
          events := [.returned a c (c.reentrantReturn x)] }

/-- While a thread executes a project callback of `a`, at any depth, the public calls that it makes on
    `a` are turned away: none is past its check, and none waits. -/
structure ReentryRecognised (bound : κ → VendorFn → Bool) (s : System ι κ) (a : κ) : Prop where
  frames : ∀ i above below r d callback previous c l pc,
    s.stack i = above ++ .delivery a r d (.executing callback previous) :: below →
      Frame.call a c l pc ∈ above → pc.answers c = true
  turns : ∀ i ans c l pc rest, s.stack i = .call a c l pc :: rest → rest.any (Frame.executes a) = true →
    ∃ t, System.step bound (.run i ans) s = some (s.take i a rest t) ∧
      Answers a c l (s.thread i) (s.impl a) pc t

/-! ### The defect -/

/-- A vendor thread runs the status callback of `a`, which calls `b`; the vendor of `b` delivers a
    status to it in that call, and its callback calls `a`. -/
def betweenAdapters (i : ι) (a b : κ) : List (Action ι κ) :=
  .call i a (.init (some 7) 100) :: turns i 10 ++ .call i b (.init (some 8) 100) :: turns i 10 ++
    linkedReport i a :: turns i 2 ++ .call i b (.heartbeat 20) :: turns i 5 ++
    linkedReport i b :: turns i 2 ++ .call i a (.heartbeat 20) :: turns i 5

/-- A vendor call of `a`, in a callback of `b`, in a call on `b`, in a callback of `a`. -/
def crossed (a b : κ) : List (Frame κ) → Bool
  | [.call a₁ _ _ pc, .delivery b₁ _ _ (.executing _ _), .call b₂ _ _ _,
      .delivery a₂ _ _ (.executing _ _)] =>
      decide (a₁ = a ∧ b₁ = b ∧ b₂ = b ∧ a₂ = a ∧ pc = .inVendor 0)
  | _ => false

/-- **The defect.** A vendor call of the adapter whose callback the thread executes. -/
theorem reentry_is_missed : ¬ ∀ (bound : Fin 2 → VendorFn → Bool) (s : System (Fin 1) (Fin 2)),
    System.Run bound (fun _ _ => True) s → ReentryRecognised bound s 0 := by
  intro hall
  obtain ⟨s, hrun, hs⟩ := System.exists_run_of_exec (fun _ _ => true) (fun _ _ => True)
    (betweenAdapters (0 : Fin 1) (0 : Fin 2) 1) (fun s => crossed 0 1 (s.stack 0)) (by decide +kernel)
  have hframes := (hall _ s hrun).frames 0
  unfold crossed at hs
  split at hs
  · rename_i c l pc b r d callback previous b' c' l' pc' a r' d' callback' previous' hstack
    obtain ⟨rfl, rfl, rfl, rfl, rfl⟩ := of_decide_eq_true hs
    have hanswers := hframes
      [.call 0 c l (.inVendor 0), .delivery 1 r d (.executing callback previous), .call 1 c' l' pc'] []
      r' d' callback' previous' c l (.inVendor 0) hstack List.mem_cons_self
    exact absurd hanswers (by simp [CallPc.answers])
  · exact absurd hs (by simp)

/-! ### Where re-entry is recognised -/

/-- Of the callbacks on a stack the innermost is one of `a`, or a vendor call of `a` is in progress. -/
def Within (a : κ) (stack : List (Frame κ)) : Prop := innermost stack = some a ∨ a ∈ scopes stack

instance (stack : List (Frame κ)) : Decidable (Within a stack) := inferInstanceAs (Decidable (_ ∨ _))

/-- A public call on `a` that is made while the thread executes a callback of `a` comes from within:
    from such a callback itself, or from inside a vendor call of `a`. -/
def System.CallsFromWithin (a : κ) (s : System ι κ) : Action ι κ → Prop
  | .call i a' _ => a' = a → (s.stack i).any (Frame.executes a) = true → Within a (s.stack i)
  | _ => True

instance (s : System ι κ) (b : Action ι κ) : Decidable (System.CallsFromWithin a s b) := by
  cases b <;> unfold System.CallsFromWithin <;> infer_instance

/-- The calls on `a` above an executing callback of `a` come from within, and are being turned away. -/
def Nested (a : κ) : List (Frame κ) → Prop
  | [] => True
  | .call b c _ pc :: rest =>
      (b = a → rest.any (Frame.executes a) = true → pc.answers c = true ∧ Within a rest) ∧
        Nested a rest
  | .delivery _ _ _ _ :: rest => Nested a rest

/-- A call from within is turned away. -/
theorem callStep_answers (bound : VendorFn → Bool) (ans : Answer) {c : ApiCall} {l : CallLocals}
    {th : ThreadLocals κ} {x : Impl} {pc : CallPc} (hcontext : th.inCallbackContext a = true)
    (hpc : pc.answers c = true) :
    ∃ t, callStep bound ans ⟨a, c, l, th, x⟩ pc = some t ∧ Answers a c l th x pc t := by
  cases pc with
  | enter =>
    refine ⟨_, rfl, ?_⟩
    dsimp only
    rw [if_pos hcontext]
    cases c
    case deinit => exact .checks .deferRequest (by simp) rfl
    case snapshot => exact .checks .cachedSnapshot (by simp) rfl
    all_goals exact .returns .enter
  | deferRequest =>
    obtain rfl : c = .deinit := beq_iff_eq.mp hpc
    exact ⟨_, rfl, .returns .deferRequest⟩
  | cachedSnapshot =>
    obtain rfl : c = .snapshot := beq_iff_eq.mp hpc
    exact ⟨_, rfl, .returns .cachedSnapshot⟩
  | _ => exact absurd hpc (by simp [CallPc.answers])

omit [DecidableEq ι] in
/-- The markers of the thread tell a call from within. -/
theorem Marked.context (h : Marked s i) {c : ApiCall} {l : CallLocals} {pc : CallPc}
    (hstack : s.stack i = .call a c l pc :: rest) (hwithin : Within a rest) :
    (s.thread i).inCallbackContext a = true := by
  obtain ⟨hactive, hframes, -⟩ := h
  rw [hstack] at hactive hframes
  rw [scopes_cons] at hframes
  simp only [ThreadLocals.inCallbackContext, ThreadLocals.inVendorFrames, Bool.or_eq_true, beq_iff_eq,
    decide_eq_true_eq]
  rcases hwithin with hinner | hmem
  · exact Or.inl (hactive.trans hinner)
  · exact Or.inr (by rw [hframes]; exact List.mem_append_right _ hmem)

/-- **Step lemma.** -/
theorem Nested.step (h : ∀ i, Nested a (s.stack i)) (hmarked : ∀ i, Marked s i)
    (hok : s.CallsFromWithin a b) (hs : Stepped bound s b s') : ∀ j, Nested a (s'.stack j) := by
  intro j
  have hother : ∀ {i : ι} {l : List (Frame κ)}, (j = i → Nested a l) →
      Nested a (Function.update s.stack i l j) := by
    intro i l hl
    by_cases hj : j = i
    · subst hj
      rw [Function.update_self]
      exact hl rfl
    · rw [Function.update_of_ne hj]
      exact h j
  cases hs with
  | @called i b c hmay =>
    refine hother (fun _ => ⟨fun hb hany => ⟨rfl, ?_⟩, h i⟩)
    exact hok hb hany
  | @delivered i => exact hother (fun _ => h i)
  | @call i ans b c l pc rest t hstack ht =>
    have hi := h i
    rw [hstack] at hi
    obtain ⟨htop, hrest⟩ := hi
    refine hother (fun _ => ?_)
    cases hn : t.next with
    | none => exact hrest
    | some g =>
      obtain ⟨l', pc', rfl⟩ := callStep_of ht g hn
      refine ⟨fun hb hany => ?_, hrest⟩
      obtain rfl : b = a := hb
      obtain ⟨hanswers, hwithin⟩ := htop rfl hany
      obtain ⟨t', ht', hturn⟩ :=
        callStep_answers (bound b) ans ((hmarked i).context hstack hwithin) hanswers
      rw [ht'] at ht
      obtain rfl := Option.some.inj ht
      cases hturn with
      | checks pc'' _ hpc'' =>
        simp only [Option.some.injEq, Frame.call.injEq, true_and] at hn
        rw [← hn.2]
        exact ⟨hpc'', hwithin⟩
      | returns => exact absurd hn (by simp)
  | @delivery i ans b r d pc rest hstack =>
    have hi : Nested a rest := by
      have htop := h i
      rw [hstack] at htop
      exact htop
    refine hother (fun _ => ?_)
    unfold deliveryStep
    repeat' split
    all_goals exact hi

/-- **Run lemma.** -/
theorem System.Run.nested (h : System.Run bound (System.CallsFromWithin a) s) :
    ∀ i, Nested a (s.stack i) := by
  have hreach : Reaches (System.step bound) (System.CallsFromWithin a) ({} : System ι κ) s := h
  refine hreach.invariant (I := fun s => ∀ i, Nested a (s.stack i)) ?_ ?_
  · exact fun _ => trivial
  · intro s b s' (hrun : System.Run bound (System.CallsFromWithin a) s) hi hok hs
    exact Nested.step hi hrun.marked hok (stepped hs)

omit [DecidableEq ι] in
/-- What the nesting says of one call. -/
theorem Nested.of_mem {above : List (Frame κ)} (h : Nested a (above ++ rest))
    (hrest : rest.any (Frame.executes a) = true) {c : ApiCall} {l : CallLocals} {pc : CallPc}
    (hmem : Frame.call a c l pc ∈ above) : pc.answers c = true := by
  induction above with
  | nil => exact absurd hmem (by simp)
  | cons f above ih =>
    have hany : (above ++ rest).any (Frame.executes a) = true := by simp [hrest]
    rcases List.mem_cons.mp hmem with rfl | hmem
    · exact (h.1 rfl hany).1
    · refine ih ?_ hmem
      cases f with
      | call => exact h.2
      | delivery => exact h

/-- **Re-entry is recognised.** In every run in which the public calls on `a` that are made while the
    thread executes a callback of `a` come from within, every such call is turned away: it is never
    past its check, each of its turns is taken at once, calls no vendor, takes no mutex, and returns
    the `Running` failure, the caches, or, for `deinit`, only records the request. -/
theorem reentry_recognised (hrun : System.Run bound (System.CallsFromWithin a) s) :
    ReentryRecognised bound s a := by
  constructor
  · intro i above below r d callback previous c l pc hstack hmem
    have hnested := hrun.nested i
    rw [hstack] at hnested
    exact hnested.of_mem (by simp [Frame.executes]) hmem
  · intro i ans c l pc rest hstack hany
    have hnested := hrun.nested i
    rw [hstack] at hnested
    obtain ⟨hanswers, hwithin⟩ := hnested.1 rfl hany
    obtain ⟨t, ht, hturn⟩ :=
      callStep_answers (bound a) ans ((hrun.marked i).context hstack hwithin) hanswers
    refine ⟨t, ?_, hturn⟩
    simp only [System.step, hstack, ht, Option.map_some]

/-- The vendor of `a` delivers a status in its `init`; from there the nesting goes on as above. -/
def withinInit (i : ι) (a b : κ) : List (Action ι κ) :=
  .call i b (.init (some 8) 100) :: turns i 10 ++ .call i a (.init (some 7) 100) :: turns i 5 ++
    linkedReport i a :: turns i 2 ++ .call i b (.heartbeat 20) :: turns i 5 ++
    linkedReport i b :: turns i 2 ++ .call i a (.heartbeat 20) :: turns i 1

/-- The call on adapter 0 is turned away. -/
theorem reentry_recognised_nested : ∃ s : System (Fin 1) (Fin 2),
    System.Run (fun _ _ => true) (System.CallsFromWithin 0) s ∧
      (s.stack 0).any (Frame.executes 0) = true ∧
      (∃ older, s.history = .returned 0 (.heartbeat 20) (.result reentrantFailure) :: older) ∧
      ReentryRecognised (fun _ _ => true) s 0 := by
  obtain ⟨s, hrun, hs⟩ := System.exists_run_of_exec (fun _ _ => true) (System.CallsFromWithin 0)
    (withinInit (0 : Fin 1) (0 : Fin 2) 1)
    (fun s => (s.stack 0).any (Frame.executes 0) && decide (s.history.head? =
      some (.returned 0 (.heartbeat 20) (.result reentrantFailure)))) (by decide +kernel)
  simp only [Bool.and_eq_true, decide_eq_true_eq, List.head?_eq_some_iff] at hs
  obtain ⟨hexecutes, hreturned⟩ := hs
  exact ⟨s, hrun, hexecutes, hreturned, reentry_recognised hrun⟩

end HypertronBridge.Adapter
