import HypertronBridge.Adapter.Deinit
import Mathlib.Computability.Language

namespace HypertronBridge.Adapter

open TransitionSystem Threads History Computability

/-!
# The protocol of the vendor's entry points

The vendor is to see failed `init` calls, and successful ones each followed by calls and then by one
`deinit`.  The state word says which of them it has seen, except in the sections that change both: an
entry point past its check and a teardown that waits are at a stage of their own.  An `init` that the
vendor has failed but that claims a teardown on its way out tears the vendor down all the same,
`failed_init_is_torn_down`, and a live vendor is forgotten where a publication overwrites its
generation, `live_vendor_is_forgotten`.

* `protocol`, `Phase` — the language, and the automaton of its prefixes;
* `vendorWord` — the vendor calls of a history;
* `Stage`, `Means` — what a frame, or the state word, says about that history;
* `vendor_protocol` — the result where no failed `init` claims a teardown and no publication
  overwrites a newer generation.
-/

variable {ι κ : Type} [DecidableEq ι] [DecidableEq κ] {bound : κ → VendorFn → Bool}
  {s s' : System ι κ} {b : Action ι κ} {ok : System ι κ → Action ι κ → Prop} {i : ι} {a : κ}
  {rest : List (Frame κ)} {t : Turn κ} {f : Frame κ} {m : Bool}

/-! ### The language -/

/-- A vendor call, as the protocol sees it: `init` with its outcome, `deinit`, or another. -/
inductive Letter
  | init (success : Bool)
  | call
  | deinit
deriving DecidableEq

/-- A failed `init`, or a successful one with what may follow it up to its `deinit`. -/
def session : Language Letter := {[.init false]} + {[.init true]} * {[.call]}∗ * {[.deinit]}

/-- `(failed init | successful init, calls, deinit)*`. -/
def protocol : Language Letter := session∗

/-- Where a word stands: between two sessions, within one, or outside the protocol. -/
inductive Phase
  | down
  | live
  | broken
deriving DecidableEq

/-- The phase after one more vendor call. -/
def Phase.next : Phase → Letter → Phase
  | .down, .init true => .live
  | .down, .init false => .down
  | .live, .call => .live
  | .live, .deinit => .down
  | _, _ => .broken

/-- The phase after a word. -/
def Phase.run (p : Phase) (w : List Letter) : Phase := w.foldl Phase.next p

theorem Phase.run_append (p : Phase) (v w : List Letter) : p.run (v ++ w) = (p.run v).run w :=
  List.foldl_append

theorem Phase.run_broken (w : List Letter) : Phase.broken.run w = .broken := by
  induction w with
  | nil => rfl
  | cons x w ih => exact ih

theorem mem_session {w : List Letter} :
    w ∈ session ↔ w = [.init false] ∨ ∃ n, w = .init true :: List.replicate n .call ++ [.deinit] := by
  have hcalls : ∀ v : List Letter, v ∈ ({[.call]}∗ : Language Letter) ↔
      ∃ n, v = List.replicate n .call := by
    intro v
    rw [Language.mem_kstar]
    constructor
    · rintro ⟨L, rfl, hL⟩
      refine ⟨L.length, ?_⟩
      rw [List.eq_replicate_of_mem (a := [Letter.call]) (l := L) hL]
      simp
    · rintro ⟨n, rfl⟩
      refine ⟨List.replicate n [.call], by simp, fun y hy => ?_⟩
      exact List.eq_of_mem_replicate hy
  unfold session
  rw [Language.mem_add, Language.mem_mul]
  refine or_congr Iff.rfl ?_
  constructor
  · rintro ⟨u, hu, v, rfl, rfl⟩
    obtain ⟨x, rfl, y, hy, rfl⟩ := Language.mem_mul.mp hu
    obtain ⟨n, rfl⟩ := (hcalls y).mp hy
    exact ⟨n, rfl⟩
  · rintro ⟨n, rfl⟩
    exact ⟨_, Language.append_mem_mul rfl ((hcalls _).mpr ⟨n, rfl⟩), [.deinit], rfl, rfl⟩

theorem Phase.run_calls (n : Nat) : Phase.live.run (List.replicate n .call) = .live := by
  induction n with
  | zero => rfl
  | succ n ih => exact ih

/-- A whole word of the protocol ends between two sessions. -/
theorem Phase.run_protocol {w : List Letter} (h : w ∈ protocol) : Phase.down.run w = .down := by
  obtain ⟨L, rfl, hL⟩ := Language.mem_kstar.mp h
  clear h
  induction L with
  | nil => rfl
  | cons x L ih =>
    rw [List.flatten_cons, Phase.run_append]
    have hx : Phase.down.run x = .down := by
      rcases mem_session.mp (hL x (by simp)) with rfl | ⟨n, rfl⟩
      · rfl
      · rw [Phase.run_append]
        show Phase.run (Phase.live.run (List.replicate n .call)) [.deinit] = .down
        rw [Phase.run_calls]
        rfl
    rw [hx]
    exact ih (fun y hy => hL y (by simp [hy]))

/-- What has led to a phase other than `broken`. -/
theorem Phase.run_cases (w : List Letter) : (Phase.down.run w = .down → w ∈ protocol) ∧
    (Phase.down.run w = .live →
      ∃ u ∈ protocol, ∃ n, w = u ++ .init true :: List.replicate n .call) := by
  have hextend : ∀ u ∈ protocol, ∀ x ∈ session, u ++ x ∈ protocol := by
    intro u hu x hx
    obtain ⟨L, rfl, hL⟩ := Language.mem_kstar.mp hu
    refine Language.mem_kstar.mpr ⟨L ++ [x], by simp, fun y hy => ?_⟩
    rcases List.mem_append.mp hy with hy | hy
    · exact hL y hy
    · rw [List.mem_singleton.mp hy]
      exact hx
  induction w using List.reverseRecOn with
  | nil => exact ⟨fun _ => Language.nil_mem_kstar _, fun h => absurd h (by simp [Phase.run])⟩
  | append_singleton w x ih =>
    rw [Phase.run_append]
    show ((Phase.down.run w).next x = .down → _) ∧ ((Phase.down.run w).next x = .live → _)
    cases hw : Phase.down.run w with
    | broken => simp [Phase.next]
    | down =>
      have hu := ih.1 hw
      cases x with
      | init success =>
        cases success
        · exact ⟨fun _ => hextend w hu _ (mem_session.mpr (Or.inl rfl)), fun h => absurd h (by simp [Phase.next])⟩
        · exact ⟨fun h => absurd h (by simp [Phase.next]), fun _ => ⟨w, hu, 0, rfl⟩⟩
      | call => simp [Phase.next]
      | deinit => simp [Phase.next]
    | live =>
      obtain ⟨u, hu, n, rfl⟩ := ih.2 hw
      cases x with
      | init success => simp [Phase.next]
      | call =>
        refine ⟨fun h => absurd h (by simp [Phase.next]), fun _ => ⟨u, hu, n + 1, ?_⟩⟩
        rw [List.replicate_succ', List.append_assoc]
        rfl
      | deinit =>
        refine ⟨fun _ => ?_, fun h => absurd h (by simp [Phase.next])⟩
        -- The session that was under way is complete.
        rw [List.append_assoc]
        exact hextend u hu _ (mem_session.mpr (Or.inr ⟨n, rfl⟩))

/-- **The automaton recognises the prefixes.** -/
theorem protocol_prefix_iff {w : List Letter} :
    (∃ v, w ++ v ∈ protocol) ↔ Phase.down.run w ≠ .broken := by
  constructor
  · rintro ⟨v, hv⟩ hbroken
    have hdown := Phase.run_protocol hv
    rw [Phase.run_append, hbroken, Phase.run_broken] at hdown
    exact absurd hdown (by simp)
  · intro h
    cases hw : Phase.down.run w with
    | broken => exact absurd hw h
    | down => exact ⟨[], by simpa using (Phase.run_cases w).1 hw⟩
    | live =>
      -- A `deinit` completes the word.
      obtain ⟨u, hu, n, rfl⟩ := (Phase.run_cases w).2 hw
      refine ⟨[.deinit], (Phase.run_cases _).1 ?_⟩
      rw [Phase.run_append, hw]
      rfl

/-! ### Histories as words -/

/-- The letter of a vendor call; `success` is the outcome of an `init`. -/
def VendorCall.letter (success : Bool) : VendorCall → Letter
  | .init _ => .init success
  | .deinit => .deinit
  | _ => .call

/-- The vendor calls of `a`, oldest first.  An `init` that has not returned counts with the outcome
    `success`. -/
def vendorWord (a : κ) (success : Bool) : List (Event κ) → List Letter
  | [] => []
  | .vendorCalled b v :: older =>
      vendorWord a success older ++ (if b = a then [v.letter success] else [])
  | .vendorReturned b (.init _) code :: older =>
      vendorWord a (if b = a then code == sdkResSuccess else success) older
  | _ :: older => vendorWord a success older

/-- A vendor `init` has just succeeded. -/
def initSucceeded (a : κ) (h : List (Event κ)) : Prop :=
  ∃ t, h.head? = some (.vendorReturned a (.init t) sdkResSuccess)

/-- A vendor `init` has succeeded, and no `deinit` has been called since. -/
def VendorLive (a : κ) : List (Event κ) → Prop :=
  Since (fun e => e ≠ .vendorCalled a .deinit) (initSucceeded a)

/-- What is known of the vendor: no live `init`, one that has not returned, or a live one. -/
inductive Stage
  | down
  | pending
  | live
deriving DecidableEq

/-- The phase of the protocol; a pending `init` counts by its outcome. -/
def Stage.phase (success : Bool) : Stage → Phase
  | .down => .down
  | .pending => if success then .live else .down
  | .live => .live

/-- The vendor's history is as the stage says. -/
structure Means (p : Stage) (a : κ) (h : List (Event κ)) : Prop where
  word : ∀ success, Phase.down.run (vendorWord a success h) = p.phase success
  live : VendorLive a h → p = .live

/-- A vendor call or return of `a`. -/
def Event.ofVendor (a : κ) : Event κ → Bool
  | .vendorCalled b _ | .vendorReturned b _ _ => decide (b = a)
  | _ => false

namespace Means

variable {p : Stage} {h : List (Event κ)} {e : Event κ}

omit [DecidableEq κ] in
/-- An event that is no success of `init` leaves no more live than before. -/
theorem live_cons (hlive : VendorLive a (e :: h))
    (hnot : ∀ t, e ≠ .vendorReturned a (.init t) sdkResSuccess) :
    e ≠ .vendorCalled a .deinit ∧ VendorLive a h := by
  rcases hlive with ⟨t, hstart⟩ | hkeep
  · exact absurd (Option.some.inj hstart) (hnot t)
  · exact hkeep

theorem quiet (hm : Means p a h) (he : e.ofVendor a = false) : Means p a (e :: h) := by
  refine ⟨fun success => ?_, fun hlive => ?_⟩
  · rw [← hm.word success]
    cases e with
    | vendorCalled b v =>
      have hb : b ≠ a := by simpa [Event.ofVendor] using he
      simp [vendorWord, hb]
    | vendorReturned b v code =>
      have hb : b ≠ a := by simpa [Event.ofVendor] using he
      cases v <;> simp [vendorWord, hb]
    | _ => rfl
  · refine hm.live (live_cons hlive (fun t heq => ?_)).2
    rw [heq] at he
    exact absurd he (by simp [Event.ofVendor])

theorem quiet_append {new : List (Event κ)} (hm : Means p a h)
    (hnew : ∀ e ∈ new, e.ofVendor a = false) : Means p a (new ++ h) := by
  induction new with
  | nil => exact hm
  | cons e new ih =>
    exact (ih (fun e' he => hnew e' (List.mem_cons_of_mem _ he))).quiet (hnew e List.mem_cons_self)

/-- One more call appends its letter. -/
theorem called {v : VendorCall} {q : Stage} (hm : Means p a h)
    (hphase : ∀ success, (p.phase success).next (v.letter success) = q.phase success)
    (hlive : p = .live → v ≠ .deinit → q = .live) : Means q a (.vendorCalled a v :: h) := by
  refine ⟨fun success => ?_, fun hl => ?_⟩
  · rw [← hphase, ← hm.word success]
    simp only [vendorWord, if_true]
    rw [Phase.run_append]
    rfl
  · obtain ⟨hnot, hold⟩ := live_cons hl (by simp)
    exact hlive (hm.live hold) (fun hv => hnot (by rw [hv]))

/-- A vendor `init` starts. -/
theorem init_called {n : UInt32} (hm : Means .down a h) :
    Means .pending a (.vendorCalled a (.init n) :: h) :=
  hm.called (fun success => by cases success <;> rfl) (fun hp => absurd hp (by simp))

/-- It returns. -/
theorem init_returned {n : UInt32} {code : UInt16} (hm : Means .pending a h) :
    Means (if code = sdkResSuccess then .live else .down) a
      (.vendorReturned a (.init n) code :: h) := by
  refine ⟨fun success => ?_, fun hlive => ?_⟩
  · simp only [vendorWord, if_true]
    rw [hm.word]
    by_cases hcode : code = sdkResSuccess <;> simp [hcode, Stage.phase]
  · by_cases hcode : code = sdkResSuccess
    · exact if_pos hcode
    · have hold := (live_cons hlive (by simp [hcode])).2
      exact absurd (hm.live hold) (by simp)

/-- Another call. -/
theorem other_called {v : VendorCall} (hm : Means .live a h)
    (hv : ∀ success, v.letter success = .call) : Means .live a (.vendorCalled a v :: h) :=
  hm.called (fun success => by rw [hv]; rfl) (fun hp _ => hp)

/-- `deinit`. -/
theorem deinit_called (hm : Means .live a h) : Means .down a (.vendorCalled a .deinit :: h) :=
  hm.called (fun _ => rfl) (fun _ hv => absurd rfl hv)

/-- The return of any other call says nothing new. -/
theorem other_returned {v : VendorCall} {code : UInt16} (hm : Means p a h)
    (hv : ∀ n, v ≠ .init n) : Means p a (.vendorReturned a v code :: h) := by
  refine ⟨fun success => ?_, fun hlive => ?_⟩
  · rw [← hm.word success]
    cases v <;> first | rfl | exact absurd rfl (hv _)
  · exact hm.live (live_cons hlive (by simp [hv])).2

end Means

/-! ### What a frame says about the vendor -/

/-- The state word, where no frame is at a stage of its own. -/
def State.stage (x : State) : Stage := if x.accepts then .live else .down

/-- The stage of a public call past its check, or in a teardown that waits. -/
def CallPc.stage (c : ApiCall) (l : CallLocals) : CallPc → Option Stage
  | .unbound | .pushScope | .vendor 0 => some (if c.isInit then .down else .live)
  | .inVendor _ => some (if c.isInit then .pending else .live)
  | .vendor _ | .tail | .settle =>
      some (if c.isInit then (if l.code = sdkResSuccess then .live else .down) else .live)
  | .unlockForTeardown | .deinitCall => some .live
  | .inDeinit | .unlockForWait true | .drain | .publish true => some .down
  | _ => none

/-- The stage of a frame of `a`. -/
def Frame.stageOf (a : κ) : Frame κ → Option Stage
  | .call b c l pc => if b = a then pc.stage c l else none
  | .delivery _ _ _ _ => none

/-- What a turn leaves says what the vendor has seen. -/
def Turn.stage (a : κ) (t : Turn κ) : Stage :=
  ((t.next.bind (Frame.stageOf a)).getD t.impl.state.stage)

/-- What the frame at its turn says. -/
def InCall.stage (s : InCall κ) (pc : CallPc) : Stage :=
  (pc.stage s.call s.locals).getD s.impl.state.stage

omit [DecidableEq ι] in
/-- A call that goes on says what its next frame says. -/
theorem Means.goto {s : InCall κ} {pc : CallPc} {events h : List (Event κ)}
    (hm : Means (s.stage pc) s.adapter (events ++ h)) :
    Means ((s.goto pc events).stage s.adapter) s.adapter ((s.goto pc events).events ++ h) := by
  simpa [Turn.stage, InCall.goto, InCall.stage, Frame.stageOf] using hm

omit [DecidableEq ι] in
/-- A call that returns leaves the word to the state. -/
theorem Means.ret {s : InCall κ} {r : Return} {h : List (Event κ)}
    (hm : Means s.impl.state.stage s.adapter h) :
    Means ((s.ret r).stage s.adapter) s.adapter ((s.ret r).events ++ h) := hm.quiet rfl

/-- What a turn may rely on: an entry point finds the state as it found or made it, an `init` claims a
    teardown only when the vendor has let it succeed, and a publication without a wait finds a closed
    gate. -/
structure InCall.Sound (s : InCall κ) (pc : CallPc) : Prop where
  past : pc.pastOpen = true → s.impl.state = State.during s.call.isInit
  claim : pc = .tail → s.call.isInit = true → s.impl.deferredTeardown = true →
    s.locals.code = sdkResSuccess
  publish : pc = .publish false → s.impl.state.accepts = false

section

variable {h : List (Event κ)} {s : InCall κ} {ans : Answer} {bound : VendorFn → Bool}

omit [DecidableEq ι] in
/-- The check of the state. -/
theorem openSection_stage (hbound : ∀ c : ApiCall, c.isBound bound = true)
    (hm : Means (s.stage .open) s.adapter h) :
    Means ((openSection bound s).stage s.adapter) s.adapter ((openSection bound s).events ++ h) := by
  obtain ⟨a, c, l, th, x⟩ := s
  replace hm : Means x.state.stage a h := hm
  unfold openSection
  rw [hbound c, if_pos rfl]
  cases c
  all_goals dsimp only
  case init onStatus n =>
    split_ifs with hdown hstate
    · exact Means.goto hm
    · exact Means.goto hm
    · rw [not_not.mp hstate] at hm
      exact Means.goto (hm.quiet rfl)
  all_goals
    split_ifs with hstate
    · exact Means.goto hm
    · rw [not_not.mp hstate] at hm
      exact Means.goto hm

omit [DecidableEq ι] in
/-- The end of an entry point. -/
theorem settleSection_stage (hsound : s.Sound .settle) (hm : Means (s.stage .settle) s.adapter h) :
    Means ((settleSection s).stage s.adapter) s.adapter ((settleSection s).events ++ h) := by
  obtain ⟨a, c, l, th, x⟩ := s
  have hstate := hsound.past rfl
  unfold settleSection
  cases c
  all_goals dsimp only at hstate ⊢
  case init onStatus n =>
    split_ifs with hcode
    · simp only [InCall.stage, CallPc.stage, ApiCall.isInit, hcode, if_true, Option.getD_some] at hm
      exact Means.goto hm
    · simp only [InCall.stage, CallPc.stage, ApiCall.isInit, hcode, if_true, if_false,
        Option.getD_some] at hm
      exact Means.goto hm
  case subscribe topic f callback n =>
    split_ifs
    all_goals
      refine Means.goto ?_
      simpa [InCall.stage, CallPc.stage, ApiCall.isInit, hstate, State.during, State.stage,
        State.accepts] using hm
  all_goals
    refine Means.goto ?_
    simpa [InCall.stage, CallPc.stage, ApiCall.isInit, hstate, State.during, State.stage,
      State.accepts] using hm

omit [DecidableEq ι] in
/-- The rollback of an entry point whose vendor function is not bound. -/
theorem unboundSection_stage (hsound : s.Sound .unbound) (hm : Means (s.stage .unbound) s.adapter h) :
    Means ((unboundSection s).stage s.adapter) s.adapter ((unboundSection s).events ++ h) := by
  obtain ⟨a, c, l, th, x⟩ := s
  have hstate := hsound.past rfl
  unfold unboundSection
  cases c
  all_goals dsimp only at hstate ⊢
  all_goals
    refine Means.goto ?_
    simpa [InCall.stage, CallPc.stage, ApiCall.isInit, hstate, State.during, State.stage,
      State.accepts] using hm

omit [DecidableEq ι] [DecidableEq κ] in
/-- What an entry point other than `init` calls. -/
theorem letter_of_mem_vendorCalls {c : ApiCall} {v : VendorCall} (hc : c.isInit = false)
    (hv : v ∈ c.vendorCalls bound) : ∀ success, v.letter success = .call := by
  cases c
  case init => exact absurd hc (by simp [ApiCall.isInit])
  case snapshot =>
    have hmem := (List.mem_filter.mp hv).1
    simp only [List.mem_cons, List.not_mem_nil, or_false] at hmem
    rcases hmem with rfl | rfl | rfl
    all_goals exact fun _ => rfl
  case deinit => exact absurd hv (by simp [ApiCall.vendorCalls])
  all_goals
    rw [List.mem_singleton.mp hv]
    exact fun _ => rfl

omit [DecidableEq ι] in
/-- A vendor call starts. -/
theorem vendorCalled_stage {n : Nat} {v : VendorCall} {raws : List Raw}
    (hv : (s.call.vendorCalls bound)[n]? = some v) (hm : Means (s.stage (.vendor n)) s.adapter h) :
    Means ((({ s with impl.raws := raws } : InCall κ).goto (.inVendor n)
      [.vendorCalled s.adapter v]).stage s.adapter) s.adapter (.vendorCalled s.adapter v :: h) := by
  refine Means.goto (s := { s with impl.raws := raws }) ?_
  show Means (s.stage (.inVendor n)) s.adapter _
  cases hc : s.call.isInit with
  | true =>
    obtain ⟨a, c, l, th, x⟩ := s
    cases c
    case init onStatus timeout =>
      obtain ⟨hn, rfl⟩ : n = 0 ∧ v = .init timeout := by
        cases n <;> simp_all [ApiCall.vendorCalls]
      subst hn
      exact hm.init_called
    all_goals exact absurd hc (by simp [ApiCall.isInit])
  | false =>
    have hlive : s.stage (.vendor n) = .live := by
      cases n <;> simp [InCall.stage, CallPc.stage, hc]
    rw [hlive] at hm
    rw [show s.stage (.inVendor n) = .live by simp [InCall.stage, CallPc.stage, hc]]
    exact hm.other_called (letter_of_mem_vendorCalls hc (List.mem_of_getElem? hv))

omit [DecidableEq ι] in
/-- It returns. -/
theorem vendorReturned_stage {n : Nat} {v : VendorCall} {ans : Answer}
    (hv : (s.call.vendorCalls bound)[n]? = some v) (hm : Means (s.stage (.inVendor n)) s.adapter h) :
    Means ((({ s with locals := s.locals.store ans v } : InCall κ).goto (.vendor (n + 1))
      [.vendorReturned s.adapter v ans.code]).stage s.adapter) s.adapter
      (.vendorReturned s.adapter v ans.code :: h) := by
  refine Means.goto (s := { s with locals := s.locals.store ans v }) ?_
  cases hc : s.call.isInit with
  | true =>
    obtain ⟨a, c, l, th, x⟩ := s
    cases c
    case init onStatus timeout =>
      obtain ⟨hn, rfl⟩ : n = 0 ∧ v = .init timeout := by
        cases n <;> simp_all [ApiCall.vendorCalls]
      subst hn
      exact hm.init_returned
    all_goals exact absurd hc (by simp [ApiCall.isInit])
  | false =>
    rw [show s.stage (.inVendor n) = .live by simp [InCall.stage, CallPc.stage, hc]] at hm
    rw [show ({ s with locals := s.locals.store ans v } : InCall κ).stage (.vendor (n + 1)) = .live by
      simp [InCall.stage, CallPc.stage, hc]]
    refine hm.other_returned (fun m heq => ?_)
    have hletter := letter_of_mem_vendorCalls hc (List.mem_of_getElem? hv) true
    have hinit : (VendorCall.init m).letter true = .init true := rfl
    rw [heq, hinit] at hletter
    exact absurd hletter (by simp)

omit [DecidableEq ι] in
/-- The first section of a teardown. -/
theorem close_stage (hbound : bound .deinit = true) (hm : Means (s.stage .close) s.adapter h) :
    Means (({ s with impl := s.impl.closeGate } : InCall κ).stage
      (if s.impl.runVendorDeinit bound then .deinitCall else .unlockForWait s.impl.needWait))
      s.adapter h := by
  obtain ⟨a, c, l, th, x⟩ := s
  replace hm : Means x.state.stage a h := hm
  have hdown : (State.shuttingDown != State.uninitialized) = true := rfl
  cases hstate : x.state
  all_goals simp only [hstate, State.stage, State.accepts, if_true, if_false, Bool.false_eq_true] at hm
  case uninitialized =>
    -- Nothing to deinitialize; the teardown waits if a delivery is in flight.
    by_cases hflight : 0 < x.inFlight
    all_goals
      simpa [InCall.stage, Impl.runVendorDeinit, Impl.needWait, Impl.closeGate, hstate, hflight,
        CallPc.stage, State.stage, State.accepts] using hm
  all_goals
    simpa [InCall.stage, Impl.runVendorDeinit, Impl.needWait, Impl.closeGate, hstate, hbound, hdown,
      CallPc.stage, State.stage, State.accepts] using hm

/-- **What a turn leaves says what the vendor has seen.** -/
theorem callStep_stage {pc : CallPc} {t : Turn κ} (hs : callStep bound ans s pc = some t)
    (hbound : ∀ v, bound v = true) (hsound : s.Sound pc) (hm : Means (s.stage pc) s.adapter h) :
    Means (t.stage s.adapter) s.adapter (t.events ++ h) := by
  cases pc
  case «open» =>
    obtain rfl := Option.some.inj hs
    exact openSection_stage (fun c => by simp [ApiCall.isBound, hbound]) hm
  case unbound =>
    obtain rfl := Option.some.inj hs
    exact unboundSection_stage hsound hm
  case settle =>
    obtain rfl := Option.some.inj hs
    exact settleSection_stage hsound hm
  case vendor n =>
    simp only [callStep] at hs
    split at hs
    · rename_i v hv
      obtain rfl := Option.some.inj hs
      exact vendorCalled_stage hv hm
    · rename_i hnone
      obtain rfl := Option.some.inj hs
      refine Means.goto ?_
      cases n with
      | zero =>
        -- Only a call that is no init may have nothing to call.
        have hc : s.call.isInit = false := by
          cases hcall : s.call <;> simp_all [ApiCall.vendorCalls, ApiCall.isInit]
        simpa [InCall.stage, CallPc.stage, hc] using hm
      | succ n => exact hm
  case inVendor n =>
    obtain ⟨v, hv, rfl⟩ := Option.map_eq_some_iff.mp hs
    exact vendorReturned_stage hv hm
  case tail =>
    obtain rfl := Option.some.inj hs
    split_ifs with hclaim
    · -- A claimed teardown finds a live vendor, by `Sound.claim` also after an `init`.
      refine Means.goto ?_
      simp only [Bool.and_eq_true] at hclaim
      cases hc : s.call.isInit with
      | true => simpa [InCall.stage, CallPc.stage, hc, hsound.claim rfl hc hclaim.2] using hm
      | false => simpa [InCall.stage, CallPc.stage, hc] using hm
    · exact Means.goto hm
  case unlockForTeardown =>
    obtain rfl := Option.some.inj hs
    have hstate := hsound.past rfl
    refine Means.goto ?_
    cases hc : s.call.isInit
    all_goals
      simpa [InCall.stage, CallPc.stage, hstate, hc, State.during, State.stage, State.accepts]
        using hm
  case ensureCheck =>
    obtain rfl := Option.some.inj hs
    split_ifs
    · exact Means.goto (hm.quiet rfl)
    · exact Means.goto hm
  case close =>
    obtain rfl := Option.some.inj hs
    exact Means.goto (close_stage (hbound _) hm)
  case deinitCall =>
    obtain rfl := Option.some.inj hs
    exact Means.goto hm.deinit_called
  case inDeinit =>
    obtain rfl := Option.some.inj hs
    exact Means.goto (hm.other_returned (by simp))
  case unlockForWait w =>
    obtain rfl := Option.some.inj hs
    cases w
    all_goals exact Means.goto hm
  case publish w =>
    obtain rfl := Option.some.inj hs
    refine Means.goto (Means.quiet ?_ rfl)
    cases w with
    | true => exact hm
    | false =>
      have hclosed : s.stage (.publish false) = .down := by
        simp [InCall.stage, CallPc.stage, State.stage, hsound.publish rfl]
      rw [hclosed] at hm
      exact hm
  all_goals simp only [callStep] at hs
  all_goals repeat' split at hs
  all_goals simp only [Option.some.injEq, reduceCtorEq] at hs
  all_goals subst hs
  all_goals first | exact Means.goto hm | exact Means.ret hm

end

/-! ### Frames at a stage -/

/-- A frame of `a` at stage `p`. -/
def Frame.stagedAt (a : κ) (p : Stage) (f : Frame κ) : Bool := decide (f.stageOf a = some p)

omit [DecidableEq ι] in
theorem kindOf_stagedAt {p : Stage} : KindOf a (Frame.stagedAt a p) := by
  constructor
  · intro f hf
    cases f with
    | call b c l pc =>
      by_contra hb
      have hb' : b ≠ a := hb
      exact absurd hf (by simp [Frame.stagedAt, Frame.stageOf, hb'])
    | delivery => exact absurd hf (by simp [Frame.stagedAt, Frame.stageOf])
  · intro f hf
    cases f with
    | call b c l pc =>
      obtain ⟨rfl, rfl⟩ := hf
      simp [Frame.stagedAt, Frame.stageOf, CallPc.stage]
    | delivery => rfl

/-- The sections at a stage of their own. -/
theorem CallPc.stage_eq_none {c : ApiCall} {l : CallLocals} {pc : CallPc} :
    pc.stage c l = none ↔ pc.pastOpen = false ∧ pc.waits = false := by
  cases pc
  case vendor n => cases n <;> simp [stage, pastOpen]
  case unlockForWait w => cases w <;> simp [stage, pastOpen, waits]
  case publish w => cases w <;> simp [stage, pastOpen, waits]
  all_goals simp [stage, pastOpen, waits]

omit [DecidableEq ι] in
/-- The frames at a stage are the entry points past their check and the teardowns that wait. -/
theorem stageOf_eq_none : f.stageOf a = none ↔
    (∀ m, Frame.pastOpenOf a m f = false) ∧ Frame.waitingOf a f = false := by
  cases f with
  | delivery => simp [Frame.stageOf, Frame.pastOpenOf, Frame.waitingOf, Frame.callAt]
  | call b c l pc =>
    by_cases hb : b = a
    · rw [show Frame.stageOf a (.call b c l pc) = pc.stage c l by simp [Frame.stageOf, hb],
        CallPc.stage_eq_none]
      simp [Frame.pastOpenOf, Frame.waitingOf, Frame.callAt, hb]
    · simp [Frame.stageOf, Frame.pastOpenOf, Frame.waitingOf, Frame.callAt, hb]

/-- Vendor calls are made by frames at a stage. -/
theorem callStep_quiet {bound : VendorFn → Bool} {ans : Answer} {s : InCall κ} {pc : CallPc}
    (hs : callStep bound ans s pc = some t) (hpc : pc.stage s.call s.locals = none) :
    ∀ e ∈ t.events, e.ofVendor a = false := by
  rw [CallPc.stage_eq_none] at hpc
  obtain ⟨b, c, l, th, x⟩ := s
  cases pc
  all_goals simp only [CallPc.pastOpen, CallPc.waits, Bool.true_eq_false, false_and, and_false] at hpc
  all_goals simp only [callStep, openSection] at hs
  all_goals repeat' split at hs
  all_goals simp only [Option.some.injEq, reduceCtorEq] at hs
  all_goals subst hs
  all_goals simp [InCall.goto, InCall.ret, Event.ofVendor]

/-! ### The condition -/

/-- The step is the tail of an `init` of `a` that the vendor has failed, and finds a teardown
    requested. -/
def System.claimsFailed (s : System ι κ) (a : κ) : Action ι κ → Bool
  | .run i _ =>
      match s.stack i with
      | .call b (.init _ _) l .tail :: _ =>
          decide (b = a) && l.code != sdkResSuccess && (s.impl a).deferredTeardown
      | _ => false
  | _ => false

/-- No publication without a wait overwrites a newer generation of `a`, and no failed `init` claims a
    teardown. -/
def System.Orderly (a : κ) (s : System ι κ) (b : Action ι κ) : Prop :=
  (∀ m, s.publishesOver a b ≠ some (State.during m)) ∧ s.claimsFailed a b = false

instance (s : System ι κ) (b : Action ι κ) : Decidable (System.Orderly a s b) :=
  inferInstanceAs (Decidable (_ ∧ _))

/-! ### The vendor's history over a run -/

section

variable [Fintype ι]

/-- What an adapter keeps about its state word, over the runs of the condition. -/
structure Steady (s : System ι κ) (a : κ) : Prop where
  held : Held s a
  waits : Waits s a
  past : ∀ m, Past s a m

/-- **Run lemma.** -/
theorem System.Run.steady (h : System.Run bound ok s) (hok : ∀ s b, ok s b → s.Orderly a b) :
    Steady s a :=
  ⟨h.held a, h.waits a, fun m => h.past (fun s b hb => (hok s b hb).1 m)⟩

/-- The turn of a frame that has the state word to itself: no other frame is at a stage. -/
theorem Steady.stagedAt_below (h : Steady s a) (hstack : s.stack i = f :: rest)
    (hlifecycle : Frame.lifecycleOf a f = true ∨ (s.impl a).state.accepts = false)
    (hteardown : Frame.teardownOf a f = true ∨ (s.impl a).state ≠ .shuttingDown) (p : Stage) :
    count (Frame.stagedAt a p) (s.below i rest) = 0 := by
  have hwaiting : count (Frame.waitingOf a) (s.below i rest) = 0 := by
    rcases hteardown with hf | hstate
    · exact h.held.waiting_below hstack hf
    · by_contra hpos
      have hbefore := count_before (p := Frame.waitingOf a) hstack
      exact hstate (h.waits (by omega)).1
  have hpast : ∀ m, count (Frame.pastOpenOf a m) (s.below i rest) = 0 := by
    intro m
    rcases hlifecycle with hf | hclosed
    · exact h.held.pastOpen_below hstack hf m
    · by_contra hpos
      have hbefore := count_before (p := Frame.pastOpenOf a m) hstack
      rw [h.past m (by omega)] at hclosed
      exact absurd hclosed (by cases m <;> simp [State.during, State.accepts])
  refine count_eq_zero.mpr (fun j g hg => ?_)
  have hnone : g.stageOf a = none :=
    stageOf_eq_none.mpr ⟨fun m => count_eq_zero.mp (hpast m) j g hg, count_eq_zero.mp hwaiting j g hg⟩
  simp [Frame.stagedAt, hnone]

/-- A turn is taken alone, or it neither calls the vendor nor changes the state. -/
theorem Steady.alone (h : Steady s a) {ans : Answer} {c : ApiCall} {l : CallLocals} {pc : CallPc}
    (hstack : s.stack i = .call a c l pc :: rest)
    (ht : callStep (bound a) ans ⟨a, c, l, s.thread i, s.impl a⟩ pc = some t)
    (hover : ∀ m, s.publishesOver a (.run i ans) ≠ some (State.during m)) :
    (∀ p, count (Frame.stagedAt a p) (s.below i rest) = 0) ∨
      Frame.stageOf a (.call a c l pc) = none ∧ t.next.bind (Frame.stageOf a) = none ∧
        t.impl.state = (s.impl a).state ∧ ∀ e ∈ t.events, e.ofVendor a = false := by
  have hstage : Frame.stageOf a (.call a c l pc) = pc.stage c l := by simp [Frame.stageOf]
  have hpos : ∀ {p : Frame κ → Bool}, p (.call a c l pc) = true → 0 < count p s.stack := by
    intro p hp
    exact count_pos.mpr ⟨i, _, by rw [hstack]; exact List.mem_cons_self, hp⟩
  by_cases hidle : Frame.stageOf a (.call a c l pc) = none
  · have hquiet := callStep_quiet (a := a) ht (hstage ▸ hidle)
    have hnext : (∀ m, t.next.any (Frame.pastOpenOf a m) = false) →
        t.next.any (Frame.waitingOf a) = false → t.next.bind (Frame.stageOf a) = none := by
      intro hpast hwaiting
      cases hn : t.next with
      | none => rfl
      | some g =>
        rw [hn] at hpast hwaiting
        exact stageOf_eq_none.mpr ⟨hpast, hwaiting⟩
    obtain ⟨hnotPast, hnotWaiting⟩ := stageOf_eq_none.mp hidle
    -- Of the turns that change the state, each holds the mutex that keeps the frames at a stage out.
    cases callStep_state ht with
    | keep hstate hpast hwaiting _ =>
      refine Or.inr ⟨hidle, hnext (fun m => ?_) (hwaiting.trans hnotWaiting), hstate, hquiet⟩
      by_contra hopen
      have hframe := hpast m (by simpa using hopen)
      rw [hnotPast m] at hframe
      exact absurd hframe (by simp)
    | enter hpc hstate _ _ _ _ | call hpc hstate _ _ _ _ =>
      subst hpc
      refine Or.inl (h.stagedAt_below hstack (Or.inl ?_) (Or.inr (by rw [hstate]; simp)))
      simp [Frame.lifecycleOf, Frame.callAt, CallPc.holdsLifecycle]
    | settle hframe _ _ _ _ =>
      rw [hnotPast true] at hframe
      exact absurd hframe (by simp)
    | close hpc _ _ _ _ =>
      subst hpc
      refine Or.inl (h.stagedAt_below hstack (Or.inl ?_) (Or.inl ?_))
      · simp [Frame.lifecycleOf, Frame.callAt, CallPc.holdsLifecycle]
      · simp [Frame.teardownOf, Frame.callAt, CallPc.holdsTeardown]
    | publish w hpc _ _ _ _ =>
      subst hpc
      have hclosed : (s.impl a).state.accepts = false := by
        -- After a wait the state is as the teardown left it; without one the condition says so.
        cases w with
        | true =>
          rw [(h.waits (hpos (by simp [Frame.waitingOf, Frame.callAt, CallPc.waits]))).1]
          rfl
        | false =>
          have hinit := hover true
          have hother := hover false
          simp only [System.publishesOver, hstack, if_true] at hinit hother
          cases hstate : (s.impl a).state <;> simp_all [State.during, State.accepts]
      refine Or.inl (h.stagedAt_below hstack (Or.inr hclosed) (Or.inl ?_))
      simp [Frame.teardownOf, Frame.callAt, CallPc.holdsTeardown]
    | check _ _ himpl hpast hwaiting _ =>
      exact Or.inr ⟨hidle, hnext hpast hwaiting, by rw [himpl], hquiet⟩
  · -- A frame at a stage holds what it needs, and the state is as it made it.
    refine Or.inl ?_
    have hkind : (∃ m, Frame.pastOpenOf a m (.call a c l pc) = true) ∨
        Frame.waitingOf a (.call a c l pc) = true := by
      by_contra hnone
      rw [not_or, not_exists] at hnone
      exact hidle (stageOf_eq_none.mpr ⟨fun m => by simpa using hnone.1 m, by simpa using hnone.2⟩)
    rcases hkind with ⟨m, hopen⟩ | hwaiting
    · refine h.stagedAt_below hstack (Or.inl (lifecycleOf_of_pastOpenOf hopen)) (Or.inr ?_)
      rw [h.past m (hpos hopen)]
      cases m <;> simp [State.during]
    · refine h.stagedAt_below hstack (Or.inr ?_) (Or.inl (teardownOf_of_waitingOf hwaiting))
      rw [(h.waits (hpos hwaiting)).1]
      rfl

/-- The frames at a stage, and the state word where there is none, tell the vendor's history. -/
structure Tracks (s : System ι κ) (a : κ) : Prop where
  staged : ∀ p, 0 < count (Frame.stagedAt a p) s.stack → Means p a s.history
  settled : (∀ p, count (Frame.stagedAt a p) s.stack = 0) → Means (s.impl a).state.stage a s.history

/-- A turn of a frame that says nothing, before and after it. -/
theorem Tracks.idle (h : Tracks s a) (hstack : s.stack i = f :: rest) (hf : f.stageOf a = none)
    (hnext : t.next.bind (Frame.stageOf a) = none) (hstate : t.impl.state = (s.impl a).state)
    (hquiet : ∀ e ∈ t.events, e.ofVendor a = false) : Tracks (s.take i a rest t) a := by
  have hcount : ∀ p, count (Frame.stagedAt a p) (s.take i a rest t).stack =
      count (Frame.stagedAt a p) s.stack := by
    intro p
    have hafter : t.next.any (Frame.stagedAt a p) = false := by
      cases hn : t.next with
      | none => rfl
      | some g =>
        rw [hn] at hnext
        have hg : g.stageOf a = none := hnext
        simp [Frame.stagedAt, hg]
    rw [count_after, count_before hstack, hafter]
    simp [Frame.stagedAt, hf]
  constructor
  · intro p hpos
    rw [hcount] at hpos
    exact (h.staged p hpos).quiet_append hquiet
  · intro hnone
    rw [take_impl, hstate]
    exact (h.settled (fun p => by rw [← hcount]; exact hnone p)).quiet_append hquiet

/-- A turn of a public call that is taken alone. -/
theorem Tracks.alone (h : Tracks s a) {ans : Answer} {c : ApiCall} {l : CallLocals} {pc : CallPc}
    (hbound : ∀ v, bound a v = true) (hstack : s.stack i = .call a c l pc :: rest)
    (ht : callStep (bound a) ans ⟨a, c, l, s.thread i, s.impl a⟩ pc = some t)
    (hsound : InCall.Sound ⟨a, c, l, s.thread i, s.impl a⟩ pc)
    (hbelow : ∀ p, count (Frame.stagedAt a p) (s.below i rest) = 0) :
    Tracks (s.take i a rest t) a := by
  have hstage : Frame.stageOf a (.call a c l pc) = pc.stage c l := by simp [Frame.stageOf]
  -- What the frame said before its turn, or else the state word, was so.
  have hbefore : Means (InCall.stage ⟨a, c, l, s.thread i, s.impl a⟩ pc) a s.history := by
    unfold InCall.stage
    cases hpc : pc.stage c l with
    | some p =>
      refine h.staged p ?_
      rw [count_before hstack]
      simp [Frame.stagedAt, hstage, hpc]
    | none =>
      refine h.settled (fun p => ?_)
      rw [count_before hstack, hbelow p]
      simp [Frame.stagedAt, hstage, hpc]
  have hafter := callStep_stage ht hbound hsound hbefore
  have hcount : ∀ p, count (Frame.stagedAt a p) (s.take i a rest t).stack =
      (t.next.any (Frame.stagedAt a p)).toNat := by
    intro p
    rw [count_after, hbelow p, Nat.zero_add]
  cases hnext : t.next.bind (Frame.stageOf a) with
  | some q =>
    obtain ⟨g, hg, hq⟩ := Option.bind_eq_some_iff.mp hnext
    have hstaged : ∀ p, count (Frame.stagedAt a p) (s.take i a rest t).stack =
        (decide (q = p)).toNat := by
      intro p
      rw [hcount, hg]
      simp [Frame.stagedAt, hq]
    have hmeans : Means q a (t.events ++ s.history) := by simpa [Turn.stage, hnext] using hafter
    constructor
    · intro p hpos
      rw [hstaged] at hpos
      by_cases hp : q = p
      · exact hp ▸ hmeans
      · exact absurd hpos (by simp [hp])
    · intro hnone
      exact absurd (hnone q) (by simp [hstaged])
  | none =>
    have hmeans : Means t.impl.state.stage a (t.events ++ s.history) := by
      simpa [Turn.stage, hnext] using hafter
    constructor
    · intro p hpos
      rw [hcount] at hpos
      cases hn : t.next with
      | none => exact absurd hpos (by simp [hn])
      | some g =>
        rw [hn] at hnext
        have hg : g.stageOf a = none := hnext
        exact absurd hpos (by simp [hn, Frame.stagedAt, hg])
    · intro _
      rw [take_impl]
      exact hmeans

omit [DecidableEq ι] in
/-- What the turn of a public call may rely on. -/
theorem Steady.sound (h : Steady s a) {ans : Answer} {c : ApiCall} {l : CallLocals} {pc : CallPc}
    (hstack : s.stack i = .call a c l pc :: rest) (horderly : s.Orderly a (.run i ans)) :
    InCall.Sound ⟨a, c, l, s.thread i, s.impl a⟩ pc := by
  obtain ⟨hover, hclaims⟩ := horderly
  constructor
  · intro hpc
    refine h.past c.isInit (count_pos.mpr ⟨i, _, by rw [hstack]; exact List.mem_cons_self, ?_⟩)
    simp [Frame.pastOpenOf, Frame.callAt, hpc]
  · rintro rfl hinit hdeferred
    cases c
    case init onStatus n =>
      simp only [System.claimsFailed, hstack, decide_true, Bool.true_and, Bool.and_eq_false_iff,
        bne_eq_false_iff_eq] at hclaims
      rcases hclaims with hcode | hnot
      · exact hcode
      · exact absurd (hdeferred.symm.trans hnot) (by simp)
    all_goals exact absurd hinit (by simp [ApiCall.isInit])
  · rintro rfl
    have hinit := hover true
    have hother := hover false
    simp only [System.publishesOver, hstack, if_true] at hinit hother
    show (s.impl a).state.accepts = false
    cases hstate : (s.impl a).state <;> simp_all [State.during, State.accepts]

/-- **Step lemma.** -/
theorem Tracks.step (h : Tracks s a) (hsteady : Steady s a) (hbound : ∀ v, bound a v = true)
    (horderly : s.Orderly a b) (hs : Local bound s a b s') : Tracks s' a := by
  cases hs with
  | elsewhere himpl hcount hhistory =>
    have hmeans : ∀ {p : Stage}, Means p a s.history → Means p a s'.history := by
      intro p hm
      rcases hhistory with hkept | ⟨e, he, hadapter⟩
      · rw [hkept]
        exact hm
      · rw [he]
        refine hm.quiet ?_
        cases e <;> simp_all [Event.ofVendor, Event.adapter]
    constructor
    · intro p hpos
      rw [hcount _ kindOf_stagedAt] at hpos
      exact hmeans (h.staged p hpos)
    · intro hnone
      rw [himpl]
      exact hmeans (h.settled (fun p => by rw [← hcount _ kindOf_stagedAt]; exact hnone p))
  | @delivery i ans r d pc rest hstack =>
    refine h.idle hstack rfl ?_ deliveryStep_state.1 (fun e he => ?_)
    · cases hn : (deliveryStep a r d (s.thread i) (s.impl a) pc).next with
      | none => rfl
      | some g =>
        have hnot : ∀ P, (deliveryStep a r d (s.thread i) (s.impl a) pc).next.any
            (Frame.callAt a P) = false := deliveryStep_state.2
        rw [hn] at hnot
        exact stageOf_eq_none.mpr ⟨fun m => hnot _, hnot _⟩
    · rcases (deliveryStep_adapter (b := a)).2 with hnil | ⟨e', he', -, hby⟩
      · rw [hnil] at he
        exact absurd he (by simp)
      · rw [he', List.mem_singleton] at he
        rw [he]
        cases e' <;> first | rfl | exact absurd hby (by simp [Event.byDelivery])
  | @call i ans c l pc rest t hstack ht =>
    rcases hsteady.alone hstack ht horderly.1 with hbelow | ⟨hidle, hnext, hstate, hquiet⟩
    · exact h.alone hbound hstack ht (hsteady.sound hstack horderly) hbelow
    · exact h.idle hstack hidle hnext hstate hquiet

/-- **Run lemma.** -/
theorem System.Run.tracks (h : System.Run bound (System.Orderly a) s)
    (hbound : ∀ v, bound a v = true) : Tracks s a := by
  have hreach : Reaches (System.step bound) (System.Orderly a) ({} : System ι κ) s := h
  refine hreach.invariant (I := fun s => Tracks s a) ⟨fun p hpos => ?_, fun _ => ?_⟩ ?_
  · exact absurd hpos (by simp)
  · refine ⟨fun success => rfl, fun hlive => ?_⟩
    obtain ⟨t, hstart⟩ : initSucceeded a ([] : List (Event κ)) := hlive
    exact absurd hstart (by simp)
  · intro s b s' (hrun : System.Run bound (System.Orderly a) s) hi hok hs
    exact hi.step (hrun.steady (fun _ _ => id)) hbound hok ((stepped hs).local a)

/-! ### `Initializing` -/

/-- Between a claim of a teardown and the section that closes the gate. -/
def CallPc.beforeClose : CallPc → Bool
  | .lockTeardown | .ensureCheck | .lockForTeardown | .close => true
  | _ => false

/-- An `init` of `a` that has entered and not settled. -/
def Frame.unsettledOf (a : κ) : Frame κ → Bool :=
  Frame.callAt a (fun c _ pc => c.isInit && (pc.pastOpen || pc.beforeClose))

omit [DecidableEq ι] [Fintype ι] in
theorem kindOf_unsettledOf : KindOf a (Frame.unsettledOf a) :=
  kindOf_callAt (fun c => by simp [CallPc.pastOpen, CallPc.beforeClose])

omit [DecidableEq ι] [Fintype ι] in
/-- An `init` that has entered stays so while the state is `Initializing`. -/
theorem callStep_unsettled {bound : VendorFn → Bool} {ans : Answer} {s : InCall κ} {pc : CallPc}
    (hs : callStep bound ans s pc = some t) (hinit : s.call.isInit = true)
    (hpc : (pc.pastOpen || pc.beforeClose) = true) (hstate : t.impl.state = .initializing) :
    t.next.any (Frame.unsettledOf s.adapter) = true := by
  obtain ⟨b, c, l, th, x⟩ := s
  have hgoto : ∀ {x' : Impl} {l' : CallLocals} {th' : ThreadLocals κ} {pc' : CallPc}
      {events : List (Event κ)}, (pc'.pastOpen || pc'.beforeClose) = true →
      (InCall.goto ⟨b, c, l', th', x'⟩ pc' events).next.any (Frame.unsettledOf b) = true := by
    intro x' l' th' pc' events hpc'
    simpa [InCall.goto, Frame.unsettledOf, Frame.callAt, hinit] using hpc'
  cases pc
  case unbound =>
    obtain rfl := Option.some.inj hs
    cases c
    case init =>
      have hdown : State.uninitialized = .initializing := hstate
      exact absurd hdown (by simp)
    all_goals exact absurd hinit (by simp [ApiCall.isInit])
  case settle =>
    obtain rfl := Option.some.inj hs
    cases c
    case init =>
      unfold settleSection at hstate
      dsimp only at hstate
      split_ifs at hstate
      · exact absurd hstate (by simp [InCall.goto])
      · exact absurd hstate (by simp [InCall.goto])
    all_goals exact absurd hinit (by simp [ApiCall.isInit])
  case ensureCheck =>
    obtain rfl := Option.some.inj hs
    split_ifs at hstate ⊢ with htorn
    · have hx : x.state = .initializing := hstate
      simp [Impl.isTornDown, hx] at htorn
    · exact hgoto rfl
  case close =>
    obtain rfl := Option.some.inj hs
    have hx : x.closeGate.state = .initializing := hstate
    rw [Impl.closeGate_state] at hx
    split_ifs at hx
  case inVendor n =>
    obtain ⟨v, -, rfl⟩ := Option.map_eq_some_iff.mp hs
    exact hgoto rfl
  all_goals simp only [CallPc.pastOpen, CallPc.beforeClose, Bool.or_self, Bool.false_eq_true] at hpc
  all_goals simp only [callStep] at hs
  all_goals repeat' split at hs
  all_goals simp only [Option.some.injEq, reduceCtorEq] at hs
  all_goals subst hs
  all_goals exact hgoto rfl

/-- While the state is `Initializing`, some `init` has entered and not settled. -/
def Owned (s : System ι κ) (a : κ) : Prop :=
  (s.impl a).state = .initializing → 0 < count (Frame.unsettledOf a) s.stack

/-- **Step lemma.** -/
theorem Owned.step (h : Owned s a) (hs : Local bound s a b s') : Owned s' a := by
  cases hs with
  | elsewhere himpl hcount _ =>
    unfold Owned
    rw [hcount _ kindOf_unsettledOf, himpl]
    exact h
  | @delivery i ans r d pc rest hstack =>
    unfold Owned at h ⊢
    rw [take_impl, count_after, deliveryStep_state.1, Frame.unsettledOf, deliveryStep_state.2]
    rw [count_before hstack] at h
    exact h
  | @call i ans c l pc rest t hstack ht =>
    unfold Owned at h ⊢
    rw [take_impl, count_after]
    rw [count_before hstack] at h
    intro hstate
    cases callStep_state ht with
    | keep hkept _ _ _ =>
      have hpos := h (hkept ▸ hstate)
      cases hf : Frame.unsettledOf a (.call a c l pc) with
      | true =>
        simp only [Frame.unsettledOf, Frame.callAt, decide_true, Bool.true_and, Bool.and_eq_true] at hf
        rw [callStep_unsettled ht hf.1 hf.2 hstate]
        exact Nat.succ_pos _
      | false =>
        rw [hf] at hpos
        exact Nat.lt_of_lt_of_le hpos (Nat.le_add_right _ _)
    | enter _ _ _ hpast _ _ =>
      have hnext : t.next.any (Frame.unsettledOf a) = true := by
        have hopen := hpast true
        cases hn : t.next with
        | none => exact absurd hopen (by simp [hn])
        | some g =>
          rw [hn] at hopen
          have hg : Frame.pastOpenOf a true g = true := hopen
          show Frame.unsettledOf a g = true
          cases g with
          | call =>
            simp only [Frame.pastOpenOf, Frame.unsettledOf, Frame.callAt, Bool.and_eq_true,
              beq_iff_eq, Bool.or_eq_true] at hg ⊢
            exact ⟨hg.1, hg.2.1, Or.inl hg.2.2⟩
          | delivery => exact hg
      rw [hnext]
      exact Nat.succ_pos _
    | call _ _ hstate' _ _ _ => exact absurd (hstate.symm.trans hstate') (by simp)
    | settle _ hstate' _ _ _ =>
      rw [hstate] at hstate'
      exact absurd hstate' (by simp)
    | close _ himpl _ _ _ =>
      rw [himpl, Impl.closeGate_state] at hstate
      split_ifs at hstate
    | publish _ _ hstate' _ _ _ => exact absurd (hstate.symm.trans hstate') (by simp)
    | check _ htorn himpl _ _ _ =>
      rw [himpl] at hstate
      simp [Impl.isTornDown, hstate] at htorn

/-- **Run lemma.** -/
theorem System.Run.owned (h : System.Run bound ok s) : Owned s a := by
  have hreach : Reaches (System.step bound) ok ({} : System ι κ) s := h
  exact hreach.invariant (I := fun s => Owned s a) (fun hstate => absurd hstate (by simp))
    (fun _ _ _ _ hi _ hs => hi.step ((stepped hs).local a))

/-! ### The result -/

/-- An `init` of `a` past its check, or a teardown of `a`, is in progress. -/
def Frame.inProgressOf (a : κ) : Frame κ → Bool :=
  Frame.callAt a (fun c _ pc => c.isInit && (pc.pastOpen || pc == .lockTeardown) || pc.holdsTeardown)

/-- The vendor calls of `a` keep the protocol, and a live vendor finds the adapter initialized. -/
structure KeepsProtocol (s : System ι κ) (a : κ) : Prop where
  /-- An `init` that has not returned may still come out either way. -/
  word : ∀ success, ∃ rest, vendorWord a success s.history ++ rest ∈ protocol
  initialized : VendorLive a s.history → (∀ i, ∀ f ∈ s.stack i, f.inProgressOf a = false) →
    (s.impl a).state = .initialized

/-- The status callback of an `init` asks for `deinit`; then the vendor fails that `init`. -/
def failedWhileRequested (i : ι) : List (Action ι Unit) :=
  .call i () (.init (some 7) 100) :: turns i 5 ++ linkedReport i () :: turns i 2 ++
    .call i () .deinit :: turns i 4 ++ turns i 1 { code := sdkResFailed } ++ turns i 8

/-- **The defect.** The failed `init` claims the teardown, and the vendor is torn down. -/
theorem failed_init_is_torn_down : ¬ ∀ (bound : Unit → VendorFn → Bool) (s : System (Fin 3) Unit),
    (∀ v, bound () v = true) → System.Run bound (fun _ _ => True) s → KeepsProtocol s () := by
  intro hall
  obtain ⟨s, hrun, hs⟩ := System.exists_run_of_exec (fun _ _ => true) (fun _ _ => True)
    (failedWhileRequested (0 : Fin 3))
    (fun s => vendorWord () true s.history == [.init false, .deinit]) (by decide +kernel)
  have hword := (hall _ s (fun _ => rfl) hrun).word true
  rw [beq_iff_eq.mp hs, protocol_prefix_iff] at hword
  exact hword rfl

/-- A teardown that found nothing to wait for publishes when the `init` that has entered in between is
    done; then another `init` is called. -/
def overwritten (i j k : ι) : List (Action ι Unit) :=
  .call i () (.init (some 7) 100) :: turns i 5 ++ linkedReport j () :: turns j 2 ++
    turns i 1 { code := sdkResFailed } ++ turns i 4 ++ .call i () .deinit :: turns i 3 ++ turns j 2 ++
    turns i 3 ++ .call k () (.init (some 8) 100) :: turns k 10 ++ turns i 3 ++
    .call j () (.init none 100) :: turns j 5

/-- **The other defect.** A vendor `init` starts while one is live, though no failed `init` has claimed
    a teardown. -/
theorem live_vendor_is_forgotten : ¬ ∀ (bound : Unit → VendorFn → Bool) (s : System (Fin 3) Unit),
    (∀ v, bound () v = true) →
      System.Run bound (fun s b => s.claimsFailed () b = false) s → KeepsProtocol s () := by
  intro hall
  obtain ⟨s, hrun, hs⟩ := System.exists_run_of_exec (fun _ _ => true)
    (fun s b => s.claimsFailed () b = false) (overwritten (0 : Fin 3) 1 2)
    (fun s => vendorWord () true s.history == [.init false, .init true, .init true])
    (by decide +kernel)
  have hword := (hall _ s (fun _ => rfl) hrun).word true
  rw [beq_iff_eq.mp hs, protocol_prefix_iff] at hword
  exact hword rfl

omit [DecidableEq ι] [Fintype ι] in
/-- A frame at a stage that is no `init` and no teardown. -/
theorem pastOpenOf_of_stagedAt {p : Stage} (hf : Frame.stagedAt a p f = true)
    (hnot : f.inProgressOf a = false) : Frame.pastOpenOf a false f = true := by
  by_contra hother
  have hnone : f.stageOf a = none := by
    refine stageOf_eq_none.mpr ⟨fun m => ?_, ?_⟩
    · cases m with
      | false => simpa using hother
      | true =>
        cases f with
        | call =>
          simp only [Frame.inProgressOf, Frame.pastOpenOf, Frame.callAt] at hnot ⊢
          grind
        | delivery => rfl
    · cases f with
      | call b c l pc =>
        have hholds := pc.holdsTeardown_of_waits
        simp only [Frame.inProgressOf, Frame.waitingOf, Frame.callAt] at hnot ⊢
        grind
      | delivery => rfl
  simp [Frame.stagedAt, hnone] at hf

/-- **The vendor's protocol.** With every vendor function bound, in every run in which no failed
    `init` of `a` claims a teardown and no publication overwrites a newer generation, the vendor calls
    of `a` keep the protocol, and where the vendor is live and neither an `init` nor a teardown is in
    progress the state is `Initialized`. -/
theorem vendor_protocol (hrun : System.Run bound (System.Orderly a) s)
    (hbound : ∀ v, bound a v = true) : KeepsProtocol s a := by
  have htracks := hrun.tracks hbound
  have hsteady : Steady s a := hrun.steady (fun _ _ => id)
  have hmeans : ∃ p, Means p a s.history := by
    by_cases hstaged : ∃ p, 0 < count (Frame.stagedAt a p) s.stack
    · obtain ⟨p, hp⟩ := hstaged
      exact ⟨p, htracks.staged p hp⟩
    · exact ⟨_, htracks.settled (fun p => Nat.eq_zero_of_not_pos (fun hp => hstaged ⟨p, hp⟩))⟩
  constructor
  · intro success
    obtain ⟨p, hp⟩ := hmeans
    rw [protocol_prefix_iff, hp.word success]
    cases p <;> cases success <;> simp [Stage.phase]
  · intro hlive hidle
    by_cases hstaged : ∃ p, 0 < count (Frame.stagedAt a p) s.stack
    · -- The frame at a stage is an entry point of an initialized adapter.
      obtain ⟨p, hp⟩ := hstaged
      obtain ⟨i, f, hf, hat⟩ := count_pos.mp hp
      exact hsteady.past false
        (count_pos.mpr ⟨i, f, hf, pastOpenOf_of_stagedAt hat (hidle i f hf)⟩)
    · have hstate := (htracks.settled
        (fun p => Nat.eq_zero_of_not_pos (fun hp => hstaged ⟨p, hp⟩))).live hlive
      cases hs : (s.impl a).state with
      | initialized => rfl
      | initializing =>
        obtain ⟨i, f, hf, hunsettled⟩ := count_pos.mp (hrun.owned hs)
        have hprogress : f.inProgressOf a = true := by
          cases f with
          | call b c l pc =>
            simp only [Frame.unsettledOf, Frame.inProgressOf, Frame.callAt] at hunsettled ⊢
            cases pc <;> simp_all [CallPc.pastOpen, CallPc.beforeClose, CallPc.holdsTeardown]
          | delivery => exact hunsettled
        exact absurd (hidle i f hf) (by simp [hprogress])
      | uninitialized | shuttingDown =>
        rw [hs] at hstate
        exact absurd hstate (by simp [State.stage, State.accepts])

/-- A callback asks for `deinit` during a heartbeat; the next `init` fails. -/
def torndownInHeartbeat (i j : ι) : List (Action ι Unit) :=
  .call i () (.init (some 7) 100) :: turns i 10 ++ .call i () (.heartbeat 50) :: turns i 5 ++
    linkedReport i () :: turns i 2 ++ .call i () .deinit :: turns i 4 ++ turns i 14 ++
    .call j () (.init none 100) :: turns j 5 ++ turns j 1 { code := sdkResFailed } ++ turns j 4

/-- The vendor sees one session, and then a failed `init`. -/
theorem vendor_protocol_sessions : ∃ s : System (Fin 3) Unit,
    System.Run (fun _ _ => true) (System.Orderly ()) s ∧
      vendorWord () true s.history = [.init true, .call, .deinit, .init false] ∧
      KeepsProtocol s () := by
  obtain ⟨s, hrun, hs⟩ := System.exists_run_of_exec (fun _ _ => true) (System.Orderly ())
    (torndownInHeartbeat (0 : Fin 3) 1)
    (fun s => vendorWord () true s.history == [.init true, .call, .deinit, .init false])
    (by decide +kernel)
  exact ⟨s, hrun, beq_iff_eq.mp hs, vendor_protocol hrun (fun _ => rfl)⟩

end

end HypertronBridge.Adapter
