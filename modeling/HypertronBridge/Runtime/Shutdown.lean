import HypertronBridge.Runtime.Links
import HypertronBridge.Runtime.LinkDrop

namespace HypertronBridge.Runtime

open TransitionSystem History

/-!
# Shutdown

`stop()` promises that the worker sends zero velocity and damping mode before it tears down a
session that has link and authority.  The connected loop looks at the stop flag at its two checks
only; the exit after a failed heartbeat does not: `stop_skips_actuation`.

* `StopActuated` — a zero move followed by the damping mode;
* `StoppedSession` — a session in which a stop is requested and which ends authorised;
* `World.stopRace` — the condition; `stop_actuates` — the result under it.
-/

variable {cfg : RuntimeConfig} {w w' w₀ w₁ : World} {a : Action} {ans : Answer}
  {ok : World → Action → Prop} {new t : List Event}

/-- The newest SDK call of these events is a zero move. -/
def ZeroMoved (new : List Event) : Prop :=
  ∃ between o r before, new = between ++ .sdk o (.move .zero) r :: before ∧
    ∀ e ∈ between, ∀ o call r, e ≠ .sdk o call r

/-- Among these events is a zero move followed by `set_mode(damping)`. -/
def StopActuated (new : List Event) : Prop :=
  ∃ after o r before, new = after ++ .sdk o (.setMode modeDamping) r :: before ∧ ZeroMoved before

/-- Link and authority are cached, and no link drop is latched. -/
def World.authorised (w : World) : Bool :=
  decide (w.cached = (true, true)) && !w.shared.linkDropLatched

/-- `stop()` requests the stop of the session that is connected at `w`, and that session comes to
    its end at `w'`, authorised; `new` is what happened in between. -/
structure StoppedSession (cfg : RuntimeConfig) (ok : World → Action → Prop) (w w' : World)
    (new : List Event) : Prop where
  run : Run cfg ok w
  connected : w.shared.connected = true
  unrequested : w.shared.stopRequested = false
  guarded : ok w .stop
  stopped : ∃ w₁, step cfg .stop w = some w₁ ∧ Reaches (step cfg) ok w₁ w'
  trace : w'.trace = new ++ w.trace
  sameSession : .sessionClosed ∉ new
  ending : w'.wk.pc = .drain
  authorised : w'.authorised = true

/-! ### The defect -/

/-- The worker is about to send the heartbeat. -/
def beating : List Action := readying ++ [.advance (ms 100)] ++ works 8 (obliging 0xB104)

/-- **The defect.** The stop is requested while the worker is in the heartbeat, which fails: the
    session ends authorised, and nothing was sent. -/
theorem stop_skips_actuation :
    ¬ ∀ cfg w w' new, StoppedSession cfg (fun _ _ => True) w w' new → StopActuated new := by
  intro hall
  obtain ⟨w, w₁, w', hrun, hstop, hafter, hw⟩ := exists_stages_of_exec {} (fun _ _ => True) beating
    .stop [.worker { result := .failure sdkResTimeout "timeout" }]
    (fun w w' => w.shared.connected && !w.shared.stopRequested && decide (w'.trace = w.trace) &&
      decide (w'.wk.pc = .drain) && w'.authorised) (by decide +kernel)
  simp only [Bool.and_eq_true, Bool.not_eq_true', decide_eq_true_eq] at hw
  obtain ⟨⟨⟨⟨hconn, hfirst⟩, htrace⟩, hpc⟩, hauth⟩ := hw
  obtain ⟨after, o, r, before, hnil, -⟩ := hall {} w w' [] ⟨hrun, hconn, hfirst, trivial,
    ⟨w₁, hstop, hafter⟩, htrace, by simp, hpc, hauth⟩
  exact absurd hnil (by simp)

/-! ### The windows -/

/-- The newest session has sent the damping mode of its stop. -/
def stopDamped : List Event → Bool
  | [] => false
  | .sessionOpened :: _ => false
  | .sdk .stop (.setMode _) _ :: _ => true
  | _ :: older => stopDamped older

/-- The steps by which an authorised session ends without the actuation of a requested stop: a
    failed heartbeat ends it after the request; the request comes when the loop has already
    ended; a stop that found no authorisation is followed by a report of one before the session
    is closed. -/
def World.stopRace (cfg : RuntimeConfig) (w : World) : Action → Bool
  | .worker ans =>
      w.wk.pc == .heartbeat && w.shared.stopRequested && w.authorised && !ans.result.success &&
        decide (max 1 cfg.heartbeatMaxFailures ≤ w.wk.heartbeatFailures + 1)
  | .stop => w.wk.pc == .drain && !w.shared.stopRequested && w.authorised
  | .status linked authority =>
      w.wk.pc == .drain && w.shared.stopRequested && !stopDamped w.trace && !w.authorised &&
        linked && authority && !w.shared.linkDropLatched
  | _ => false

/-- The sections of `actuate_stop_if_authorized`. -/
def Pc.stops : Pc → Bool
  | .stopRead | .stopZero | .stopDamp _ => true
  | _ => false

/-- Where a worker step enters the session-end stop, and where it leaves the connected loop. -/
theorem workerStep_stops (hs : workerStep cfg ans w w.wk.pc = some w') :
    (w'.wk.pc.stops = true → w.shared.stopRequested = true ∨ w.wk.pc.stops = true) ∧
      (∀ moved, w'.wk.pc = .stopDamp moved → w.wk.pc = .stopZero) ∧
      (w'.wk.pc = .drain → w.shared.stopRequested = true →
        (w.wk.pc = .stopRead ∧ w.authorised = false) ∨ (∃ moved, w.wk.pc = .stopDamp moved) ∨
          (w.wk.pc = .heartbeat ∧ ans.result.success = false ∧
            max 1 cfg.heartbeatMaxFailures ≤ w.wk.heartbeatFailures + 1)) := by
  cases hpc : w.wk.pc
  all_goals rw [hpc] at hs
  all_goals simp only [workerStep] at hs
  all_goals repeat' split at hs
  all_goals simp only [Option.some.injEq, reduceCtorEq] at hs
  all_goals subst hs
  all_goals simp [Pc.stops]
  case stopRead.isTrue hdenied =>
    simp only [World.authorised, World.cached, Prod.mk.injEq]
    cases hl : w.shared.sdkLinked <;> cases hc : w.shared.controlAuthority <;> simp_all
  all_goals simp_all

/-- A worker step in or after a session leaves what authorises a stop alone. -/
theorem workerStep_authorised (hs : workerStep cfg ans w w.wk.pc = some w')
    (hclear : w.wk.pc ≠ .clearLatch) (hcaches : ∀ k, w.wk.pc ≠ .invalidateCaches k) :
    w'.authorised = w.authorised := by
  unfold World.authorised
  rw [(workerStep_cached hs).2 hcaches]
  rcases workerStep_latch hs with hsame | ⟨hpc, -⟩
  · rw [hsame]
  · exact absurd hpc hclear

/-- Only the damping mode of a session-end stop is recorded as one. -/
theorem stopDamped_append (hnew : ∀ e ∈ new, ∀ mode r, e ≠ .sdk .stop (.setMode mode) r)
    (h : stopDamped (new ++ t) = true) : stopDamped t = true := by
  induction new with
  | nil => exact h
  | cons e new ih =>
    have htail := ih (fun x hx => hnew x (by simp [hx]))
    have hne := hnew e (by simp)
    cases e with
    | sessionOpened => exact absurd h (by simp [stopDamped])
    | sdk o call r =>
      cases o with
      | stop =>
        cases call with
        | setMode mode => exact absurd rfl (hne mode r)
        | requestAuthority _ | move _ => exact htail h
      | tick | command _ | estop _ => exact htail h
    | _ => exact htail h

/-- A worker step other than the last of the session-end stop records no damping mode for one. -/
theorem workerStep_stopDamped (hs : workerStep cfg ans w w.wk.pc = some w')
    (hpc : ∀ moved, w.wk.pc ≠ .stopDamp moved) (h : stopDamped w'.trace = true) :
    stopDamped w.trace = true := by
  obtain ⟨new, heq, hnew⟩ := Extends.trace (workerStep_extends hs)
  rw [heq] at h
  refine stopDamped_append (fun e he mode r hsdk => ?_) h
  obtain ⟨pc, hat, hcall⟩ := (hnew e he).sdk _ _ _ hsdk
  rw [← Option.some.inj hat] at hcall
  revert hcall hpc
  cases w.wk.pc <;> simp [Pc.sdkCall]

/-- The session-end stop is carried out on request. -/
structure StopInv (w : World) : Prop where
  stops : w.wk.pc.stops = true → w.shared.stopRequested = true
  damped : stopDamped w.trace = true → w.shared.stopRequested = true

/-- **Run lemma.** -/
theorem Run.stopInv (h : Run cfg ok w) : StopInv w := by
  refine h.invariant ⟨by simp [World.initial, Pc.stops], by simp [World.initial, stopDamped]⟩
    (fun s a s' _ hi _ hs => ?_)
  rcases s.worker_or_client a with ⟨ans, rfl⟩ | ha
  · have hstop := (workerStep_cached hs).1
    have hpc := (workerStep_stops hs).1
    refine ⟨fun hin => ?_, fun hd => ?_⟩
    · rw [hstop]
      exact (hpc hin).elim id hi.stops
    · rw [hstop]
      by_cases hdamp : ∃ moved, s.wk.pc = .stopDamp moved
      · obtain ⟨moved, hdamp⟩ := hdamp
        exact hi.stops (by simp [hdamp, Pc.stops])
      · exact hi.damped (workerStep_stopDamped hs (fun moved hpc => hdamp ⟨moved, hpc⟩) hd)
  · obtain ⟨new, heq, hnew⟩ := Extends.trace (step_extends hs)
    refine ⟨fun hin => (step_ending hs ha).1 (hi.stops ?_), fun hd => (step_ending hs ha).1
      (hi.damped ?_)⟩
    · rcases step_wk hs ha with hwk | ⟨-, hwk⟩
      · rwa [hwk] at hin
      · rw [hwk] at hin
        exact absurd hin (by simp [Pc.stops])
    · rw [heq] at hd
      refine stopDamped_append (fun e he mode r hsdk => ?_) hd
      subst hsdk
      exact absurd ((hnew _ he).client ha) (by simp [Event.byClient])

/-! ### From the request on -/

/-- Events without SDK calls leave the newest call as it is. -/
theorem ZeroMoved.append {more : List Event} (h : ZeroMoved new)
    (hmore : ∀ e ∈ more, ∀ o call r, e ≠ .sdk o call r) : ZeroMoved (more ++ new) := by
  obtain ⟨between, o, r, before, rfl, hbetween⟩ := h
  refine ⟨more ++ between, o, r, before, by simp, fun e he => ?_⟩
  rcases List.mem_append.mp he with he | he
  · exact hmore e he
  · exact hbetween e he

/-- What was actuated stays so. -/
theorem StopActuated.append (h : StopActuated new) (more : List Event) :
    StopActuated (more ++ new) := by
  obtain ⟨after, o, r, before, rfl, hbefore⟩ := h
  exact ⟨more ++ after, o, r, before, by simp, hbefore⟩

/-- A stop was requested before the events `new`: the worker has moved to zero when it is about to
    set the damping mode, and an authorised session ends only after that mode. -/
structure Stopping (new : List Event) (w : World) : Prop where
  requested : w.shared.stopRequested = true
  moved : ∀ moved, w.wk.pc = .stopDamp moved → ZeroMoved new
  damped : stopDamped w.trace = true → StopActuated new
  ended : w.wk.pc = .drain → w.authorised = true → stopDamped w.trace = true

/-- **Step lemma, worker.** -/
theorem Stopping.worker_step (h : Stopping new w) (hrace : w.stopRace cfg (.worker ans) = false)
    (hs : workerStep cfg ans w w.wk.pc = some w') :
    ∃ more, w'.trace = more ++ w.trace ∧ Stopping (more ++ new) w' := by
  obtain ⟨more, heq, hmore⟩ := Extends.trace (workerStep_extends hs)
  obtain ⟨-, hdamp, hdrain⟩ := workerStep_stops hs
  refine ⟨more, heq, by rw [(workerStep_cached hs).1, h.requested], ?_, ?_, ?_⟩
  · intro moved hpc'
    have hpc := hdamp moved hpc'
    rw [hpc] at hs
    simp only [workerStep, Option.some.injEq] at hs
    subst hs
    have hcall : more = [.sdk .stop (.move .zero) (.returned ans.result)] :=
      (List.append_cancel_right (show [_] ++ w.trace = more ++ w.trace from heq)).symm
    exact ⟨[], .stop, _, new, by rw [hcall]; rfl, by simp⟩
  · intro hd
    by_cases hpc : ∃ moved, w.wk.pc = .stopDamp moved
    · obtain ⟨moved, hpc⟩ := hpc
      have hzero := h.moved moved hpc
      rw [hpc] at hs
      simp only [workerStep, Option.some.injEq] at hs
      subst hs
      have hcall : more = [.sdk .stop (.setMode modeDamping) (.returned ans.result)] :=
        (List.append_cancel_right (show [_] ++ w.trace = more ++ w.trace from heq)).symm
      exact ⟨[], .stop, _, new, by rw [hcall]; rfl, hzero⟩
    · exact (h.damped (workerStep_stopDamped hs (fun moved hp => hpc ⟨moved, hp⟩) hd)).append more
  · intro hpc' hauth
    rcases hdrain hpc' h.requested with ⟨hpc, hdenied⟩ | ⟨moved, hpc⟩ | ⟨hpc, hfail, hmax⟩
    · rw [workerStep_authorised hs (by simp [hpc]) (by simp [hpc]), hdenied] at hauth
      exact absurd hauth (by simp)
    · rw [hpc] at hs
      simp only [workerStep, Option.some.injEq] at hs
      subst hs
      rfl
    · -- The failed heartbeat is the race, unless the session is not authorised.
      rw [workerStep_authorised hs (by simp [hpc]) (by simp [hpc])] at hauth
      have hout : w.stopRace cfg (.worker ans) = true := by
        simp [World.stopRace, hpc, h.requested, hauth, hfail, hmax]
      rw [hrace] at hout
      exact absurd hout (by simp)

/-- A client's step other than a report leaves what authorises a stop alone. -/
theorem clientStep_authorised (hs : step cfg a w = some w') (ha : w.workerAt a = none)
    (hstatus : ∀ linked authority, a ≠ .status linked authority) :
    w'.authorised = w.authorised := by
  unfold World.authorised
  rw [(step_cached hs ha hstatus).1, (clientStep_flags hs ha hstatus).1]

/-- **Step lemma, clients.** -/
theorem Stopping.client_step (h : Stopping new w) (hrace : w.stopRace cfg a = false)
    (hs : step cfg a w = some w') (ha : w.workerAt a = none) :
    ∃ more, w'.trace = more ++ w.trace ∧ Stopping (more ++ new) w' := by
  obtain ⟨more, heq, hmore⟩ := Extends.trace (step_extends hs)
  have hnosdk : ∀ e ∈ more, ∀ o call r, e ≠ .sdk o call r := by
    rintro e he o call r rfl
    exact absurd ((hmore _ he).client ha) (by simp [Event.byClient])
  have hpc : (w'.wk.pc = .drain ∨ ∃ moved, w'.wk.pc = .stopDamp moved) → w'.wk.pc = w.wk.pc := by
    intro hend
    rcases step_wk hs ha with hwk | ⟨-, hwk⟩
    · rw [hwk]
    · rw [hwk] at hend
      exact absurd hend (by simp)
  have hback : stopDamped w'.trace = true → stopDamped w.trace = true := by
    intro hd
    rw [heq] at hd
    exact stopDamped_append (fun e he mode r => hnosdk e he _ _ r) hd
  refine ⟨more, heq, (step_ending hs ha).1 h.requested, ?_, ?_, ?_⟩
  · intro moved hdamp
    exact (h.moved moved (by rw [← hpc (Or.inr ⟨moved, hdamp⟩), hdamp])).append hnosdk
  · intro hd
    exact (h.damped (hback hd)).append more
  · intro hdrain hauth
    have hdrain' : w.wk.pc = .drain := by rw [← hpc (Or.inl hdrain), hdrain]
    have hforth : stopDamped w.trace = true → stopDamped w'.trace = true := by
      intro hd
      rw [heq]
      clear heq hback
      induction more with
      | nil => exact hd
      | cons e more ih =>
        have hbc := (hmore e (by simp)).client ha
        have htail := ih (fun x hx => hmore x (by simp [hx])) (fun x hx => hnosdk x (by simp [hx]))
        cases e with
        | sessionOpened | sdk _ _ _ => exact absurd hbc (by simp [Event.byClient])
        | _ => exact htail
    by_cases hstatus : ∃ linked authority, a = .status linked authority
    · obtain ⟨linked, authority, rfl⟩ := hstatus
      simp only [step, Option.some.injEq] at hs
      subst hs
      have hup : linked = true ∧ authority = true ∧ w.shared.linkDropLatched = false := by
        simp [World.authorised, World.cached] at hauth
        exact ⟨hauth.1.1, hauth.1.2, hauth.2.1⟩
      obtain ⟨hlinked, hauthority, hl⟩ := hup
      -- A report that authorises the ending session is the race, unless the stop was carried out.
      by_contra hnot
      have hd : stopDamped w.trace = false := by
        cases hd : stopDamped w.trace with
        | false => rfl
        | true => exact absurd (hforth hd) hnot
      have hdenied : w.authorised = false := by
        cases hw : w.authorised with
        | false => rfl
        | true => exact absurd (h.ended hdrain' hw) (by simp [hd])
      simp [World.stopRace, hdrain', h.requested, hd, hdenied, hlinked, hauthority, hl] at hrace
    · rw [clientStep_authorised hs ha (fun l c heq => hstatus ⟨l, c, heq⟩)] at hauth
      exact hforth (h.ended hdrain' hauth)

/-- **Run lemma.** -/
theorem Run.stopping (hrun : Run cfg (fun w a => w.stopRace cfg a = false) w₁)
    (hafter : Reaches (step cfg) (fun w a => w.stopRace cfg a = false) w₁ w)
    (htrace : w₁.trace = new ++ t) (h : Stopping new w₁) :
    ∃ new', w.trace = new' ++ t ∧ Stopping new' w := by
  refine hrun.invariant_from (I := fun w => ∃ new', w.trace = new' ++ t ∧ Stopping new' w) hafter
    ⟨new, htrace, h⟩ (fun s a s' _ hi hok hs => ?_)
  obtain ⟨new', heq, hstopping⟩ := hi
  have hmore : ∃ more, s'.trace = more ++ s.trace ∧ Stopping (more ++ new') s' := by
    rcases s.worker_or_client a with ⟨ans, rfl⟩ | ha
    · exact hstopping.worker_step hok hs
    · exact hstopping.client_step hok hs ha
  obtain ⟨more, hmore, hnext⟩ := hmore
  exact ⟨more ++ new', by rw [hmore, heq, List.append_assoc], hnext⟩

/-! ### The result -/

/-- **Shutdown actuation is not skipped.** In every run that opens none of the windows, a session
    in which a stop is requested and which ends authorised has moved to zero and set the damping
    mode after the request. -/
theorem stop_actuates (h : StoppedSession cfg (fun w a => w.stopRace cfg a = false) w w' new) :
    StopActuated new := by
  obtain ⟨w₁, hstop, hafter⟩ := h.stopped
  have hfirst : Stopping [] w₁ ∧ w₁.trace = w.trace := by
    have hinv := h.run.stopInv
    have hrace := h.guarded
    simp only [step, Option.some.injEq] at hstop
    subst hstop
    refine ⟨⟨rfl, fun moved hpc => ?_, fun hd => ?_, fun hpc hauth => ?_⟩, rfl⟩
    · -- The worker is not in a stop that nobody has requested.
      have hpc' : w.wk.pc = .stopDamp moved := hpc
      have hreq := hinv.stops (by simp [hpc', Pc.stops])
      rw [h.unrequested] at hreq
      exact absurd hreq (by simp)
    · have hreq := hinv.damped hd
      rw [h.unrequested] at hreq
      exact absurd hreq (by simp)
    · have hpc' : w.wk.pc = .drain := hpc
      have hauth' : w.authorised = true := hauth
      simp [World.stopRace, hpc', hauth', h.unrequested] at hrace
  obtain ⟨hstopping, htrace⟩ := hfirst
  have hrun₁ : Run cfg (fun w a => w.stopRace cfg a = false) w₁ := .tail h.run h.guarded hstop
  have hstart : w₁.trace = [] ++ w.trace := htrace
  obtain ⟨new', heq, hend⟩ := hrun₁.stopping hafter hstart hstopping
  rw [List.append_cancel_right (h.trace.symm.trans heq)]
  exact hend.damped (hend.ended h.ending h.authorised)

/-- The stop of an authorised session whose worker waits. -/
theorem stop_actuates_waiting :
    ∃ w w' new, StoppedSession {} (fun w a => w.stopRace {} a = false) w w' new ∧
      StopActuated new := by
  obtain ⟨w, w₁, w', hrun, hstop, hafter, hw⟩ := exists_stages_of_exec {}
    (fun w a => w.stopRace {} a = false) readying .stop (works 4 (obliging 0xB104))
    (fun w w' => w.shared.connected && !w.shared.stopRequested && !w.stopRace {} .stop &&
      decide (w'.trace.drop 3 = w.trace) && decide (.sessionClosed ∉ w'.trace.take 3) &&
      decide (w'.wk.pc = .drain) && w'.authorised) (by decide +kernel)
  simp only [Bool.and_eq_true, Bool.not_eq_true', decide_eq_true_eq] at hw
  obtain ⟨⟨⟨⟨⟨⟨hconn, hfirst⟩, hrace⟩, htrace⟩, hsame⟩, hpc⟩, hauth⟩ := hw
  have hsplit : w'.trace = w'.trace.take 3 ++ w.trace := by rw [← htrace, List.take_append_drop]
  have hsession : StoppedSession {} (fun w a => w.stopRace {} a = false) w w' (w'.trace.take 3) :=
    ⟨hrun, hconn, hfirst, hrace, ⟨w₁, hstop, hafter⟩, hsplit, hsame, hpc, hauth⟩
  exact ⟨w, w', _, hsession, stop_actuates hsession⟩

end HypertronBridge.Runtime
