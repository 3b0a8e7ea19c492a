import HypertronBridge.Lib.History
import HypertronBridge.Lidar.Receiver

namespace HypertronBridge.Lidar

open TransitionSystem History

/-!
# A stopped receiver is silent

Whoever returns from `stop()` on another thread has seen the receive thread joined, or never created.

* `Receiver.Moves`, `Receiver.step_moves` — what a step can do;
* `Receiver.ThreadInv`, `Receiver.CallerInv`, `Receiver.HistoryInv` — what holds at every moment;
* `stopped_receiver_is_silent` — one thread, one join, and no callback after a `stop()`.
-/

universe u

namespace Receiver

variable {ι : Type u}

/-! ### The history -/

/-- The receive thread is created. -/
def Event.isCreated : Event ι → Bool
  | .created => true
  | _ => false

/-- A thread calls `join()`. -/
def Event.isJoinCall : Event ι → Bool
  | .joinCalled _ => true
  | _ => false

/-- The receive thread is joined. -/
def Event.isJoined : Event ι → Bool
  | .joined _ => true
  | _ => false

/-- A callback starts. -/
def Event.isCallbackStart : Event ι → Bool
  | .callbackStarted _ => true
  | _ => false

/-- The call goes on after the section under `mutex`. -/
def Stopping.past : Stopping → Bool
  | .idle => false
  | .request => false
  | _ => true

/-- The call holds `stop_mutex`. -/
def Stopping.holds : Stopping → Bool
  | .test => true
  | .join => true
  | .unlock => true
  | _ => false

/-- The receive thread is between two callbacks. -/
def Loop.between : Loop → Bool
  | .wait => true
  | .receive => true
  | .expire => true
  | _ => false

/-! ### The thread and its callers -/

variable {s : Receiver ι}

/-- The thread is created by the first `start()`, and has returned when it has been joined. -/
structure ThreadInv (s : Receiver ι) : Prop where
  ids : s.threadId = s.receiveId
  unset : s.thread = .unset → s.loop = .absent ∧ s.threadId = none
  started : s.thread ≠ .unset → s.startCalled = true
  joined : s.thread = .joined → s.loop = .returned
  once : s.history.countP Event.isCreated ≤ 1
  uncreated : s.thread = .unset → s.history.countP Event.isCreated = 0
  joinedOnce : s.history.countP Event.isJoined ≤ 1
  unjoined : s.thread ≠ .joined → s.history.countP Event.isJoined = 0

/-- What holds of a thread that is there in `stop()`. -/
structure CallFits (s : Receiver ι) (caller : Caller ι) (x : Stopping) : Prop where
  requested : x.past = true → s.stopRequested = true
  owner : x.holds = true → s.stopMutex = some caller
  joining : x = .join → s.thread = .joinable
  unlocking : x = .unlock → s.thread ≠ .joinable

/-- The calls of `stop()`: the receive thread calls from its callbacks, and goes no further than its
    request. -/
structure CallerInv (s : Receiver ι) : Prop where
  inside : s.stopping .receive = .idle ∨ s.stopping .receive = .request ∧ s.loop.inCallback = true
  calls : ∀ c, s.CallFits c (s.stopping c)

/-- Before the first `start()` there is no thread. -/
theorem ThreadInv.unset_of_first (h : s.ThreadInv) (hfirst : s.startCalled = false) : s.thread = .unset := by
  by_contra hset
  exact absurd (hfirst.symm.trans (h.started hset)) (by decide)

/-- A thread that has not returned is not joined. -/
theorem ThreadInv.joinable_of_loop (h : s.ThreadInv) (habsent : s.loop ≠ .absent)
    (hreturned : s.loop ≠ .returned) : s.thread = .joinable := by
  cases hthread : s.thread with
  | joinable => rfl
  | unset => exact absurd (h.unset hthread).1 habsent
  | joined => exact absurd (h.joined hthread) hreturned

/-- Between callbacks the thread runs, and is in no call. -/
theorem ThreadInv.of_between (h : s.ThreadInv) (hfrom : s.loop.between = true) : s.thread = .joinable := by
  refine h.joinable_of_loop (fun heq => ?_) (fun heq => ?_)
  · rw [heq] at hfrom
    exact absurd hfrom (by decide)
  · rw [heq] at hfrom
    exact absurd hfrom (by decide)

theorem CallerInv.of_between (h : s.CallerInv) (hfrom : s.loop.between = true) :
    s.stopping .receive = .idle := by
  refine h.inside.resolve_right (fun hin => ?_)
  cases hloop : s.loop <;> simp_all [Loop.between, Loop.inCallback]

theorem ThreadInv.of_inCallback (h : s.ThreadInv) (hfrom : s.loop.inCallback = true) :
    s.thread = .joinable := by
  refine h.joinable_of_loop (fun heq => ?_) (fun heq => ?_)
  · rw [heq] at hfrom
    exact absurd hfrom (by decide)
  · rw [heq] at hfrom
    exact absurd hfrom (by decide)

/-- An event that is not about the thread. -/
theorem ThreadInv.counts_cons (h : s.ThreadInv) {e : Event ι} (hcreated : e.isCreated = false)
    (hjoined : e.isJoined = false) : (e :: s.history).countP Event.isCreated ≤ 1 ∧
      (s.thread = .unset → (e :: s.history).countP Event.isCreated = 0) ∧
      (e :: s.history).countP Event.isJoined ≤ 1 ∧
      (s.thread ≠ .joined → (e :: s.history).countP Event.isJoined = 0) := by
  rw [List.countP_cons_of_neg (by simp [hcreated]), List.countP_cons_of_neg (by simp [hjoined])]
  exact ⟨h.once, h.uncreated, h.joinedOnce, h.unjoined⟩

/-- The receive thread is not past the section under `mutex`. -/
theorem CallerInv.ne_receive (h : s.CallerInv) (caller : Caller ι) (hpast : (s.stopping caller).past = true) :
    caller ≠ .receive := by
  rintro rfl
  rcases h.inside with hidle | ⟨hrequest, -⟩
  · rw [hidle] at hpast
    exact absurd hpast (by decide)
  · rw [hrequest] at hpast
    exact absurd hpast (by decide)

/-- `stop_mutex` is held once. -/
theorem CallerInv.not_holds (h : s.CallerInv) (caller : Caller ι) {c : Caller ι}
    (hcaller : (s.stopping caller).holds = true) (hne : c ≠ caller) : (s.stopping c).holds = false := by
  by_contra hholds
  have hc := (h.calls c).owner (by simpa using hholds)
  exact hne (Option.some.inj (hc.symm.trans ((h.calls caller).owner hcaller)))

/-! ### The invariant of the history -/

/-- A `stop()` on another thread has returned. -/
def StoppedOutside (history : List (Event ι)) : Prop := ∃ i, .stopReturned (.external i) ∈ history

/-- What the history tells. -/
structure HistoryInv (s : Receiver ι) : Prop where
  callOnce : s.history.countP Event.isJoinCall ≤ 1
  called : s.history.countP Event.isJoinCall = 1 → s.thread = .joined ∨ ∃ c, s.stopping c = .join
  notSelf : .joinCalled .receive ∉ s.history ∧ .joined .receive ∉ s.history
  stopped : StoppedOutside s.history → s.stopRequested = true ∧ s.thread ≠ .joinable
  silent : Historically (fun e h => e.isCallbackStart = true → ¬ StoppedOutside h) s.history

/-- An event that calls no join. -/
theorem HistoryInv.cons (h : s.HistoryInv) {e : Event ι} (hcall : e.isJoinCall = false)
    (hself : e ≠ .joinCalled .receive ∧ e ≠ .joined .receive)
    (hstart : e.isCallbackStart = true → ¬ StoppedOutside s.history)
    (hstop : ∀ i, e = .stopReturned (.external i) → s.stopRequested = true ∧ s.thread ≠ .joinable) :
    HistoryInv { s with history := e :: s.history } := by
  have hcount : (e :: s.history).countP Event.isJoinCall = s.history.countP Event.isJoinCall :=
    List.countP_cons_of_neg (by simp [hcall])
  refine ⟨hcount.trans_le h.callOnce, fun hone => h.called (hcount.symm.trans hone), ?_, ?_,
    hstart, h.silent⟩
  · simp only [List.mem_cons, not_or]
    exact ⟨⟨fun heq => hself.1 heq.symm, h.notSelf.1⟩, ⟨fun heq => hself.2 heq.symm, h.notSelf.2⟩⟩
  · rintro ⟨i, hi⟩
    rcases List.mem_cons.mp hi with heq | hi
    · exact hstop i heq.symm
    · exact h.stopped ⟨i, hi⟩

/-- What holds at every moment. -/
structure Inv (s : Receiver ι) : Prop where
  thread : s.ThreadInv
  caller : s.CallerInv
  history : s.HistoryInv

theorem inv_initial (assembler : Assembler) : Inv ({ assembler } : Receiver ι) := by
  refine ⟨⟨rfl, fun _ => ⟨rfl, rfl⟩, fun hset => absurd rfl hset, nofun, Nat.zero_le 1, fun _ => rfl,
    Nat.zero_le 1, fun _ => rfl⟩, ⟨.inl rfl, fun _ => ⟨nofun, nofun, nofun, nofun⟩⟩,
    ⟨Nat.zero_le 1, nofun, ⟨by simp, by simp⟩, fun ⟨_, hi⟩ => absurd hi (by simp), trivial⟩⟩

/-! ### What a step can do -/

variable [DecidableEq ι] {setup : Setup} {s' : Receiver ι} {b : Action ι}

/-- **What a step can do.** -/
inductive Moves (s : Receiver ι) : Receiver ι → Prop
  | stays : Moves s s
  | begins {tid : Tid} (hstop : s.stopRequested = false) (hfirst : s.startCalled = false) :
      Moves s { s with
        startCalled := true
        running := true
        thread := .joinable
        threadId := some tid
        loop := .wait
        receiveId := some tid
        history := .created :: s.history }
  | throws : Moves s { s with startCalled := true, running := true }
  | enters {caller : Caller ι} (hcall : s.MayCall caller) : Moves s (s.goes caller .request)
  | isReceive {caller : Caller ι} {me : Tid} (hat : s.stopping caller = .request)
      (hid : s.HasId caller me) (hme : s.threadId = some me) :
      Moves s ({ s with stopRequested := true, running := false }.returns caller)
  | requests {caller : Caller ι} {me : Tid} (hat : s.stopping caller = .request)
      (hid : s.HasId caller me) (hme : s.threadId ≠ some me) :
      Moves s ({ s with stopRequested := true, running := false }.goes caller .lock)
  | locks {caller : Caller ι} (hat : s.stopping caller = .lock) (hfree : s.stopMutex = none) :
      Moves s ({ s with stopMutex := some caller }.goes caller .test)
  | calls {caller : Caller ι} (hat : s.stopping caller = .test) (hthread : s.thread = .joinable) :
      Moves s ({ s with history := .joinCalled caller :: s.history }.goes caller .join)
  | skips {caller : Caller ι} (hat : s.stopping caller = .test) (hthread : s.thread ≠ .joinable) :
      Moves s (s.goes caller .unlock)
  | joins {caller : Caller ι} (hat : s.stopping caller = .join) (hloop : s.loop = .returned) :
      Moves s ({ s with thread := .joined, history := .joined caller :: s.history }.goes caller .unlock)
  | unlocks {caller : Caller ι} (hat : s.stopping caller = .unlock) :
      Moves s ({ s with stopMutex := none }.returns caller)
  | loops {loop : Loop} {assembler : Assembler} {lastWarning : Time} (hfrom : s.loop.between = true)
      (hto : loop ≠ .absent) : Moves s { s with loop, assembler, lastWarning }
  | callsBack {callback : Callback} {assembler : Assembler} {lastWarning : Time}
      (hfrom : s.loop.between = true) :
      Moves s ({ s with assembler, lastWarning }.callBack callback)
  | ends {loop : Loop} (hfrom : s.loop.inCallback = true) (hidle : s.stopping .receive = .idle)
      (hto : loop ≠ .absent) : Moves s { s with loop, history := .callbackEnded :: s.history }

theorem afterDatagram_ne (setup : Setup) : setup.afterDatagram ≠ .absent := by
  unfold Setup.afterDatagram
  split <;> simp

theorem start_moves (s : Receiver ι) (created : Option Tid) : s.Moves (s.start created) := by
  unfold start
  split
  · exact .stays
  · rename_i hfresh
    obtain ⟨hstop, hfirst⟩ : s.stopRequested = false ∧ s.startCalled = false := by simpa using hfresh
    split
    · exact .begins hstop hfirst
    · exact .throws

theorem request_moves {caller : Caller ι} {me : Tid} (hat : s.stopping caller = .request)
    (hid : s.HasId caller me) : s.Moves (s.request caller me) := by
  unfold request
  by_cases hme : s.threadId = some me
  · simp only [hme, if_true]
    exact hme ▸ .isReceive hat hid hme
  · simp only [hme, if_false]
    exact .requests hat hid hme

theorem warn_moves (hloop : s.loop = .receive) (reason : String) (now : Time) :
    s.Moves (warn setup s reason now) := by
  have hfrom : s.loop.between = true := by rw [hloop]; rfl
  unfold warn
  split
  · exact .callsBack hfrom
  · exact .loops hfrom (afterDatagram_ne setup)

theorem onDatagram_moves (hloop : s.loop = .receive) (buffer : List UInt8) (now : Time) :
    s.Moves (s.onDatagram setup buffer now) := by
  have hfrom : s.loop.between = true := by rw [hloop]; rfl
  unfold onDatagram
  split
  · dsimp only
    split_ifs
    · exact warn_moves hloop _ now
    · exact .callsBack hfrom
    · exact .loops hfrom (afterDatagram_ne setup)
  · dsimp only
    by_cases hok : (parsePointCloudPacket setup.pointDoubles buffer setup.config.toLidarParseConfig).ok = true
    · rw [if_pos hok]
      split
      · split
        · exact .callsBack hfrom
        · exact .loops hfrom (afterDatagram_ne setup)
      · exact .loops hfrom (afterDatagram_ne setup)
    · rw [if_neg hok]
      exact warn_moves hloop _ now

theorem step_moves (h : step setup b s = some s') : s.Moves s' := by
  unfold step at h
  split at h
  · split_ifs at h
    obtain rfl := Option.some.inj h
    exact s.start_moves _
  · split_ifs at h with hcall
    obtain rfl := Option.some.inj h
    exact .enters hcall
  · split_ifs at h with hreq
    obtain rfl := Option.some.inj h
    exact request_moves hreq.1 hreq.2
  · split_ifs at h with hlock
    obtain rfl := Option.some.inj h
    exact .locks hlock.1 hlock.2
  · split_ifs at h with hat hthread
    · obtain rfl := Option.some.inj h
      exact .calls hat hthread
    · obtain rfl := Option.some.inj h
      exact .skips hat hthread
  · split at h
    · rename_i hloop
      split_ifs at h with hat
      obtain rfl := Option.some.inj h
      exact .joins hat hloop
    · exact absurd h (by simp)
  · split_ifs at h with hat
    obtain rfl := Option.some.inj h
    exact .unlocks hat
  · split at h
    · rename_i hloop
      have hfrom : s.loop.between = true := by rw [hloop]; rfl
      split_ifs at h
      · obtain rfl := Option.some.inj h
        exact .loops hfrom (by simp)
      · obtain rfl := Option.some.inj h
        exact .loops hfrom (by simp)
    · exact absurd h (by simp)
  · split at h
    · rename_i hloop
      split at h
      · obtain rfl := Option.some.inj h
        exact onDatagram_moves hloop _ _
      · obtain rfl := Option.some.inj h
        exact .loops (by rw [hloop]; rfl) (afterDatagram_ne setup)
    · exact absurd h (by simp)
  · split at h
    · rename_i hloop
      split_ifs at h with hidle
      obtain rfl := Option.some.inj h
      exact .ends (by rw [hloop]; rfl) hidle (afterDatagram_ne setup)
    · exact absurd h (by simp)
  · split at h
    · rename_i hloop
      obtain rfl := Option.some.inj h
      exact .loops (by rw [hloop]; rfl) (by simp)
    · exact absurd h (by simp)

/-! ### Every step -/

theorem ThreadInv.moves (h : s.ThreadInv) (hc : s.CallerInv) (hmoves : s.Moves s') : s'.ThreadInv := by
  cases hmoves with
  | stays => exact h
  | begins hstop hfirst =>
    have hunset := h.unset_of_first hfirst
    refine ⟨rfl, fun hthread => absurd hthread (by simp), fun _ => rfl,
      fun hthread => absurd hthread (by simp), ?_, fun hthread => absurd hthread (by simp), ?_, fun _ => ?_⟩
    · show (Event.created :: s.history).countP Event.isCreated ≤ 1
      rw [List.countP_cons_of_pos rfl, h.uncreated hunset]
    · exact h.joinedOnce
    · exact h.unjoined (by simp [hunset])
  | joins hat hloop =>
    have hthread := (hc.calls _).joining hat
    refine ⟨h.ids, fun hunset => absurd hunset (by simp [goes]), fun _ => h.started (by simp [hthread]),
      fun _ => hloop, h.once, fun hunset => absurd hunset (by simp [goes]), ?_,
      fun hnot => absurd rfl hnot⟩
    show (Event.joined _ :: s.history).countP Event.isJoined ≤ 1
    rw [List.countP_cons_of_pos rfl, h.unjoined (by simp [hthread])]
  | @loops loop _ _ hfrom hto =>
    have hthread := h.of_between hfrom
    exact ⟨h.ids, fun hunset => absurd (hthread.symm.trans hunset) (by simp), h.started,
      fun hjoined => absurd (hthread.symm.trans hjoined) (by simp), h.once, h.uncreated, h.joinedOnce,
      h.unjoined⟩
  | @callsBack callback _ _ hfrom =>
    have hthread := h.of_between hfrom
    obtain ⟨honce, huncreated, hjoinedOnce, hunjoined⟩ :=
      h.counts_cons (e := .callbackStarted callback) rfl rfl
    exact ⟨h.ids, fun hunset => absurd (hthread.symm.trans hunset) (by simp), h.started,
      fun hjoined => absurd (hthread.symm.trans hjoined) (by simp), honce, huncreated, hjoinedOnce,
      hunjoined⟩
  | ends hfrom _ hto =>
    have hthread := h.of_inCallback hfrom
    obtain ⟨honce, huncreated, hjoinedOnce, hunjoined⟩ := h.counts_cons (e := .callbackEnded) rfl rfl
    exact ⟨h.ids, fun hunset => absurd (hthread.symm.trans hunset) (by simp), h.started,
      fun hjoined => absurd (hthread.symm.trans hjoined) (by simp), honce, huncreated, hjoinedOnce,
      hunjoined⟩
  | @isReceive caller =>
    obtain ⟨honce, huncreated, hjoinedOnce, hunjoined⟩ :=
      h.counts_cons (e := .stopReturned caller) rfl rfl
    exact ⟨h.ids, h.unset, h.started, h.joined, honce, huncreated, hjoinedOnce, hunjoined⟩
  | @unlocks caller =>
    obtain ⟨honce, huncreated, hjoinedOnce, hunjoined⟩ :=
      h.counts_cons (e := .stopReturned caller) rfl rfl
    exact ⟨h.ids, h.unset, h.started, h.joined, honce, huncreated, hjoinedOnce, hunjoined⟩
  | @calls caller =>
    obtain ⟨honce, huncreated, hjoinedOnce, hunjoined⟩ := h.counts_cons (e := .joinCalled caller) rfl rfl
    exact ⟨h.ids, h.unset, h.started, h.joined, honce, huncreated, hjoinedOnce, hunjoined⟩
  | throws =>
    exact ⟨h.ids, h.unset, fun _ => rfl, h.joined, h.once, h.uncreated, h.joinedOnce, h.unjoined⟩
  -- what is left changes a call of `stop()` only
  | _ => exact ⟨h.ids, h.unset, h.started, h.joined, h.once, h.uncreated, h.joinedOnce, h.unjoined⟩

theorem goes_self (s : Receiver ι) (caller : Caller ι) (next : Stopping) :
    (s.goes caller next).stopping caller = next := Function.update_self ..

theorem goes_other (s : Receiver ι) {caller c : Caller ι} (h : c ≠ caller) (next : Stopping) :
    (s.goes caller next).stopping c = s.stopping c := Function.update_of_ne h ..

/-- One thread goes on. -/
theorem CallerInv.goes {caller : Caller ι} {next : Stopping}
    (hinside : s.stopping .receive = .idle ∨ s.stopping .receive = .request ∧ s.loop.inCallback = true)
    (hnext : caller = .receive → next = .idle ∨ next = .request ∧ s.loop.inCallback = true)
    (hself : s.CallFits caller next) (hother : ∀ c, c ≠ caller → s.CallFits c (s.stopping c)) :
    (s.goes caller next).CallerInv := by
  refine ⟨?_, fun c => ?_⟩
  · by_cases hc : caller = .receive
    · subst hc
      rw [goes_self]
      exact hnext rfl
    · rw [goes_other s (fun heq => hc heq.symm)]
      exact hinside
  · by_cases hc : c = caller
    · subst hc
      rw [goes_self]
      exact ⟨hself.requested, hself.owner, hself.joining, hself.unlocking⟩
    · rw [goes_other s hc]
      exact ⟨(hother c hc).requested, (hother c hc).owner, (hother c hc).joining, (hother c hc).unlocking⟩

theorem CallerInv.moves (h : s.CallerInv) (ht : s.ThreadInv) (hmoves : s.Moves s') : s'.CallerInv := by
  cases hmoves with
  | stays => exact h
  | begins hstop hfirst =>
    -- no thread has made its request yet
    have hnot : ∀ c, (s.stopping c).past = false := by
      intro c
      by_contra hpast
      exact absurd (hstop.symm.trans ((h.calls c).requested (by simpa using hpast))) (by decide)
    have hunset := ht.unset_of_first hfirst
    refine ⟨.inl (h.inside.resolve_right (fun hin => ?_)), fun c =>
      ⟨(h.calls c).requested, (h.calls c).owner, fun _ => rfl, fun hat => ?_⟩⟩
    · rw [(ht.unset hunset).1] at hin
      exact absurd hin.2 (by decide)
    · have hpast := hnot c
      rw [show s.stopping c = .unlock from hat] at hpast
      exact absurd hpast (by decide)
  | throws =>
    exact ⟨h.inside, fun c =>
      ⟨(h.calls c).requested, (h.calls c).owner, (h.calls c).joining, (h.calls c).unlocking⟩⟩
  | @enters caller hcall =>
    refine .goes h.inside (fun hc => ?_) ⟨nofun, nofun, nofun, nofun⟩ (fun c _ => h.calls c)
    subst hc
    exact .inr ⟨rfl, hcall.2⟩
  | @isReceive caller =>
    refine CallerInv.goes (s := { s with
      stopRequested := true, running := false, history := .stopReturned caller :: s.history })
      h.inside (fun _ => .inl rfl) ⟨nofun, nofun, nofun, nofun⟩ (fun c _ => ?_)
    exact ⟨fun _ => rfl, (h.calls c).owner, (h.calls c).joining, (h.calls c).unlocking⟩
  | @requests caller me _ hid hme =>
    -- the receive thread finds its own id
    have hne : caller ≠ .receive := by
      rintro rfl
      exact hme (ht.ids.trans hid)
    refine CallerInv.goes (s := { s with stopRequested := true, running := false })
      h.inside (fun hc => absurd hc hne) ⟨fun _ => rfl, nofun, nofun, nofun⟩ (fun c _ => ?_)
    exact ⟨fun _ => rfl, (h.calls c).owner, (h.calls c).joining, (h.calls c).unlocking⟩
  | @locks caller hat hfree =>
    have hne := h.ne_receive caller (by rw [hat]; rfl)
    refine CallerInv.goes (s := { s with stopMutex := some caller })
      h.inside (fun hc => absurd hc hne) ⟨fun _ => ?_, fun _ => rfl, nofun, nofun⟩ (fun c _ => ?_)
    · exact (h.calls caller).requested (by rw [hat]; rfl)
    · refine ⟨(h.calls c).requested, fun hholds => ?_, (h.calls c).joining, (h.calls c).unlocking⟩
      exact absurd (hfree.symm.trans ((h.calls c).owner hholds)) (by simp)
  | @calls caller hat hthread =>
    have hne := h.ne_receive caller (by rw [hat]; rfl)
    refine CallerInv.goes (s := { s with history := .joinCalled caller :: s.history })
      h.inside (fun hc => absurd hc hne) ⟨fun _ => ?_, fun _ => ?_, fun _ => hthread, nofun⟩
      (fun c _ => ⟨(h.calls c).requested, (h.calls c).owner, (h.calls c).joining, (h.calls c).unlocking⟩)
    · exact (h.calls caller).requested (by rw [hat]; rfl)
    · exact (h.calls caller).owner (by rw [hat]; rfl)
  | @skips caller hat hthread =>
    have hne := h.ne_receive caller (by rw [hat]; rfl)
    refine .goes h.inside (fun hc => absurd hc hne) ⟨fun _ => ?_, fun _ => ?_, nofun, fun _ => hthread⟩
      (fun c _ => h.calls c)
    · exact (h.calls caller).requested (by rw [hat]; rfl)
    · exact (h.calls caller).owner (by rw [hat]; rfl)
  | @joins caller hat hloop =>
    have hne := h.ne_receive caller (by rw [hat]; rfl)
    refine CallerInv.goes (s := { s with thread := .joined, history := .joined caller :: s.history })
      h.inside (fun hc => absurd hc hne) ⟨fun _ => ?_, fun _ => ?_, nofun, fun _ => by simp⟩
      (fun c hc => ⟨(h.calls c).requested, (h.calls c).owner, fun hjoin => ?_, fun _ => by simp⟩)
    · exact (h.calls caller).requested (by rw [hat]; rfl)
    · exact (h.calls caller).owner (by rw [hat]; rfl)
    · -- no second thread is at the join
      have hholds := h.not_holds caller (by rw [hat]; rfl) hc
      rw [show s.stopping c = .join from hjoin] at hholds
      exact absurd hholds (by decide)
  | @unlocks caller hat =>
    refine CallerInv.goes (s := { s with stopMutex := none, history := .stopReturned caller :: s.history })
      h.inside (fun _ => .inl rfl) ⟨nofun, nofun, nofun, nofun⟩
      (fun c hc => ⟨(h.calls c).requested, fun hholds => ?_, (h.calls c).joining, (h.calls c).unlocking⟩)
    have hnot := h.not_holds caller (by rw [hat]; rfl) hc
    exact absurd (hnot.symm.trans hholds) (by decide)
  | loops hfrom =>
    exact ⟨.inl (h.of_between hfrom), fun c =>
      ⟨(h.calls c).requested, (h.calls c).owner, (h.calls c).joining, (h.calls c).unlocking⟩⟩
  | callsBack hfrom =>
    exact ⟨.inl (h.of_between hfrom), fun c =>
      ⟨(h.calls c).requested, (h.calls c).owner, (h.calls c).joining, (h.calls c).unlocking⟩⟩
  | ends _ hidle =>
    exact ⟨.inl hidle, fun c =>
      ⟨(h.calls c).requested, (h.calls c).owner, (h.calls c).joining, (h.calls c).unlocking⟩⟩

/-- A thread that is not at the join goes on. -/
theorem HistoryInv.goes (h : s.HistoryInv) {caller : Caller ι} (hnot : s.stopping caller ≠ .join)
    (next : Stopping) : (s.goes caller next).HistoryInv := by
  refine ⟨h.callOnce, fun hone => (h.called hone).imp id ?_, h.notSelf, h.stopped, h.silent⟩
  rintro ⟨c, hjoin⟩
  have hne : c ≠ caller := fun heq => hnot (heq ▸ hjoin)
  exact ⟨c, (goes_other s hne next).trans hjoin⟩

theorem HistoryInv.moves (h : s.HistoryInv) (ht : s.ThreadInv) (hc : s.CallerInv)
    (hmoves : s.Moves s') : s'.HistoryInv := by
  have hrequest : HistoryInv { s with stopRequested := true, running := false } :=
    ⟨h.callOnce, h.called, h.notSelf, fun hout => ⟨rfl, (h.stopped hout).2⟩, h.silent⟩
  cases hmoves with
  | stays => exact h
  | @begins tid hstop hfirst =>
    have hunset := ht.unset_of_first hfirst
    have hnew := h.cons (e := .created) rfl (by simp) nofun (by simp)
    refine ⟨hnew.callOnce, fun hone => ?_, hnew.notSelf, fun hout => ?_, hnew.silent⟩
    · exact .inr ((hnew.called hone).resolve_left (by simp [hunset]))
    · exact absurd (hstop.symm.trans (hnew.stopped hout).1) (by decide)
  | throws => exact ⟨h.callOnce, h.called, h.notSelf, h.stopped, h.silent⟩
  | @enters caller hcall =>
    have hidle : s.stopping caller = .idle := by
      cases caller with
      | receive => exact hcall.1
      | external i => exact hcall
    exact h.goes (by simp [hidle]) .request
  | @isReceive caller me hat hid hme =>
    refine (hrequest.cons (e := .stopReturned caller) rfl (by simp) nofun (fun i heq => ⟨rfl, ?_⟩)).goes
      (by simp [hat]) .idle
    -- another thread has that id only after the receive thread has been joined
    obtain rfl := Event.stopReturned.inj heq
    exact fun hthread => hid hthread (ht.ids.symm.trans hme)
  | @requests caller me hat _ _ => exact hrequest.goes (by simp [hat]) .lock
  | @locks caller hat hfree =>
    have hlocked : HistoryInv { s with stopMutex := some caller } :=
      ⟨h.callOnce, h.called, h.notSelf, h.stopped, h.silent⟩
    exact hlocked.goes (by simp [hat]) .test
  | @calls caller hat hthread =>
    have hne := hc.ne_receive caller (by rw [hat]; rfl)
    -- a call before this one would still be going on, under the same mutex
    have hzero : s.history.countP Event.isJoinCall = 0 := by
      have := h.callOnce
      by_contra hsome
      rcases h.called (by omega) with hjoined | ⟨c, hjoin⟩
      · exact absurd (hthread.symm.trans hjoined) (by simp)
      · have hother : c ≠ caller := by
          rintro rfl
          exact absurd (hat.symm.trans hjoin) (by simp)
        have hholds := hc.not_holds caller (by rw [hat]; rfl) hother
        rw [hjoin] at hholds
        exact absurd hholds (by decide)
    refine ⟨?_, fun _ => .inr ⟨caller, goes_self ..⟩, ?_, ?_, nofun, h.silent⟩
    · show (Event.joinCalled caller :: s.history).countP Event.isJoinCall ≤ 1
      rw [List.countP_cons_of_pos rfl, hzero]
    · show _ ∉ Event.joinCalled caller :: s.history ∧ _ ∉ Event.joinCalled caller :: s.history
      simpa [hne.symm] using h.notSelf
    · rintro ⟨i, hi⟩
      exact h.stopped ⟨i, (List.mem_cons.mp hi).resolve_left (by simp)⟩
  | @skips caller hat hthread => exact h.goes (by simp [hat]) .unlock
  | @joins caller hat hloop =>
    have hne := hc.ne_receive caller (by rw [hat]; rfl)
    have hnew := h.cons (e := .joined caller) rfl (by simpa using hne) nofun (by simp)
    exact ⟨hnew.callOnce, fun _ => .inl rfl, hnew.notSelf,
      fun hout => ⟨(hnew.stopped hout).1, by simp [Receiver.goes]⟩, hnew.silent⟩
  | @unlocks caller hat =>
    have hfree : HistoryInv { s with stopMutex := none } :=
      ⟨h.callOnce, h.called, h.notSelf, h.stopped, h.silent⟩
    refine (hfree.cons (e := .stopReturned caller) rfl (by simp) nofun (fun i heq => ?_)).goes
      (by simp [hat]) .idle
    exact ⟨(hc.calls caller).requested (by rw [hat]; rfl), (hc.calls caller).unlocking hat⟩
  | loops hfrom => exact ⟨h.callOnce, h.called, h.notSelf, h.stopped, h.silent⟩
  | @callsBack callback _ _ hfrom =>
    have hnot : ¬ StoppedOutside s.history := fun hout => (h.stopped hout).2 (ht.of_between hfrom)
    have hnew := h.cons (e := .callbackStarted callback) rfl (by simp) (fun _ => hnot) (by simp)
    exact ⟨hnew.callOnce, hnew.called, hnew.notSelf, hnew.stopped, hnew.silent⟩
  | ends _ hidle =>
    have hnew := h.cons (e := .callbackEnded) rfl (by simp) nofun (by simp)
    exact ⟨hnew.callOnce, hnew.called, hnew.notSelf, hnew.stopped, hnew.silent⟩

/-! ### Every run -/

/-- **Step lemma.** Every step keeps the invariant. -/
theorem Inv.step (h : s.Inv) (hs : step setup b s = some s') : s'.Inv := by
  have hmoves := step_moves hs
  exact ⟨h.thread.moves h.caller hmoves, h.caller.moves h.thread hmoves,
    h.history.moves h.thread h.caller hmoves⟩

/-- **Run lemma.** The invariant holds at every moment. -/
theorem Run.inv (h : s.Run setup) : s.Inv :=
  h.invariant (inv_initial _) (fun _ _ _ _ hinv _ hs => hinv.step hs)

end Receiver

open Receiver

/-- **A stopped receiver is silent.** For all orders of the threads' steps: the receive thread is created at
    most once, joined at most once and not by itself; and once a `stop()` on another thread has returned,
    no callback is going on, and none has started since. -/
theorem stopped_receiver_is_silent {ι : Type u} [DecidableEq ι] {setup : Setup} {s : Receiver ι}
    (h : s.Run setup) :
    s.history.countP Event.isCreated ≤ 1 ∧
      (s.history.countP Event.isJoinCall ≤ 1 ∧ s.history.countP Event.isJoined ≤ 1) ∧
      (.joinCalled .receive ∉ s.history ∧ .joined .receive ∉ s.history) ∧
      ∀ i new old, s.history = new ++ .stopReturned (.external i) :: old →
        s.loop.inCallback = false ∧ ∀ e ∈ new, e.isCallbackStart = false := by
  obtain ⟨hthread, -, hhistory⟩ := h.inv
  refine ⟨hthread.once, ⟨hhistory.callOnce, hthread.joinedOnce⟩, hhistory.notSelf,
    fun i new old hsplit => ⟨?_, fun e he => ?_⟩⟩
  · have hout : StoppedOutside s.history := ⟨i, by simp [hsplit]⟩
    by_contra hin
    exact (hhistory.stopped hout).2 (hthread.of_inCallback (by simpa using hin))
  · obtain ⟨newer, older, rfl⟩ := List.append_of_mem he
    by_contra hstart
    refine historically_iff.mp hhistory.silent newer e (older ++ .stopReturned (.external i) :: old) ?_
      (by simpa using hstart) ⟨i, by simp⟩
    rw [hsplit, List.append_assoc, List.cons_append]

/-- `running()` says so, too. -/
theorem stopped_receiver_is_not_running {ι : Type u} [DecidableEq ι] {setup : Setup} {s : Receiver ι}
    (h : s.Run setup) (hout : StoppedOutside s.history) : s.isRunning = false := by
  unfold Receiver.isRunning
  rw [(h.inv.history.stopped hout).1]
  exact Bool.and_false _

/-- A receiver of odometry with a warning callback. -/
def warningSetup : Setup where
  kind := .odometry
  pointDoubles := { scaled := fun _ scale => scale, toFloat := fun _ => .one }
  odometryDoubles := { scaled := fun _ scale => scale, norm := fun _ _ _ w => w, quotient := fun x _ => x }
  config := {}
  assemblerConfig := {}
  onFrame := false
  onOdometry := false
  onParseWarning := true

/-- The warning callback stops the receiver, then another thread does. -/
def stopInCallback : List (Receiver.Action Unit) :=
  [.start (.external ()) (some 7), .wake, .receive (some [1]) (ms 1000), .stop .receive,
    .request .receive 7, .callbackReturns, .wake, .stop (.external ()), .request (.external ()) 1,
    .lock (.external ()), .test (.external ()), .join (.external ()), .unlock (.external ())]

/-- After that the receiver is silent. -/
theorem stopped_receiver_is_silent_stopInCallback : ∃ s : Receiver Unit, s.Run warningSetup ∧
    s.history.countP Event.isCallbackStart = 1 ∧ StoppedOutside s.history ∧ s.loop.inCallback = false := by
  obtain ⟨s, hrun, hend⟩ : ∃ s : Receiver Unit, s.Run warningSetup ∧
      (decide (s.history.countP Event.isCallbackStart = 1) &&
        s.history.head?.any (fun e => match e with
          | .stopReturned (.external ()) => true
          | _ => false)) = true :=
    exists_reaches_of_execGuarded stopInCallback _ (by decide +kernel)
  obtain ⟨hstarted, hreturned⟩ := Bool.and_eq_true_iff.mp hend
  obtain ⟨e, he, hexternal⟩ := (Option.any_eq_true _ _).mp hreturned
  obtain ⟨rest, hhistory⟩ := List.head?_eq_some_iff.mp he
  split at hexternal
  · have hsilent := (stopped_receiver_is_silent hrun).2.2.2 () [] rest hhistory
    exact ⟨s, hrun, of_decide_eq_true hstarted, ⟨(), by simp [hhistory]⟩, hsilent.1⟩
  · exact absurd hexternal (by simp)

end HypertronBridge.Lidar
