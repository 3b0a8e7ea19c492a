import HypertronBridge.Preflight.Command

namespace HypertronBridge.Preflight

open TransitionSystem Holders

/-!
# The descriptors of a run

The two arrays hold the descriptors until the guards do; the drain loop closes its own copies of the read
ends, which the guards hold too.

* `Command.Moves`, `Command.advance_moves` — what a call can do to the descriptors;
* `Command.owned` — what the arrays or the guards are still to close;
* `Command.Inv` — what holds at every moment;
* `each_closed_once_iff` — when each descriptor is closed once;
* `ended_stream_is_closed_twice` — a run whose streams end.
-/

/-- A read of the drain loop ends a stream: `0`, or an error besides `EINTR` and `EAGAIN`. -/
def Outcome.EndsStream : Outcome → Prop
  | .drain (.read .eof) => True
  | .drain (.read .failed) => True
  | _ => False

instance (o : Outcome) : Decidable o.EndsStream := by
  unfold Outcome.EndsStream
  split <;> infer_instance

/-! ### Who owns the descriptors -/

/-- Who closes what is still open. -/
inductive Owner
  | arrays
  | guards
  | nobody
deriving DecidableEq

namespace Command

def Pc.owner : Pc → Owner
  | .pipe2 _ => .arrays
  | .pipe _ => .arrays
  | .setCloexec _ _ => .arrays
  | .returned _ => .nobody
  | _ => .guards

/-- The streams whose pipe is in its array. -/
def Pc.made : Pc → Stream → Bool
  | .pipe2 stream, t => decide (stream = .stderr ∧ t = .stdout)
  | .pipe stream, t => decide (stream = .stderr ∧ t = .stdout)
  | .setCloexec stream _, t => decide (stream = .stderr ∨ t = .stdout)
  | _, _ => true

/-- What the owner is still to close. -/
def owned (c : Command) : List Fd :=
  match c.pc.owner with
  | .arrays => held slots c.pipes
  | .guards => held slots c.guards
  | .nobody => []

/-! ### What a call can do -/

variable {c c' : Command} {o : Outcome} {d : Drain} {a : Answer} {stream : Stream} {fd : Fd}

/-- **What a call can do** to the descriptors. -/
inductive Moves (c : Command) : Outcome → Command → Prop
  | goesOn {o : Outcome} {pc : Pc} {flags : Stream → Int} {note : String}
      (howner : pc.owner = c.pc.owner) (hmade : pc.made = c.pc.made) (hpc : pc ≠ .drain)
      (ho : ¬ o.EndsStream) : Moves c o { c with pc, flags, note }
  | made {stream : Stream} {r w : Fd} (hpc : c.pc = .pipe2 stream) (hfresh : c.Fresh r w) :
      Moves c (.pipe (.made r w)) ((c.makePipe stream r w).pipeReady stream)
  | madeUnmarked {stream : Stream} {r w : Fd} (hpc : c.pc = .pipe stream) (hfresh : c.Fresh r w) :
      Moves c (.pipe (.made r w)) { c.makePipe stream r w with pc := .setCloexec stream .readEnd }
  | marked {stream : Stream} {fdEnd : End} {result : Int} (hpc : c.pc = .setCloexec stream fdEnd) :
      Moves c (.fcntl result) (c.pipeReady stream)
  | unmarked {stream : Stream} {fdEnd : End} {result : Int} (hpc : c.pc = .setCloexec stream fdEnd) :
      Moves c (.fcntl result) (c.closePipe stream).failSetup
  | failed {outcome : PipeOutcome} (howner : c.pc.owner = .arrays) :
      Moves c (.pipe outcome) c.failSetup
  | forked {pid : Int} (hpc : c.pc = .fork) : Moves c (.fork pid) c.afterFork
  | exits {o : Outcome} {code : Int} (howner : c.pc.owner = .guards) (ho : ¬ o.EndsStream) :
      Moves c o (c.exit code)
  | starts {result : Int} (hpc : c.pc = .setFlags .stderr) :
      Moves c (.fcntl result) c.startDrain
  | drains {a : Answer} {d : Drain} (hpc : c.pc = .drain) (hmoves : c.drain.Moves a d) :
      Moves c (.drain a) (({ c with drain := d }.afterCall c.drain.pc a).afterDrain)

theorem advance_moves (h : advance o c = some c') : c.Moves o c' := by
  unfold advance at h
  split at h
  · rename_i stream r w hpc
    split_ifs at h with hfresh
    obtain rfl := Option.some.inj h
    exact .made hpc hfresh
  · rename_i stream hpc
    obtain rfl := Option.some.inj h
    exact .goesOn (by rw [hpc]; rfl) (by rw [hpc]; rfl) (by simp) id
  · rename_i stream hpc
    obtain rfl := Option.some.inj h
    exact .failed (by rw [hpc]; rfl)
  · rename_i stream r w hpc
    split_ifs at h with hfresh
    obtain rfl := Option.some.inj h
    exact .madeUnmarked hpc hfresh
  · rename_i stream hpc
    obtain rfl := Option.some.inj h
    exact .failed (by rw [hpc]; rfl)
  · rename_i stream hpc
    obtain rfl := Option.some.inj h
    exact .failed (by rw [hpc]; rfl)
  · rename_i stream fdEnd result hpc
    split_ifs at h with hneg
    · obtain rfl := Option.some.inj h
      exact .unmarked hpc
    · cases fdEnd with
      | readEnd =>
        obtain rfl := Option.some.inj h
        exact .goesOn (by rw [hpc]; rfl) (by rw [hpc]; rfl) (by simp) id
      | writeEnd =>
        obtain rfl := Option.some.inj h
        exact .marked hpc
  · rename_i pid hpc
    split_ifs at h with hneg hzero
    · obtain rfl := Option.some.inj h
      exact .exits (by rw [hpc]; rfl) id
    · obtain rfl := Option.some.inj h
      exact .forked hpc
  · rename_i stream result hpc
    cases stream with
    | stdout =>
      obtain rfl := Option.some.inj h
      exact .goesOn (by rw [hpc]; rfl) (by rw [hpc]; rfl) (by simp) id
    | stderr =>
      dsimp only at h
      split_ifs at h
      · obtain rfl := Option.some.inj h
        exact .goesOn (by rw [hpc]; rfl) (by rw [hpc]; rfl) (by simp) id
      · obtain rfl := Option.some.inj h
        exact .goesOn (by rw [hpc]; rfl) (by rw [hpc]; rfl) (by simp) id
  · rename_i stream result hpc
    split_ifs at h
    · cases stream with
      | stdout =>
        obtain rfl := Option.some.inj h
        exact .goesOn (by rw [hpc]; rfl) (by rw [hpc]; rfl) (by simp) id
      | stderr =>
        obtain rfl := Option.some.inj h
        exact .starts hpc
    · obtain rfl := Option.some.inj h
      exact .goesOn (by rw [hpc]; rfl) (by rw [hpc]; rfl) (by simp) id
  · rename_i hpc
    obtain rfl := Option.some.inj h
    exact .goesOn rfl rfl (by simp [hpc]) id
  · rename_i status hpc
    obtain rfl := Option.some.inj h
    exact .exits (by rw [hpc]; rfl) id
  · rename_i hpc
    obtain rfl := Option.some.inj h
    exact .exits (by rw [hpc]; rfl) id
  · rename_i a hpc
    obtain ⟨d, hd, rfl⟩ := Option.map_eq_some_iff.mp h
    exact .drains hpc (Drain.step_moves hd)
  · rename_i timedOut hpc
    obtain rfl := Option.some.inj h
    exact .goesOn rfl rfl (by simp [hpc]) id
  · rename_i timedOut status hpc
    obtain rfl := Option.some.inj h
    exact .exits (by rw [hpc]; rfl) id
  · rename_i timedOut hpc
    obtain rfl := Option.some.inj h
    exact .exits (by rw [hpc]; rfl) id
  · exact absurd h (by simp)

/-! ### The invariant -/

/-- What holds at every moment. -/
structure Inv (c : Command) : Prop where
  /-- Each descriptor is closed or owned once, and those that the loop closed are so once more. -/
  law : ∀ fd, c.closed.count fd + c.owned.count fd = c.obtained.count fd + c.drained.count fd
  distinct : c.obtained.Nodup
  /-- Nothing is closed before all is set up. -/
  untouched : c.pc.owner = .arrays → c.closed = []
  arrays : c.pc.owner ≠ .nobody → ∀ slot, (c.pipes slot).isSome = c.pc.made slot.1
  known : ∀ slot fd, c.pipes slot = some fd → fd ∈ c.obtained
  copies : c.pc = .drain → ∀ stream, c.drain.openFds stream = true → (c.fds stream).isSome = true
  copied : ∀ stream fd, c.fds stream = some fd → fd ∈ c.obtained
  again : ∀ fd ∈ c.drained, fd ∈ c.obtained
  reading : c.pc = .drain → ∀ stream, c.drain.pc = .read stream → c.drain.openFds stream = true

theorem owned_of_arrays (h : c.pc.owner = .arrays) : c.owned = held slots c.pipes := by
  rw [owned, h]

theorem owned_of_guards (h : c.pc.owner = .guards) : c.owned = held slots c.guards := by
  rw [owned, h]

theorem mem_slots (slot : Slot) : slot ∈ slots := by
  obtain ⟨stream, fdEnd⟩ := slot
  cases stream <;> cases fdEnd <;> decide

/-- One entry against the others. -/
theorem count_slots (f : Slot → Option Fd) (slot : Slot) (v : Option Fd) (fd : Fd) :
    (held slots (Function.update f slot v)).count fd + (f slot).toList.count fd =
      (held slots f).count fd + v.toList.count fd :=
  count_held_update (by decide) (mem_slots slot) v fd

/-- One array against the other. -/
theorem count_setArray (f : Slot → Option Fd) (stream : Stream) (r w : Option Fd) (fd : Fd) :
    (held slots (setArray f stream r w)).count fd +
        ((f (stream, .readEnd)).toList.count fd + (f (stream, .writeEnd)).toList.count fd) =
      (held slots f).count fd + (r.toList.count fd + w.toList.count fd) := by
  have hread := count_slots f (stream, .readEnd) r fd
  have hwrite := count_slots (Function.update f (stream, .readEnd) r) (stream, .writeEnd) w fd
  rw [Function.update_of_ne (by simp)] at hwrite
  unfold setArray
  omega

/-- What is in the arrays then. -/
theorem of_setArray_eq_some {f : Slot → Option Fd} {r w : Option Fd} {slot : Slot}
    (h : setArray f stream r w slot = some fd) : r = some fd ∨ w = some fd ∨ f slot = some fd := by
  unfold setArray at h
  by_cases hwrite : slot = (stream, .writeEnd)
  · rw [hwrite, Function.update_self] at h
    exact .inr (.inl h)
  · rw [Function.update_of_ne hwrite] at h
    by_cases hread : slot = (stream, .readEnd)
    · rw [hread, Function.update_self] at h
      exact .inl h
    · rw [Function.update_of_ne hread] at h
      exact .inr (.inr h)

theorem isSome_setArray {f : Slot → Option Fd} {r w : Fd} (slot : Slot) :
    (setArray f stream (some r) (some w) slot).isSome =
      (decide (slot.1 = stream) || (f slot).isSome) := by
  obtain ⟨t, fdEnd⟩ := slot
  unfold setArray
  by_cases heq : t = stream
  · subst heq
    cases fdEnd <;> simp
  · simp [Function.update_of_ne, heq]

theorem init_pc (args : List String) (timeoutMs : Int) :
    (init args timeoutMs).pc = .returned 127 ∨ (init args timeoutMs).pc = .pipe2 .stdout := by
  unfold init
  by_cases hargs : args = [] <;> simp [hargs]

theorem inv_init (args : List String) (timeoutMs : Int) : (init args timeoutMs).Inv := by
  have hheld : (init args timeoutMs).owned = [] := by
    unfold owned
    split
    · exact held_eq_nil (fun _ => rfl)
    · exact held_eq_nil (fun _ => rfl)
    · rfl
  have hnot : (init args timeoutMs).pc ≠ .drain := by
    rcases init_pc args timeoutMs with hpc | hpc <;> simp [hpc]
  refine ⟨fun fd => by rw [hheld]; rfl, List.nodup_nil, fun _ => rfl, fun howner slot => ?_,
    fun _ _ h => absurd h (by simp [init]), fun hpc => absurd hpc hnot,
    fun _ _ h => absurd h (by simp [init]), fun _ h => absurd h List.not_mem_nil,
    fun hpc => absurd hpc hnot⟩
  rcases init_pc args timeoutMs with hpc | hpc
  · exact absurd (congrArg Pc.owner hpc) howner
  · rw [hpc]
    simp [init, Pc.made]

/-- The next call changes nothing. -/
theorem Inv.goesOn (h : c.Inv) {pc : Pc} {flags : Stream → Int} {note : String}
    (howner : pc.owner = c.pc.owner) (hmade : pc.made = c.pc.made) (hpc : pc ≠ .drain) :
    Inv { c with pc, flags, note } := by
  have howned : owned { c with pc, flags, note } = c.owned := by
    unfold owned
    rw [howner]
  refine ⟨fun fd => ?_, h.distinct, fun harrays => h.untouched (howner ▸ harrays), fun hsome slot => ?_,
    h.known, fun hdrain => absurd hdrain hpc, h.copied, h.again, fun hdrain => absurd hdrain hpc⟩
  · rw [howned]
    exact h.law fd
  · rw [hmade]
    exact h.arrays (howner ▸ hsome) slot

/-- A return that closes what is owned. -/
theorem Inv.returns (h : c.Inv) {code : Int} {pipes guards : Slot → Option Fd} {closed : List Fd}
    (hclosed : ∀ fd, closed.count fd = c.closed.count fd + c.owned.count fd)
    (hknown : ∀ slot fd, pipes slot = some fd → fd ∈ c.obtained) :
    Inv { c with pc := .returned code, pipes, guards, closed } := by
  refine ⟨fun fd => ?_, h.distinct, fun harrays => absurd harrays (by simp [Pc.owner]),
    fun hsome => absurd rfl hsome, hknown, fun hdrain => absurd hdrain (by simp), h.copied, h.again,
    fun hdrain => absurd hdrain (by simp)⟩
  show closed.count fd + 0 = c.obtained.count fd + c.drained.count fd
  rw [hclosed fd]
  exact h.law fd

theorem Inv.failSetup (h : c.Inv) (howner : c.pc.owner = .arrays) : c.failSetup.Inv := by
  refine h.returns (fun fd => ?_) h.known
  rw [owned_of_arrays howner, List.count_append]

theorem Inv.exit (h : c.Inv) (howner : c.pc.owner = .guards) (code : Int) : (c.exit code).Inv := by
  refine h.returns (fun fd => ?_) h.known
  rw [owned_of_guards howner, List.count_append, List.count_reverse]

/-- A pipe that cannot be marked is closed, and then the other. -/
theorem Inv.closePipe_failSetup (h : c.Inv) (howner : c.pc.owner = .arrays) (stream : Stream) :
    (c.closePipe stream).failSetup.Inv := by
  refine h.returns (fun fd => ?_) (fun slot fd hslot => ?_)
  · have harray := count_setArray c.pipes stream none none fd
    simp only [Option.toList_none, List.count_nil, Nat.add_zero] at harray
    show List.count fd (c.closed ++ (_ ++ _) ++ held slots (setArray c.pipes stream none none)) = _
    rw [owned_of_arrays howner, List.count_append, List.count_append, List.count_append]
    omega
  · rcases of_setArray_eq_some hslot with hnone | hnone | hslot
    · exact absurd hnone (by simp)
    · exact absurd hnone (by simp)
    · exact h.known slot fd hslot

/-- A new pipe goes to an empty array. -/
theorem Inv.makePipe (h : c.Inv) {r w : Fd} (hpc : c.pc = .pipe2 stream ∨ c.pc = .pipe stream)
    (hfresh : c.Fresh r w) {pc : Pc} {guards : Slot → Option Fd}
    (hmade : ∀ t, pc.made t = (decide (t = stream) || c.pc.made t)) (hnot : pc ≠ .drain)
    (howner : pc.owner = .arrays ∨ pc.owner = .guards ∧ guards = (c.makePipe stream r w).pipes) :
    Inv { c.makePipe stream r w with pc, guards } := by
  have harrays : c.pc.owner = .arrays := by
    rcases hpc with hpc | hpc <;> rw [hpc] <;> rfl
  have hclosed := h.untouched harrays
  have hnone : ∀ fdEnd, c.pipes (stream, fdEnd) = none := by
    intro fdEnd
    have hsome := h.arrays (by rw [harrays]; decide) (stream, fdEnd)
    rcases hpc with hpc | hpc <;> rw [hpc] at hsome <;> cases stream <;> simpa [Pc.made] using hsome
  have hnew : ∀ fd ∈ [r, w], fd ∉ c.obtained := by
    intro fd hfd hmem
    have := hfresh.2 fd hfd hmem
    simp [hclosed] at this
  have howned : owned { c.makePipe stream r w with pc, guards } =
      held slots (c.makePipe stream r w).pipes := by
    rcases howner with howner | ⟨howner, rfl⟩
    · exact owned_of_arrays howner
    · exact owned_of_guards howner
  refine ⟨fun fd => ?_, ?_, fun _ => hclosed, fun _ slot => ?_, fun slot fd hslot => ?_,
    fun hdrain => absurd hdrain hnot, fun t fd ht => List.mem_append_left _ (h.copied t fd ht),
    fun fd hfd => List.mem_append_left _ (h.again fd hfd), fun hdrain => absurd hdrain hnot⟩
  · have harray := count_setArray c.pipes stream (some r) (some w) fd
    rw [hnone, hnone] at harray
    have hlaw := h.law fd
    rw [owned_of_arrays harrays] at hlaw
    rw [howned]
    show c.closed.count fd + (held slots (setArray _ _ _ _)).count fd =
      List.count fd (c.obtained ++ [r, w]) + c.drained.count fd
    have hpair : ([r] ++ [w]).count fd = [r].count fd + [w].count fd := List.count_append
    simp only [Option.toList_none, Option.toList_some, List.count_nil] at harray
    rw [List.count_append, show [r, w] = [r] ++ [w] from rfl, hpair]
    omega
  · show (c.obtained ++ [r, w]).Nodup
    refine List.nodup_append.mpr ⟨h.distinct, by simpa using hfresh.1, fun x hx y hy heq => ?_⟩
    exact hnew y hy (heq ▸ hx)
  · show (setArray c.pipes stream (some r) (some w) slot).isSome = pc.made slot.1
    rw [isSome_setArray, hmade, h.arrays (by rw [harrays]; decide)]
  · show fd ∈ c.obtained ++ [r, w]
    rcases of_setArray_eq_some hslot with heq | heq | hslot
    · simp [Option.some.inj heq]
    · simp [Option.some.inj heq]
    · exact List.mem_append_left _ (h.known slot fd hslot)

/-- The guards take over from the arrays. -/
theorem Inv.guarded (h : c.Inv) (howner : c.pc.owner = .arrays) (hmade : ∀ t, c.pc.made t = true) :
    Inv { c with pc := .fork, guards := c.pipes } := by
  refine ⟨fun fd => ?_, h.distinct, fun _ => h.untouched howner, fun _ slot => ?_, h.known,
    fun hdrain => absurd hdrain (by simp), h.copied, h.again, fun hdrain => absurd hdrain (by simp)⟩
  · have hlaw := h.law fd
    rw [owned_of_arrays howner] at hlaw
    exact hlaw
  · rw [h.arrays (by rw [howner]; decide) slot, hmade slot.1]
    rfl

/-- What a guard holds is closed when it is released. -/
theorem release_count (c : Command) (slot : Slot) (fd : Fd) :
    (c.release slot).closed.count fd + (held slots (c.release slot).guards).count fd =
      c.closed.count fd + (held slots c.guards).count fd := by
  have hslot := count_slots c.guards slot none fd
  simp only [Option.toList_none, List.count_nil, Nat.add_zero] at hslot
  show List.count fd (c.closed ++ (c.guards slot).toList) +
    (held slots (Function.update c.guards slot none)).count fd = _
  rw [List.count_append]
  omega

theorem Inv.afterFork (h : c.Inv) (hpc : c.pc = .fork) : c.afterFork.Inv := by
  have hnot : c.afterFork.pc ≠ .drain := by simp [Command.afterFork]
  refine ⟨fun fd => ?_, h.distinct, fun harrays => absurd harrays (by simp [Command.afterFork, Pc.owner]),
    fun _ slot => ?_, h.known, fun hdrain => absurd hdrain hnot, h.copied, h.again,
    fun hdrain => absurd hdrain hnot⟩
  · have hstdout := c.release_count (.stdout, .writeEnd) fd
    have hstderr := (c.release (.stdout, .writeEnd)).release_count (.stderr, .writeEnd) fd
    have hlaw := h.law fd
    rw [owned_of_guards (by rw [hpc]; rfl)] at hlaw
    rw [owned_of_guards rfl]
    exact (hstderr.trans hstdout).trans hlaw
  · have hslot := h.arrays (by rw [hpc]; decide) slot
    rw [hpc] at hslot
    exact hslot

theorem Inv.startDrain (h : c.Inv) (hpc : c.pc = .setFlags .stderr) : c.startDrain.Inv := by
  have hslot : ∀ slot, (c.pipes slot).isSome = true := by
    intro slot
    have hslot := h.arrays (by rw [hpc]; decide) slot
    rw [hpc] at hslot
    exact hslot
  refine ⟨fun fd => ?_, h.distinct, fun harrays => absurd harrays (by simp [Command.startDrain, Pc.owner]),
    fun _ => hslot, h.known, fun _ stream _ => hslot (stream, .readEnd),
    fun stream => h.known (stream, .readEnd), h.again,
    fun _ stream hread => absurd hread (by simp [Command.startDrain])⟩
  have hlaw := h.law fd
  rw [owned_of_guards (by rw [hpc]; rfl)] at hlaw
  exact hlaw

/-! ### The drain loop -/

theorem afterCall_of_not_ends (h : ¬ (Outcome.drain a).EndsStream) (pc : Drain.Pc) :
    c.afterCall pc a = c := by
  unfold afterCall
  split
  · exact absurd trivial h
  · exact absurd trivial h
  · rfl

theorem afterCall_of_ends (h : (Outcome.drain a).EndsStream) (stream : Stream) :
    c.afterCall (.read stream) a = c.closeDrained stream := by
  unfold Outcome.EndsStream at h
  split at h
  · rename_i heq
    obtain rfl := Outcome.drain.inj heq
    rfl
  · rename_i heq
    obtain rfl := Outcome.drain.inj heq
    rfl
  · exact h.elim

/-- Only the end of a stream changes what is open. -/
theorem openFds_of_moves {d' : Drain} (h : d.Moves a d') :
    ¬ (Outcome.drain a).EndsStream ∧ d'.openFds = d.openFds ∨
      ∃ stream, d.pc = .read stream ∧ (Outcome.drain a).EndsStream ∧
        d'.openFds = Function.update d.openFds stream false := by
  cases h with
  | ready => exact .inl ⟨id, (Drain.scan_frame _).2⟩
  | drained => exact .inl ⟨id, (d.scanAfter_frame _).2⟩
  | @closed stream answer hpc hend =>
    refine .inr ⟨stream, hpc, ?_, (Drain.scanAfter_frame _ stream).2⟩
    rcases hend with rfl | rfl <;> trivial
  | @waitAgain answer hpc hans =>
    refine .inl ⟨?_, rfl⟩
    rcases hans with rfl | rfl <;> exact id
  | _ => exact .inl ⟨id, rfl⟩

theorem Inv.afterCall (h : c.Inv) (hpc : c.pc = .drain) (hmoves : c.drain.Moves a d) :
    Inv ({ c with drain := d }.afterCall c.drain.pc a) := by
  have hreading := hmoves.reading (h.reading hpc)
  rcases openFds_of_moves hmoves with ⟨hnot, hopen⟩ | ⟨stream, hread, hends, hopen⟩
  · rw [afterCall_of_not_ends hnot]
    refine ⟨h.law, h.distinct, h.untouched, h.arrays, h.known, fun _ t ht => ?_, h.copied, h.again,
      fun _ => hreading⟩
    exact h.copies hpc t (hopen ▸ ht)
  · rw [hread, afterCall_of_ends hends]
    refine ⟨fun fd => ?_, h.distinct, fun harrays => ?_, h.arrays, h.known, fun _ t ht => ?_,
      fun t fd ht => ?_, fun fd hfd => ?_, fun _ => hreading⟩
    · show List.count fd (c.closed ++ (c.fds stream).toList) + c.owned.count fd =
        c.obtained.count fd + List.count fd (c.drained ++ (c.fds stream).toList)
      have hlaw := h.law fd
      rw [List.count_append, List.count_append]
      omega
    · rw [show (closeDrained { c with drain := d } stream).pc = .drain from hpc] at harrays
      exact absurd harrays (by decide)
    · show (Function.update c.fds stream none t).isSome = true
      have ht : d.openFds t = true := ht
      rw [hopen] at ht
      have hne : t ≠ stream := by
        rintro rfl
        simp at ht
      rw [Function.update_of_ne hne] at ht ⊢
      exact h.copies hpc t ht
    · have ht : Function.update c.fds stream none t = some fd := ht
      by_cases heq : t = stream
      · rw [heq, Function.update_self] at ht
        exact absurd ht (by simp)
      · rw [Function.update_of_ne heq] at ht
        exact h.copied t fd ht
    · rcases List.mem_append.mp hfd with hfd | hfd
      · exact h.again fd hfd
      · exact h.copied stream fd (Option.mem_toList.mp hfd)

theorem Inv.afterDrain (h : c.Inv) (hpc : c.pc = .drain) : c.afterDrain.Inv := by
  have howner : c.pc.owner = .guards := by rw [hpc]; rfl
  unfold Command.afterDrain
  split
  · exact h.exit howner _
  · exact h.goesOn (by rw [hpc]; rfl) (by rw [hpc]; rfl) (by simp)
  · exact h.goesOn (by rw [hpc]; rfl) (by rw [hpc]; rfl) (by simp)
  · exact h

theorem afterCall_pc (c : Command) (pc : Drain.Pc) (a : Answer) : (c.afterCall pc a).pc = c.pc := by
  unfold afterCall
  split <;> rfl

/-! ### Every call -/

/-- Where the pipe goes, its array is made besides those before. -/
theorem made_setCloexec (stream t : Stream) (fdEnd : End) : (Pc.setCloexec stream fdEnd).made t =
    (decide (t = stream) || (Pc.pipe stream).made t) := by
  cases stream <;> cases t <;> rfl

theorem made_pipeReady (stream t : Stream) : (c.pipeReady stream).pc.made t =
    (decide (t = stream) || (Pc.pipe2 stream).made t) := by
  cases stream <;> cases t <;> rfl

/-- **Step lemma.** Every call keeps the invariant. -/
theorem Inv.moves (h : c.Inv) (hmoves : c.Moves o c') : c'.Inv := by
  cases hmoves with
  | goesOn howner hmade hpc _ => exact h.goesOn howner hmade hpc
  | @made stream r w hpc hfresh =>
    have hmade : ∀ t, ((c.makePipe stream r w).pipeReady stream).pc.made t =
        (decide (t = stream) || c.pc.made t) := by
      intro t
      rw [hpc]
      exact made_pipeReady stream t
    cases stream with
    | stdout => exact h.makePipe (.inl hpc) hfresh hmade (by simp) (.inl rfl)
    | stderr => exact h.makePipe (.inl hpc) hfresh hmade (by simp) (.inr ⟨rfl, rfl⟩)
  | @madeUnmarked stream r w hpc hfresh =>
    refine h.makePipe (.inr hpc) hfresh (fun t => ?_) (by simp) (.inl rfl)
    rw [hpc]
    exact made_setCloexec stream t .readEnd
  | @marked stream fdEnd _ hpc =>
    cases stream with
    | stdout =>
      have hmade : (Pc.pipe2 .stderr).made = c.pc.made := by
        rw [hpc]
        funext t
        cases t <;> rfl
      exact h.goesOn (by rw [hpc]; rfl) hmade (by simp)
    | stderr => exact h.guarded (by rw [hpc]; rfl) (fun t => by rw [hpc]; cases t <;> rfl)
  | @unmarked stream fdEnd _ hpc => exact h.closePipe_failSetup (by rw [hpc]; rfl) stream
  | failed howner => exact h.failSetup howner
  | forked hpc => exact h.afterFork hpc
  | exits howner _ => exact h.exit howner _
  | starts hpc => exact h.startDrain hpc
  | @drains a d hpc hmoves =>
    refine (h.afterCall hpc hmoves).afterDrain ?_
    rw [afterCall_pc]
    exact hpc

/-- What a call does to the descriptors that the loop has closed. -/
theorem Inv.drained_of_moves (h : c.Inv) (hmoves : c.Moves o c') : c'.history = c.history ∧
    (¬ o.EndsStream ∧ c'.drained = c.drained ∨ o.EndsStream ∧ c'.drained ≠ []) := by
  cases hmoves with
  | goesOn _ _ _ ho => exact ⟨rfl, .inl ⟨ho, rfl⟩⟩
  | @made stream r w hpc hfresh => cases stream <;> exact ⟨rfl, .inl ⟨id, rfl⟩⟩
  | @marked stream _ _ hpc => cases stream <;> exact ⟨rfl, .inl ⟨id, rfl⟩⟩
  | exits _ ho => exact ⟨rfl, .inl ⟨ho, rfl⟩⟩
  | @drains a d hpc hmoves =>
    have hafter : ∀ x : Command, x.afterDrain.history = x.history ∧ x.afterDrain.drained = x.drained := by
      intro x
      unfold Command.afterDrain
      split <;> exact ⟨rfl, rfl⟩
    rw [(hafter _).1, (hafter _).2]
    rcases openFds_of_moves hmoves with ⟨hnot, -⟩ | ⟨stream, hread, hends, -⟩
    · rw [afterCall_of_not_ends hnot]
      exact ⟨rfl, .inl ⟨hnot, rfl⟩⟩
    · -- the loop reads from an open stream, so there is a copy to close
      rw [hread, afterCall_of_ends hends]
      refine ⟨rfl, .inr ⟨hends, fun hnil => ?_⟩⟩
      obtain ⟨fd, hfd⟩ := Option.isSome_iff_exists.mp
        (h.copies hpc stream (h.reading hpc stream hread))
      have hnil : c.drained ++ (c.fds stream).toList = [] := hnil
      rw [hfd] at hnil
      simp at hnil
  | _ => exact ⟨rfl, .inl ⟨id, rfl⟩⟩

/-- **Run lemma.** The invariant holds at every moment, and the loop has closed something where a stream
    has ended. -/
theorem Run.inv {args : List String} {timeoutMs : Int} (h : Run args timeoutMs c) :
    c.Inv ∧ (c.drained = [] ↔ ∀ o ∈ c.history, ¬ o.EndsStream) := by
  refine h.invariant (I := fun c => c.Inv ∧ (c.drained = [] ↔ ∀ o ∈ c.history, ¬ o.EndsStream))
    ⟨inv_init args timeoutMs, by simp [init]⟩ ?_
  rintro c o c' - ⟨hinv, hended⟩ - hs
  obtain ⟨x, hx, rfl⟩ := Option.map_eq_some_iff.mp hs
  have hmoves := advance_moves hx
  obtain ⟨hlaw, hdistinct, huntouched, harrays, hknown, hcopies, hcopied, hagain, hreading⟩ :=
    hinv.moves hmoves
  refine ⟨⟨hlaw, hdistinct, huntouched, harrays, hknown, hcopies, hcopied, hagain, hreading⟩, ?_⟩
  obtain ⟨hhistory, ⟨hnot, hsame⟩ | ⟨hends, hnonempty⟩⟩ := hinv.drained_of_moves hmoves
  · show x.drained = [] ↔ ∀ o' ∈ o :: x.history, ¬ o'.EndsStream
    rw [hsame, hhistory, hended, List.forall_mem_cons]
    simp [hnot]
  · show x.drained = [] ↔ ∀ o' ∈ o :: x.history, ¬ o'.EndsStream
    simp [hnonempty, hends]

end Command

/-! ### When each descriptor is closed once -/

/-- **When each descriptor is closed once.** When the function returns, every descriptor that it obtained
    has been passed to `close` exactly once, and none after it had been closed, if and only if no read of
    the drain loop came to the end of a stream or failed. -/
theorem each_closed_once_iff {args : List String} {timeoutMs : Int} {c : Command} {code : Int}
    (h : Command.Run args timeoutMs c) (hpc : c.pc = .returned code) :
    ((∀ fd ∈ c.obtained, c.closed.count fd = 1) ∧ c.closed.Nodup) ↔
      ∀ o ∈ c.history, ¬ o.EndsStream := by
  obtain ⟨hinv, hended⟩ := h.inv
  rw [← hended]
  refine each_once_iff hinv.distinct hinv.again (fun fd => ?_)
  have hlaw := hinv.law fd
  have howned : c.owned = [] := by
    unfold Command.owned
    rw [hpc]
    rfl
  rw [howned] at hlaw
  exact hlaw

/-! ### Two runs -/

/-- The pipes, the fork and the flags. -/
def setup : List Outcome :=
  [.pipe (.made 3 4), .pipe (.made 5 6), .fork 100, .fcntl 0, .fcntl 0, .fcntl 0, .fcntl 0]

/-- The child is reaped while its streams are still open. -/
def reapedFirst : List Outcome :=
  setup ++ [.drain (.clock 5000), .drain (.poll (.ready (fun stream => decide (stream = .stdout)))),
    .drain (.read (.data [97])), .drain (.read .again), .drain (.wait (.ended (.exited 0)))]

/-- Each of its descriptors is closed once. -/
theorem each_closed_once_iff_reapedFirst : ∃ c : Command, Command.Run ["ip"] 5000 c ∧
    c.pc = .returned 0 ∧ (∀ fd ∈ c.obtained, c.closed.count fd = 1) ∧ c.closed.Nodup := by
  obtain ⟨c, hrun, hend⟩ : ∃ c : Command, Command.Run ["ip"] 5000 c ∧
      decide (c.pc = .returned 0 ∧ ∀ o ∈ c.history, ¬ o.EndsStream) = true :=
    exists_reaches_of_execGuarded reapedFirst _ (by decide)
  obtain ⟨hpc, hhistory⟩ := of_decide_eq_true hend
  exact ⟨c, hrun, hpc, (each_closed_once_iff hrun hpc).mpr hhistory⟩

/-- The child's streams end and it is reaped. -/
def endedStreams : List Outcome :=
  setup ++ [.drain (.clock 5000), .drain (.poll (.ready (fun _ => true))), .drain (.read .eof),
    .drain (.read .eof), .drain (.wait (.ended (.exited 0)))]

/-- Both read ends are closed twice: not every run closes each descriptor once. -/
theorem ended_stream_is_closed_twice : ¬ ∀ (args : List String) (timeoutMs : Int) (c : Command)
    (code : Int), Command.Run args timeoutMs c → c.pc = .returned code →
      (∀ fd ∈ c.obtained, c.closed.count fd = 1) ∧ c.closed.Nodup := by
  intro h
  obtain ⟨c, hrun, hend⟩ : ∃ c : Command, Command.Run ["ip"] 5000 c ∧
      decide (c.pc = .returned 0 ∧ c.closed = [4, 6, 3, 5, 5, 3]) = true :=
    exists_reaches_of_execGuarded endedStreams _ (by decide)
  obtain ⟨hpc, hclosed⟩ := of_decide_eq_true hend
  have hnodup := (h _ _ c 0 hrun hpc).2
  rw [hclosed] at hnodup
  exact absurd hnodup (by decide)

end HypertronBridge.Preflight
