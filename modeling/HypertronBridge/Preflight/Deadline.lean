import HypertronBridge.Lib.LeadsTo
import HypertronBridge.Preflight.Drain

namespace HypertronBridge.Preflight

/-!
# The deadline of the drain loop

The loop tests the deadline at its head only.  Between two tests it reads a stream for as long as there
is something to read, so it comes back to the test unless a read loop is fed for ever.

* `Behaviour` — an infinite behaviour of the loop, its calls and the clock;
* `Answer.KeepsReading` — the answers that keep a read loop going;
* `loop_is_left_iff` — when the loop is left;
* `endless_output_holds_the_caller` — a child that writes without pause.
-/

/-! ### Infinite behaviours -/

/-- An infinite behaviour: the states, the answers of the calls, and at each step the time that remains
    by the clock.  After the loop nothing more happens. -/
structure Behaviour (remaining : Nat → Int) (d : Nat → Drain) (a : Nat → Answer) : Prop where
  start : d 0 = {}
  step : ∀ n, Drain.step (a n) (d n) = some (d (n + 1)) ∨
    (∃ how, (d n).pc = .left how) ∧ d (n + 1) = d n
  clock : ∀ n time, (d n).pc = .clock → a n = .clock time → time = remaining n

/-- The answer keeps a read loop going. -/
def Answer.KeepsReading : Answer → Prop
  | .read (.data _) => True
  | .read .interrupted => True
  | _ => False

instance (a : Answer) : Decidable a.KeepsReading := by
  unfold Answer.KeepsReading
  split <;> infer_instance

section moves

variable {d d' : Drain} {a : Answer} {stream : Stream}

/-- The loop has been left. -/
def Drain.isLeft (d : Drain) : Prop := ∃ how, d.pc = .left how

theorem Drain.Moves.not_left (h : d.Moves a d') : ¬ d.isLeft := by
  rintro ⟨how, hpc⟩
  cases h <;> simp_all

/-- From the head of the loop. -/
theorem Drain.Moves.of_clock (h : d.Moves a d') (hpc : d.pc = .clock) :
    ∃ time, a = .clock time ∧ (time ≤ 0 → d'.isLeft) := by
  cases h with
  | expired => exact ⟨_, rfl, fun _ => ⟨_, rfl⟩⟩
  | inTime _ hpos => exact ⟨_, rfl, fun hle => absurd hpos (by omega)⟩
  | _ => simp_all

/-- A poll leads to a read, to the wait, or out. -/
theorem Drain.Moves.of_poll (h : d.Moves a d') (hpc : d.pc = .poll) :
    d'.pc = .clock ∨ d'.isLeft ∨ d'.pc = .wait ∨ ∃ stream, d'.pc = .read stream := by
  cases h with
  | @ready revents =>
    rcases Drain.scan_pc { d with revents } with ⟨-, hscan⟩ | ⟨-, hscan⟩
    · rw [hscan]
      exact .inr (.inr (.inr ⟨_, rfl⟩))
    · rw [hscan]
      rcases Drain.scanStderr_pc { d with revents } with ⟨-, hnext⟩ | ⟨-, hnext⟩
      · rw [hnext]
        exact .inr (.inr (.inr ⟨_, rfl⟩))
      · rw [hnext]
        exact .inr (.inr (.inl rfl))
  | pollAgain => exact .inl rfl
  | pollFailed => exact .inr (.inl ⟨_, rfl⟩)
  | _ => simp_all

/-- After a stream comes `stderr` or the wait. -/
theorem Drain.scanAfter_pc (d : Drain) (stream : Stream) :
    (d.scanAfter stream).pc = .wait ∨ stream = .stdout ∧ (d.scanAfter stream).pc = .read .stderr := by
  cases stream with
  | stderr => exact .inl rfl
  | stdout =>
    rcases d.scanStderr_pc with ⟨-, hnext⟩ | ⟨-, hnext⟩
    · exact .inr ⟨rfl, congrArg Drain.pc hnext⟩
    · exact .inl (congrArg Drain.pc hnext)

/-- A read loop goes on, or leads to the next stream or the wait. -/
theorem Drain.Moves.of_read (h : d.Moves a d') (hpc : d.pc = .read stream) :
    a.KeepsReading ∧ d'.pc = .read stream ∨
      ¬ a.KeepsReading ∧ (d'.pc = .wait ∨ stream = .stdout ∧ d'.pc = .read .stderr) := by
  cases h with
  | data => exact .inl ⟨trivial, hpc⟩
  | readAgain => exact .inl ⟨trivial, hpc⟩
  | @drained stream' hpc' =>
    obtain rfl : stream' = stream := by simpa [hpc'] using hpc
    exact .inr ⟨id, d.scanAfter_pc stream'⟩
  | @closed stream' answer hpc' hend =>
    obtain rfl : stream' = stream := by simpa [hpc'] using hpc
    refine .inr ⟨?_, Drain.scanAfter_pc _ stream'⟩
    rcases hend with rfl | rfl <;> exact id
  | _ => simp_all

/-- The wait leads back to the head, or out. -/
theorem Drain.Moves.of_wait (h : d.Moves a d') (hpc : d.pc = .wait) : d'.pc = .clock ∨ d'.isLeft := by
  cases h with
  | reaped => exact .inr ⟨_, rfl⟩
  | waitAgain => exact .inl rfl
  | waitFailed => exact .inr ⟨_, rfl⟩
  | _ => simp_all

end moves

/-! ### When the loop is left -/

section behaviour

variable {remaining : Nat → Int} {d : Nat → Drain} {a : Nat → Answer}

/-- A loop that is never left comes back to its head, where no read loop is fed for ever. -/
theorem Behaviour.leadsTo_clock (hb : Behaviour remaining d a) (hnever : ∀ n, ¬ (d n).isLeft)
    (hreads : ∀ n stream, (d n).pc = .read stream → ∃ m, n ≤ m ∧ ¬ (a m).KeepsReading) :
    LeadsTo d (fun _ => True) (fun x => x.pc = .clock) := by
  have hmoves : ∀ n, (d n).Moves (a n) (d (n + 1)) :=
    fun n => Drain.step_moves ((hb.step n).resolve_right (fun h => hnever n h.1))
  have hwait : LeadsTo d (fun x => x.pc = .wait) (fun x => x.pc = .clock) :=
    .of_step (fun n hpc => ((hmoves n).of_wait hpc).resolve_right (hnever (n + 1)))
  have hread : ∀ stream, LeadsTo d (fun x => x.pc = .read stream)
      (fun x => x.pc = .wait ∨ stream = .stdout ∧ x.pc = .read .stderr) := by
    intro stream
    have hkept : ∀ n, (d n).pc = .read stream → (a n).KeepsReading →
        (d (n + 1)).pc = .read stream :=
      fun n hpc hkeeps => (((hmoves n).of_read hpc).resolve_right (fun h => h.1 hkeeps)).2
    have hleaves : ∀ n, (d n).pc = .read stream → ¬ (a n).KeepsReading →
        (d (n + 1)).pc = .wait ∨ stream = .stdout ∧ (d (n + 1)).pc = .read .stderr :=
      fun n hpc hstops => (((hmoves n).of_read hpc).resolve_left (fun h => hstops h.1)).2
    exact LeadsTo.while_kept (P := fun x : Drain => x.pc = .read stream)
      (Q := fun x : Drain => x.pc = .wait ∨ stream = .stdout ∧ x.pc = .read .stderr)
      Answer.KeepsReading hkept hleaves (fun n hpc => hreads n stream hpc)
  have hstderr : LeadsTo d (fun x => x.pc = .read .stderr) (fun x => x.pc = .clock) :=
    ((hread .stderr).trans (.of_imp fun x hx => hx.resolve_right (fun h => absurd h.1 (by decide)))).trans
      hwait
  have hstdout : LeadsTo d (fun x => x.pc = .read .stdout) (fun x => x.pc = .clock) :=
    (hread .stdout).trans (hwait.either ((LeadsTo.of_imp fun x hx => hx.2).trans hstderr))
  have hany : LeadsTo d (fun x => ∃ stream, x.pc = .read stream) (fun x => x.pc = .clock) := by
    rintro n ⟨stream, hpc⟩
    cases stream with
    | stdout => exact hstdout n hpc
    | stderr => exact hstderr n hpc
  intro n _
  cases hpc : (d n).pc with
  | clock => exact ⟨n, Nat.le_refl n, hpc⟩
  | wait => exact hwait n hpc
  | read stream => exact hany n ⟨stream, hpc⟩
  | left how => exact absurd ⟨how, hpc⟩ (hnever n)
  | poll =>
    obtain ⟨m, hm, hclock⟩ : ∃ m, n + 1 ≤ m ∧ (d m).pc = .clock := by
      rcases (hmoves n).of_poll hpc with h | h | h | h
      · exact ⟨n + 1, Nat.le_refl _, h⟩
      · exact absurd h (hnever (n + 1))
      · exact hwait (n + 1) h
      · exact hany (n + 1) h
    exact ⟨m, Nat.le_of_succ_le hm, hclock⟩

/-- **When the loop is left.** In every infinite behaviour whose clock passes the deadline at some time,
    the loop is left, with the child reaped, timed out or in error, if and only if no read loop gets data
    or interrupts for ever. -/
theorem loop_is_left_iff (hb : Behaviour remaining d a) (hpass : ∃ n, ∀ m, n ≤ m → remaining m ≤ 0) :
    (∃ n how, (d n).pc = .left how) ↔
      ∀ n stream, (d n).pc = .read stream → ∃ m, n ≤ m ∧ ¬ (a m).KeepsReading := by
  constructor
  · rintro ⟨n, hleft⟩ k stream hpc
    by_contra hfed
    simp only [not_exists, not_and, not_not] at hfed
    -- a read loop that is fed for ever lasts, and so does the end of the loop
    have hreads : (d (max n k)).pc = .read stream := by
      have hkept : ∀ m, (d m).pc = .read stream → (a m).KeepsReading →
          (d (m + 1)).pc = .read stream := by
        intro m hpc hkeeps
        rcases hb.step m with hstep | ⟨⟨how, hleft⟩, -⟩
        · exact (((Drain.step_moves hstep).of_read hpc).resolve_right (fun h => h.1 hkeeps)).2
        · exact absurd (hpc.symm.trans hleft) (by simp)
      exact LeadsTo.lasts (P := fun x : Drain => x.pc = .read stream) Answer.KeepsReading hkept hpc
        hfed _ (Nat.le_max_right n k)
    have hstays : (d (max n k)).isLeft := by
      have hkept : ∀ m, (d m).isLeft → (d (m + 1)).isLeft := by
        intro m hleft
        rcases hb.step m with hstep | ⟨-, hsame⟩
        · exact absurd hleft (Drain.step_moves hstep).not_left
        · rw [hsame]
          exact hleft
      exact LeadsTo.lasts (a := a) (fun _ => True) (fun m hleft _ => hkept m hleft) hleft
        (fun _ _ => trivial) _ (Nat.le_max_left n k)
    obtain ⟨how, hleft⟩ := hstays
    exact absurd (hreads.symm.trans hleft) (by simp)
  · intro hreads
    by_contra hnever
    have hnever : ∀ n, ¬ (d n).isLeft := fun n ⟨how, hpc⟩ => hnever ⟨n, how, hpc⟩
    obtain ⟨n, hpassed⟩ := hpass
    obtain ⟨m, hm, hclock⟩ := hb.leadsTo_clock hnever hreads n trivial
    have hstep := (hb.step m).resolve_right (fun h => hnever m h.1)
    obtain ⟨time, htime, hout⟩ := (Drain.step_moves hstep).of_clock hclock
    refine hnever (m + 1) (hout ?_)
    rw [hb.clock m time hclock htime]
    exact hpassed m hm

end behaviour

/-! ### Two children -/

/-- The states that these answers lead through. -/
def follow (a : Nat → Answer) : Nat → Drain
  | 0 => {}
  | n + 1 => (Drain.step (a n) (follow a n)).getD (follow a n)

theorem follow_step {a : Nat → Answer} {n : Nat} (h : (Drain.step (a n) (follow a n)).isSome = true) :
    Drain.step (a n) (follow a n) = some (follow a (n + 1)) := by
  obtain ⟨d, hd⟩ := Option.isSome_iff_exists.mp h
  rw [follow, hd]
  rfl

/-- A child that writes one byte and exits. -/
def briefChild : Nat → Answer
  | 0 => .clock 5
  | 1 => .poll (.ready (fun stream => decide (stream = .stdout)))
  | 2 => .read (.data [65])
  | 3 => .read .eof
  | _ => .wait (.ended (.exited 0))

theorem briefChild_behaviour : Behaviour (fun n => 5 - n) (follow briefChild) briefChild := by
  have hleft : ∀ n, follow briefChild (n + 5) = follow briefChild 5 := by
    intro n
    induction n with
    | zero => rfl
    | succ n ih =>
      rw [show n + 1 + 5 = (n + 5) + 1 by omega, follow, ih]
      rfl
  refine ⟨rfl, fun n => ?_, fun n time hpc ha => ?_⟩
  · match n with
    | 0 => exact .inl (follow_step rfl)
    | 1 => exact .inl (follow_step rfl)
    | 2 => exact .inl (follow_step rfl)
    | 3 => exact .inl (follow_step rfl)
    | 4 => exact .inl (follow_step rfl)
    | n + 5 =>
      refine .inr ⟨⟨.reaped (.exited 0), ?_⟩, ?_⟩
      · rw [hleft]
        rfl
      · show follow briefChild (n + 1 + 5) = follow briefChild (n + 5)
        exact (hleft (n + 1)).trans (hleft n).symm
  · match n with
    | 0 =>
      obtain rfl := Answer.clock.inj ha
      rfl
    | 1 => exact absurd ha (by simp [briefChild])
    | 2 => exact absurd ha (by simp [briefChild])
    | 3 => exact absurd ha (by simp [briefChild])
    | n + 4 => exact absurd ha (by simp [briefChild])

/-- The loop is left. -/
theorem loop_is_left_iff_brief : ∃ n how, (follow briefChild n).pc = .left how :=
  (loop_is_left_iff briefChild_behaviour ⟨5, fun m hm => by omega⟩).mpr
    (fun n _ _ => ⟨n + 4, Nat.le_add_right n 4, id⟩)

/-- A child that writes without pause. -/
def endlessChild : Nat → Answer
  | 0 => .clock 5
  | 1 => .poll (.ready (fun stream => decide (stream = .stdout)))
  | _ => .read (.data [65])

theorem endlessChild_reads (n : Nat) : (follow endlessChild (n + 2)).pc = .read .stdout ∧
    (Drain.step (endlessChild (n + 2)) (follow endlessChild (n + 2))).isSome = true := by
  have hread : ∀ d : Drain, d.pc = .read .stdout →
      (Drain.step (.read (.data [65])) d).isSome = true := by
    intro d hpc
    unfold Drain.step
    rw [hpc]
    rfl
  induction n with
  | zero => exact ⟨rfl, hread _ rfl⟩
  | succ n ih =>
    have hstep := follow_step ih.2
    have hpc : (follow endlessChild (n + 3)).pc = .read .stdout :=
      (((Drain.step_moves hstep).of_read ih.1).resolve_right (fun h => h.1 trivial)).2
    exact ⟨hpc, hread _ hpc⟩

/-- Its reader never comes back to the clock: not every behaviour whose clock passes the deadline leaves
    the loop. -/
theorem endless_output_holds_the_caller : ¬ ∀ (remaining : Nat → Int) (d : Nat → Drain)
    (a : Nat → Answer), Behaviour remaining d a → (∃ n, ∀ m, n ≤ m → remaining m ≤ 0) →
      ∃ n how, (d n).pc = .left how := by
  intro h
  have hb : Behaviour (fun n => 5 - n) (follow endlessChild) endlessChild := by
    refine ⟨rfl, fun n => ?_, fun n time hpc ha => ?_⟩
    · match n with
      | 0 => exact .inl (follow_step rfl)
      | 1 => exact .inl (follow_step rfl)
      | n + 2 => exact .inl (follow_step (endlessChild_reads n).2)
    · match n with
      | 0 =>
        obtain rfl := Answer.clock.inj ha
        rfl
      | 1 => exact absurd ha (by simp [endlessChild])
      | n + 2 => exact absurd ha (by simp [endlessChild])
  obtain ⟨n, how, hleft⟩ := h _ _ _ hb ⟨5, fun m hm => by omega⟩
  match n with
  | 0 => exact absurd hleft (by simp [follow])
  | 1 =>
    have hpoll : (follow endlessChild 1).pc = .poll := rfl
    exact absurd (hpoll.symm.trans hleft) (by simp)
  | n + 2 => exact absurd ((endlessChild_reads n).1.symm.trans hleft) (by simp)

end HypertronBridge.Preflight
