import HypertronBridge.Lib.History
import HypertronBridge.Preflight.Drain
import Mathlib.Data.Fintype.Basic

namespace HypertronBridge.Preflight

open TransitionSystem History

/-!
# What the drain loop captures

The child writes to its two pipes and exits while the loop polls, reads and waits.  Reads and the wait are
separate steps of one round, so the child may write and exit between them.

* `Capture`, `Capture.step` — the loop with the pipes and the child;
* `Quiet` — the child has written nothing to a stream since the loop last found it empty;
* `Capture.Inv` — what holds at every moment;
* `capture_is_whole_iff` — when the captured text is all that the child wrote;
* `write_before_exit_is_lost` — a write between the last read and the wait.
-/

instance : Fintype Stream := ⟨{.stdout, .stderr}, fun stream => by cases stream <;> simp⟩

/-! ### The loop with its pipes -/

/-- What happens: the child writes, closes a stream or exits, or the loop makes the call of its `pc`. -/
inductive Event
  | writes (stream : Stream) (bytes : List UInt8)
  | shuts (stream : Stream)
  | exits (status : WaitStatus)
  | call (pc : Drain.Pc) (answer : Answer)

/-- The loop, the bytes in the pipes, all that the child wrote, and what it closed.  The history is newest
    first. -/
structure Capture where
  drain : Drain := {}
  unread : Stream → List UInt8 := fun _ => []
  written : Stream → List UInt8 := fun _ => []
  shut : Stream → Bool := fun _ => false
  exited : Option WaitStatus := none
  history : List Event := []

namespace Capture

variable {c c' : Capture} {pc : Drain.Pc} {a : Answer} {stream t : Stream}

/-- No one writes to the pipe any more. -/
def ended (c : Capture) (stream : Stream) : Bool := c.shut stream || c.exited.isSome

/-- The answers of `read`: what is in the pipe, its end, or that there is nothing now. -/
def AllowsRead (c : Capture) (stream : Stream) : ReadAnswer → Prop
  | .data bytes => bytes <+: c.unread stream
  | .eof => c.unread stream = [] ∧ c.ended stream = true
  | .again => c.unread stream = [] ∧ c.ended stream = false
  | .interrupted => True
  | .failed => False

/-- The answers that the pipes and the child admit. -/
def Allows (c : Capture) : Drain.Pc → Answer → Prop
  | _, .poll (.ready revents) => ∀ t, revents t =
      (c.drain.openFds t && (!(c.unread t).isEmpty || c.ended t))
  | .read stream, .read answer => c.AllowsRead stream answer
  | _, .wait (.ended status) => c.exited = some status
  | _, .wait .running => c.exited = none
  | _, _ => True

instance {answer : ReadAnswer} : Decidable (c.AllowsRead stream answer) := by
  unfold AllowsRead
  split <;> infer_instance

instance : Decidable (c.Allows pc a) := by
  unfold Allows
  split <;> infer_instance

/-- What a call leaves in the pipes. -/
def leaves (c : Capture) : Drain.Pc → Answer → Stream → List UInt8
  | .read stream, .read (.data bytes) =>
      Function.update c.unread stream ((c.unread stream).drop bytes.length)
  | _, _ => c.unread

/-- One event. -/
def step (e : Event) (c : Capture) : Option Capture :=
  match e with
  | .writes stream bytes =>
      if bytes ≠ [] ∧ c.ended stream = false then
        some { c with
          unread := Function.update c.unread stream (c.unread stream ++ bytes)
          written := Function.update c.written stream (c.written stream ++ bytes)
          history := e :: c.history }
      else none
  | .shuts stream =>
      some { c with shut := Function.update c.shut stream true, history := e :: c.history }
  | .exits status =>
      if c.exited = none then some { c with exited := some status, history := e :: c.history } else none
  | .call pc answer =>
      if c.drain.pc = pc ∧ c.Allows pc answer then
        (Drain.step answer c.drain).map (fun drain =>
          { c with drain, unread := c.leaves pc answer, history := e :: c.history })
      else none

/-- The states that the loop, the pipes and the child can reach. -/
abbrev Run (c : Capture) : Prop := Reaches step (fun _ _ => True) {} c

/-- **What an event can do.** -/
inductive Moves (c : Capture) : Event → Capture → Prop
  | writes {stream : Stream} {bytes : List UInt8} (h : bytes ≠ []) (hended : c.ended stream = false) :
      Moves c (.writes stream bytes) { c with
        unread := Function.update c.unread stream (c.unread stream ++ bytes)
        written := Function.update c.written stream (c.written stream ++ bytes)
        history := .writes stream bytes :: c.history }
  | shuts {stream : Stream} : Moves c (.shuts stream)
      { c with shut := Function.update c.shut stream true, history := .shuts stream :: c.history }
  | exits {status : WaitStatus} (h : c.exited = none) : Moves c (.exits status)
      { c with exited := some status, history := .exits status :: c.history }
  | call {a : Answer} {d : Drain} (hallows : c.Allows c.drain.pc a) (hmoves : c.drain.Moves a d) :
      Moves c (.call c.drain.pc a) { c with
        drain := d, unread := c.leaves c.drain.pc a, history := .call c.drain.pc a :: c.history }

theorem step_moves {e : Event} (h : step e c = some c') : c.Moves e c' := by
  unfold step at h
  split at h
  · rename_i stream bytes
    split_ifs at h with hguard
    obtain rfl := Option.some.inj h
    exact .writes hguard.1 hguard.2
  · obtain rfl := Option.some.inj h
    exact .shuts
  · split_ifs at h with hguard
    obtain rfl := Option.some.inj h
    exact .exits hguard
  · rename_i pc answer
    split_ifs at h with hguard
    obtain ⟨rfl, hallows⟩ := hguard
    obtain ⟨d, hd, rfl⟩ := Option.map_eq_some_iff.mp h
    exact .call hallows (Drain.step_moves hd)

end Capture

/-! ### Quiet streams -/

/-- The child writes to the stream. -/
def Event.Writes (stream : Stream) : Event → Prop
  | .writes stream' _ => stream' = stream
  | _ => False

/-- The loop finds the stream empty: `poll` does not report it, or a read of it comes to its end. -/
def Event.FindsEmpty (stream : Stream) : Event → Prop
  | .call _ (.poll (.ready revents)) => revents stream = false
  | .call (.read stream') (.read .again) => stream' = stream
  | .call (.read stream') (.read .eof) => stream' = stream
  | _ => False

/-- The child has written nothing to the stream since the loop last found it empty. -/
def Quiet (stream : Stream) (history : List Event) : Prop :=
  Since (fun e => ¬ e.Writes stream) (fun h => ∃ e ∈ h.head?, e.FindsEmpty stream) history

theorem Quiet.now {t : Stream} {e : Event} {history : List Event} (h : e.FindsEmpty t) :
    Quiet t (e :: history) := Since.now ⟨e, rfl, h⟩

/-- What an event does to a quiet stream. -/
theorem quiet_cons_iff {t : Stream} {e : Event} {history : List Event} :
    Quiet t (e :: history) ↔ e.FindsEmpty t ∨ ¬ e.Writes t ∧ Quiet t history := by
  simp [Quiet, Since]

/-! ### What has been looked at -/

/-- The loop has been through the stream in this round. -/
def Drain.Looked (d : Drain) (stream : Stream) : Prop :=
  match d.pc with
  | .read .stdout => stream = .stderr ∧ d.visits .stderr = false
  | .read .stderr => stream = .stdout
  | .wait => True
  | .left (.reaped _) => True
  | _ => False

/-- A stream that a scan has been through is not visited. -/
theorem Drain.scan_looked {d : Drain} {t : Stream} (h : d.scan.Looked t) : d.visits t = false := by
  rcases d.scan_pc with ⟨-, hscan⟩ | ⟨hout, hscan⟩
  · rw [hscan] at h
    obtain ⟨rfl, herr⟩ := h
    exact herr
  · rcases d.scanStderr_pc with ⟨-, hnext⟩ | ⟨herr, -⟩
    · rw [hscan, hnext] at h
      obtain rfl : t = .stdout := h
      exact hout
    · cases t with
      | stdout => exact hout
      | stderr => exact herr

/-- After a stream, that stream has been looked at, besides those from before. -/
theorem Drain.scanAfter_looked {d : Drain} {stream t : Stream} (hpc : d.pc = .read stream)
    (h : (d.scanAfter stream).Looked t) : t = stream ∨ d.Looked t := by
  unfold Drain.Looked
  rw [hpc]
  cases stream with
  | stderr => cases t <;> simp
  | stdout =>
    rcases d.scanStderr_pc with ⟨-, hnext⟩ | ⟨herr, -⟩
    · rw [Drain.scanAfter, hnext] at h
      exact .inl h
    · cases t with
      | stdout => exact .inl rfl
      | stderr => exact .inr ⟨rfl, herr⟩

/-- Closing the stream that is read changes nothing about the others. -/
theorem Drain.looked_close {d : Drain} {stream t : Stream} (hpc : d.pc = .read stream)
    (h : ({ d with openFds := Function.update d.openFds stream false } : Drain).Looked t) :
    d.Looked t := by
  unfold Drain.Looked at h ⊢
  rw [hpc]
  rw [show ({ d with openFds := _ } : Drain).pc = .read stream from hpc] at h
  cases stream with
  | stdout => exact h
  | stderr => exact h

/-- At the wait both streams have been looked at. -/
theorem Drain.looked_wait {d : Drain} (hpc : d.pc = .wait) (t : Stream) : d.Looked t := by
  unfold Drain.Looked
  rw [hpc]
  trivial

/-- The stream that is read has not been looked at. -/
theorem Drain.not_looked {d : Drain} {stream : Stream} (hpc : d.pc = .read stream) :
    ¬ d.Looked stream := by
  unfold Drain.Looked
  rw [hpc]
  cases stream <;> simp

/-! ### The invariant -/

/-- What holds at every moment. -/
structure Capture.Inv (c : Capture) : Prop where
  /-- What was captured and what is in the pipe is what the child wrote. -/
  text : ∀ t, c.drain.sinks t ++ c.unread t = c.written t
  /-- A stream is closed at its end. -/
  closed : ∀ t, c.drain.openFds t = false → c.unread t = [] ∧ c.ended t = true
  quiet : ∀ t, Quiet t c.history → c.unread t = []
  looked : ∀ t, c.drain.Looked t → c.unread t = [] → Quiet t c.history

namespace Capture

variable {c c' : Capture} {pc : Drain.Pc} {a : Answer} {d : Drain} {stream t : Stream}

theorem inv_initial : Inv {} :=
  ⟨fun _ => rfl, fun _ h => absurd h (by simp), fun _ _ => rfl, fun _ h => h.elim⟩

/-- What the loop finds empty is empty. -/
theorem Inv.unread_of_findsEmpty (h : c.Inv) (hallows : c.Allows c.drain.pc a)
    (hfinds : (Event.call c.drain.pc a).FindsEmpty t) : c.unread t = [] := by
  unfold Event.FindsEmpty at hfinds
  split at hfinds
  · rename_i hcall
    obtain ⟨-, rfl⟩ := Event.call.inj hcall
    have hready := hallows t
    rw [hfinds] at hready
    by_cases hopen : c.drain.openFds t = true
    · simp_all
    · exact (h.closed t (by simpa using hopen)).1
  · rename_i hcall
    obtain ⟨hpc, rfl⟩ := Event.call.inj hcall
    rw [hpc, hfinds] at hallows
    exact hallows.1
  · rename_i hcall
    obtain ⟨hpc, rfl⟩ := Event.call.inj hcall
    rw [hpc, hfinds] at hallows
    exact hallows.1
  · exact hfinds.elim

/-- A call that takes nothing from the pipes keeps the invariant, where it finds empty what it closes and
    what it is through with. -/
theorem Inv.call (h : c.Inv) (hallows : c.Allows c.drain.pc a)
    (hsinks : d.sinks = c.drain.sinks) (hleaves : c.leaves c.drain.pc a = c.unread)
    (hopen : ∀ t, d.openFds t = false → c.drain.openFds t = false ∨ c.unread t = [] ∧ c.ended t = true)
    (hlooked : ∀ t, d.Looked t → (Event.call c.drain.pc a).FindsEmpty t ∨ c.drain.Looked t) :
    Inv { c with drain := d, unread := c.leaves c.drain.pc a
                 history := .call c.drain.pc a :: c.history } := by
  rw [hleaves]
  refine ⟨fun t => ?_, fun t hclosed => ?_, fun t hquiet => ?_, fun t hlook hempty => ?_⟩
  · show d.sinks t ++ c.unread t = c.written t
    rw [hsinks]
    exact h.text t
  · rcases hopen t hclosed with hclosed | hends
    · exact h.closed t hclosed
    · exact hends
  · rcases quiet_cons_iff.mp hquiet with hfinds | ⟨-, hquiet⟩
    · exact h.unread_of_findsEmpty hallows hfinds
    · exact h.quiet t hquiet
  · rcases hlooked t hlook with hfinds | hlook
    · exact .now hfinds
    · exact quiet_cons_iff.mpr (.inr ⟨id, h.looked t hlook hempty⟩)

/-- Data comes off the pipe to the end of the sink. -/
theorem Inv.data {bytes : List UInt8} (h : c.Inv) (hpc : c.drain.pc = .read stream)
    (hallows : bytes <+: c.unread stream) :
    Inv { c with
      drain := { c.drain with
        sinks := Function.update c.drain.sinks stream (c.drain.sinks stream ++ bytes) }
      unread := c.leaves c.drain.pc (.read (.data bytes))
      history := .call c.drain.pc (.read (.data bytes)) :: c.history } := by
  obtain ⟨rest, hrest⟩ := hallows
  have hdrop : (c.unread stream).drop bytes.length = rest := by
    rw [← hrest, List.drop_left]
  have hleaves : c.leaves c.drain.pc (.read (.data bytes)) = Function.update c.unread stream rest := by
    rw [hpc, ← hdrop]
    rfl
  have hempty : ∀ t, c.unread t = [] → Function.update c.unread stream rest t = [] := by
    intro t ht
    by_cases heq : t = stream
    · subst heq
      rw [Function.update_self]
      exact (List.append_eq_nil_iff.mp (hrest.trans ht)).2
    · rw [Function.update_of_ne heq]
      exact ht
  rw [hleaves]
  refine ⟨fun t => ?_, fun t hclosed => ?_, fun t hquiet => ?_, fun t hlook hnil => ?_⟩
  · show Function.update c.drain.sinks stream (c.drain.sinks stream ++ bytes) t ++
      Function.update c.unread stream rest t = c.written t
    by_cases heq : t = stream
    · subst heq
      rw [Function.update_self, Function.update_self, List.append_assoc, hrest]
      exact h.text t
    · rw [Function.update_of_ne heq, Function.update_of_ne heq]
      exact h.text t
  · exact ⟨hempty t (h.closed t hclosed).1, (h.closed t hclosed).2⟩
  · exact hempty t (h.quiet t ((quiet_cons_iff.mp hquiet).resolve_left id).2)
  · have hlook : c.drain.Looked t := hlook
    have hne : t ≠ stream := by
      rintro rfl
      exact Drain.not_looked hpc hlook
    refine quiet_cons_iff.mpr (.inr ⟨id, h.looked t hlook ?_⟩)
    simpa [Function.update_of_ne hne] using hnil

/-- Only data takes something from a pipe. -/
theorem leaves_eq (h : ∀ bytes, a ≠ .read (.data bytes)) : c.leaves pc a = c.unread := by
  unfold leaves
  split
  · rename_i bytes
    exact absurd rfl (h bytes)
  · rfl

/-- Every call of the loop keeps the invariant. -/
theorem Inv.call_step (h : c.Inv) (hallows : c.Allows c.drain.pc a) (hmoves : c.drain.Moves a d) :
    Inv { c with drain := d, unread := c.leaves c.drain.pc a
                 history := .call c.drain.pc a :: c.history } := by
  cases hmoves with
  | expired => exact h.call hallows rfl (leaves_eq (by simp)) (fun _ => .inl) (fun _ => False.elim)
  | inTime => exact h.call hallows rfl (leaves_eq (by simp)) (fun _ => .inl) (fun _ => False.elim)
  | @ready revents hpc =>
    obtain ⟨hsinks, hopen⟩ := Drain.scan_frame { c.drain with revents }
    refine h.call hallows hsinks (leaves_eq (by simp)) (fun t ht => .inl (hopen ▸ ht))
      (fun t hlook => .inl ?_)
    -- an open stream that is passed over was not reported, and a closed one never is
    have hpass : (c.drain.openFds t && revents t) = false := Drain.scan_looked hlook
    rw [hpc] at hallows
    have hready : revents t = (c.drain.openFds t && (!(c.unread t).isEmpty || c.ended t)) := hallows t
    show revents t = false
    cases hopen : c.drain.openFds t
    · simp [hready, hopen]
    · simpa [hopen] using hpass
  | pollAgain => exact h.call hallows rfl (leaves_eq (by simp)) (fun _ => .inl) (fun _ => False.elim)
  | pollFailed => exact h.call hallows rfl (leaves_eq (by simp)) (fun _ => .inl) (fun _ => False.elim)
  | @data stream bytes hpc _ =>
    rw [hpc] at hallows
    exact h.data hpc hallows
  | readAgain => exact h.call hallows rfl (leaves_eq (by simp)) (fun _ => .inl) (fun _ => .inr)
  | @drained stream hpc =>
    obtain ⟨hsinks, hopen⟩ := c.drain.scanAfter_frame stream
    refine h.call hallows hsinks (leaves_eq (by simp)) (fun t ht => .inl (hopen ▸ ht))
      (fun t hlook => ?_)
    rcases Drain.scanAfter_looked hpc hlook with heq | hlook
    · rw [hpc]
      exact .inl heq.symm
    · exact .inr hlook
  | @closed stream answer hpc hend =>
    -- a pipe has no other error: the stream is at its end
    obtain rfl | rfl := hend
    · obtain ⟨hsinks, hopen⟩ := Drain.scanAfter_frame
        { c.drain with openFds := Function.update c.drain.openFds stream false } stream
      have hends : c.AllowsRead stream .eof := by
        rw [hpc] at hallows
        exact hallows
      refine h.call hallows hsinks (leaves_eq (by simp)) (fun t ht => ?_) (fun t hlook => ?_)
      · rw [hopen] at ht
        by_cases heq : t = stream
        · exact .inr (heq ▸ hends)
        · exact .inl (by simpa [Function.update_of_ne heq] using ht)
      · have hpc' : ({ c.drain with openFds := Function.update c.drain.openFds stream false } :
            Drain).pc = .read stream := hpc
        rcases Drain.scanAfter_looked hpc' hlook with heq | hlook
        · rw [hpc]
          exact .inl heq.symm
        · exact .inr (Drain.looked_close hpc hlook)
    · rw [hpc] at hallows
      exact hallows.elim
  | reaped hpc =>
    exact h.call hallows rfl (leaves_eq (by simp)) (fun _ => .inl) (fun t _ => .inr (Drain.looked_wait hpc t))
  | waitAgain hpc hans =>
    exact h.call hallows rfl (leaves_eq (by rcases hans with rfl | rfl <;> simp)) (fun _ => .inl)
      (fun _ => False.elim)
  | waitFailed => exact h.call hallows rfl (leaves_eq (by simp)) (fun _ => .inl) (fun _ => False.elim)

/-- The child lets go of its pipes. -/
theorem Inv.hangs (h : c.Inv) {shut : Stream → Bool} {exited : Option WaitStatus} {e : Event}
    (hended : ∀ t, c.ended t = true → (shut t || exited.isSome) = true)
    (hwrites : ∀ t, ¬ e.Writes t) (hfinds : ∀ t, ¬ e.FindsEmpty t) :
    Inv { c with shut, exited, history := e :: c.history } := by
  refine ⟨h.text, fun t hclosed => ?_, fun t hquiet => ?_, fun t hlook hnil => ?_⟩
  · exact ⟨(h.closed t hclosed).1, hended t (h.closed t hclosed).2⟩
  · exact h.quiet t ((quiet_cons_iff.mp hquiet).resolve_left (hfinds t)).2
  · exact quiet_cons_iff.mpr (.inr ⟨hwrites t, h.looked t hlook hnil⟩)

/-- **Step lemma.** Every event keeps the invariant. -/
theorem Inv.step {e : Event} (h : c.Inv) (hs : step e c = some c') : c'.Inv := by
  cases step_moves hs with
  | @writes stream bytes hbytes hended =>
    have hopen : c.drain.openFds stream = true := by
      by_contra hclosed
      exact absurd (h.closed stream (by simpa using hclosed)).2 (by simp [hended])
    refine ⟨fun t => ?_, fun t hclosed => ?_, fun t hquiet => ?_, fun t hlook hnil => ?_⟩
    · show c.drain.sinks t ++ Function.update c.unread stream (c.unread stream ++ bytes) t =
        Function.update c.written stream (c.written stream ++ bytes) t
      by_cases heq : t = stream
      · subst heq
        rw [Function.update_self, Function.update_self, ← List.append_assoc, h.text t]
      · rw [Function.update_of_ne heq, Function.update_of_ne heq]
        exact h.text t
    · have hne : t ≠ stream := by
        rintro rfl
        exact absurd (hopen.symm.trans hclosed) (by decide)
      obtain ⟨hnil, hends⟩ := h.closed t hclosed
      exact ⟨by simpa [Function.update_of_ne hne] using hnil, hends⟩
    · obtain ⟨hother, hquiet⟩ := (quiet_cons_iff.mp hquiet).resolve_left id
      have hne : t ≠ stream := fun heq => hother heq.symm
      simpa [Function.update_of_ne hne] using h.quiet t hquiet
    · -- what has just been written is still there
      have hne : t ≠ stream := by
        rintro rfl
        simp [hbytes] at hnil
      refine quiet_cons_iff.mpr (.inr ⟨fun heq => hne heq.symm, h.looked t hlook ?_⟩)
      simpa [Function.update_of_ne hne] using hnil
  | @shuts stream =>
    refine h.hangs (fun t hends => ?_) (fun _ => id) (fun _ => id)
    show (Function.update c.shut stream true t || c.exited.isSome) = true
    by_cases heq : t = stream
    · rw [heq, Function.update_self]
      rfl
    · rw [Function.update_of_ne heq]
      exact hends
  | @exits status hexited =>
    refine h.hangs (fun t _ => ?_) (fun _ => id) (fun _ => id)
    show (c.shut t || true) = true
    exact Bool.or_true _
  | @call a d hallows hmoves =>
    exact h.call_step hallows hmoves

/-- **Run lemma.** The invariant holds at every moment. -/
theorem Run.inv (h : Run c) : c.Inv :=
  h.invariant inv_initial (fun _ _ _ _ hinv _ hs => hinv.step hs)

end Capture

/-! ### When nothing is lost -/

/-- **When nothing is lost.** When the loop has reaped the child, the captured text is all that the child
    wrote if and only if the child wrote nothing to a stream after the loop last found it empty. -/
theorem capture_is_whole_iff {c : Capture} {status : WaitStatus} (h : c.Run)
    (hpc : c.drain.pc = .left (.reaped status)) :
    (∀ stream, c.drain.sinks stream = c.written stream) ↔ ∀ stream, Quiet stream c.history := by
  have hlooked : ∀ stream, c.drain.Looked stream := by
    intro stream
    unfold Drain.Looked
    rw [hpc]
    trivial
  refine forall_congr' (fun stream => ?_)
  rw [← h.inv.text stream]
  constructor
  · intro hall
    exact h.inv.looked stream (hlooked stream) (List.self_eq_append_right.mp hall)
  · intro hquiet
    rw [h.inv.quiet stream hquiet, List.append_nil]

/-! ### Two schedules -/

/-- The child writes, the loop reads all of it, the child exits and is reaped. -/
def writeReadExit : List Event :=
  [.writes .stdout [97], .call .clock (.clock 5000),
    .call .poll (.poll (.ready (fun stream => decide (stream = .stdout)))),
    .call (.read .stdout) (.read (.data [97])), .call (.read .stdout) (.read .again),
    .exits (.exited 0), .call .wait (.wait (.ended (.exited 0)))]

/-- The two streams are quiet at the end of it. -/
theorem capture_is_whole_iff_writeReadExit : ∃ c : Capture, c.Run ∧
    c.drain.pc = .left (.reaped (.exited 0)) ∧ ∀ stream, Quiet stream c.history := by
  obtain ⟨c, hrun, hend⟩ : ∃ c : Capture, c.Run ∧ decide (c.drain.pc = .left (.reaped (.exited 0)) ∧
      ∀ stream, c.drain.sinks stream = c.written stream) = true :=
    exists_reaches_of_execGuarded writeReadExit _ (by decide)
  obtain ⟨hpc, hall⟩ := of_decide_eq_true hend
  exact ⟨c, hrun, hpc, (capture_is_whole_iff hrun hpc).mp hall⟩

/-- The child writes once more, after the last read and before its exit. -/
def writeAfterRead : List Event :=
  [.writes .stdout [97], .call .clock (.clock 5000),
    .call .poll (.poll (.ready (fun stream => decide (stream = .stdout)))),
    .call (.read .stdout) (.read (.data [97])), .call (.read .stdout) (.read .again),
    .writes .stdout [98], .exits (.exited 0), .call .wait (.wait (.ended (.exited 0)))]

/-- Its last byte is lost: not every command that is reaped has had all its output captured. -/
theorem write_before_exit_is_lost : ¬ ∀ (c : Capture) (status : WaitStatus), c.Run →
    c.drain.pc = .left (.reaped status) → ∀ stream, c.drain.sinks stream = c.written stream := by
  intro h
  obtain ⟨c, hrun, hend⟩ : ∃ c : Capture, c.Run ∧ decide (c.drain.pc = .left (.reaped (.exited 0)) ∧
      c.drain.sinks .stdout = [97] ∧ c.written .stdout = [97, 98]) = true :=
    exists_reaches_of_execGuarded writeAfterRead _ (by decide)
  obtain ⟨hpc, hsinks, hwritten⟩ := of_decide_eq_true hend
  have hall := h c _ hrun hpc .stdout
  rw [hsinks, hwritten] at hall
  exact absurd hall (by decide)

end HypertronBridge.Preflight
