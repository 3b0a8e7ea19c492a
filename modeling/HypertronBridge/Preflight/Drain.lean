import HypertronBridge.Lib.TransitionSystem
import Mathlib.Logic.Function.Basic
import Mathlib.Tactic.Common

namespace HypertronBridge.Preflight

/-!
# The drain loop (`execute_readonly_command`, `network_preflight.cpp`)

While the child runs, the parent reads what it writes to its two output streams and waits for its exit,
until a deadline.  One step is one call with its answer, and what the code does up to the next call.

* `Answer` — the calls of the loop with their answers;
* `Drain`, `Drain.step` — the loop;
* `Drain.Moves`, `Drain.step_moves` — what a step can do.
-/

/-! ### Calls and answers -/

/-- The two pipes, `i == 0` and `i == 1`. -/
inductive Stream
  | stdout
  | stderr
deriving DecidableEq

/-- The status of a child that has ended. -/
inductive WaitStatus
  | exited (code : UInt8)
  | signaled (signal : Nat)
  | other
deriving DecidableEq

/-- What the function returns for a child's own status. -/
def WaitStatus.code : WaitStatus → Int
  | .exited code => code.toNat
  | .signaled signal => 128 + signal
  | .other => -1

/-- What `poll` returns: the descriptors that are readable or hung up, `EINTR`, or another error. -/
inductive PollAnswer
  | ready (revents : Stream → Bool)
  | interrupted
  | failed

/-- What `read` returns: a positive count, `0`, `EINTR`, `EAGAIN`, or another error. -/
inductive ReadAnswer
  | data (bytes : List UInt8)
  | eof
  | interrupted
  | again
  | failed
deriving DecidableEq

/-- What `waitpid` returns: `0`, the child, `EINTR`, or another error. -/
inductive WaitAnswer
  | running
  | ended (status : WaitStatus)
  | interrupted
  | failed
deriving DecidableEq

/-- A call of the loop with its answer. -/
inductive Answer
  /-- The time that remains until the deadline, in milliseconds. -/
  | clock (remaining : Int)
  | poll (answer : PollAnswer)
  | read (answer : ReadAnswer)
  | wait (answer : WaitAnswer)

/-! ### The loop -/

/-- How the loop is left. -/
inductive Leave
  | reaped (status : WaitStatus)
  | timedOut
  | fatal
deriving DecidableEq

/-- The call that comes next. -/
inductive Drain.Pc
  | clock
  | poll
  | read (stream : Stream)
  | wait
  | left (how : Leave)
deriving DecidableEq

/-- The variables of the loop: `open_fds`, the `revents` of `fds`, and what was appended to the
    sinks. -/
structure Drain where
  pc : Drain.Pc := .clock
  openFds : Stream → Bool := fun _ => true
  revents : Stream → Bool := fun _ => false
  sinks : Stream → List UInt8 := fun _ => []

namespace Drain

/-- The stream is read in this round. -/
def visits (d : Drain) (stream : Stream) : Bool := d.openFds stream && d.revents stream

/-- The `for` loop over the streams, from `stderr` on. -/
def scanStderr (d : Drain) : Drain :=
  if d.visits .stderr then { d with pc := .read .stderr } else { d with pc := .wait }

/-- The `for` loop over the streams. -/
def scan (d : Drain) : Drain :=
  if d.visits .stdout then { d with pc := .read .stdout } else d.scanStderr

/-- After a stream comes the next one. -/
def scanAfter (d : Drain) : Stream → Drain
  | .stdout => d.scanStderr
  | .stderr => { d with pc := .wait }

/-- The answer of `read`. -/
def onRead (d : Drain) (stream : Stream) : ReadAnswer → Option Drain
  | .data bytes =>
      -- a count between 1 and the size of the buffer
      if 0 < bytes.length ∧ bytes.length ≤ 4096 then
        some { d with sinks := Function.update d.sinks stream (d.sinks stream ++ bytes) }
      else none
  | .interrupted => some d
  | .again => some (d.scanAfter stream)
  | .eof => some ({ d with openFds := Function.update d.openFds stream false }.scanAfter stream)
  | .failed => some ({ d with openFds := Function.update d.openFds stream false }.scanAfter stream)

/-- One call. -/
def step (a : Answer) (d : Drain) : Option Drain :=
  match d.pc, a with
  | .clock, .clock remaining =>
      some (if remaining ≤ 0 then { d with pc := .left .timedOut } else { d with pc := .poll })
  | .poll, .poll (.ready revents) => some { d with revents }.scan
  | .poll, .poll .interrupted => some { d with pc := .clock }
  | .poll, .poll .failed => some { d with pc := .left .fatal }
  | .read stream, .read answer => d.onRead stream answer
  | .wait, .wait (.ended status) => some { d with pc := .left (.reaped status) }
  | .wait, .wait .running => some { d with pc := .clock }
  | .wait, .wait .interrupted => some { d with pc := .clock }
  | .wait, .wait .failed => some { d with pc := .left .fatal }
  | _, _ => none

/-! ### What a step can do -/

/-- **What a step can do**, by the call that it makes. -/
inductive Moves (d : Drain) : Answer → Drain → Prop
  | expired {remaining : Int} (hpc : d.pc = .clock) (h : remaining ≤ 0) :
      Moves d (.clock remaining) { d with pc := .left .timedOut }
  | inTime {remaining : Int} (hpc : d.pc = .clock) (h : 0 < remaining) :
      Moves d (.clock remaining) { d with pc := .poll }
  | ready {revents : Stream → Bool} (hpc : d.pc = .poll) :
      Moves d (.poll (.ready revents)) { d with revents }.scan
  | pollAgain (hpc : d.pc = .poll) : Moves d (.poll .interrupted) { d with pc := .clock }
  | pollFailed (hpc : d.pc = .poll) : Moves d (.poll .failed) { d with pc := .left .fatal }
  | data {stream : Stream} {bytes : List UInt8} (hpc : d.pc = .read stream) (h : bytes ≠ []) :
      Moves d (.read (.data bytes))
        { d with sinks := Function.update d.sinks stream (d.sinks stream ++ bytes) }
  | readAgain {stream : Stream} (hpc : d.pc = .read stream) : Moves d (.read .interrupted) d
  | drained {stream : Stream} (hpc : d.pc = .read stream) :
      Moves d (.read .again) (d.scanAfter stream)
  | closed {stream : Stream} {answer : ReadAnswer} (hpc : d.pc = .read stream)
      (h : answer = .eof ∨ answer = .failed) : Moves d (.read answer)
        ({ d with openFds := Function.update d.openFds stream false }.scanAfter stream)
  | reaped {status : WaitStatus} (hpc : d.pc = .wait) :
      Moves d (.wait (.ended status)) { d with pc := .left (.reaped status) }
  | waitAgain {answer : WaitAnswer} (hpc : d.pc = .wait)
      (h : answer = .running ∨ answer = .interrupted) :
      Moves d (.wait answer) { d with pc := .clock }
  | waitFailed (hpc : d.pc = .wait) : Moves d (.wait .failed) { d with pc := .left .fatal }

theorem step_moves {a : Answer} {d d' : Drain} (h : step a d = some d') : d.Moves a d' := by
  unfold step at h
  split at h
  · rename_i remaining hpc
    obtain rfl := Option.some.inj h
    split_ifs with hle
    · exact .expired hpc hle
    · exact .inTime hpc (by omega)
  · rename_i revents hpc
    obtain rfl := Option.some.inj h
    exact .ready hpc
  · rename_i hpc
    obtain rfl := Option.some.inj h
    exact .pollAgain hpc
  · rename_i hpc
    obtain rfl := Option.some.inj h
    exact .pollFailed hpc
  · rename_i stream answer hpc
    cases answer with
    | data bytes =>
      unfold onRead at h
      dsimp only at h
      split_ifs at h with hcount
      obtain rfl := Option.some.inj h
      exact .data hpc (List.ne_nil_of_length_pos hcount.1)
    | eof =>
      obtain rfl := Option.some.inj h
      exact .closed hpc (.inl rfl)
    | interrupted =>
      obtain rfl := Option.some.inj h
      exact .readAgain hpc
    | again =>
      obtain rfl := Option.some.inj h
      exact .drained hpc
    | failed =>
      obtain rfl := Option.some.inj h
      exact .closed hpc (.inr rfl)
  · rename_i status hpc
    obtain rfl := Option.some.inj h
    exact .reaped hpc
  · rename_i hpc
    obtain rfl := Option.some.inj h
    exact .waitAgain hpc (.inl rfl)
  · rename_i hpc
    obtain rfl := Option.some.inj h
    exact .waitAgain hpc (.inr rfl)
  · rename_i hpc
    obtain rfl := Option.some.inj h
    exact .waitFailed hpc
  · exact absurd h (by simp)

/-! ### The calls after a scan -/

variable {d : Drain} {stream : Stream}

/-- After a scan from `stderr` on, `stderr` is read or the child is waited for. -/
theorem scanStderr_pc (d : Drain) :
    d.visits .stderr = true ∧ d.scanStderr = { d with pc := .read .stderr } ∨
      d.visits .stderr = false ∧ d.scanStderr = { d with pc := .wait } := by
  unfold scanStderr
  cases hvisits : d.visits .stderr <;> simp

/-- After a scan, a stream that is visited is read, `stdout` first. -/
theorem scan_pc (d : Drain) :
    d.visits .stdout = true ∧ d.scan = { d with pc := .read .stdout } ∨
      d.visits .stdout = false ∧ d.scan = d.scanStderr := by
  unfold scan
  cases hvisits : d.visits .stdout <;> simp

/-- A scan only chooses the next call. -/
theorem scan_frame (d : Drain) : d.scan.sinks = d.sinks ∧ d.scan.openFds = d.openFds := by
  unfold scan scanStderr
  split_ifs <;> exact ⟨rfl, rfl⟩

theorem scanAfter_frame (d : Drain) (stream : Stream) :
    (d.scanAfter stream).sinks = d.sinks ∧ (d.scanAfter stream).openFds = d.openFds := by
  cases stream with
  | stderr => exact ⟨rfl, rfl⟩
  | stdout =>
    unfold scanAfter scanStderr
    split_ifs <;> exact ⟨rfl, rfl⟩

/-- A stream is read while it is open. -/
theorem Moves.reading {d d' : Drain} {a : Answer} (h : d.Moves a d')
    (hread : ∀ stream, d.pc = .read stream → d.openFds stream = true) (stream : Stream)
    (hpc : d'.pc = .read stream) : d'.openFds stream = true := by
  have hopen : ∀ {x : Drain} {t : Stream}, x.visits t = true → x.openFds t = true :=
    fun hvisits => (Bool.and_eq_true_iff.mp hvisits).1
  have hstderr : ∀ x : Drain, x.scanStderr.pc = .read stream → x.scanStderr.openFds stream = true := by
    intro x hx
    rcases x.scanStderr_pc with ⟨hvisits, hscan⟩ | ⟨-, hscan⟩
    · rw [hscan] at hx ⊢
      obtain rfl := Pc.read.inj hx
      exact hopen hvisits
    · rw [hscan] at hx
      exact absurd hx (by simp)
  have hafter : ∀ (x : Drain) (t : Stream), (x.scanAfter t).pc = .read stream →
      (x.scanAfter t).openFds stream = true := by
    intro x t hx
    cases t with
    | stdout => exact hstderr x hx
    | stderr => exact absurd hx (by simp [scanAfter])
  cases h with
  | ready =>
    rcases scan_pc { d with revents := _ } with ⟨hvisits, hscan⟩ | ⟨-, hscan⟩
    · rw [hscan] at hpc ⊢
      obtain rfl := Pc.read.inj hpc
      exact hopen hvisits
    · rw [hscan] at hpc ⊢
      exact hstderr _ hpc
  | data => exact hread stream hpc
  | readAgain => exact hread stream hpc
  | drained => exact hafter _ _ hpc
  | closed => exact hafter _ _ hpc
  | _ => exact absurd hpc (by simp)

end Drain

end HypertronBridge.Preflight
