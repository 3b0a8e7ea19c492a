import HypertronBridge.Lib.Holders
import HypertronBridge.Preflight.Drain

namespace HypertronBridge.Preflight

open TransitionSystem Holders

/-!
# The command runner (`execute_readonly_command`, `network_preflight.cpp`)

The parent's side of a run: two pipes, a fork, the drain loop and the exits.  One step is one system call
with its outcome, and what the code does up to the next call.

* `Outcome` — the calls with their outcomes;
* `Command`, `Command.step` — the function;
* `Command.Run` — what it can reach, for every sequence of outcomes.
-/

/-- A descriptor, not negative. -/
abbrev Fd := Nat

/-- The two entries of a pipe array. -/
inductive End
  | readEnd
  | writeEnd
deriving DecidableEq

/-- An entry of `stdout_pipe` or `stderr_pipe`, with its guard. -/
abbrev Slot := Stream × End

/-- The four entries: `out_r`, `out_w`, `err_r`, `err_w`. -/
def slots : List Slot :=
  [(.stdout, .readEnd), (.stdout, .writeEnd), (.stderr, .readEnd), (.stderr, .writeEnd)]

/-! ### Calls and outcomes -/

/-- What `pipe2` and `pipe` return: two descriptors, `ENOSYS` or `EINVAL`, or another error. -/
inductive PipeOutcome
  | made (readEnd writeEnd : Fd)
  | unsupported
  | failed

/-- A call with its outcome. -/
inductive Outcome
  | pipe (outcome : PipeOutcome)
  | fcntl (result : Int)
  | fork (pid : Int)
  /-- A call of the drain loop. -/
  | drain (answer : Answer)
  /-- `waitpid` without `WNOHANG`. -/
  | wait (answer : WaitAnswer)

/-- The call that comes next. -/
inductive Command.Pc
  | pipe2 (stream : Stream)
  | pipe (stream : Stream)
  /-- `fcntl(fds[i], F_SETFD, FD_CLOEXEC)`. -/
  | setCloexec (stream : Stream) (fdEnd : End)
  | fork
  | getFlags (stream : Stream)
  | setFlags (stream : Stream)
  /-- The wait of the error path before the loop. -/
  | reapKilled
  | drain
  /-- The wait after a loop that was not left by reaping. -/
  | reap (timedOut : Bool)
  | returned (code : Int)
deriving DecidableEq

/-- The variables of the function.  `note` is what it appends to `stderr_text` itself; `obtained`, `closed`
    and `drained` are the descriptors that calls returned, that were passed to `close`, and those of them
    that the drain loop closed.  The history is newest first. -/
structure Command where
  timeoutMs : Int
  pc : Command.Pc
  pipes : Slot → Option Fd := fun _ => none
  guards : Slot → Option Fd := fun _ => none
  flags : Stream → Int := fun _ => -1
  fds : Stream → Option Fd := fun _ => none
  drain : Drain := {}
  note : String := ""
  obtained : List Fd := []
  closed : List Fd := []
  drained : List Fd := []
  history : List Outcome := []

namespace Command

/-! ### The parts of the function -/

/-- The arguments and the timeout are looked at first. -/
def init (args : List String) (timeoutMs : Int) : Command :=
  { timeoutMs := if timeoutMs ≤ 0 then 5000 else timeoutMs
    pc := if args = [] then .returned 127 else .pipe2 .stdout }

/-- The arrays, with these two entries in one. -/
def setArray (pipes : Slot → Option Fd) (stream : Stream) (readEnd writeEnd : Option Fd) :
    Slot → Option Fd :=
  Function.update (Function.update pipes (stream, .readEnd) readEnd) (stream, .writeEnd) writeEnd

/-- A pipe's two descriptors go to its array. -/
def makePipe (c : Command) (stream : Stream) (readEnd writeEnd : Fd) : Command :=
  { c with
    pipes := setArray c.pipes stream (some readEnd) (some writeEnd)
    obtained := c.obtained ++ [readEnd, writeEnd] }

/-- `make_cloexec_pipe` has returned `0`: the second pipe, or the guards and the fork. -/
def pipeReady (c : Command) : Stream → Command
  | .stdout => { c with pc := .pipe2 .stderr }
  | .stderr => { c with pc := .fork, guards := c.pipes }

/-- `make_cloexec_pipe` closes a pipe that it cannot mark. -/
def closePipe (c : Command) (stream : Stream) : Command :=
  { c with
    pipes := setArray c.pipes stream none none
    closed := c.closed ++ ((c.pipes (stream, .readEnd)).toList ++ (c.pipes (stream, .writeEnd)).toList) }

/-- `make_cloexec_pipe` has failed: what is in the arrays is closed. -/
def failSetup (c : Command) : Command :=
  { c with pc := .returned (-1), closed := c.closed ++ held slots c.pipes }

/-- `close(guard.release())`. -/
def release (c : Command) (slot : Slot) : Command :=
  { c with guards := Function.update c.guards slot none, closed := c.closed ++ (c.guards slot).toList }

/-- A return below the guards: their destructors run, the last guard's first. -/
def exit (c : Command) (code : Int) : Command :=
  { c with
    pc := .returned code, guards := fun _ => none, closed := c.closed ++ (held slots c.guards).reverse }

/-- The parent after the fork. -/
def afterFork (c : Command) : Command :=
  { (c.release (.stdout, .writeEnd)).release (.stderr, .writeEnd) with pc := .getFlags .stdout }

/-- The child is killed. -/
def notNonblocking (c : Command) : Command :=
  { c with
    pc := .reapKilled
    note := c.note ++ "\n[command execution failed: could not set " ++
      "non-blocking mode on the output pipes; child killed]" }

/-- The loop starts, with its own copies of the read ends. -/
def startDrain (c : Command) : Command :=
  { c with pc := .drain, drain := {}, fds := fun stream => c.pipes (stream, .readEnd) }

/-- The loop closes its copy of a read end. -/
def closeDrained (c : Command) (stream : Stream) : Command :=
  { c with
    fds := Function.update c.fds stream none
    closed := c.closed ++ (c.fds stream).toList
    drained := c.drained ++ (c.fds stream).toList }

/-- The descriptors after a call of the loop. -/
def afterCall (c : Command) : Drain.Pc → Answer → Command
  | .read stream, .read .eof => c.closeDrained stream
  | .read stream, .read .failed => c.closeDrained stream
  | _, _ => c

/-- The loop goes on, or is left. -/
def afterDrain (c : Command) : Command :=
  match c.drain.pc with
  | .left (.reaped status) => c.exit status.code
  | .left .timedOut =>
      { c with
        pc := .reap true
        note := c.note ++ "\n[command timed out after " ++ toString c.timeoutMs ++ " ms; killed]" }
  | .left .fatal =>
      { c with pc := .reap false, note := c.note ++ "\n[command execution failed; child killed]" }
  | _ => c

/-! ### The function -/

/-- The two descriptors of a new pipe: two different ones, neither of them open. -/
def Fresh (c : Command) (readEnd writeEnd : Fd) : Prop :=
  readEnd ≠ writeEnd ∧ ∀ fd ∈ [readEnd, writeEnd], fd ∈ c.obtained → fd ∈ c.closed

instance (c : Command) (readEnd writeEnd : Fd) : Decidable (c.Fresh readEnd writeEnd) := by
  unfold Fresh
  infer_instance

/-- One call, without the history. -/
def advance (o : Outcome) (c : Command) : Option Command :=
  match c.pc, o with
  | .pipe2 stream, .pipe (.made r w) =>
      if c.Fresh r w then some ((c.makePipe stream r w).pipeReady stream) else none
  | .pipe2 stream, .pipe .unsupported => some { c with pc := .pipe stream }
  | .pipe2 _, .pipe .failed => some c.failSetup
  | .pipe stream, .pipe (.made r w) =>
      if c.Fresh r w then some { c.makePipe stream r w with pc := .setCloexec stream .readEnd } else none
  | .pipe _, .pipe .unsupported => some c.failSetup
  | .pipe _, .pipe .failed => some c.failSetup
  | .setCloexec stream fdEnd, .fcntl result =>
      if result < 0 then some (c.closePipe stream).failSetup
      else
        match fdEnd with
        | .readEnd => some { c with pc := .setCloexec stream .writeEnd }
        | .writeEnd => some (c.pipeReady stream)
  | .fork, .fork pid =>
      if pid < 0 then some (c.exit (-1))
      -- with pid 0 this is the child
      else if pid = 0 then none
      else some c.afterFork
  | .getFlags stream, .fcntl result =>
      let c := { c with flags := Function.update c.flags stream result }
      match stream with
      | .stdout => some { c with pc := .getFlags .stderr }
      | .stderr =>
          if (0 : Int) ≤ c.flags .stdout ∧ (0 : Int) ≤ c.flags .stderr then
            some { c with pc := .setFlags .stdout }
          else some c.notNonblocking
  | .setFlags stream, .fcntl result =>
      if result = 0 then
        match stream with
        | .stdout => some { c with pc := .setFlags .stderr }
        | .stderr => some c.startDrain
      else some c.notNonblocking
  | .reapKilled, .wait .interrupted => some c
  | .reapKilled, .wait (.ended _) => some (c.exit (-1))
  | .reapKilled, .wait .failed => some (c.exit (-1))
  | .drain, .drain a =>
      (Drain.step a c.drain).map (fun d => ({ c with drain := d }.afterCall c.drain.pc a).afterDrain)
  | .reap _, .wait .interrupted => some c
  | .reap timedOut, .wait (.ended _) => some (c.exit (if timedOut then 124 else -1))
  | .reap _, .wait .failed => some (c.exit (-1))
  | _, _ => none

/-- One call. -/
def step (o : Outcome) (c : Command) : Option Command :=
  (advance o c).map (fun c => { c with history := o :: c.history })

/-- What a run of the function can reach, whatever the outcomes of its calls. -/
abbrev Run (args : List String) (timeoutMs : Int) (c : Command) : Prop :=
  Reaches step (fun _ _ => True) (init args timeoutMs) c

end Command

end HypertronBridge.Preflight
