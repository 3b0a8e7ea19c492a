import HypertronBridge.Lib.Ranking
import HypertronBridge.Node.Executor
import HypertronBridge.Runtime.Success

namespace HypertronBridge.Node

open TransitionSystem History HypertronBridge.Runtime

/-!
# The services and their answers

A request of `/emergency_stop` or `/control_authority` is answered once, by the next thing that the
executor records, and with success only when the runtime earned it for the promise of this very request.
No callback holds up the executor: it has at most six sections, and the one that waits goes on as soon as
its future is ready or its time is over.

* `pendingRequest`, `Entry.awaits` — the request that is to be answered, in the record and in the callback;
* `Made` — the promise of a callback was made for its request, after those that are answered;
* `service_answers` — the answers;
* `callback_returns` — the sections.
-/

variable {cfg : ExecutorConfig} {s s' : Executor} {m : Move} {w : Waiter} {p : PromiseId}

/-! ### The request to be answered -/

/-- The service request that was taken last and is not answered yet. -/
def pendingRequest : List Turn → Option Waiter
  | .took (.emergencyStop data) :: _ => some (.emergencyStop data)
  | .took (.controlAuthority data) :: _ => some (.controlAuthority data)
  | _ => none

/-- The service request that the callback is going to answer. -/
def Entry.awaits : Entry → Option Waiter
  | .writeEstop data | .triggerEstop data => some (.emergencyStop data)
  | .markEstop _ => some (.emergencyStop true)
  | .requestAuthority data => some (.controlAuthority data)
  | .startWait waiter _ | .wait waiter _ _ => if waiter = .robotMode then none else some waiter
  | _ => none

/-- An answer. -/
def Turn.answers (e : Turn) (w : Waiter) : Prop := ∃ p response, e = .responded w p response

/-- The next turn answers the pending request, if there is one, and only that. -/
def AnsweredNext (log : List Turn) : Prop :=
  Historically (fun e older => ∀ w, pendingRequest older = some w ↔ e.answers w) log

/-- The callback in progress is the one that answers. -/
structure Answering (s : Executor) : Prop where
  pending : pendingRequest s.log = s.entry.bind Entry.awaits
  answered : AnsweredNext s.log

/-- A turn that answers nothing, when nothing is pending. -/
theorem AnsweredNext.cons {log : List Turn} {e : Turn} (h : AnsweredNext log)
    (hpending : pendingRequest log = none) (he : ∀ w, ¬ e.answers w) : AnsweredNext (e :: log) := by
  refine ⟨fun w => ⟨fun hw => ?_, fun hw => absurd hw (he w)⟩, h⟩
  rw [hpending] at hw
  exact absurd hw (by simp)

/-- The answer to what is pending. -/
theorem AnsweredNext.answer {log : List Turn} (h : AnsweredNext log) (response : Response)
    (hpending : pendingRequest log = some w) : AnsweredNext (.responded w p response :: log) := by
  refine ⟨fun w' => ⟨fun hw => ?_, fun hw => ?_⟩, h⟩
  · obtain rfl := Option.some.inj (hpending.symm.trans hw)
    exact ⟨p, response, rfl⟩
  · obtain ⟨p', response', heq⟩ := hw
    obtain ⟨rfl, -, -⟩ := Turn.responded.inj heq
    exact hpending

/-- A callback returns when nothing is pending. -/
theorem AnsweredNext.returns {log : List Turn} (h : AnsweredNext log) (next : Option Entry)
    (hpending : next = none → pendingRequest log = none) : AnsweredNext (Node.returns next ++ log) := by
  cases next with
  | none => exact h.cons (hpending rfl) (by simp [Turn.answers])
  | some entry => exact h

/-- What a message leaves to be answered. -/
theorem Incoming.entry_awaits (message : Incoming) :
    pendingRequest (.took message :: s.log) = message.entry.bind Entry.awaits := by
  cases message
  all_goals simp only [Incoming.entry]
  all_goals try split_ifs
  all_goals rfl

/-- What a section leaves to be answered: it answers, and awaits nothing more, or it goes on with what the
    callback awaits. -/
theorem Ran.awaits {entry : Entry} {part : EntrySection} {s : System} (h : Ran cfg s entry part) :
    (∃ w p response, entry.awaits = some w ∧ part.turns = [.responded w p response] ∧
        part.next = some .publish) ∨
      part.next.bind Entry.awaits = entry.awaits ∧
        (part.turns = [] ∨ entry.awaits = none ∧ ∃ twist t, part.turns = [.submitted twist t]) := by
  cases h
  case submit twist next hnext =>
    refine Or.inr ⟨?_, Or.inr ⟨rfl, twist, _, rfl⟩⟩
    rcases hnext with rfl | ⟨message, rfl⟩
    · rfl
    · rfl
  case responded waiter p deadline response hwaiter _ =>
    exact Or.inl ⟨waiter, p, response, if_neg hwaiter, rfl, rfl⟩
  all_goals exact Or.inr ⟨rfl, Or.inl rfl⟩

/-- The section of a callback. -/
theorem Answering.goOn (h : Answering s) {entry : Entry} {part : EntrySection} (system : System)
    (hentry : s.entry = some entry) (hran : Ran cfg s.system entry part) :
    Answering { system, entry := part.next, log := returns part.next ++ part.turns ++ s.log } := by
  have hpending : pendingRequest s.log = entry.awaits := by
    rw [h.pending, hentry]
    rfl
  rcases hran.awaits with ⟨w, p, response, hawaits, hturns, hnext⟩ | ⟨hawaits, hturns⟩
  · rw [hnext, hturns]
    exact ⟨rfl, h.answered.answer response (hpending.trans hawaits)⟩
  · -- the record before the return, where nothing is pending if the callback returns
    have hbefore : pendingRequest (part.turns ++ s.log) = part.next.bind Entry.awaits ∧
        AnsweredNext (part.turns ++ s.log) := by
      rw [hawaits]
      rcases hturns with hnone | ⟨hnone, twist, t, hturn⟩
      · rw [hnone]
        exact ⟨hpending, h.answered⟩
      · rw [hturn, hnone]
        exact ⟨rfl, h.answered.cons (hpending.trans hnone) (by simp [Turn.answers])⟩
    obtain ⟨hpending', hanswered⟩ := hbefore
    rw [List.append_assoc]
    refine ⟨?_, hanswered.returns part.next (fun hnone => ?_)⟩
    · show pendingRequest (returns part.next ++ (part.turns ++ s.log)) = part.next.bind Entry.awaits
      cases hnext : part.next with
      | none => rfl
      | some entry' =>
        rw [hnext] at hpending'
        exact hpending'
    · rw [hpending', hnone]
      rfl

/-- **Step lemma.** -/
theorem Answering.step (h : Answering s) (hs : Moved cfg s m s') : Answering s' := by
  cases hs with
  | @took message hidle =>
    have hidle' : pendingRequest s.log = none := by
      rw [h.pending, hidle]
      rfl
    have htook : AnsweredNext (.took message :: s.log) := h.answered.cons hidle' (by simp [Turn.answers])
    have hawaits := Incoming.entry_awaits (s := s) message
    refine ⟨?_, htook.returns message.entry (fun hnone => ?_)⟩
    · show pendingRequest (returns message.entry ++ .took message :: s.log) =
        message.entry.bind Entry.awaits
      cases hentry : message.entry with
      | none => rfl
      | some entry =>
        rw [hentry] at hawaits
        exact hawaits
    · rw [hawaits, hnone]
      rfl
  | stayed hentry hran _ => exact h.goOn _ hentry hran
  | acted hentry hran _ _ => exact h.goOn _ hentry hran
  | others => exact ⟨h.pending, h.answered⟩

/-- **Run lemma.** -/
theorem Executor.Run.answering (h : Executor.Run cfg s) : Answering s :=
  h.invariant ⟨rfl, trivial⟩ (fun _ _ _ _ hi hs => hi.step hs)

/-! ### The promise of the request -/

/-- What the service asks of the runtime. -/
def Waiter.request : Waiter → Option Request
  | .robotMode => none
  | .emergencyStop true => some .estop
  | .emergencyStop false => some .clearEstop
  | .controlAuthority data => some (.authority data)

/-- The promise that the callback waits for. -/
def Entry.promise : Entry → Option (Waiter × PromiseId)
  | .markEstop p => some (.emergencyStop true, p)
  | .startWait waiter p | .wait waiter p _ => some (waiter, p)
  | _ => none

/-- The promises of the answers, newest first. -/
def answeredPromises (log : List Turn) : List PromiseId :=
  log.filterMap fun e =>
    match e with
    | .responded _ p _ => some p
    | _ => none

/-- The answer tells what the runtime did: it was asked for `request` with promise `p`, and a success was
    earned. -/
def Truthful (trace : List Runtime.Event) (w : Waiter) (p : PromiseId) (response : Response) : Prop :=
  ∃ request, w.request = some request ∧ .requested p request ∈ trace ∧
    (response.success = true → ∃ new r older, trace = new ++ .resolved p r :: older ∧
      r.success = true ∧ response.message = r.message ∧ Done p older request)

/-- The promises of requests were made for them, in the order of the requests, and answers are truthful. -/
structure Made (s : Executor) : Prop where
  entry : ∀ w p request, s.entry.bind Entry.promise = some (w, p) → w.request = some request →
    .requested p request ∈ s.system.world.trace ∧ ∀ q ∈ answeredPromises s.log, q < p
  answers : ∀ w p response, .responded w p response ∈ s.log → Truthful s.system.world.trace w p response
  increasing : (answeredPromises s.log).Pairwise (· > ·)

/-- Answers stay truthful. -/
theorem Truthful.append {trace : List Runtime.Event} {response : Response}
    (h : Truthful trace w p response) (new : List Runtime.Event) :
    Truthful (new ++ trace) w p response := by
  obtain ⟨request, hrequest, hmem, hsuccess⟩ := h
  refine ⟨request, hrequest, List.mem_append_right _ hmem, fun hok => ?_⟩
  obtain ⟨newer, r, older, rfl, hearned⟩ := hsuccess hok
  exact ⟨new ++ newer, r, older, (List.append_assoc ..).symm, hearned⟩

/-- The result of a future was set. -/
theorem resolved_of_resultOf {trace : List Runtime.Event} {r : Result} (h : resultOf p trace = some r) :
    ∃ new older, trace = new ++ .resolved p r :: older := by
  obtain ⟨e, hmem, he⟩ := List.exists_of_findSome?_eq_some h
  obtain ⟨new, older, rfl⟩ := List.append_of_mem hmem
  split at he
  · rename_i q r'
    rw [Option.ite_none_right_eq_some, Option.some.injEq] at he
    obtain ⟨rfl, rfl⟩ := he
    exact ⟨new, older, rfl⟩
  · exact absurd he (by simp)

/-- Successes are earned. -/
theorem reachable_earned {cfg : RuntimeConfig} {w : World} (h : Reachable cfg w) :
    Historically (fun e older => ∀ p r, e = .resolved p r → r.success = true → Earned p older) w.trace := by
  refine h.invariant (I := fun w => Historically (fun e older => ∀ p r, e = .resolved p r →
    r.success = true → Earned p older) w.trace) trivial (fun s a s' hs' ih _ hs => ?_)
  obtain ⟨new, heq, hnew⟩ := step_earned hs' hs
  rw [heq]
  exact ih.append (fun pre e post hsplit p r he => hnew pre p r post (he ▸ hsplit))

/-- **An answer is truthful.** -/
theorem truthful_of_responds {system : System} {request : Request} {deadline : Time} {response : Response}
    (hreach : Reachable cfg.node.runtime system.world) (hrequest : w.request = some request)
    (hmem : .requested p request ∈ system.world.trace)
    (hresponds : Responds system w p deadline response) : Truthful system.world.trace w p response := by
  refine ⟨request, hrequest, hmem, fun hok => ?_⟩
  rcases hresponds with ⟨r, hr, rfl⟩ | ⟨-, -, rfl⟩
  · obtain ⟨new, older, htrace⟩ := resolved_of_resultOf hr
    obtain ⟨request', hmem', hdone⟩ :=
      historically_iff.mp (reachable_earned hreach) new _ older htrace p r rfl hok
    have hsame := hreach.requests.unique p request request' hmem (by simp [htrace, hmem'])
    exact ⟨new, r, older, htrace, hok, rfl, hsame ▸ hdone⟩
  · exact absurd hok (by simp)

/-- The request of a client call that makes a promise. -/
def requestOf : Runtime.Action → Option Request
  | .clearEstop => some .clearEstop
  | .latchEstop => some .estop
  | .requestAuthority sdk => some (.authority sdk)
  | .requestMode name => some (.mode name)
  | _ => none

/-- The promise is made for it. -/
theorem step_requested {cfg : RuntimeConfig} {a : Runtime.Action} {w w' : World} {request : Request}
    (hs : Runtime.step cfg a w = some w') (hrequest : requestOf a = some request) :
    .requested w.nextPromise request ∈ w'.trace := by
  cases a
  all_goals simp only [requestOf, Option.some.injEq, reduceCtorEq] at hrequest
  all_goals subst hrequest
  all_goals simp only [Runtime.step, World.requestAuthority, World.requestMode] at hs
  all_goals repeat' split at hs
  all_goals rw [← Option.some.inj hs]
  all_goals simp

/-- The promise of a section's request is that of the callback, or it is made in this section. -/
theorem Ran.promise {entry : Entry} {part : EntrySection} {s : System} {request : Request}
    (h : Ran cfg s entry part) (hnext : part.next.bind Entry.promise = some (w, p))
    (hrequest : w.request = some request) :
    entry.promise = some (w, p) ∨
      p = s.world.nextPromise ∧ ∃ a, part.action = some (.runtime a) ∧ requestOf a = some request := by
  cases h
  case submit twist next hnext' =>
    rcases hnext' with rfl | ⟨message, rfl⟩
    · exact absurd hnext (by simp)
    · exact absurd hnext (by simp [Entry.promise])
  case markEstop q | startWait waiter q => exact Or.inl hnext
  case clearEstop | latchEstop | requestAuthority data =>
    obtain ⟨rfl, rfl⟩ := Prod.mk.inj (Option.some.inj hnext)
    exact Or.inr ⟨rfl, _, rfl, hrequest⟩
  case enqueueMode q _ _ | modeAnswered q _ =>
    -- nobody answers a mode request
    obtain ⟨rfl, rfl⟩ := Prod.mk.inj (Option.some.inj hnext)
    exact absurd hrequest (by simp [Waiter.request])
  all_goals exact absurd hnext (by simp [Entry.promise])

/-- A section answers for the promise of its callback, or not at all. -/
theorem Ran.answers {entry : Entry} {part : EntrySection} {s : System} (h : Ran cfg s entry part) :
    (∃ w p response deadline, part.turns = [.responded w p response] ∧ entry.promise = some (w, p) ∧
        w ≠ .robotMode ∧ Responds s w p deadline response) ∨
      ∀ w p response, .responded w p response ∉ part.turns := by
  cases h
  case responded waiter p deadline response hwaiter hresponse =>
    exact Or.inl ⟨waiter, p, response, deadline, rfl, rfl, hwaiter, hresponse⟩
  all_goals exact Or.inr (by simp)

/-- A record without answers has no promises of theirs. -/
theorem answeredPromises_eq_nil {log : List Turn} (h : ∀ w p response, .responded w p response ∉ log) :
    answeredPromises log = [] := by
  refine List.filterMap_eq_nil_iff.mpr (fun e he => ?_)
  cases e with
  | responded w p response => exact absurd he (h w p response)
  | _ => rfl

theorem responded_notMem_returns (next : Option Entry) (w : Waiter) (p : PromiseId) (response : Response) :
    .responded w p response ∉ returns next := by
  cases next <;> simp [returns]

theorem answeredPromises_append (new log : List Turn) :
    answeredPromises (new ++ log) = answeredPromises new ++ answeredPromises log :=
  List.filterMap_append

/-- A service asks something of the runtime. -/
theorem Waiter.request_isSome (hw : w ≠ .robotMode) : ∃ request, w.request = some request := by
  cases w with
  | robotMode => exact absurd rfl hw
  | emergencyStop data => cases data <;> exact ⟨_, rfl⟩
  | controlAuthority data => exact ⟨_, rfl⟩

/-- The runtime's trace grows. -/
theorem System.step_trace {cfg : NodeConfig} {b : Action} {s s' : System}
    (hs : System.step cfg b s = some s') : ∃ new, s'.world.trace = new ++ s.world.trace := by
  have hworld := System.step_world hs
  cases hb : b.inRuntime with
  | none =>
    rw [hb] at hworld
    exact ⟨[], by rw [← Option.some.inj hworld]; rfl⟩
  | some a =>
    rw [hb] at hworld
    obtain ⟨new, heq, -⟩ := Extends.trace (step_extends hworld)
    exact ⟨new, heq⟩

/-- The answered promises were made. -/
theorem Made.lt_nextPromise (h : Made s) (hrun : Executor.Run cfg s) :
    ∀ q ∈ answeredPromises s.log, q < s.system.world.nextPromise := by
  intro q hq
  obtain ⟨e, hmem, he⟩ := List.mem_filterMap.mp hq
  cases e with
  | responded w p response =>
    obtain ⟨request, -, hrequested, -⟩ := h.answers w p response hmem
    obtain rfl := Option.some.inj he
    exact hrun.reachable.requests.made _ request hrequested
  | _ => exact absurd he (by simp)

/-- The section of a callback, in a trace that it lets grow, where it makes the promises it asks for. -/
theorem Made.goOn (h : Made s) (hrun : Executor.Run cfg s) {entry : Entry} {part : EntrySection}
    {system : System} (hentry : s.entry = some entry) (hran : Ran cfg s.system entry part)
    {new : List Runtime.Event} (htrace : system.world.trace = new ++ s.system.world.trace)
    (hasked : ∀ a request, part.action = some (.runtime a) → requestOf a = some request →
      .requested s.system.world.nextPromise request ∈ system.world.trace) :
    Made { system, entry := part.next, log := returns part.next ++ part.turns ++ s.log } := by
  have hkept : ∀ w p response, .responded w p response ∈ s.log →
      Truthful system.world.trace w p response := by
    intro w p response hmem
    rw [htrace]
    exact (h.answers w p response hmem).append new
  have hreturns : answeredPromises (returns part.next ++ part.turns ++ s.log) =
      answeredPromises part.turns ++ answeredPromises s.log := by
    rw [answeredPromises_append, answeredPromises_append,
      answeredPromises_eq_nil (fun w p response => responded_notMem_returns part.next w p response)]
    rfl
  rcases hran.answers with ⟨w, p, response, deadline, hturns, hpromise, hwaiter, hresponds⟩ | hnone
  · obtain ⟨request, hrequest⟩ := Waiter.request_isSome hwaiter
    obtain ⟨hrequested, hlt⟩ := h.entry w p request (by rw [hentry]; exact hpromise) hrequest
    have htruth := truthful_of_responds hrun.reachable hrequest hrequested hresponds
    have hlist : answeredPromises part.turns = [p] := by
      rw [hturns]
      rfl
    rw [hlist] at hreturns
    refine ⟨fun w' p' request' hnext _ => ?_, fun w' p' response' hmem => ?_, ?_⟩
    · -- the answer is followed by the publication
      rcases hran.awaits with ⟨_, _, _, -, -, hpublish⟩ | ⟨-, hempty | ⟨-, _, _, hsubmitted⟩⟩
      · rw [hpublish] at hnext
        exact absurd hnext (by simp [Entry.promise])
      · exact absurd (hturns.symm.trans hempty) (by simp)
      · exact absurd (hturns.symm.trans hsubmitted) (by simp)
    · rcases List.mem_append.mp hmem with hmem | hmem
      · rcases List.mem_append.mp hmem with hmem | hmem
        · exact absurd hmem (responded_notMem_returns part.next w' p' response')
        · rw [hturns, List.mem_singleton] at hmem
          obtain ⟨rfl, rfl, rfl⟩ := Turn.responded.inj hmem
          rw [htrace]
          exact htruth.append new
      · exact hkept w' p' response' hmem
    · rw [hreturns]
      exact List.pairwise_cons.mpr ⟨hlt, h.increasing⟩
  · rw [answeredPromises_eq_nil hnone] at hreturns
    refine ⟨fun w p request hnext hrequest => ?_, fun w p response hmem => ?_, ?_⟩
    · show _ ∧ ∀ q ∈ answeredPromises (returns part.next ++ part.turns ++ s.log), q < p
      rw [hreturns]
      rcases hran.promise hnext hrequest with hsame | ⟨rfl, a, ha, hrequestOf⟩
      · obtain ⟨hrequested, hlt⟩ := h.entry w p request (by rw [hentry]; exact hsame) hrequest
        rw [htrace]
        exact ⟨List.mem_append_right _ hrequested, hlt⟩
      · exact ⟨hasked a request ha hrequestOf, h.lt_nextPromise hrun⟩
    · rcases List.mem_append.mp hmem with hmem | hmem
      · rcases List.mem_append.mp hmem with hmem | hmem
        · exact absurd hmem (responded_notMem_returns part.next w p response)
        · exact absurd hmem (hnone w p response)
      · exact hkept w p response hmem
    · rw [hreturns]
      exact h.increasing

/-- No message comes with a promise. -/
theorem Incoming.entry_promise (message : Incoming) : message.entry.bind Entry.promise = none := by
  cases message
  all_goals simp only [Incoming.entry]
  all_goals try split_ifs
  all_goals rfl

/-- **Step lemma.** -/
theorem Made.step (h : Made s) (hrun : Executor.Run cfg s) (hs : Moved cfg s m s') : Made s' := by
  cases hs with
  | @took message hidle =>
    have hsame : answeredPromises (returns message.entry ++ .took message :: s.log) =
        answeredPromises s.log := by
      rw [answeredPromises_append,
        answeredPromises_eq_nil (fun w p response => responded_notMem_returns message.entry w p response)]
      rfl
    refine ⟨fun w p request hnext _ => ?_, fun w p response hmem => ?_, ?_⟩
    · rw [message.entry_promise] at hnext
      exact absurd hnext (by simp)
    · rcases List.mem_append.mp hmem with hmem | hmem
      · exact absurd hmem (responded_notMem_returns message.entry w p response)
      · exact h.answers w p response (by simpa using hmem)
    · rw [hsame]
      exact h.increasing
  | @stayed entry part hentry hran hnone =>
    have htrace : s.system.world.trace = [] ++ s.system.world.trace := rfl
    refine h.goOn hrun hentry hran htrace (fun a request ha _ => ?_)
    rw [hnone] at ha
    exact absurd ha (by simp)
  | @acted entry part b system hentry hran hb hs =>
    obtain ⟨new, htrace⟩ := System.step_trace hs
    refine h.goOn hrun hentry hran htrace (fun a request ha hrequest => ?_)
    obtain rfl := Option.some.inj (hb.symm.trans ha)
    exact step_requested (System.step_world hs) hrequest
  | others _ hs =>
    obtain ⟨new, htrace⟩ := System.step_trace hs
    refine ⟨fun w p request hpromise hrequest => ?_, fun w p response hmem => ?_, h.increasing⟩
    · obtain ⟨hrequested, hlt⟩ := h.entry w p request hpromise hrequest
      rw [htrace]
      exact ⟨List.mem_append_right _ hrequested, hlt⟩
    · rw [htrace]
      exact (h.answers w p response hmem).append new

/-- **Run lemma.** -/
theorem Executor.Run.made (h : Executor.Run cfg s) : Made s := by
  refine h.invariant ⟨?_, ?_, .nil⟩ (fun _ _ _ hrun hi hs => hi.step hrun hs)
  · intro w p request hpromise
    exact absurd hpromise (by simp [Executor.initial])
  · intro w p response hmem
    exact absurd hmem (by simp [Executor.initial])

/-! ### The answers -/

/-- **The services answer.** In every run, a service request that is taken is answered by the next thing
    that the executor records, and nothing else is answered; each answer is about a promise of its own, made
    after those of the answers before; and an answer that says success passes on the runtime's success, for
    which the runtime did what the request asked. -/
theorem service_answers (hrun : Executor.Run cfg s) :
    AnsweredNext s.log ∧ (answeredPromises s.log).Pairwise (· > ·) ∧
      ∀ w p response, .responded w p response ∈ s.log → Truthful s.system.world.trace w p response :=
  ⟨hrun.answering.answered, hrun.made.increasing, hrun.made.answers⟩

/-- An authority request that the robot grants. -/
def grantedRequest : List Move :=
  elsewhere (runtimeSteps (.start :: works 13 (obliging 0xB104) ++ [.status true false])) ++
    [.take (.controlAuthority true), .proceed] ++
    elsewhere (runtimeSteps (works 7 (obliging 0xB104))) ++ [.proceed, .proceed, .proceed]

/-- It is answered with success, which the runtime earned. -/
theorem service_answers_granted : ∃ s, Executor.Run { node := .plain } s ∧ ∃ older,
    s.log = .returned :: .responded (.controlAuthority true) 0 ⟨true, "success"⟩ :: older ∧
      Truthful s.system.world.trace (.controlAuthority true) 0 ⟨true, "success"⟩ := by
  obtain ⟨s, hrun, hs⟩ := Executor.exists_run_of_exec { node := .plain } grantedRequest
    (fun s => decide (s.log = [.returned, .responded (.controlAuthority true) 0 ⟨true, "success"⟩,
      .took (.controlAuthority true)])) (by decide +kernel)
  have hlog := of_decide_eq_true hs
  exact ⟨s, hrun, _, hlog, (service_answers hrun).2.2 _ _ _ (by simp [hlog])⟩

/-! ### The sections of a callback -/

/-- A section of the callback in progress. -/
def Move.isProceed : Move → Bool
  | .proceed => true
  | _ => false

/-- At most how many sections the callback still has. -/
def Entry.sectionsLeft (w : World) : Entry → Nat
  | .submit _ | .countJoint => 3
  | .updateLastError _ => 2
  | .publish => 1
  | .wait _ _ _ => 2
  | .startWait _ _ => 3
  | .markEstop _ | .requestAuthority _ => 4
  | .triggerEstop _ => 5
  | .writeEstop _ | .requestMode _ => 6
  | .modeCall p =>
      match w.calls p with
      | some (.modeAccept _) => 5
      | _ => 4

/-- The same for the executor. -/
def Executor.sectionsLeft (s : Executor) : Nat := s.entry.elim 0 (Entry.sectionsLeft s.system.world)

theorem Entry.sectionsLeft_le (w : World) (entry : Entry) : entry.sectionsLeft w ≤ 6 := by
  cases entry
  case modeCall p =>
    rw [Entry.sectionsLeft]
    split <;> decide
  all_goals simp [Entry.sectionsLeft]

/-- The callback that marks the stop has the runtime's call in progress, and a callback waits no longer than
    its time. -/
structure Waiting (cfg : ExecutorConfig) (s : Executor) : Prop where
  marks : ∀ p, s.entry = some (.markEstop p) → s.system.world.calls p = some .estopMark
  deadline : ∀ w p deadline, s.entry = some (.wait w p deadline) →
    deadline ≤ s.system.world.clock + w.timeout cfg

/-- The other threads touch no client call of the runtime. -/
theorem System.step_calls {cfg : NodeConfig} {b : Action} {s s' : System} (hb : b.byOthers = true)
    (hs : System.step cfg b s = some s') : s'.world.calls = s.world.calls := by
  have hworld := System.step_world hs
  cases b
  case runtime a =>
    have hw : Runtime.step cfg.runtime a s.world = some s'.world := hworld
    cases a
    case worker ans => exact (workerStep_calls hw).1
    case start =>
      rw [← Option.some.inj hw]
      unfold World.start
      split_ifs <;> rfl
    case stop | advance d => rw [← Option.some.inj hw]
    case status linked authority =>
      rw [← Option.some.inj hw]
      rfl
    all_goals exact absurd hb (by simp [Action.byOthers])
  case poll snapshot => exact (workerStep_calls hworld).1
  all_goals rw [← Option.some.inj hworld]

/-- Time does not run back. -/
theorem System.step_clock_le {cfg : NodeConfig} {b : Action} {s s' : System}
    (hs : System.step cfg b s = some s') : s.world.clock ≤ s'.world.clock := by
  have hworld := System.step_world hs
  cases hb : b.inRuntime with
  | none =>
    rw [hb] at hworld
    rw [← Option.some.inj hworld]
  | some a =>
    rw [hb] at hworld
    exact Runtime.step_clock_le hworld

/-- No message starts with a wait or a mark. -/
theorem Incoming.entry_promise_ne {message : Incoming} {entry : Entry} (h : message.entry = some entry) :
    entry.promise = none := by
  have hnone := message.entry_promise
  rw [h] at hnone
  exact hnone

/-- **Step lemma.** -/
theorem Waiting.step (h : Waiting cfg s) (hs : Moved cfg s m s') : Waiting cfg s' := by
  cases hs with
  | @took message hidle =>
    constructor
    · intro p hp
      exact absurd (Incoming.entry_promise_ne hp) (by simp [Entry.promise])
    · intro w p deadline hp
      exact absurd (Incoming.entry_promise_ne hp) (by simp [Entry.promise])
  | @stayed entry part hentry hran hnone =>
    cases hran
    case startWait waiter p =>
      refine ⟨by simp, fun w q deadline hp => ?_⟩
      obtain ⟨rfl, rfl, rfl⟩ := Entry.wait.inj (Option.some.inj hp)
      exact le_refl _
    case submit | latchEstop => exact absurd hnone (by simp)
    all_goals exact ⟨by simp, by simp⟩
  | @acted entry part b system hentry hran hb hs =>
    cases hran
    case latchEstop =>
      refine ⟨fun p hp => ?_, by simp⟩
      obtain rfl := Entry.markEstop.inj (Option.some.inj hp)
      obtain rfl := Option.some.inj hb
      have hw := System.step_world hs
      show system.world.calls s.system.world.nextPromise = some .estopMark
      rw [← Option.some.inj hw]
      exact Function.update_self ..
    case submit twist next hnext =>
      rcases hnext with rfl | ⟨message, rfl⟩
      · exact ⟨by simp, by simp⟩
      · exact ⟨by simp, by simp⟩
    case startWait waiter p => exact absurd hb (by simp)
    all_goals exact ⟨by simp, by simp⟩
  | @others b system hb hs =>
    refine ⟨fun p hp => ?_, fun w p deadline hp => ?_⟩
    · show system.world.calls p = some .estopMark
      rw [System.step_calls hb hs]
      exact h.marks p hp
    · exact (h.deadline w p deadline hp).trans (Nat.add_le_add_right (System.step_clock_le hs) _)

/-- **Run lemma.** -/
theorem Executor.Run.waiting (h : Executor.Run cfg s) : Waiting cfg s :=
  h.invariant ⟨by simp [Executor.initial], by simp [Executor.initial]⟩ (fun _ _ _ _ hi hs => hi.step hs)

/-- The call of `request_mode` goes on from its gate. -/
theorem step_acceptMode {cfg : RuntimeConfig} {w w' : World}
    (hs : Runtime.step cfg (.acceptMode p) w = some w') (name : String) :
    w'.calls p ≠ some (.modeAccept name) := by
  simp only [Runtime.step, World.acceptMode] at hs
  repeat' split at hs
  all_goals simp only [Option.some.injEq, reduceCtorEq] at hs
  all_goals subst hs
  all_goals simp

/-- A section brings the callback's end nearer. -/
theorem Ran.sectionsLeft {entry : Entry} {part : EntrySection} {s system : System}
    (h : Ran cfg s entry part)
    (hs : part.action.elim (some s) (fun b => System.step cfg.node b s) = some system) :
    1 + part.next.elim 0 (Entry.sectionsLeft system.world) ≤ entry.sectionsLeft s.world := by
  have hmode : ∀ p, (∀ name, system.world.calls p ≠ some (.modeAccept name)) →
      (Entry.modeCall p).sectionsLeft system.world = 4 := by
    intro p hp
    rw [Entry.sectionsLeft]
    split
    · rename_i name hcall
      exact absurd hcall (hp name)
    · rfl
  cases h
  case submit twist next hnext =>
    rcases hnext with rfl | ⟨message, rfl⟩
    · simp [Entry.sectionsLeft]
    · simp [Entry.sectionsLeft]
  case requestMode name =>
    show 1 + (Entry.modeCall s.world.nextPromise).sectionsLeft system.world ≤ 6
    rw [Entry.sectionsLeft]
    split <;> decide
  case acceptMode p name hcall =>
    show 1 + (Entry.modeCall p).sectionsLeft system.world ≤ (Entry.modeCall p).sectionsLeft s.world
    have hw := System.step_world (b := .runtime (.acceptMode p)) hs
    rw [hmode p (step_acceptMode hw), Entry.sectionsLeft, hcall]
  case enqueueMode p mode hcall =>
    show 1 + 3 ≤ (Entry.modeCall p).sectionsLeft s.world
    rw [Entry.sectionsLeft, hcall]
  case modeAnswered p hcall =>
    show 1 + 3 ≤ (Entry.modeCall p).sectionsLeft s.world
    rw [Entry.sectionsLeft]
    split <;> decide
  all_goals simp [Entry.sectionsLeft]

/-- A callback is in progress, and none has returned since. -/
structure InProgress (cfg : ExecutorConfig) (n : Nat) (s : Executor) : Prop where
  run : Executor.Run cfg s
  entry : s.entry ≠ none
  count : s.log.count .returned = n

/-- What the turns of a section leave of the count. -/
theorem count_returned {entry : Entry} {part : EntrySection} {s : System} (h : Ran cfg s entry part)
    (log : List Turn) : (returns part.next ++ part.turns ++ log).count .returned =
      (if part.next.isSome then 0 else 1) + log.count .returned := by
  have hturns : part.turns.count .returned = 0 := by
    rcases h.awaits with ⟨_, _, _, -, hturns, -⟩ | ⟨-, hturns | ⟨-, _, _, hturns⟩⟩
    all_goals
      rw [hturns]
      rfl
  rw [List.count_append, List.count_append, hturns]
  cases part.next <;> rfl

/-- **Step lemma.** -/
theorem InProgress.step {n : Nat} (h : InProgress cfg n s) (hmove : Executor.step cfg m s = some s') :
    n < s'.log.count .returned ∨
      InProgress cfg n s' ∧ m.isProceed.toNat + s'.sectionsLeft ≤ s.sectionsLeft := by
  have hrun : Executor.Run cfg s' := .tail h.run trivial hmove
  have hgo : ∀ {entry : Entry} {part : EntrySection} {system : System}, s.entry = some entry →
      Ran cfg s.system entry part →
      part.action.elim (some s.system) (fun b => System.step cfg.node b s.system) = some system →
      s' = { system, entry := part.next, log := returns part.next ++ part.turns ++ s.log } →
      n < s'.log.count .returned ∨ InProgress cfg n s' ∧ 1 + s'.sectionsLeft ≤ s.sectionsLeft := by
    rintro entry part system hentry hran hsystem rfl
    have hcount := count_returned hran s.log
    rw [h.count] at hcount
    cases hnext : part.next with
    | none =>
      rw [hnext] at hcount
      exact Or.inl (by rw [hcount]; exact Nat.lt_add_of_pos_left Nat.one_pos)
    | some entry' =>
      have hleft := hran.sectionsLeft hsystem
      rw [hnext] at hcount hleft hrun
      refine Or.inr ⟨⟨hrun, by simp, hcount.trans (Nat.zero_add n)⟩, ?_⟩
      unfold Executor.sectionsLeft
      rw [hentry]
      exact hleft
  cases moved hmove with
  | took hidle => exact absurd hidle h.entry
  | stayed hentry hran hnone => exact hgo hentry hran (by rw [hnone]; rfl) rfl
  | acted hentry hran hb hs => exact hgo hentry hran (by rw [hb]; exact hs) rfl
  | @others b system hb hs =>
    refine Or.inr ⟨⟨hrun, h.entry, h.count⟩, ?_⟩
    have hsame : ∀ entry, Entry.sectionsLeft system.world entry =
        Entry.sectionsLeft s.system.world entry := by
      intro entry
      cases entry
      case modeCall p => rw [Entry.sectionsLeft, Entry.sectionsLeft, System.step_calls hb hs]
      all_goals rfl
    show 0 + s.entry.elim 0 (Entry.sectionsLeft system.world) ≤ s.entry.elim 0 (Entry.sectionsLeft _)
    rw [Nat.zero_add, funext hsame]

/-- What has returned stays returned. -/
theorem returned_step {n : Nat} (hn : n < s.log.count .returned) (hs : Executor.step cfg m s = some s') :
    n < s'.log.count .returned := by
  refine hn.trans_le ?_
  cases moved hs with
  | took _ => exact ((List.sublist_cons_self ..).trans (List.sublist_append_right ..)).count_le _
  | stayed _ _ _ | acted _ _ _ _ => exact (List.sublist_append_right ..).count_le _
  | others => exact le_refl _

/-- A section that finds its step of the node enabled. -/
theorem proceed_isSome {entry : Entry} {part : EntrySection} (hentry : s.entry = some entry)
    (hpart : entry.run cfg s.system = some part)
    (henabled : (part.action.elim (some s.system) (fun b => System.step cfg.node b s.system)).isSome = true) :
    (Executor.step cfg .proceed s).isSome = true := by
  obtain ⟨system, hsystem⟩ := Option.isSome_iff_exists.mp henabled
  show (s.proceed cfg).isSome = true
  unfold Executor.proceed
  rw [hentry, Option.bind_eq_bind, Option.bind_some, hpart, Option.bind_eq_bind, Option.bind_some, hsystem]
  rfl

/-- A client call of the runtime that is enabled is enabled in the node. -/
theorem System.step_client {cfg : NodeConfig} {a : Runtime.Action} {s : System}
    (ha : s.world.workerAt a = none) (hstatus : ∀ linked authority, a ≠ .status linked authority)
    (h : (Runtime.step cfg.runtime a s.world).isSome = true) :
    (System.step cfg (.runtime a) s).isSome = true := by
  cases a
  case worker ans => exact absurd ha (by simp)
  case status linked authority => exact absurd rfl (hstatus linked authority)
  all_goals
    simp only [System.step, Option.isSome_map]
    exact h

/-- The same, for a section that makes the call. -/
theorem proceed_client {entry : Entry} {part : EntrySection} {a : Runtime.Action}
    (hentry : s.entry = some entry) (hpart : entry.run cfg s.system = some part)
    (haction : part.action = some (.runtime a)) (ha : s.system.world.workerAt a = none)
    (hstatus : ∀ linked authority, a ≠ .status linked authority)
    (h : (Runtime.step cfg.node.runtime a s.system.world).isSome = true) :
    (Executor.step cfg .proceed s).isSome = true := by
  refine proceed_isSome hentry hpart ?_
  rw [haction]
  exact System.step_client ha hstatus h

/-- A callback goes on, unless it waits for a future that is not ready, and for no longer than its time. -/
theorem Waiting.goesOn (h : Waiting cfg s) {entry : Entry} (hentry : s.entry = some entry) :
    (Executor.step cfg .proceed s).isSome = true ∨ ∃ w p deadline, entry = .wait w p deadline ∧
      resultOf p s.system.world.trace = none ∧ s.system.world.clock < deadline ∧
      deadline ≤ s.system.world.clock + w.timeout cfg := by
  cases entry
  case wait w p deadline =>
    cases hresult : resultOf p s.system.world.trace with
    | some r =>
      refine Or.inl (proceed_isSome hentry (by rw [Entry.run, hresult]) ?_)
      cases w <;> rfl
    | none =>
      by_cases hle : deadline ≤ s.system.world.clock
      · refine Or.inl (proceed_isSome hentry (by rw [Entry.run, hresult]; exact if_pos hle) ?_)
        cases w <;> rfl
      · exact Or.inr ⟨w, p, deadline, rfl, hresult, Nat.lt_of_not_le hle, h.deadline w p deadline hentry⟩
  case modeCall p =>
    refine Or.inl ?_
    cases hcall : s.system.world.calls p with
    | none => exact proceed_isSome hentry (by rw [Entry.run, hcall]) rfl
    | some call =>
      cases call with
      | estopMark => exact proceed_isSome hentry (by rw [Entry.run, hcall]) rfl
      | modeAccept name =>
        refine proceed_client hentry (by rw [Entry.run, hcall]) rfl rfl (by simp) ?_
        rw [Runtime.step, hcall]
        rfl
      | modeEnqueue mode =>
        refine proceed_client hentry (by rw [Entry.run, hcall]) rfl rfl (by simp) ?_
        rw [Runtime.step, hcall]
        rfl
  case markEstop p =>
    refine Or.inl (proceed_client hentry rfl rfl rfl (by simp) ?_)
    rw [Runtime.step, h.marks p hentry]
    rfl
  case triggerEstop data =>
    cases data
    all_goals exact Or.inl (proceed_client hentry rfl rfl rfl (by simp) rfl)
  case submit | requestMode | requestAuthority =>
    exact Or.inl (proceed_client hentry rfl rfl rfl (by simp) rfl)
  all_goals exact Or.inl (proceed_isSome hentry rfl rfl)

/-- **A callback returns.** In every run, whatever the other threads do: a callback in progress can go on,
    unless it waits for a future that is not ready, and that wait ends when its time is over, at most the
    callback's timeout ahead; and after six of its own sections at the latest it has returned. -/
theorem callback_returns (hrun : Executor.Run cfg s) {entry : Entry} (hentry : s.entry = some entry) :
    ((Executor.step cfg .proceed s).isSome = true ∨ ∃ w p deadline, entry = .wait w p deadline ∧
      resultOf p s.system.world.trace = none ∧ s.system.world.clock < deadline ∧
      deadline ≤ s.system.world.clock + w.timeout cfg) ∧
    ∀ moves s', Path (Executor.step cfg) s moves s' → 6 ≤ moves.countP Move.isProceed →
      s.log.count .returned < s'.log.count .returned := by
  refine ⟨hrun.waiting.goesOn hentry, fun moves s' hpath hmany => ?_⟩
  have hstart : InProgress cfg (s.log.count .returned) s := ⟨hrun, by simp [hentry], rfl⟩
  have hanswers := hpath.answers (I := InProgress cfg (s.log.count .returned))
    (Q := fun s' => s.log.count .returned < s'.log.count .returned) Move.isProceed (fun _ => 0)
    Executor.sectionsLeft (fun _ _ _ hI hs => hI.step hs) (fun _ _ _ hQ hs => returned_step hQ hs) hstart
  rcases hanswers with hreturned | ⟨hin, hle⟩
  · exact hreturned
  · -- a callback in progress has a section left
    have hleft : s.sectionsLeft ≤ 6 := by
      unfold Executor.sectionsLeft
      rw [hentry]
      exact entry.sectionsLeft_le s.system.world
    have hpos : 0 < s'.sectionsLeft := by
      obtain ⟨entry', hentry'⟩ := Option.ne_none_iff_exists'.mp hin.entry
      unfold Executor.sectionsLeft
      rw [hentry']
      show 0 < entry'.sectionsLeft s'.system.world
      cases entry'
      case modeCall p =>
        rw [Entry.sectionsLeft]
        split <;> decide
      all_goals simp [Entry.sectionsLeft]
    have hzero : (moves.map fun _ => 0).sum = 0 := by simp
    omega

/-- The rest of an `/emergency_stop` call whose promise nobody keeps. -/
def unkeptRequest : List Move :=
  [.proceed, .proceed, .proceed, .proceed] ++ elsewhere (runtimeSteps [.advance (ms 12000)]) ++
    [.proceed, .proceed]

/-- It returns after its time. -/
theorem callback_returns_unkept : ∃ s s', Executor.Run { node := .plain } s ∧
    s.entry = some (.writeEstop true) ∧ Path (Executor.step { node := .plain }) s unkeptRequest s' ∧
    s.log.count .returned < s'.log.count .returned := by
  obtain ⟨s, hrun, hs⟩ := Executor.exists_run_of_exec { node := .plain } [.take (.emergencyStop true)]
    (fun s => decide (s.entry = some (.writeEstop true)) &&
      (execGuarded (Executor.step { node := .plain }) (fun _ _ => True) unkeptRequest s).isSome)
    (by decide +kernel)
  obtain ⟨hentry, hend⟩ := Bool.and_eq_true_iff.mp hs
  obtain ⟨s', hex⟩ := Option.isSome_iff_exists.mp hend
  have hpath := path_of_execGuarded _ hex
  exact ⟨s, s', hrun, of_decide_eq_true hentry, hpath,
    (callback_returns hrun (of_decide_eq_true hentry)).2 _ s' hpath (by decide)⟩

end HypertronBridge.Node
