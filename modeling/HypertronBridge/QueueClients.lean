import HypertronBridge.Lib.Ranking
import HypertronBridge.Lib.TransitionSystem
import HypertronBridge.Sdk
import HypertronBridge.ThreadSafeQueue
import Mathlib.Data.List.Perm.Basic

namespace HypertronBridge

open TransitionSystem

/-!
# The clients of the bounded queue (`thread_safe_queue.hpp`)

Any number of threads push, pop, wait for an item and close the queue.  A step is a critical section under
the queue's mutex, or a notification after one: `push()` and `close()` notify when they have left the mutex,
so that other threads may step in between.  A call of `wait_pop_for()` that is notified, whose time is over,
or that wakes for no reason, tests again only when it gets the mutex.

* `QueueClients`, `QueueClients.step` — the queue, the calls that wait, and the notifications to come;
* `Departure` — how an item left the queue;
* `queue_keeps_order` — what is accepted leaves in order, and which items an overflow costs;
* `no_wakeup_is_lost` — nobody sleeps beside an item or at a closed queue.
-/

universe u

/-- A call of `wait_pop_for` that waits: until when at the latest, and whether it still sleeps on `cv_`. -/
structure Wait where
  deadline : Time
  asleep : Bool := true
deriving DecidableEq

/-- How an item left the queue. -/
inductive Departure (α : Type u)
  | popped (value : α)
  | dropped (value : α)

/-- The item. -/
def Departure.value {α : Type u} : Departure α → α
  | .popped value | .dropped value => value

/-- The queue, the calls that wait, the calls of `push()` and `close()` before their notification, and the
    items that were accepted and that left, oldest first. -/
structure QueueClients (policy : OverflowPolicy) (α : Type u) where
  queue : ThreadSafeQueue policy α
  waits : List Wait := []
  notifying : Nat := 0
  closing : Nat := 0
  clock : Time := 0
  accepted : List α := []
  departed : List (Departure α) := []

namespace QueueClients

variable {policy : OverflowPolicy} {α : Type u}

/-- The steps of the threads. -/
inductive Action (α : Type u)
  /-- `push()`, under the mutex. -/
  | push (value : α)
  /-- `cv_.notify_one()`: it wakes the call at a position, or there is none to wake. -/
  | notifyOne (waiter : Option Nat)
  | tryPop
  /-- `wait_pop_for()`, up to its first test. -/
  | waitPop (timeout : Time)
  /-- A call that waits wakes by itself: its time is over, or for no reason. -/
  | wake (waiter : Nat)
  /-- A call that is awake gets the mutex and tests again. -/
  | retest (waiter : Nat)
  /-- `close()`, under the mutex. -/
  | close
  | notifyAll
  | advance (d : Time)

/-! ### The operations -/

/-- `push`. -/
def push (s : QueueClients policy α) (value : α) : QueueClients policy α :=
  if (s.queue.push value).1 then
    { s with
      queue := (s.queue.push value).2
      notifying := s.notifying + 1
      accepted := s.accepted ++ [value]
      departed := s.departed ++
        (if s.queue.items.length = s.queue.capacity then
          s.queue.items.head?.toList.map .dropped else []) }
  else s

/-- `pop_locked`. -/
def popLocked (s : QueueClients policy α) : QueueClients policy α :=
  { s with
    queue := s.queue.tryPop.2
    departed := s.departed ++ s.queue.tryPop.1.toList.map .popped }

/-- The test of `wait_pop_for`. -/
def ready (s : QueueClients policy α) : Bool := s.queue.closed || !s.queue.items.isEmpty

/-- One step. -/
def step (a : Action α) (s : QueueClients policy α) : Option (QueueClients policy α) :=
  match a with
  | .push value => some (s.push value)
  | .notifyOne none =>
      if 0 < s.notifying ∧ s.waits.countP Wait.asleep = 0 then
        some { s with notifying := s.notifying - 1 }
      else none
  | .notifyOne (some waiter) =>
      match s.waits[waiter]? with
      | some w =>
          if 0 < s.notifying ∧ w.asleep = true then
            some { s with
              waits := s.waits.set waiter { w with asleep := false }
              notifying := s.notifying - 1 }
          else none
      | none => none
  | .tryPop => some s.popLocked
  | .waitPop timeout =>
      some (if s.ready then s.popLocked
        else { s with waits := ⟨s.clock + timeout, true⟩ :: s.waits })
  | .wake waiter =>
      match s.waits[waiter]? with
      | some w => some { s with waits := s.waits.set waiter { w with asleep := false } }
      | none => none
  | .retest waiter =>
      match s.waits[waiter]? with
      | some ⟨deadline, false⟩ =>
          some (if s.ready ∨ deadline ≤ s.clock then
            { s with waits := s.waits.eraseIdx waiter }.popLocked
          else { s with waits := s.waits.set waiter ⟨deadline, true⟩ })
      | _ => none
  | .close => some { s with queue.closed := true, closing := s.closing + 1 }
  | .notifyAll =>
      if 0 < s.closing then
        some { s with
          waits := s.waits.map (fun w => { w with asleep := false })
          closing := s.closing - 1 }
      else none
  | .advance d => some { s with clock := s.clock + d }

/-- A new queue. -/
def initial (policy : OverflowPolicy) (α : Type u) (capacity : Nat) (hcapacity : 0 < capacity) :
    QueueClients policy α where
  queue := { capacity, capacity_pos := hcapacity, bounded := Nat.zero_le _ }

/-- The states of all runs, from a new queue of some capacity. -/
def Run (s : QueueClients policy α) : Prop :=
  ∃ capacity hcapacity, Reaches step (fun _ _ => True) (initial policy α capacity hcapacity) s

/-- **Run rule.** -/
theorem Run.invariant {I : QueueClients policy α → Prop} {s : QueueClients policy α} (h : Run s)
    (h₀ : ∀ capacity hcapacity, I (initial policy α capacity hcapacity))
    (hstep : ∀ s a s', I s → step a s = some s' → I s') : I s := by
  obtain ⟨capacity, hcapacity, hreach⟩ := h
  exact hreach.invariant (h₀ capacity hcapacity) (fun s a s' _ hI _ hs => hstep s a s' hI hs)

/-! ### What the operations do to the items -/

variable {s s' : QueueClients policy α} {a : Action α}

/-- **Spec of `push`.** It is refused by a closed queue, and by a full one unless that drops the oldest
    item; otherwise the value is the newest item. -/
theorem push_spec (q : ThreadSafeQueue policy α) (value : α) :
    (q.push value).2.capacity = q.capacity ∧ (q.push value).2.closed = q.closed ∧
      ((q.push value = (false, q) ∧
          (q.closed = true ∨ policy = .rejectNew ∧ q.items.length = q.capacity)) ∨
        (q.push value).1 = true ∧ q.closed = false ∧
          ((q.items.length = q.capacity ∧ policy = .dropOldest ∧ ∃ oldest rest, q.items = oldest :: rest ∧
              (q.push value).2.items = rest ++ [value]) ∨
            q.items.length < q.capacity ∧ (q.push value).2.items = q.items ++ [value])) := by
  have hpos := q.capacity_pos
  have hbounded := q.bounded
  unfold ThreadSafeQueue.push
  split_ifs with hclosed hfull
  · exact ⟨rfl, rfl, Or.inl ⟨rfl, Or.inl hclosed⟩⟩
  · cases policy with
    | rejectNew => exact ⟨rfl, rfl, Or.inl ⟨rfl, Or.inr ⟨rfl, hfull⟩⟩⟩
    | dropOldest =>
      refine ⟨rfl, rfl, Or.inr ⟨rfl, Bool.eq_false_iff.mpr hclosed, Or.inl ⟨hfull, rfl, ?_⟩⟩⟩
      cases hitems : q.items with
      | nil =>
        rw [hitems, List.length_nil] at hfull
        omega
      | cons oldest rest =>
        refine ⟨oldest, rest, rfl, ?_⟩
        show q.items.tail ++ [value] = rest ++ [value]
        rw [hitems]
        rfl
  · exact ⟨rfl, rfl, Or.inr ⟨rfl, Bool.eq_false_iff.mpr hclosed, Or.inr ⟨by omega, rfl⟩⟩⟩

/-- **Spec of `pop_locked`.** -/
theorem popLocked_spec (s : QueueClients policy α) :
    s.popLocked.queue.capacity = s.queue.capacity ∧ s.popLocked.queue.closed = s.queue.closed ∧
      ((s.queue.items = [] ∧ s.popLocked.queue.items = [] ∧ s.popLocked.departed = s.departed) ∨
        ∃ value rest, s.queue.items = value :: rest ∧ s.popLocked.queue.items = rest ∧
          s.popLocked.departed = s.departed ++ [.popped value]) := by
  unfold popLocked ThreadSafeQueue.tryPop
  dsimp only
  split
  · rename_i hitems
    exact ⟨rfl, rfl, Or.inl ⟨hitems, hitems, List.append_nil _⟩⟩
  · rename_i value rest hitems
    exact ⟨rfl, rfl, Or.inr ⟨value, rest, hitems, rfl, rfl⟩⟩

/-- A push leaves the queue as the queue's own operation does. -/
theorem push_queue (s : QueueClients policy α) (value : α) : (s.push value).queue = (s.queue.push value).2 := by
  unfold push
  obtain ⟨-, -, ⟨hrefused, -⟩ | ⟨hok, -⟩⟩ := push_spec s.queue value
  · rw [hrefused, if_neg Bool.false_ne_true]
  · rw [if_pos hok]

/-- What a step may do to the items: a push, a pop, or nothing. -/
inductive Changed (s : QueueClients policy α) (s' : QueueClients policy α) : Prop
  | kept (hitems : s'.queue.items = s.queue.items) (haccepted : s'.accepted = s.accepted)
      (hdeparted : s'.departed = s.departed)
  | pushed (value : α) (hopen : s.queue.closed = false) (hroom : s.queue.items.length < s.queue.capacity)
      (hitems : s'.queue.items = s.queue.items ++ [value]) (haccepted : s'.accepted = s.accepted ++ [value])
      (hdeparted : s'.departed = s.departed)
  | replaced (value oldest : α) (hopen : s.queue.closed = false) (hpolicy : policy = .dropOldest)
      (hfull : s.queue.items.length = s.queue.capacity) {rest : List α}
      (hitems : s.queue.items = oldest :: rest) (hitems' : s'.queue.items = rest ++ [value])
      (haccepted : s'.accepted = s.accepted ++ [value])
      (hdeparted : s'.departed = s.departed ++ [.dropped oldest])
  | popped (value : α) {rest : List α} (hitems : s.queue.items = value :: rest)
      (hitems' : s'.queue.items = rest) (haccepted : s'.accepted = s.accepted)
      (hdeparted : s'.departed = s.departed ++ [.popped value])

/-- A pop. -/
theorem Changed.popLocked (s : QueueClients policy α) : Changed s s.popLocked := by
  obtain ⟨-, -, ⟨hempty, hitems, hdeparted⟩ | ⟨value, rest, hitems, hitems', hdeparted⟩⟩ :=
    s.popLocked_spec
  · exact .kept (hitems.trans hempty.symm) rfl hdeparted
  · exact .popped value hitems hitems' rfl hdeparted

/-- A push. -/
theorem Changed.push (s : QueueClients policy α) (value : α) : Changed s (s.push value) := by
  unfold QueueClients.push
  obtain ⟨-, -, ⟨hrefused, -⟩ | ⟨hok, hopen, ⟨hfull, hpolicy, oldest, rest, hitems, hitems'⟩ | ⟨hroom, hitems⟩⟩⟩ :=
    push_spec s.queue value
  · rw [hrefused, if_neg Bool.false_ne_true]
    exact .kept rfl rfl rfl
  · rw [if_pos hok]
    refine .replaced value oldest hopen hpolicy hfull hitems hitems' rfl ?_
    show s.departed ++ _ = _
    rw [if_pos hfull, hitems]
    rfl
  · rw [if_pos hok]
    refine .pushed value hopen hroom hitems rfl ?_
    show s.departed ++ _ = _
    rw [if_neg (Nat.ne_of_lt hroom), List.append_nil]

/-- **Step lemma.** -/
theorem step_changed (hs : step a s = some s') :
    s'.queue.capacity = s.queue.capacity ∧ (s.queue.closed = true → s'.queue.closed = true) ∧
      Changed s s' := by
  have hpop : ∀ waits : List Wait, { s with waits }.popLocked.queue.capacity = s.queue.capacity ∧
      (s.queue.closed = true → { s with waits }.popLocked.queue.closed = true) ∧
      Changed s { s with waits }.popLocked := by
    intro waits
    obtain ⟨hcapacity, hclosed, -⟩ := { s with waits }.popLocked_spec
    have hchanged := Changed.popLocked { s with waits }
    refine ⟨hcapacity, fun h => hclosed.trans h, ?_⟩
    cases hchanged with
    | kept hitems haccepted hdeparted => exact .kept hitems haccepted hdeparted
    | pushed value hopen hroom hitems haccepted hdeparted =>
      exact .pushed value hopen hroom hitems haccepted hdeparted
    | replaced value oldest hopen hpolicy hfull hitems hitems' haccepted hdeparted =>
      exact .replaced value oldest hopen hpolicy hfull hitems hitems' haccepted hdeparted
    | popped value hitems hitems' haccepted hdeparted =>
      exact .popped value hitems hitems' haccepted hdeparted
  cases a with
  | push value =>
    obtain rfl := Option.some.inj hs
    obtain ⟨hcapacity, hclosed, -⟩ := push_spec s.queue value
    refine ⟨?_, fun h => ?_, .push s value⟩
    · rw [push_queue]
      exact hcapacity
    · rw [push_queue]
      exact hclosed.trans h
  | tryPop =>
    obtain rfl := Option.some.inj hs
    exact hpop s.waits
  | waitPop timeout =>
    obtain rfl := Option.some.inj hs
    split_ifs
    · exact hpop s.waits
    · exact ⟨rfl, id, .kept rfl rfl rfl⟩
  | retest waiter =>
    simp only [step] at hs
    split at hs
    · obtain rfl := Option.some.inj hs
      split_ifs
      · exact hpop _
      · exact ⟨rfl, id, .kept rfl rfl rfl⟩
    · exact absurd hs (by simp)
  | close =>
    obtain rfl := Option.some.inj hs
    exact ⟨rfl, fun _ => rfl, .kept rfl rfl rfl⟩
  | notifyOne waiter =>
    cases waiter
    all_goals simp only [step] at hs
    all_goals repeat' split at hs
    all_goals simp only [Option.some.injEq, reduceCtorEq] at hs
    all_goals subst hs
    all_goals exact ⟨rfl, id, .kept rfl rfl rfl⟩
  | wake | notifyAll | advance =>
    simp only [step] at hs
    repeat' split at hs
    all_goals simp only [Option.some.injEq, reduceCtorEq] at hs
    all_goals subst hs
    all_goals exact ⟨rfl, id, .kept rfl rfl rfl⟩

/-! ### The order -/

/-- The items that are accepted leave in that order or are still there; without `DropOldest` none is
    dropped, and with it only one that is overtaken by a whole queue of newer ones. -/
structure InOrder (s : QueueClients policy α) : Prop where
  accepted : s.accepted = s.departed.map Departure.value ++ s.queue.items
  popped : policy = .rejectNew → ∀ d ∈ s.departed, d = .popped d.value
  overtaken : ∀ i value, s.departed[i]? = some (.dropped value) →
    i + s.queue.capacity < s.accepted.length

/-- An item of a list with one more at its end. -/
theorem of_getElem?_concat {β : Type u} {l : List β} {x y : β} {i : Nat} (hi : (l ++ [x])[i]? = some y) :
    l[i]? = some y ∨ i = l.length ∧ x = y := by
  rw [List.getElem?_append] at hi
  split at hi
  · exact Or.inl hi
  · rename_i hge
    obtain ⟨hlt, hxy⟩ := List.getElem?_eq_some_iff.mp hi
    rw [List.length_singleton] at hlt
    exact Or.inr ⟨by omega, by simpa using hxy⟩

/-- **Step lemma.** -/
theorem InOrder.step (h : InOrder s) (hs : step a s = some s') : InOrder s' := by
  obtain ⟨hcapacity, -, hchanged⟩ := step_changed hs
  cases hchanged with
  | kept hitems haccepted hdeparted =>
    refine ⟨?_, hdeparted ▸ h.popped, ?_⟩
    · rw [haccepted, hdeparted, hitems]
      exact h.accepted
    · rw [haccepted, hdeparted, hcapacity]
      exact h.overtaken
  | pushed value hopen hroom hitems haccepted hdeparted =>
    refine ⟨?_, hdeparted ▸ h.popped, ?_⟩
    · rw [haccepted, hdeparted, hitems, h.accepted, List.append_assoc]
    · intro i dropped hi
      rw [hdeparted] at hi
      rw [hcapacity, haccepted, List.length_append]
      exact Nat.lt_add_right _ (h.overtaken i dropped hi)
  | replaced value oldest hopen hpolicy hfull hitems hitems' haccepted hdeparted =>
    refine ⟨?_, ?_, ?_⟩
    · rw [haccepted, hdeparted, hitems', h.accepted, hitems]
      simp [Departure.value]
    · intro hreject
      rw [hpolicy] at hreject
      exact absurd hreject (by decide)
    · intro i dropped hi
      rw [hdeparted] at hi
      rw [hcapacity, haccepted, List.length_append]
      rcases of_getElem?_concat hi with hold | ⟨rfl, -⟩
      · exact Nat.lt_add_right _ (h.overtaken i dropped hold)
      · -- the item dropped now: behind it are those of a full queue, and the new one
        have hlength := congrArg List.length h.accepted
        rw [List.length_append, List.length_map, hfull] at hlength
        rw [List.length_singleton]
        omega
  | popped value hitems hitems' haccepted hdeparted =>
    refine ⟨?_, ?_, ?_⟩
    · rw [haccepted, hdeparted, hitems', h.accepted, hitems]
      simp [Departure.value]
    · intro hreject d hd
      rw [hdeparted] at hd
      rcases List.mem_append.mp hd with hold | hnew
      · exact h.popped hreject d hold
      · rw [List.mem_singleton.mp hnew]
        rfl
    · intro i dropped hi
      rw [hdeparted] at hi
      rw [hcapacity, haccepted]
      rcases of_getElem?_concat hi with hold | ⟨-, hnew⟩
      · exact h.overtaken i dropped hold
      · exact nomatch hnew

/-- **Run lemma.** -/
theorem Run.inOrder (h : Run s) : InOrder s :=
  h.invariant (fun _ _ => ⟨rfl, fun _ _ hd => absurd hd List.not_mem_nil, fun _ _ hi => by simp [initial] at hi⟩)
    (fun _ _ _ hI hs => hI.step hs)

/-- A closed queue stays closed and accepts nothing more. -/
theorem step_closed (hclosed : s.queue.closed = true) (hs : step a s = some s') :
    s'.queue.closed = true ∧ s'.accepted = s.accepted := by
  obtain ⟨-, hkeep, hchanged⟩ := step_changed hs
  refine ⟨hkeep hclosed, ?_⟩
  cases hchanged with
  | kept _ haccepted | popped _ _ _ haccepted => exact haccepted
  | pushed _ hopen | replaced _ _ hopen => exact absurd (hopen.symm.trans hclosed) Bool.false_ne_true

/-- **The queue keeps its order.**  What it accepted left in the order it was accepted, or is still there in
    that order; a queue that rejects new items loses none, and one that drops the oldest drops an item only
    when as many newer ones as it holds were accepted; and a closed queue accepts nothing more. -/
theorem queue_keeps_order (h : Run s) :
    s.accepted = s.departed.map Departure.value ++ s.queue.items ∧
      (policy = .rejectNew → ∀ d ∈ s.departed, d = .popped d.value) ∧
      (∀ i value, s.departed[i]? = some (.dropped value) → i + s.queue.capacity < s.accepted.length) ∧
      (s.queue.closed = true → ∀ as s', Path step s as s' → s'.accepted = s.accepted) := by
  have hinv := h.inOrder
  refine ⟨hinv.accepted, hinv.popped, hinv.overtaken, ?_⟩
  intro hclosed as s' hpath
  exact (hpath.keeps (Q := fun t => t.queue.closed = true ∧ t.accepted = s.accepted)
    (fun t a t' hQ hs => ⟨(step_closed hQ.1 hs).1, (step_closed hQ.1 hs).2.trans hQ.2⟩) ⟨hclosed, rfl⟩).2

/-- A full queue of one: the second item costs the first, and after `close()` a third is not accepted. -/
theorem queue_keeps_order_overtaken : ∃ s : QueueClients .dropOldest Nat, Run s ∧
    s.departed.map Departure.value = [1, 2] ∧ s.accepted = [1, 2] ++ s.queue.items ∧
    ∀ as s', Path step s as s' → s'.accepted = s.accepted := by
  have hex : (execGuarded step (fun _ _ => True) [.push 1, .push 2, .tryPop, .close, .push 3]
      (initial .dropOldest Nat 1 (by decide))).any
      (fun s => s.queue.closed ∧ s.departed.map Departure.value = [1, 2]) := by decide
  obtain ⟨s, hrun, hs⟩ := exists_reaches_of_execGuarded _ _ hex
  obtain ⟨hclosed, hdeparted⟩ := of_decide_eq_true hs
  have hrun' : Run s := ⟨1, by decide, hrun⟩
  obtain ⟨haccepted, -, -, hstays⟩ := queue_keeps_order hrun'
  exact ⟨s, hrun', hdeparted, hdeparted ▸ haccepted, hstays hclosed⟩

/-! ### The notifications -/

/-- The calls that sleep on `cv_`. -/
def sleeping (s : QueueClients policy α) : Nat := s.waits.countP Wait.asleep

/-- The calls that are awake and are to test again. -/
def awake (s : QueueClients policy α) : Nat := s.waits.countP (fun w => !w.asleep)

/-- While a call sleeps, each item in the queue has an awake call or a notification to come, and the closing
    of the queue one that is for all. -/
structure Attended (s : QueueClients policy α) : Prop where
  items : 0 < s.sleeping → s.queue.items.length ≤ s.awake + s.notifying
  closed : s.queue.closed = true → 0 < s.sleeping → 0 < s.closing

/-- A count over a list, by one of its places. -/
theorem countP_at {l : List Wait} {i : Nat} {w : Wait} (p : Wait → Bool) (hi : l[i]? = some w) :
    l.countP p = (l.eraseIdx i).countP p + (p w).toNat := by
  obtain ⟨hlt, rfl⟩ := List.getElem?_eq_some_iff.mp hi
  rw [← (List.getElem_cons_eraseIdx_perm hlt).countP_eq p, List.countP_cons]
  cases p l[i] <;> rfl

/-- The count when that place changes. -/
theorem countP_set_at {l : List Wait} {i : Nat} {w : Wait} (p : Wait → Bool) (hi : l[i]? = some w) (w' : Wait) :
    (l.set i w').countP p = (l.eraseIdx i).countP p + (p w').toNat := by
  obtain ⟨hlt, -⟩ := List.getElem?_eq_some_iff.mp hi
  rw [(List.set_perm_cons_eraseIdx hlt w').countP_eq p, List.countP_cons]
  cases p w' <;> rfl

/-- A pop keeps it, when the call that pops was awake or never slept. -/
theorem Attended.popLocked {waits : List Wait} (h : Attended s)
    (hsleeping : waits.countP Wait.asleep = s.sleeping)
    (hawake : s.awake ≤ waits.countP (fun w => !w.asleep) + 1) :
    Attended { s with waits }.popLocked := by
  obtain ⟨-, hclosed, hpop⟩ := { s with waits }.popLocked_spec
  refine ⟨?_, ?_⟩
  · show 0 < waits.countP Wait.asleep → _ ≤ waits.countP (fun w => !w.asleep) + s.notifying
    intro hpos
    rw [hsleeping] at hpos
    rcases hpop with ⟨-, hitems, -⟩ | ⟨value, rest, hitems, hitems', -⟩
    · rw [hitems]
      exact Nat.zero_le _
    · have hle := h.items hpos
      have hlength : s.queue.items.length = rest.length + 1 := by
        show { s with waits }.queue.items.length = _
        rw [hitems, List.length_cons]
      rw [hitems']
      omega
  · show _ → 0 < waits.countP Wait.asleep → 0 < s.closing
    intro hclosed' hpos
    exact h.closed (hclosed.symm.trans hclosed') (hsleeping ▸ hpos)

/-- A call that wakes keeps it, and may spend a notification when it slept. -/
theorem Attended.wake {waiter n : Nat} {w : Wait} (h : Attended s) (hw : s.waits[waiter]? = some w)
    (hn : s.notifying ≤ n + w.asleep.toNat) :
    Attended { s with waits := s.waits.set waiter { w with asleep := false }, notifying := n } := by
  have hsleeping : s.sleeping = (s.waits.eraseIdx waiter).countP Wait.asleep + w.asleep.toNat :=
    countP_at Wait.asleep hw
  have hawake : s.awake = (s.waits.eraseIdx waiter).countP (fun w => !w.asleep) + (!w.asleep).toNat :=
    countP_at (fun w => !w.asleep) hw
  have hsleeping' : (s.waits.set waiter { w with asleep := false }).countP Wait.asleep =
      (s.waits.eraseIdx waiter).countP Wait.asleep + 0 := countP_set_at Wait.asleep hw _
  have hawake' : (s.waits.set waiter { w with asleep := false }).countP (fun w => !w.asleep) =
      (s.waits.eraseIdx waiter).countP (fun w => !w.asleep) + 1 := countP_set_at (fun w => !w.asleep) hw _
  have hone : w.asleep.toNat + (!w.asleep).toNat = 1 := by cases w.asleep <;> rfl
  refine ⟨?_, ?_⟩
  · show 0 < List.countP Wait.asleep _ → _ ≤ List.countP (fun w : Wait => !w.asleep) _ + n
    rw [hsleeping', hawake']
    intro hpos
    have hle := h.items (by omega)
    show s.queue.items.length ≤ _
    omega
  · show s.queue.closed = true → 0 < List.countP Wait.asleep _ → 0 < s.closing
    rw [hsleeping']
    intro hclosed hpos
    exact h.closed hclosed (by omega)

/-- **Step lemma.** -/
theorem Attended.step (h : Attended s) (hs : QueueClients.step a s = some s') : Attended s' := by
  cases a with
  | push value =>
    obtain rfl := Option.some.inj hs
    unfold push
    obtain ⟨-, hclosed, hpush⟩ := push_spec s.queue value
    rcases hpush with ⟨hrefused, -⟩ | ⟨hok, -, hitems⟩
    · rw [hrefused, if_neg Bool.false_ne_true]
      exact h
    · rw [if_pos hok]
      refine ⟨?_, fun hclosed' => h.closed (hclosed.symm.trans hclosed')⟩
      show 0 < s.sleeping → (s.queue.push value).2.items.length ≤ s.awake + (s.notifying + 1)
      intro hpos
      have hle := h.items hpos
      rcases hitems with ⟨-, -, oldest, rest, hitems, hitems'⟩ | ⟨-, hitems⟩
      · rw [hitems, List.length_cons] at hle
        rw [hitems', List.length_append, List.length_singleton]
        omega
      · rw [hitems, List.length_append, List.length_singleton]
        omega
  | notifyOne waiter =>
    cases waiter with
    | none =>
      simp only [QueueClients.step] at hs
      split at hs
      · rename_i hnone
        obtain rfl := Option.some.inj hs
        have hzero : s.sleeping = 0 := hnone.2
        exact ⟨fun hpos => absurd (hzero ▸ hpos) (Nat.lt_irrefl 0),
          fun _ hpos => absurd (hzero ▸ hpos) (Nat.lt_irrefl 0)⟩
      · exact absurd hs (by simp)
    | some waiter =>
      simp only [QueueClients.step] at hs
      split at hs
      · rename_i w hw
        split at hs
        · rename_i hone
          obtain rfl := Option.some.inj hs
          -- the notification becomes an awake call
          refine h.wake hw ?_
          rw [hone.2]
          exact Nat.le_of_eq (Nat.sub_add_cancel hone.1).symm
        · exact absurd hs (by simp)
      · exact absurd hs (by simp)
  | tryPop =>
    obtain rfl := Option.some.inj hs
    exact h.popLocked rfl (Nat.le_succ _)
  | waitPop timeout =>
    obtain rfl := Option.some.inj hs
    split_ifs with hready
    · exact h.popLocked rfl (Nat.le_succ _)
    · -- a call falls asleep beside an open and empty queue only
      obtain ⟨hopen, hempty⟩ : s.queue.closed = false ∧ s.queue.items = [] := by
        simpa [ready] using hready
      refine ⟨fun _ => ?_, fun hclosed => absurd (hopen.symm.trans hclosed) Bool.false_ne_true⟩
      show s.queue.items.length ≤ _
      rw [hempty]
      exact Nat.zero_le _
  | wake waiter =>
    simp only [QueueClients.step] at hs
    split at hs
    · rename_i w hw
      obtain rfl := Option.some.inj hs
      exact h.wake hw (Nat.le_add_right _ _)
    · exact absurd hs (by simp)
  | retest waiter =>
    simp only [QueueClients.step] at hs
    split at hs
    · rename_i deadline hw
      obtain rfl := Option.some.inj hs
      have hsleeping : s.sleeping = (s.waits.eraseIdx waiter).countP Wait.asleep := countP_at Wait.asleep hw
      have hawake : s.awake = (s.waits.eraseIdx waiter).countP (fun w => !w.asleep) + 1 :=
        countP_at (fun w => !w.asleep) hw
      split_ifs with hready
      · exact h.popLocked hsleeping.symm (Nat.le_of_eq hawake)
      · obtain ⟨hopen, hempty⟩ : s.queue.closed = false ∧ s.queue.items = [] := by
          simpa [ready] using (not_or.mp hready).1
        refine ⟨fun _ => ?_, fun hclosed => absurd (hopen.symm.trans hclosed) Bool.false_ne_true⟩
        show s.queue.items.length ≤ _
        rw [hempty]
        exact Nat.zero_le _
    · exact absurd hs (by simp)
  | close =>
    obtain rfl := Option.some.inj hs
    exact ⟨h.items, fun _ _ => Nat.succ_pos _⟩
  | notifyAll =>
    simp only [QueueClients.step] at hs
    split at hs
    · obtain rfl := Option.some.inj hs
      have hzero : (s.waits.map (fun w => { w with asleep := false })).countP Wait.asleep = 0 := by
        rw [List.countP_eq_zero]
        simp
      exact ⟨fun hpos => absurd (hzero ▸ hpos) (Nat.lt_irrefl 0),
        fun _ hpos => absurd (hzero ▸ hpos) (Nat.lt_irrefl 0)⟩
    · exact absurd hs (by simp)
  | advance d =>
    obtain rfl := Option.some.inj hs
    exact ⟨h.items, h.closed⟩

/-- **Run lemma.** -/
theorem Run.attended (h : Run s) : Attended s :=
  h.invariant (fun _ _ => ⟨fun hpos => absurd hpos (Nat.lt_irrefl 0), fun _ hpos => absurd hpos (Nat.lt_irrefl 0)⟩)
    (fun _ _ _ hI hs => hI.step hs)

/-- **No wakeup is lost.**  In every run, and although `push()` and `close()` notify only after they left the
    mutex: while a call of `wait_pop_for()` sleeps, there are no more items in the queue than calls that are
    awake and notifications to come; and a closed queue is about to notify all. -/
theorem no_wakeup_is_lost (h : Run s) {w : Wait} (hw : w ∈ s.waits) (hasleep : w.asleep = true) :
    s.queue.items.length ≤ s.waits.countP (fun w => !w.asleep) + s.notifying ∧
      (s.queue.closed = true → 0 < s.closing) := by
  have hpos : 0 < s.sleeping := List.countP_pos_iff.mpr ⟨w, hw, hasleep⟩
  exact ⟨h.attended.items hpos, fun hclosed => h.attended.closed hclosed hpos⟩

/-- Two calls wait, and a push is about to notify one of them. -/
theorem no_wakeup_is_lost_pushed : ∃ s : QueueClients .rejectNew Nat, Run s ∧ s.queue.items = [7] ∧
    (⟨10, true⟩ : Wait) ∈ s.waits ∧
    s.queue.items.length ≤ s.waits.countP (fun w => !w.asleep) + s.notifying := by
  have hex : (execGuarded step (fun _ _ => True) [.waitPop 10, .waitPop 20, .push 7]
      (initial .rejectNew Nat 2 (by decide))).any
      (fun s => s.queue.items = [7] ∧ (⟨10, true⟩ : Wait) ∈ s.waits) := by decide
  obtain ⟨s, hrun, hs⟩ := exists_reaches_of_execGuarded _ _ hex
  obtain ⟨hitems, hw⟩ := of_decide_eq_true hs
  have hrun' : Run s := ⟨2, by decide, hrun⟩
  exact ⟨s, hrun', hitems, hw, (no_wakeup_is_lost hrun' hw rfl).1⟩

end QueueClients

end HypertronBridge
