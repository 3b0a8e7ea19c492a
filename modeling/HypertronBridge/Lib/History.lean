import Mathlib.Data.List.Basic

namespace History

/-!
# Past-time operators on event histories

A history is the list of the events so far, **newest first**.  `Since keep start h`
says that at some earlier moment the history satisfied `start`, and every event after
that moment satisfies `keep`.  `Historically R h` says that every event, together with the events before
it, satisfies `R`.  Predicates on histories nest: the `start` of one `Since` may speak about
the events before it with another.
-/

universe u

variable {ε : Type u} {keep keep' : ε → Prop} {start start' : List ε → Prop}

/-- Past-time *since*: `start` held of some tail of the history, and every newer event
    satisfies `keep`. -/
def Since (keep : ε → Prop) (start : List ε → Prop) : List ε → Prop
  | [] => start []
  | e :: h => start (e :: h) ∨ keep e ∧ Since keep start h

/-- The split form of `Since`: the newer part and the tail it started from. -/
theorem since_iff_append {h : List ε} :
    Since keep start h ↔ ∃ new old, h = new ++ old ∧ (∀ e ∈ new, keep e) ∧ start old := by
  induction h with
  | nil =>
    simp only [Since]
    constructor
    · intro hs
      exact ⟨[], [], rfl, by simp, hs⟩
    · rintro ⟨new, old, heq, -, hs⟩
      obtain ⟨-, rfl⟩ := List.append_eq_nil_iff.mp heq.symm
      exact hs
  | cons e h ih =>
    simp only [Since]
    constructor
    · rintro (hs | ⟨hk, hsince⟩)
      · exact ⟨[], e :: h, rfl, by simp, hs⟩
      · obtain ⟨new, old, rfl, hnew, hs⟩ := ih.mp hsince
        exact ⟨e :: new, old, rfl, by simpa [hk] using hnew, hs⟩
    · rintro ⟨new, old, heq, hnew, hs⟩
      cases new with
      | nil => exact Or.inl (by simpa [heq] using hs)
      | cons x new =>
        simp only [List.cons_append, List.cons.injEq] at heq
        obtain ⟨rfl, rfl⟩ := heq
        exact Or.inr ⟨hnew e (by simp), ih.mpr ⟨new, old, rfl, fun y hy => hnew y (by simp [hy]), hs⟩⟩

/-- `start` now is `Since` now. -/
theorem Since.now {h : List ε} (hs : start h) : Since keep start h :=
  since_iff_append.mpr ⟨[], h, rfl, by simp, hs⟩

/-- Kept events extend a `Since`. -/
theorem Since.append {h : List ε} (hs : Since keep start h) {new : List ε}
    (hnew : ∀ e ∈ new, keep e) : Since keep start (new ++ h) := by
  obtain ⟨mid, old, rfl, hmid, hold⟩ := since_iff_append.mp hs
  refine since_iff_append.mpr ⟨new ++ mid, old, by simp, ?_, hold⟩
  intro e he
  rcases List.mem_append.mp he with h | h
  · exact hnew e h
  · exact hmid e h

/-- One kept event extends a `Since`. -/
theorem Since.cons {h : List ε} (hs : Since keep start h) {e : ε} (he : keep e) :
    Since keep start (e :: h) := Or.inr ⟨he, hs⟩

/-- `Since` is monotone in both arguments. -/
theorem Since.mono {h : List ε} (hs : Since keep start h) (hk : ∀ e, keep e → keep' e)
    (hst : ∀ h, start h → start' h) : Since keep' start' h := by
  obtain ⟨new, old, rfl, hnew, hold⟩ := since_iff_append.mp hs
  exact since_iff_append.mpr ⟨new, old, rfl, fun e he => hk e (hnew e he), hst _ hold⟩

/-- Past-time *once*: `start` held of some tail of the history. -/
def Once (start : List ε → Prop) (h : List ε) : Prop := Since (fun _ => True) start h

/-- What was once the case stays so. -/
theorem Once.append {h : List ε} (hs : Once start h) (new : List ε) : Once start (new ++ h) :=
  Since.append hs (fun _ _ => trivial)

/-- What held since some moment held once. -/
theorem Since.once {h : List ε} (hs : Since keep start h) : Once start h :=
  hs.mono (fun _ _ => trivial) (fun _ => id)

/-- When no event of `new` can be the start, a `Since` reaches back through all of `new`. -/
theorem since_append_iff {new h : List ε}
    (hnot : ∀ pre e post, new = pre ++ e :: post → ¬ start (e :: (post ++ h))) :
    Since keep start (new ++ h) ↔ (∀ e ∈ new, keep e) ∧ Since keep start h := by
  induction new with
  | nil => simp
  | cons e new ih =>
    have hne : ¬ start (e :: (new ++ h)) := hnot [] e new rfl
    have htail := ih (fun pre x post heq => hnot (e :: pre) x post (by rw [heq]; rfl))
    simp only [List.cons_append, Since, hne, false_or, htail, List.forall_mem_cons, and_assoc]

/-- Every event, with the history before it, satisfies `R`. -/
def Historically (R : ε → List ε → Prop) : List ε → Prop
  | [] => True
  | e :: h => R e h ∧ Historically R h

/-- New events that each satisfy `R` over what is older extend a `Historically`. -/
theorem Historically.append {R : ε → List ε → Prop} {new h : List ε} (hh : Historically R h)
    (hnew : ∀ pre e post, new = pre ++ e :: post → R e (post ++ h)) :
    Historically R (new ++ h) := by
  induction new with
  | nil => exact hh
  | cons e new ih =>
    exact ⟨hnew [] e new rfl, ih (fun pre x post heq => hnew (e :: pre) x post (by rw [heq]; rfl))⟩

/-- The split form of `Historically`. -/
theorem historically_iff {R : ε → List ε → Prop} {h : List ε} :
    Historically R h ↔ ∀ new e old, h = new ++ e :: old → R e old := by
  induction h with
  | nil => simp [Historically]
  | cons x h ih =>
    simp only [Historically, ih]
    constructor
    · rintro ⟨hx, hall⟩ new e old heq
      cases new with
      | nil =>
        simp only [List.nil_append, List.cons.injEq] at heq
        rw [← heq.1, ← heq.2]
        exact hx
      | cons y new =>
        simp only [List.cons_append, List.cons.injEq] at heq
        exact hall new e old heq.2
    · intro hall
      exact ⟨hall [] x h rfl, fun new e old heq => hall (x :: new) e old (by rw [heq]; rfl)⟩

end History
