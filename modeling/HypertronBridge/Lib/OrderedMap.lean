import Mathlib.Data.List.Pairwise
import Mathlib.Data.List.TakeWhile
import Mathlib.Order.Lattice

/-!
# Ordered maps

A finite map as the list of its entries, in strictly increasing order of the keys, which the type
carries along.

* `find?`, `lowerBound`, `predecessor` — the entry at a key, the first one from it on, and the last
  one before it;
* `emplace` — a new entry, unless the key has one; `perm_emplace` — what it holds then.
-/

universe u v

/-- A finite map, its entries in increasing order of the keys. -/
structure OrderedMap (κ : Type u) (α : Type v) [LinearOrder κ] where
  entries : List (κ × α)
  sorted : entries.Pairwise (fun x y => x.1 < y.1)

namespace OrderedMap

variable {κ : Type u} {α : Type v} [LinearOrder κ] {m : OrderedMap κ α} {k : κ} {v : α} {e e' : κ × α}

/-- The empty map. -/
def empty : OrderedMap κ α := ⟨[], List.Pairwise.nil⟩

/-- The number of entries. -/
def size (m : OrderedMap κ α) : Nat := m.entries.length

/-- The value at a key. -/
def find? (m : OrderedMap κ α) (k : κ) : Option α :=
  (m.entries.find? (fun e => decide (e.1 = k))).map (fun e => e.2)

/-- The first entry whose key is not less than `k`. -/
def lowerBound (m : OrderedMap κ α) (k : κ) : Option (κ × α) :=
  m.entries.find? (fun e => decide (k ≤ e.1))

/-- The entry before the lower bound of `k`. -/
def predecessor (m : OrderedMap κ α) (k : κ) : Option (κ × α) :=
  (m.entries.takeWhile (fun e => decide (e.1 < k))).getLast?

/-! ### Lookup -/

/-- The order is total on what is stored. -/
theorem eq_of_key_eq (he : e ∈ m.entries) (he' : e' ∈ m.entries) (h : e.1 = e'.1) : e = e' := by
  obtain ⟨l, hsorted⟩ := m
  induction l with
  | nil => exact absurd he (by simp)
  | cons x l ih =>
    obtain ⟨hx, hl⟩ := List.pairwise_cons.mp hsorted
    rcases List.mem_cons.mp he with rfl | hmem
    · rcases List.mem_cons.mp he' with heq | hmem'
      · exact heq.symm
      · exact absurd h (hx e' hmem').ne
    · rcases List.mem_cons.mp he' with rfl | hmem'
      · exact absurd h (hx e hmem).ne'
      · exact ih hl hmem hmem'

theorem find?_eq_none : m.find? k = none ↔ ∀ e ∈ m.entries, e.1 ≠ k := by
  simp [find?]

theorem find?_eq_some : m.find? k = some v ↔ (k, v) ∈ m.entries := by
  unfold find?
  rw [Option.map_eq_some_iff]
  constructor
  · rintro ⟨e, he, rfl⟩
    have hkey : e.1 = k := by simpa using List.find?_some he
    rw [← hkey]
    exact List.mem_of_find?_eq_some he
  · intro hmem
    cases hfind : m.entries.find? (fun e => decide (e.1 = k)) with
    | none =>
      have hnot := List.find?_eq_none.mp hfind _ hmem
      simp at hnot
    | some e =>
      have hkey : e.1 = k := by simpa using List.find?_some hfind
      refine ⟨e, rfl, ?_⟩
      rw [eq_of_key_eq (List.mem_of_find?_eq_some hfind) hmem hkey]

/-! ### Neighbours -/

theorem lowerBound_eq_none : m.lowerBound k = none ↔ ∀ e ∈ m.entries, e.1 < k := by
  simp [lowerBound]

/-- The lower bound is the least entry from `k` on. -/
theorem lowerBound_spec (h : m.lowerBound k = some e) :
    e ∈ m.entries ∧ k ≤ e.1 ∧ ∀ e' ∈ m.entries, k ≤ e'.1 → e.1 ≤ e'.1 := by
  have hle : k ≤ e.1 := by simpa using List.find?_some h
  refine ⟨List.mem_of_find?_eq_some h, hle, fun e' he' hk => ?_⟩
  obtain ⟨-, before, after, hsplit, hbefore⟩ := List.find?_eq_some_iff_append.mp h
  have hsorted := m.sorted
  rw [hsplit] at hsorted he'
  rcases List.mem_append.mp he' with hmem | hmem
  · have hnot := hbefore e' hmem
    simp only [Bool.not_eq_eq_eq_not, Bool.not_true, decide_eq_false_iff_not, not_le] at hnot
    exact absurd hk hnot.not_ge
  · rcases List.mem_cons.mp hmem with rfl | hmem
    · exact le_refl _
    · exact (List.rel_of_pairwise_cons (List.pairwise_append.mp hsorted).2.1 hmem).le

/-- The entries before the lower bound. -/
theorem mem_takeWhile : e ∈ m.entries.takeWhile (fun e => decide (e.1 < k)) ↔
    e ∈ m.entries ∧ e.1 < k := by
  constructor
  · intro h
    exact ⟨(List.takeWhile_sublist _).mem h, by simpa using List.mem_takeWhile_imp h⟩
  · rintro ⟨hmem, hlt⟩
    obtain ⟨l, hsorted⟩ := m
    induction l with
    | nil => exact hmem
    | cons x l ih =>
      obtain ⟨hx, hl⟩ := List.pairwise_cons.mp hsorted
      rcases List.mem_cons.mp hmem with rfl | hmem
      · simp [hlt]
      · have hxk : x.1 < k := (hx _ hmem).trans hlt
        rw [List.takeWhile_cons_of_pos (by simpa using hxk)]
        exact List.mem_cons_of_mem _ (ih hl hmem)

theorem mem_dropWhile (h : e ∈ m.entries.dropWhile (fun e => decide (e.1 < k))) : k ≤ e.1 := by
  by_contra hlt
  rw [not_le] at hlt
  have htake := mem_takeWhile.mpr ⟨(List.dropWhile_sublist _).mem h, hlt⟩
  have hsorted := m.sorted
  rw [← List.takeWhile_append_dropWhile (p := fun e => decide (e.1 < k)) (l := m.entries)] at hsorted
  exact absurd ((List.pairwise_append.mp hsorted).2.2 e htake e h) (lt_irrefl _)

/-- The predecessor is the greatest entry before `k`. -/
theorem predecessor_spec (h : m.predecessor k = some e) :
    e ∈ m.entries ∧ e.1 < k ∧ ∀ e' ∈ m.entries, e'.1 < k → e'.1 ≤ e.1 := by
  obtain ⟨before, hsplit⟩ := List.getLast?_eq_some_iff.mp h
  have hmem : e ∈ m.entries.takeWhile (fun e => decide (e.1 < k)) := by
    rw [hsplit]
    simp
  obtain ⟨hstored, hlt⟩ := mem_takeWhile.mp hmem
  refine ⟨hstored, hlt, fun e' he' hk => ?_⟩
  have hin := mem_takeWhile.mpr ⟨he', hk⟩
  have hsorted := m.sorted.sublist (List.takeWhile_sublist (fun e => decide (e.1 < k)))
  rw [hsplit] at hin hsorted
  rcases List.mem_append.mp hin with hin | hin
  · exact ((List.pairwise_append.mp hsorted).2.2 e' hin e (by simp)).le
  · rw [List.mem_singleton.mp hin]

theorem predecessor_eq_none : m.predecessor k = none ↔ ∀ e ∈ m.entries, k ≤ e.1 := by
  unfold predecessor
  rw [List.getLast?_eq_none_iff, List.eq_nil_iff_forall_not_mem]
  constructor
  · intro h e he
    by_contra hlt
    exact h e (mem_takeWhile.mpr ⟨he, not_le.mp hlt⟩)
  · intro h e he
    obtain ⟨hmem, hlt⟩ := mem_takeWhile.mp he
    exact absurd hlt (h e hmem).not_gt

/-! ### Insertion -/

/-- Insert an entry, unless there is one at its key. -/
def emplace (m : OrderedMap κ α) (k : κ) (v : α) : OrderedMap κ α :=
  if h : m.find? k = none then
    { entries := m.entries.takeWhile (fun e => decide (e.1 < k)) ++
        (k, v) :: m.entries.dropWhile (fun e => decide (e.1 < k))
      sorted := by
        rw [find?_eq_none] at h
        have hlt : ∀ e ∈ m.entries.dropWhile (fun e => decide (e.1 < k)), k < e.1 := fun e he =>
          lt_of_le_of_ne (mem_dropWhile he) (h e ((List.dropWhile_sublist _).mem he)).symm
        refine List.pairwise_append.mpr ⟨m.sorted.sublist (List.takeWhile_sublist _), ?_, ?_⟩
        · exact List.pairwise_cons.mpr ⟨hlt, m.sorted.sublist (List.dropWhile_sublist _)⟩
        · intro e he e' he'
          have hek := (mem_takeWhile.mp he).2
          rcases List.mem_cons.mp he' with rfl | he'
          · exact hek
          · exact hek.trans (hlt e' he') }
  else m

/-- What the map holds after an insertion. -/
theorem perm_emplace (h : m.find? k = none) : (m.emplace k v).entries.Perm ((k, v) :: m.entries) := by
  unfold emplace
  rw [dif_pos h]
  refine List.perm_middle.trans (List.Perm.cons _ ?_)
  rw [List.takeWhile_append_dropWhile]

end OrderedMap
