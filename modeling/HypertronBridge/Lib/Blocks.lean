import HypertronBridge.Lib.OrderedMap
import Mathlib.Algebra.Group.Action.Defs
import Mathlib.Algebra.GroupWithZero.Nat
import Mathlib.Algebra.Order.BigOperators.Group.List
import Mathlib.Algebra.Order.Group.Nat
import Mathlib.Data.List.Sort
import Mathlib.Data.Set.BooleanAlgebra
import Mathlib.Data.Set.Disjoint
import Mathlib.Order.CompletePartialOrder
import Mathlib.Order.Interval.Set.Defs
import Mathlib.Tactic.Common

namespace Blocks

/-!
# Blocks at offsets

A sequence cut into blocks, each kept under the offset of its first element.

* `range`, `Apart` — the positions of a block, and two blocks without a common one;
* `apart_of_neighbours`, `neighbours_of_disjoint` — in an ordered map of blocks that are apart, a new
  block is apart from all if it is from its two neighbours, and only then;
* `scan` — an ordered scan without gaps; `scan_length`, `scan_getElem?` — it reads the sequence back;
* `scan_pairwise`, `size_perm`, `eq_of_perm` — a sequence without gaps, and its blocks in any order;
* `size_le_of_within`, `size_eq_iff_scan` — blocks that are apart leave no gap if and only if they have
  all elements.
-/

universe u

variable {α : Type u}

/-- An offset, and the elements from there on. -/
abbrev Block (α : Type u) := Nat × List α

/-- The position after the last one. -/
def stop (b : Block α) : Nat := b.1 + b.2.length

/-- The positions of a block. -/
def range (b : Block α) : Set Nat := Set.Ico b.1 (stop b)

/-- One block ends before the other begins. -/
def Apart (x y : Block α) : Prop := stop x ≤ y.1 ∨ stop y ≤ x.1

theorem Apart.symm {x y : Block α} (h : Apart x y) : Apart y x := Or.symm h

instance : Std.Symm (@Apart α) := ⟨fun _ _ => Apart.symm⟩

/-- Blocks that are apart have no position in common. -/
theorem Apart.disjoint {x y : Block α} (h : Apart x y) : Disjoint (range x) (range y) := by
  refine Set.disjoint_left.mpr (fun i hx hy => ?_)
  obtain ⟨hxlo, hxhi⟩ := hx
  obtain ⟨hylo, hyhi⟩ := hy
  rcases h with h | h
  · omega
  · omega

/-! ### Neighbours -/

/-- **The neighbour test.** -/
theorem apart_of_neighbours {m : OrderedMap Nat (List α)} (hm : m.entries.Pairwise Apart) {k : Nat}
    {v : List α} (hk : m.find? k = none)
    (hnext : ∀ e ∈ m.lowerBound k, stop (k, v) ≤ e.1) (hprev : ∀ e ∈ m.predecessor k, stop e ≤ k) :
    ∀ e ∈ m.entries, Apart (k, v) e := by
  intro e he
  rcases Nat.lt_trichotomy e.1 k with hlt | heq | hgt
  · -- Before the offset: the predecessor is the last such block.
    cases hp : m.predecessor k with
    | none => exact absurd hlt (Nat.not_lt.mpr (OrderedMap.predecessor_eq_none.mp hp e he))
    | some p =>
      obtain ⟨hpmem, hpk, hgreatest⟩ := OrderedMap.predecessor_spec hp
      have hstop : stop p ≤ k := hprev p hp
      by_cases hep : e = p
      · rw [hep]
        exact Or.inr hstop
      · have hle := hgreatest e he hlt
        rcases hm.forall he hpmem hep with h | h
        · exact Or.inr (show stop e ≤ k by omega)
        · have hne : e.1 ≠ p.1 := fun h => hep (OrderedMap.eq_of_key_eq he hpmem h)
          have hge : p.1 ≤ stop p := Nat.le_add_right _ _
          omega
  · exact absurd heq (OrderedMap.find?_eq_none.mp hk e he)
  · -- After it: the lower bound is the first such block.
    cases hn : m.lowerBound k with
    | none => exact absurd hgt (Nat.not_lt.mpr (OrderedMap.lowerBound_eq_none.mp hn e he).le)
    | some n =>
      obtain ⟨-, -, hleast⟩ := OrderedMap.lowerBound_spec hn
      have hstop : stop (k, v) ≤ n.1 := hnext n hn
      exact Or.inl (hstop.trans (hleast e he hgt.le))

/-- The neighbour test refuses no new block that is disjoint from all, where no block is empty. -/
theorem neighbours_of_disjoint {m : OrderedMap Nat (List α)} (hm : ∀ e ∈ m.entries, 1 ≤ e.2.length)
    {k : Nat} {v : List α} (hv : 1 ≤ v.length)
    (hdisjoint : ∀ e ∈ m.entries, Disjoint (range (k, v)) (range e)) :
    (∀ e ∈ m.lowerBound k, stop (k, v) ≤ e.1) ∧ (∀ e ∈ m.predecessor k, stop e ≤ k) := by
  constructor
  · -- otherwise the next block's first position is in the new block
    intro n hn
    obtain ⟨hmem, hle, -⟩ := OrderedMap.lowerBound_spec hn
    have hpos := hm n hmem
    by_contra hover
    have hnew : n.1 ∈ range (k, v) := ⟨hle, Nat.lt_of_not_le hover⟩
    have hold : n.1 ∈ range n := ⟨le_refl _, show n.1 < n.1 + n.2.length by omega⟩
    exact Set.disjoint_left.mp (hdisjoint n hmem) hnew hold
  · -- otherwise the new block's first position is in the previous block
    intro p hp
    obtain ⟨hmem, hlt, -⟩ := OrderedMap.predecessor_spec hp
    by_contra hover
    have hnew : k ∈ range (k, v) := ⟨le_refl _, show k < k + v.length by omega⟩
    have hold : k ∈ range p := ⟨hlt.le, Nat.lt_of_not_le hover⟩
    exact Set.disjoint_left.mp (hdisjoint p hmem) hnew hold

/-! ### Ordered scans -/

/-- Read blocks in order from an expected offset on; the position after the last one, unless there is
    a gap. -/
def scan : Nat → List (Block α) → Option Nat
  | expected, [] => some expected
  | expected, b :: bs => if b.1 = expected then scan (expected + b.2.length) bs else none

/-- The elements of all blocks, in order. -/
def concat (bs : List (Block α)) : List α := bs.flatMap (fun b => b.2)

/-- The scan counts the elements. -/
theorem scan_length {bs : List (Block α)} {n e : Nat} (h : scan n bs = some e) :
    e = n + (concat bs).length := by
  induction bs generalizing n with
  | nil =>
    rw [scan, Option.some.injEq] at h
    simp [concat, h]
  | cons b bs ih =>
    rw [scan] at h
    split_ifs at h
    have hrest := ih h
    simp only [concat, List.flatMap_cons, List.length_append] at hrest ⊢
    omega

/-- **Reading back.** The element at a position is in a block at that position. -/
theorem scan_getElem? {bs : List (Block α)} {n e i : Nat} {x : α} (h : scan n bs = some e)
    (hx : (concat bs)[i]? = some x) : ∃ b ∈ bs, b.1 ≤ n + i ∧ b.2[n + i - b.1]? = some x := by
  induction bs generalizing n i with
  | nil => exact absurd hx (by simp [concat])
  | cons b bs ih =>
    rw [scan] at h
    split_ifs at h with hstart
    simp only [concat, List.flatMap_cons] at hx
    by_cases hi : i < b.2.length
    · rw [List.getElem?_append_left hi] at hx
      refine ⟨b, List.mem_cons_self, by omega, ?_⟩
      rw [hstart, Nat.add_sub_cancel_left]
      exact hx
    · rw [List.getElem?_append_right (by omega)] at hx
      obtain ⟨c, hc, hle, hget⟩ := ih h hx
      have hpos : n + b.2.length + (i - b.2.length) = n + i := by omega
      rw [hpos] at hle hget
      exact ⟨c, List.mem_cons_of_mem _ hc, hle, hget⟩

/-! ### Sequences without gaps -/

variable {bs l : List (Block α)} {n e : Nat}

/-- Each block ends before the later ones begin, and before the end. -/
theorem scan_pairwise (h : scan n bs = some e) :
    bs.Pairwise (fun x y => stop x ≤ y.1) ∧ ∀ b ∈ bs, n ≤ b.1 ∧ stop b ≤ e := by
  induction bs generalizing n with
  | nil => exact ⟨.nil, by simp⟩
  | cons b bs ih =>
    have hend := scan_length h
    rw [scan] at h
    split_ifs at h with hstart
    obtain ⟨hpairwise, hwithin⟩ := ih h
    refine ⟨List.pairwise_cons.mpr ⟨fun c hc => ?_, hpairwise⟩, List.forall_mem_cons.mpr ⟨?_, ?_⟩⟩
    · obtain ⟨hle, -⟩ := hwithin c hc
      show b.1 + b.2.length ≤ c.1
      omega
    · simp only [concat, List.flatMap_cons, List.length_append] at hend
      unfold stop
      omega
    · intro c hc
      obtain ⟨hle, hstop⟩ := hwithin c hc
      exact ⟨by omega, hstop⟩

/-- The number of elements. -/
def size (bs : List (Block α)) : Nat := (bs.map (fun b => b.2.length)).sum

theorem size_eq_length_concat (bs : List (Block α)) : size bs = (concat bs).length := by
  rw [concat, List.length_flatMap, size]

@[simp] theorem size_append (bs bs' : List (Block α)) : size (bs ++ bs') = size bs + size bs' := by
  rw [size, List.map_append, List.sum_append, size, size]

@[simp] theorem size_cons (b : Block α) (bs : List (Block α)) : size (b :: bs) = b.2.length + size bs := by
  rw [size, List.map_cons, List.sum_cons, size]

theorem size_perm (h : bs.Perm l) : size bs = size l := (h.map _).sum_nat

/-- Blocks in order are told by what they are. -/
theorem eq_of_perm (h : l.Perm bs) (hl : l.Pairwise (fun x y => x.1 < y.1))
    (hbs : bs.Pairwise (fun x y => x.1 < y.1)) : l = bs :=
  h.eq_of_pairwise (fun _ _ _ _ hxy hyx => absurd hxy hyx.asymm) hl hbs

/-! ### Blocks within a sequence -/

/-- In the order of their offsets, blocks that are apart end before the later ones begin. -/
theorem stop_le_of_sorted (hsorted : bs.Pairwise (fun x y => x.1 < y.1)) (hapart : bs.Pairwise Apart) :
    bs.Pairwise (fun x y => stop x ≤ y.1) := by
  refine hsorted.imp₂ (fun x y hlt happart => ?_) hapart
  rcases happart with h | h
  · exact h
  · have hge : y.1 ≤ stop y := Nat.le_add_right _ _
    omega

/-- Blocks between two positions have no more elements than there are positions. -/
theorem size_le_of_within (hordered : bs.Pairwise (fun x y => stop x ≤ y.1))
    (hwithin : ∀ b ∈ bs, n ≤ b.1 ∧ stop b ≤ e) (hne : n ≤ e) : n + size bs ≤ e := by
  induction bs generalizing n with
  | nil => exact hne
  | cons b bs ih =>
    obtain ⟨hfirst, hrest⟩ := List.pairwise_cons.mp hordered
    obtain ⟨⟨hlo, hhi⟩, htail⟩ := List.forall_mem_cons.mp hwithin
    have hle := ih hrest (fun c hc => ⟨hfirst c hc, (htail c hc).2⟩) hhi
    rw [size_cons]
    unfold stop at hle
    omega

/-- **Counting.** Blocks between two positions, with as many elements as there are positions, leave no
    gap. -/
theorem scan_of_size (hordered : bs.Pairwise (fun x y => stop x ≤ y.1))
    (hwithin : ∀ b ∈ bs, n ≤ b.1 ∧ stop b ≤ e) (hsize : n + size bs = e) : scan n bs = some e := by
  induction bs generalizing n with
  | nil => exact congrArg some hsize
  | cons b bs ih =>
    obtain ⟨hfirst, hrest⟩ := List.pairwise_cons.mp hordered
    obtain ⟨⟨hlo, hhi⟩, htail⟩ := List.forall_mem_cons.mp hwithin
    have hafter : ∀ c ∈ bs, stop b ≤ c.1 ∧ stop c ≤ e := fun c hc => ⟨hfirst c hc, (htail c hc).2⟩
    -- what comes after the first block is no more than what is left there
    have hle : stop b + size bs ≤ e := size_le_of_within hrest hafter hhi
    rw [size_cons] at hsize
    have hstart : b.1 = n := by
      unfold stop at hle
      omega
    rw [scan, if_pos hstart, ← hstart]
    refine ih hrest hafter ?_
    show b.1 + b.2.length + size bs = e
    omega

/-- The elements decide whether there is a gap. -/
theorem size_eq_iff_scan (hordered : bs.Pairwise (fun x y => stop x ≤ y.1))
    (hwithin : ∀ b ∈ bs, stop b ≤ e) : size bs = e ↔ scan 0 bs = some e := by
  constructor
  · intro hsize
    exact scan_of_size hordered (fun b hb => ⟨Nat.zero_le _, hwithin b hb⟩) (by omega)
  · intro hscan
    rw [size_eq_length_concat, scan_length hscan, Nat.zero_add]

end Blocks
