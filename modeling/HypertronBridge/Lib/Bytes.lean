import Mathlib.Algebra.Order.Group.Nat
import Mathlib.Tactic.Common

namespace Bytes

/-!
# Byte strings

Parts of a byte string at fixed positions, and numbers in little-endian form.

* `slice` — the part of a given length from a position on; `slice_add`, `slice_append`,
  `slice_slice` — how parts compose;
* `Fits`, `flatten_eq_iff` — a byte string cut into fields, by the part where each field is;
* `slice_flatMap`, `flatMap_slice` — a sequence of records of one width, written and read;
* `value`, `ofValue` — the number that bytes encode, and the bytes of a number; `value_eq_iff`.
-/

universe u v

/-! ### Parts -/

section slice

variable {α : Type u} {β : Type v} {data xs ys zs : List α} {i j m n w : Nat}

/-- The `n` elements from position `i` on, or fewer at the end. -/
def slice (i n : Nat) (data : List α) : List α := (data.drop i).take n

theorem length_slice (h : i + n ≤ data.length) : (slice i n data).length = n := by
  rw [slice, List.length_take, List.length_drop]
  omega

theorem slice_zero : slice i 0 data = [] := List.take_zero ..

/-- Two parts that meet. -/
theorem slice_add : slice i m data ++ slice (i + m) n data = slice i (m + n) data := by
  unfold slice
  rw [List.take_add, List.drop_drop]

/-- The part in the middle. -/
theorem slice_append (hi : xs.length = i) (hn : ys.length = n) :
    slice i n (xs ++ (ys ++ zs)) = ys := by
  subst hi hn
  rw [slice, List.drop_left, List.take_left]

/-- A part of a part. -/
theorem slice_slice (h : j + m ≤ n) : slice j m (slice i n data) = slice (i + j) m data := by
  unfold slice
  rw [List.drop_take, List.take_take, List.drop_drop, Nat.min_eq_left (by omega)]

/-- The first element, and the rest. -/
theorem slice_succ {x : α} (h : data[i]? = some x) :
    slice i (n + 1) data = x :: slice (i + 1) n data := by
  obtain ⟨hi, rfl⟩ := List.getElem?_eq_some_iff.mp h
  rw [slice, List.drop_eq_getElem_cons hi, List.take_succ_cons]
  rfl

/-- The fields are, one after the other, what is in the data from position `i` to its end. -/
def Fits (data : List α) : Nat → List (List α) → Prop
  | i, [] => i = data.length
  | i, f :: fs => slice i f.length data = f ∧ Fits data (i + f.length) fs

theorem fits_iff {fs : List (List α)} (hi : i ≤ data.length) :
    Fits data i fs ↔ fs.flatten = data.drop i := by
  induction fs generalizing i with
  | nil =>
    show i = data.length ↔ [] = data.drop i
    rw [eq_comm (a := []), List.drop_eq_nil_iff]
    omega
  | cons f fs ih =>
    rw [List.flatten_cons]
    constructor
    · rintro ⟨hf, hfs⟩
      have hle : i + f.length ≤ data.length := by
        have hlen := congrArg List.length hf
        rw [slice, List.length_take, List.length_drop] at hlen
        omega
      rw [(ih hle).mp hfs, ← List.drop_drop]
      nth_rewrite 1 [← hf]
      exact List.take_append_drop ..
    · intro h
      have hle : i + f.length ≤ data.length := by
        have hlen := congrArg List.length h
        rw [List.length_append, List.length_drop] at hlen
        omega
      refine ⟨?_, (ih hle).mpr ?_⟩
      · rw [slice, ← h, List.take_left]
      · rw [← List.drop_drop, ← h, List.drop_left]

/-- **The fields of a byte string.** -/
theorem flatten_eq_iff {fs : List (List α)} : fs.flatten = data ↔ Fits data 0 fs := by
  rw [fits_iff (Nat.zero_le _), List.drop_zero]

/-- A record of a sequence of records of one width. -/
theorem slice_flatMap {enc : β → List α} (henc : ∀ y, (enc y).length = w) {l : List β} {y : β}
    (hy : l[i]? = some y) : slice (i * w) w (l.flatMap enc) = enc y := by
  induction l generalizing i with
  | nil => exact absurd hy (by simp)
  | cons x l ih =>
    rw [List.flatMap_cons]
    cases i with
    | zero =>
      rw [List.getElem?_cons_zero, Option.some.injEq] at hy
      have hfirst : slice 0 w ([] ++ (enc y ++ l.flatMap enc)) = enc y := slice_append rfl (henc y)
      rw [hy, Nat.zero_mul]
      exact hfirst
    | succ i =>
      rw [List.getElem?_cons_succ] at hy
      rw [Nat.succ_mul, Nat.add_comm, ← ih hy]
      unfold slice
      rw [← List.drop_drop, List.drop_left' (henc x)]

/-- A part of a whole number of records is these records. -/
theorem flatMap_slice : (List.range n).flatMap (fun k => slice (i + k * w) w data) =
    slice i (n * w) data := by
  induction n with
  | zero =>
    rw [Nat.zero_mul]
    exact slice_zero.symm
  | succ n ih =>
    rw [List.range_succ, List.flatMap_append, List.flatMap_singleton, ih, Nat.succ_mul]
    exact slice_add

end slice

/-! ### Numbers -/

variable {bs : List UInt8} {n v w : Nat}

/-- The number that bytes encode, the least significant one first. -/
def value : List UInt8 → Nat
  | [] => 0
  | b :: bs => b.toNat + 256 * value bs

/-- The lowest `w` bytes of a number, the least significant one first. -/
def ofValue : Nat → Nat → List UInt8
  | 0, _ => []
  | w + 1, v => UInt8.ofNat v :: ofValue w (v / 256)

@[simp] theorem length_ofValue (w v : Nat) : (ofValue w v).length = w := by
  induction w generalizing v with
  | zero => rfl
  | succ w ih => rw [ofValue, List.length_cons, ih]

/-- The bytes after others count as many times more. -/
theorem value_append (bs bs' : List UInt8) :
    value (bs ++ bs') = value bs + 256 ^ bs.length * value bs' := by
  induction bs with
  | nil =>
    show value bs' = 0 + 1 * value bs'
    omega
  | cons b bs ih =>
    rw [List.cons_append, value, value, ih, List.length_cons, Nat.pow_succ, Nat.mul_comm _ 256,
      Nat.mul_assoc]
    omega

/-- Writing and reading a number. -/
theorem value_ofValue (h : v < 256 ^ w) : value (ofValue w v) = v := by
  induction w generalizing v with
  | zero =>
    rw [Nat.pow_zero] at h
    show 0 = v
    omega
  | succ w ih =>
    rw [Nat.pow_succ] at h
    have hrest : v / 256 < 256 ^ w := Nat.div_lt_of_lt_mul (by rw [Nat.mul_comm]; exact h)
    have hlow : (UInt8.ofNat v).toNat = v % 256 := UInt8.toNat_ofNat'
    rw [ofValue, value, ih hrest, hlow]
    omega

/-- Reading and writing bytes. -/
theorem ofValue_value (bs : List UInt8) : ofValue bs.length (value bs) = bs := by
  induction bs with
  | nil => rfl
  | cons b bs ih =>
    have hb : b.toNat < 256 := b.toNat_lt
    have hrest : (b.toNat + 256 * value bs) / 256 = value bs := by omega
    have hlow : (b.toNat + 256 * value bs) % 2 ^ 8 = b.toNat := by omega
    rw [List.length_cons, ofValue, value, hrest, ih]
    refine congrArg (fun b => b :: bs) (UInt8.toNat_inj.mp ?_)
    rw [UInt8.toNat_ofNat', hlow]

/-- **The bytes of a number are told by it.** -/
theorem value_eq_iff (hbs : bs.length = w) (hv : v < 256 ^ w) : value bs = v ↔ bs = ofValue w v := by
  constructor
  · rintro rfl
    rw [← hbs, ofValue_value]
  · rintro rfl
    exact value_ofValue hv

end Bytes
