import Mathlib.Tactic.Common

namespace Words

/-!
# Lines and words

A text as a line-by-line reader sees it, and each line as a reader of words sees it.

* `lines`, `words` — the lines of a text, and the words of a line; `words_ne_empty`;
* `keyed` — the scan of a line in which a key takes the next word for its value;
* `lastValue` — the value that the last occurrence of a key took.
-/

/-- `std::isspace` in the "C" locale. -/
def isSpace (c : Char) : Bool := c == ' ' || (decide (9 ≤ c.toNat) && decide (c.toNat ≤ 13))

/-- The lines of a text: what is before each end of line, and what is after the last one, unless it is
    empty. -/
def lines : List Char → List (List Char)
  | [] => []
  | c :: cs =>
      if c = '\n' then [] :: lines cs
      else
        match lines cs with
        | [] => [[c]]
        | l :: ls => (c :: l) :: ls

/-- The words of a line: what is between the spaces. -/
def words (line : List Char) : List String :=
  ((line.splitOnP isSpace).filter (fun w => !w.isEmpty)).map String.ofList

/-- No word is empty. -/
theorem words_ne_empty {line : List Char} {w : String} (h : w ∈ words line) : w.isEmpty = false := by
  obtain ⟨cs, hcs, rfl⟩ := List.mem_map.mp h
  have hne : cs ≠ [] := by simpa using (List.mem_filter.mp hcs).2
  by_contra hempty
  rw [Bool.not_eq_false, String.isEmpty_iff] at hempty
  exact hne (by simpa using congrArg String.toList hempty)

/-- The keys of a line with the words that they take: after each of them the scan goes on. -/
def keyed (isKey : String → Bool) : List String → List (String × String)
  | [] => []
  | [_] => []
  | w :: v :: ws => if isKey w then (w, v) :: keyed isKey ws else keyed isKey (v :: ws)

/-- The value of the last occurrence of a key. -/
def lastValue (key : String) (pairs : List (String × String)) : Option String :=
  ((pairs.filter (fun p => p.1 == key)).getLast?).map (fun p => p.2)

variable {isKey : String → Bool} {key k v w : String} {ws : List String}
  {pairs : List (String × String)}

theorem keyed_of_key (h : isKey w = true) :
    keyed isKey (w :: v :: ws) = (w, v) :: keyed isKey ws := by
  rw [keyed, if_pos h]

theorem keyed_of_not_key (h : isKey w = false) : keyed isKey (w :: ws) = keyed isKey ws := by
  cases ws with
  | nil => rfl
  | cons v ws => rw [keyed, if_neg (by simp [h])]

/-- Keys and values are words of the line. -/
theorem mem_of_keyed (h : (k, v) ∈ keyed isKey ws) : v ∈ ws := by
  induction ws using keyed.induct isKey with
  | case1 => exact absurd h List.not_mem_nil
  | case2 w => exact absurd h List.not_mem_nil
  | case3 w v' ws hkey ih =>
    rw [keyed_of_key hkey] at h
    rcases List.mem_cons.mp h with heq | h
    · obtain ⟨-, rfl⟩ := Prod.mk.inj heq
      exact List.mem_cons_of_mem _ List.mem_cons_self
    · exact List.mem_cons_of_mem _ (List.mem_cons_of_mem _ (ih h))
  | case4 w v' ws hkey ih =>
    rw [keyed_of_not_key (by simpa using hkey)] at h
    exact List.mem_cons_of_mem _ (ih h)

theorem lastValue_mem (h : lastValue key pairs = some v) : (key, v) ∈ pairs := by
  obtain ⟨p, hp, rfl⟩ := Option.map_eq_some_iff.mp h
  obtain ⟨hmem, hkey⟩ := List.mem_filter.mp (List.mem_of_getLast? hp)
  have hkey : p.1 = key := by simpa using hkey
  rw [← hkey]
  exact hmem

/-- The first pair of a line is the last one with its key, unless another follows. -/
theorem lastValue_cons (key : String) (p : String × String) (pairs : List (String × String)) :
    lastValue key (p :: pairs) =
      (lastValue key pairs).or (if p.1 = key then some p.2 else none) := by
  unfold lastValue
  by_cases hkey : p.1 = key
  · rw [List.filter_cons_of_pos (by simpa using hkey), if_pos hkey, List.getLast?_cons]
    cases (pairs.filter (fun p => p.1 == key)).getLast? <;> rfl
  · rw [List.filter_cons_of_neg (by simpa using hkey), if_neg hkey, Option.or_none]

end Words
