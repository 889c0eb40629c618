import LuaTidy.Proofs.Rewrite.TrimmedLines
import Mathlib.Algebra.BigOperators.Intervals
import Mathlib.Order.Bounds.Basic

/-!
The level of a line in closed form. From one line to the next the level climbs by one if the first
of them opens a block and falls by one if the second closes one, but it never falls below zero: the
level of a line is the highest climb that ends at it, over all the lines from which one can start.
-/
namespace LuaTidy.Indentation

/-- The levels of trimmed lines, of which the first one comes after lines at level `level`. -/
def levels : Nat → List Text → List Nat
  | _, [] => []
  | level, line :: rest => levelAt level line :: levels (levelAfter (levelAt level line) line) rest

/-- The level that is left open behind trimmed lines. -/
def levelBehind : Nat → List Text → Nat
  | level, [] => level
  | level, line :: rest => levelBehind (levelAfter (levelAt level line) line) rest

/-- One if the line with the number `k` has one of the words, else zero. -/
def weight (words : List Text) (ls : List Text) (k : Nat) : Int :=
  if mentions words (ls[k]?.getD []) then 1 else 0

/-- How far the level goes up, or down, from line `j` to line `i` where nothing holds it at zero. -/
def climb (ls : List Text) (j i : Nat) : Int :=
  ∑ k ∈ Finset.Ioc j i, (weight openers ls (k - 1) - weight closers ls k)

theorem levelAt_zero (line : Text) : levelAt 0 line = 0 := by
  rw [levelAt]
  split <;> rfl

theorem length_levels (level : Nat) (ls : List Text) : (levels level ls).length = ls.length := by
  induction ls generalizing level with
  | nil => rfl
  | cons line ls ih => rw [levels, List.length_cons, List.length_cons, ih]

theorem indentFrom_eq_zipWith (width : Int) (level : Nat) (ls : List Text) :
    indentFrom width level ls =
      List.zipWith (fun m line => margin width m ++ line) (levels level ls) ls := by
  induction ls generalizing level with
  | nil => rfl
  | cons line ls ih => rw [indentFrom, levels, List.zipWith_cons_cons, ih]

theorem levels_append (level : Nat) (ls ls' : List Text) :
    levels level (ls ++ ls') = levels level ls ++ levels (levelBehind level ls) ls' := by
  induction ls generalizing level with
  | nil => rfl
  | cons line ls ih => rw [List.cons_append, levels, ih, levels, levelBehind, List.cons_append]

theorem getElem?_levels_append (level : Nat) (ls : List Text) (line : Text) (rest : List Text) :
    (levels level (ls ++ line :: rest))[ls.length]? =
      some (levelAt (levelBehind level ls) line) := by
  rw [levels_append, List.getElem?_append_right (Nat.le_of_eq (length_levels level ls)),
    length_levels, Nat.sub_self, levels, List.getElem?_cons_zero]

/-- What one line does to the level, as a step from the line before it. -/
theorem getElem?_levels_succ {level i m : Nat} {ls : List Text} {line next : Text}
    (hm : (levels level ls)[i]? = some m) (hline : ls[i]? = some line)
    (hnext : ls[i + 1]? = some next) :
    (levels level ls)[i + 1]? = some (levelAt (levelAfter m line) next) := by
  induction ls generalizing level i with
  | nil => cases hline
  | cons l ls ih =>
    cases i with
    | zero =>
      cases hline
      cases hm
      cases ls with
      | nil => cases hnext
      | cons l' ls =>
        cases hnext
        rfl
    | succ i => exact ih hm hline hnext

theorem climb_self (ls : List Text) (i : Nat) : climb ls i i = 0 := by
  rw [climb, Finset.Ioc_self, Finset.sum_empty]

theorem climb_succ (ls : List Text) {j i : Nat} (h : j ≤ i) :
    climb ls j (i + 1) = climb ls j i + (weight openers ls i - weight closers ls (i + 1)) := by
  rw [climb, Finset.sum_Ioc_succ_top h, Nat.add_sub_cancel, climb]

theorem levelAt_levelAfter {ls : List Text} {i : Nat} {line next : Text} (m : Nat)
    (hline : ls[i]? = some line) (hnext : ls[i + 1]? = some next) :
    (levelAt (levelAfter m line) next : Int) =
      max 0 (m + (weight openers ls i - weight closers ls (i + 1))) := by
  rw [weight, weight, hline, hnext, Option.getD_some, Option.getD_some, levelAt, levelAfter]
  split <;> split <;> omega

/-- The highest climb to the next line extends the highest climb to this one, or starts there. -/
theorem isGreatest_climb_succ {ls : List Text} {i : Nat} {m : Int}
    (h : IsGreatest {x | ∃ j ≤ i, x = climb ls j i} m) :
    IsGreatest {x | ∃ j ≤ i + 1, x = climb ls j (i + 1)}
      (max 0 (m + (weight openers ls i - weight closers ls (i + 1)))) := by
  obtain ⟨⟨j, hj, hm⟩, hupper⟩ := h
  constructor
  · rcases max_choice 0 (m + (weight openers ls i - weight closers ls (i + 1))) with hmax | hmax
    · exact ⟨i + 1, Nat.le_refl _, hmax.trans (climb_self ls _).symm⟩
    · refine ⟨j, Nat.le_succ_of_le hj, ?_⟩
      rw [hmax, climb_succ ls hj, hm]
  · rintro x ⟨k, hk, rfl⟩
    rcases Nat.le_succ_iff.mp hk with hk | rfl
    · have hle := hupper ⟨k, hk, rfl⟩
      rw [climb_succ ls hk]
      omega
    · rw [climb_self]
      exact le_max_left _ _

theorem isGreatest_level {ls : List Text} {i m : Nat} (hm : (levels 0 ls)[i]? = some m) :
    IsGreatest {x : Int | ∃ j ≤ i, x = climb ls j i} m := by
  induction i generalizing m with
  | zero =>
    -- nothing is open before the first line, so that there is nothing to close
    have hzero : m = 0 := by
      cases ls with
      | nil => cases hm
      | cons line ls =>
        cases hm
        exact levelAt_zero line
    subst hzero
    constructor
    · exact ⟨0, Nat.le_refl 0, (climb_self ls 0).symm⟩
    · rintro x ⟨j, hj, rfl⟩
      rw [Nat.le_zero.mp hj, climb_self]
      exact le_refl _
  | succ i ih =>
    have hi : i + 1 < ls.length := by
      rw [← length_levels 0]
      exact (List.getElem?_eq_some_iff.mp hm).1
    obtain ⟨line, hline⟩ : ∃ line, ls[i]? = some line :=
      ⟨_, List.getElem?_eq_getElem (Nat.lt_of_succ_lt hi)⟩
    obtain ⟨next, hnext⟩ : ∃ next, ls[i + 1]? = some next := ⟨_, List.getElem?_eq_getElem hi⟩
    obtain ⟨n, hn⟩ : ∃ n, (levels 0 ls)[i]? = some n :=
      ⟨_, List.getElem?_eq_getElem (by rw [length_levels]; omega)⟩
    have hstep := getElem?_levels_succ hn hline hnext
    rw [hm, Option.some.injEq] at hstep
    rw [hstep, levelAt_levelAfter n hline hnext]
    exact isGreatest_climb_succ (ih hn)

/-- Where a line would be at level zero anyway, it makes no difference that it closes a block. -/
theorem levels_unmatched {before rest : List Text} {closer other : Text}
    (hplain : mentions closers other = false)
    (hopens : mentions openers other = mentions openers closer)
    (hzero : (levels 0 (before ++ other :: rest))[before.length]? = some 0) :
    levels 0 (before ++ closer :: rest) = levels 0 (before ++ other :: rest) := by
  rw [getElem?_levels_append, levelAt, hplain, if_neg Bool.false_ne_true, Option.some.injEq] at hzero
  rw [levels_append, levels_append, hzero, levels, levels, levelAt_zero, levelAt_zero, levelAfter,
    levelAfter, hopens]

/-- Indenting keeps the lines of a text up to the blanks at their ends. Before each trimmed line it
puts a margin as deep as the highest climb that ends at this line; it counts exactly if the text
changes. A text in which one line closes a block that is not open has the levels of the text in which
this line closes nothing. -/
theorem indented_by_highest_climb (width : Int) (s : Text) :
    (Text.lines (reindent width s).text).length = (Text.lines s).length ∧
      (Text.lines (reindent width s).text).map Text.strip = trimmedLines s ∧
      (∀ i line, (trimmedLines s)[i]? = some line → ∃ m : Nat,
        (levels 0 (trimmedLines s))[i]? = some m ∧
          (Text.lines (reindent width s).text)[i]? = some (margin width m ++ line) ∧
          IsGreatest {x : Int | ∃ j ≤ i, x = climb (trimmedLines s) j i} m) ∧
      (reindent width s).hits = (if (reindent width s).text = s then 0 else 1) ∧
      ∀ t before closer other rest, trimmedLines s = before ++ closer :: rest →
        trimmedLines t = before ++ other :: rest → mentions closers other = false →
        mentions openers other = mentions openers closer →
        (levels 0 (trimmedLines t))[before.length]? = some 0 →
        levels 0 (trimmedLines s) = levels 0 (trimmedLines t) := by
  have hlines : (Text.lines (reindent width s).text).map Text.strip = trimmedLines s :=
    trimmedLines_reindent width s
  refine ⟨?_, hlines, fun i line hline => ?_, rfl, ?_⟩
  · have hlength := congrArg List.length hlines
    rwa [List.length_map, trimmedLines, List.length_map] at hlength
  · obtain ⟨m, hm⟩ : ∃ m, (levels 0 (trimmedLines s))[i]? = some m := by
      refine ⟨_, List.getElem?_eq_getElem ?_⟩
      rw [length_levels]
      exact (List.getElem?_eq_some_iff.mp hline).1
    refine ⟨m, hm, ?_, isGreatest_level hm⟩
    rw [lines_reindent, indentFrom_eq_zipWith, List.getElem?_zipWith, hm, hline]
  · intro t before closer other rest hs ht hplain hopens hzero
    rw [ht] at hzero
    rw [hs, ht]
    exact levels_unmatched hplain hopens hzero

/-- The first line has nothing to close; the third one closes a block and opens one. -/
example :
    (reindent 2 " end\nif x then\nend for y do\nz\t\n\x7d\nend").text =
      "end\nif x then\nend for y do\n  z\n\x7d\nend" := by
  decide

end LuaTidy.Indentation
