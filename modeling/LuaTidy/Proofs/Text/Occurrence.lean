import LuaTidy.Text.Basic
import Mathlib.Data.List.Infix

/-! Occurrences of one text in another one, and what trimming does to those of two dots. -/
namespace LuaTidy.Text

theorem occursIn_iff (t s : Text) : occursIn t s = true ↔ t <:+: s := by
  induction s with
  | nil => simp [occursIn]
  | cons c cs ih => simp [occursIn, ih, List.infix_cons_iff]

theorem occursIn_reverse (t s : Text) : occursIn t.reverse s.reverse = occursIn t s := by
  rw [Bool.eq_iff_iff, occursIn_iff, occursIn_iff, List.reverse_infix]

theorem not_occursIn_of_not_mem {t s : Text} {c : Char} (ht : c ∈ t) (hs : c ∉ s) :
    occursIn t s = false := by
  rw [Bool.eq_false_iff, Ne, occursIn_iff]
  exact fun h => hs (h.subset ht)

def dots : Text := ['.', '.']

theorem isPrefixOf_dots (c d : Char) (s : Text) :
    dots.isPrefixOf (c :: d :: s) = ('.' == c && '.' == d) := by
  simp [dots, List.isPrefixOf]

theorem occursIn_dots_cons {c : Char} (h : c ≠ '.') (s : Text) :
    occursIn dots (c :: s) = occursIn dots s := by
  simp [occursIn, dots, Ne.symm h]

theorem occursIn_dots_dropWhile {p : Char → Bool} (hp : p '.' = false) (s : Text) :
    occursIn dots (s.dropWhile p) = occursIn dots s := by
  induction s with
  | nil => rfl
  | cons c s ih =>
    cases hc : p c with
    | false => rw [List.dropWhile_cons_of_neg (by simp [hc])]
    | true =>
      have hne : c ≠ '.' := fun he => by simp [he, hp] at hc
      rw [List.dropWhile_cons_of_pos hc, occursIn_dots_cons hne, ih]

theorem occursIn_dots_trim {p : Char → Bool} (hp : p '.' = false) (s : Text) :
    occursIn dots (trim p s) = occursIn dots s := by
  have hrev : ∀ t : Text, occursIn dots t.reverse = occursIn dots t := fun t =>
    occursIn_reverse dots t
  rw [trim, dropWhileEnd, hrev, occursIn_dots_dropWhile hp, hrev, occursIn_dots_dropWhile hp]

theorem length_trim_le (p : Char → Bool) (s : Text) : (trim p s).length ≤ s.length := by
  have hdrop : ∀ t : Text, (t.dropWhile p).length ≤ t.length := fun t =>
    (List.dropWhile_sublist p).length_le
  rw [trim, dropWhileEnd, List.length_reverse]
  refine Nat.le_trans (hdrop _) ?_
  rw [List.length_reverse]
  exact hdrop s

end LuaTidy.Text
