import LuaTidy.Text.Basic
import Mathlib.Data.List.Basic
import Mathlib.Data.List.DropRight
/-!
Splitting a text where a class of characters ends or a character first occurs, and trimming: a
trimmed text is left alone, also with more to trim put before it.
-/
namespace LuaTidy.Text

variable {p : Char → Bool} {s t u v : Text} {c : Char}

theorem takeWhile_append_of_head (hs : ∀ c ∈ s, p c = true) (ht : ∀ c ∈ t.head?, p c = false) :
    (s ++ t).takeWhile p = s := by
  rw [List.takeWhile_append_of_pos hs]
  cases t with
  | nil => simp
  | cons c t => simp [ht c rfl]

theorem dropWhile_append_of_head (hs : ∀ c ∈ s, p c = true) (ht : ∀ c ∈ t.head?, p c = false) :
    (s ++ t).dropWhile p = t := by
  rw [List.dropWhile_append_of_pos hs]
  cases t with
  | nil => rfl
  | cons c t => simp [ht c rfl]

/-- A text splits in one way only into characters of a class and a rest that begins outside it. -/
theorem split_unique (hs : ∀ c ∈ s, p c = true) (ht : ∀ c ∈ t.head?, p c = false)
    (hu : ∀ c ∈ u, p c = true) (hv : ∀ c ∈ v.head?, p c = false) (h : s ++ t = u ++ v) :
    s = u ∧ t = v := by
  have htake := takeWhile_append_of_head hs ht
  have hdrop := dropWhile_append_of_head hs ht
  rw [h, takeWhile_append_of_head hu hv] at htake
  rw [h, dropWhile_append_of_head hu hv] at hdrop
  exact ⟨htake.symm, hdrop.symm⟩

/-- A character that does not occur in a stretch is found behind it. -/
theorem split_at_char (hc : c ∉ s) (h : s ++ t = u ++ c :: v) : ∃ w, u = s ++ w ∧ t = w ++ c :: v := by
  rcases List.append_eq_append_iff.mp h with ⟨w, hu, ht⟩ | ⟨w, hs, hcv⟩
  · exact ⟨w, hu, ht⟩
  · cases w with
    | nil => exact ⟨[], by simpa using hs.symm, by simpa using hcv.symm⟩
    | cons d w =>
      cases hcv
      exact absurd (hs ▸ List.mem_append_right u List.mem_cons_self) hc

/-! ## Trimming -/

variable {p : Char → Bool}

theorem mem_of_mem_trim {s : Text} {c : Char} (h : c ∈ trim p s) : c ∈ s :=
  (List.dropWhile_suffix p).subset ((List.rdropWhile_prefix p _).subset h)

theorem dropWhile_trim (p : Char → Bool) (s : Text) : (trim p s).dropWhile p = trim p s := by
  obtain ⟨w, hw⟩ : trim p s <+: s.dropWhile p := List.rdropWhile_prefix p _
  cases ht : trim p s with
  | nil => rfl
  | cons c t =>
    have hc := List.head?_dropWhile_not p s
    rw [← hw, ht, List.cons_append, List.head?_cons] at hc
    exact List.dropWhile_cons_of_neg (Bool.eq_false_iff.mp hc)

theorem trim_trim (p : Char → Bool) (s : Text) : trim p (trim p s) = trim p s := by
  rw [trim, dropWhile_trim]
  exact List.rdropWhile_idempotent p (s.dropWhile p)

theorem trim_append_of_all {s : Text} (hs : ∀ c ∈ s, p c = true) (t : Text) :
    trim p (s ++ t) = trim p t := by
  rw [trim, List.dropWhile_append_of_pos hs, trim]

theorem dropWhileEnd_append {x r : Text} (hlast : ∀ c ∈ x.getLast?, p c = false)
    (hr : ∀ c ∈ r, p c = true) : dropWhileEnd p (x ++ r) = x := by
  rw [dropWhileEnd, List.reverse_append, dropWhile_append_of_head, List.reverse_reverse]
  · exact fun c hc => hr c (List.mem_reverse.mp hc)
  · rwa [List.head?_reverse]

/-- What is left of a text whose middle part neither begins nor ends with something to trim. -/
theorem trim_between {l x r : Text} (hl : ∀ c ∈ l, p c = true) (hr : ∀ c ∈ r, p c = true)
    (hhead : ∀ c ∈ x.head?, p c = false) (hlast : ∀ c ∈ x.getLast?, p c = false) :
    trim p (l ++ (x ++ r)) = x := by
  rw [trim_append_of_all hl]
  by_cases hx : x = []
  · have hnone := trim_append_of_all hr []
    rw [List.append_nil] at hnone
    rw [hx, List.nil_append, hnone]
    rfl
  · have hfirst : ∀ c ∈ (x ++ r).head?, p c = false := by
      rwa [List.head?_append_of_ne_nil _ hx]
    have hstart : (x ++ r).dropWhile p = x ++ r :=
      dropWhile_append_of_head (s := []) (t := x ++ r) (by simp) hfirst
    rw [trim, hstart, dropWhileEnd_append hlast hr]

end LuaTidy.Text
