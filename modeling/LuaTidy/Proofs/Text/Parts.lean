import LuaTidy.Text.Basic
import Mathlib.Data.List.Basic

/-!
Splitting at a character and joining with it undo one another: the parts of a text do not hold the
character, and a text with parts that do not is split into just these.
-/
namespace LuaTidy.Text

variable {sep : Char}

theorem exists_splitAt_eq_cons (sep : Char) (s : Text) : ∃ p ps, splitAt sep s = p :: ps := by
  cases s with
  | nil => exact ⟨_, _, rfl⟩
  | cons c s =>
    simp only [splitAt]
    split
    · exact ⟨_, _, rfl⟩
    · split <;> exact ⟨_, _, rfl⟩

theorem splitAt_cons_of_ne {c : Char} (hc : c ≠ sep) {s p : Text} {ps : List Text}
    (h : splitAt sep s = p :: ps) : splitAt sep (c :: s) = (c :: p) :: ps := by
  simp only [splitAt, if_neg hc, h]

theorem splitAt_append (sep : Char) (s t : Text) :
    splitAt sep (s ++ sep :: t) = splitAt sep s ++ splitAt sep t := by
  induction s with
  | nil => simp [splitAt]
  | cons c s ih =>
    rw [List.cons_append]
    by_cases hc : c = sep
    · simp only [splitAt, if_pos hc, ih, List.cons_append]
    · obtain ⟨p, ps, hp⟩ := exists_splitAt_eq_cons sep s
      rw [hp, List.cons_append] at ih
      rw [splitAt_cons_of_ne hc ih, splitAt_cons_of_ne hc hp, List.cons_append]

theorem splitAt_of_not_mem {s : Text} (h : sep ∉ s) : splitAt sep s = [s] := by
  induction s with
  | nil => rfl
  | cons c s ih =>
    rw [List.mem_cons, not_or] at h
    exact splitAt_cons_of_ne (Ne.symm h.1) (ih h.2)

theorem not_mem_of_mem_splitAt {s p : Text} (h : p ∈ splitAt sep s) : sep ∉ p := by
  induction s generalizing p with
  | nil =>
    rw [List.mem_singleton.mp h]
    exact List.not_mem_nil
  | cons c s ih =>
    by_cases hc : c = sep
    · rw [splitAt, if_pos hc] at h
      rcases List.mem_cons.mp h with rfl | h
      · exact List.not_mem_nil
      · exact ih h
    · obtain ⟨q, qs, hq⟩ := exists_splitAt_eq_cons sep s
      rw [splitAt_cons_of_ne hc hq] at h
      rw [hq] at ih
      rcases List.mem_cons.mp h with rfl | h
      · rw [List.mem_cons, not_or]
        exact ⟨Ne.symm hc, ih List.mem_cons_self⟩
      · exact ih (List.mem_cons_of_mem _ h)

theorem mem_of_mem_splitAt {s p : Text} (h : p ∈ splitAt sep s) {c : Char} (hc : c ∈ p) :
    c ∈ s := by
  induction s generalizing p with
  | nil => exact List.mem_singleton.mp h ▸ hc
  | cons d s ih =>
    by_cases hd : d = sep
    · rw [splitAt, if_pos hd] at h
      rcases List.mem_cons.mp h with rfl | h
      · cases hc
      · exact List.mem_cons_of_mem _ (ih h hc)
    · obtain ⟨q, qs, hq⟩ := exists_splitAt_eq_cons sep s
      rw [splitAt_cons_of_ne hd hq] at h
      rw [hq] at ih
      rcases List.mem_cons.mp h with rfl | h
      · rcases List.mem_cons.mp hc with rfl | hc
        · exact List.mem_cons_self
        · exact List.mem_cons_of_mem _ (ih List.mem_cons_self hc)
      · exact List.mem_cons_of_mem _ (ih (List.mem_cons_of_mem _ h) hc)

theorem joinWith_cons_cons (sep : Text) (p q : Text) (ps : List Text) :
    joinWith sep (p :: q :: ps) = p ++ sep ++ joinWith sep (q :: ps) := rfl

theorem exists_joinWith_cons (sep p : Text) (ps : List Text) :
    ∃ t, joinWith sep (p :: ps) = p ++ t := by
  cases ps with
  | nil => exact ⟨[], (List.append_nil p).symm⟩
  | cons q ps => exact ⟨_, List.append_assoc ..⟩

theorem mem_joinWith {sep : Text} {ps : List Text} {c : Char} (h : c ∈ joinWith sep ps) :
    c ∈ sep ∨ ∃ p ∈ ps, c ∈ p := by
  fun_induction joinWith sep ps with
  | case1 => exact absurd h List.not_mem_nil
  | case2 p => exact Or.inr ⟨p, List.mem_cons_self, h⟩
  | case3 p ps hps ih =>
    rcases List.mem_append.mp h with h | h
    · rcases List.mem_append.mp h with h | h
      · exact Or.inr ⟨p, List.mem_cons_self, h⟩
      · exact Or.inl h
    · rcases ih h with h | ⟨q, hq, h⟩
      · exact Or.inl h
      · exact Or.inr ⟨q, List.mem_cons_of_mem _ hq, h⟩

theorem splitAt_joinWith {ps : List Text} (hne : ps ≠ []) (h : ∀ p ∈ ps, sep ∉ p) :
    splitAt sep (joinWith [sep] ps) = ps := by
  fun_induction joinWith [sep] ps with
  | case1 => exact absurd rfl hne
  | case2 p => exact splitAt_of_not_mem (h p List.mem_cons_self)
  | case3 p ps hps ih =>
    have hrest := ih hps fun q hq => h q (List.mem_cons_of_mem _ hq)
    rw [List.append_assoc, List.singleton_append, splitAt_append, hrest,
      splitAt_of_not_mem (h p List.mem_cons_self)]
    rfl

theorem joinWith_splitAt (sep : Char) (s : Text) : joinWith [sep] (splitAt sep s) = s := by
  induction s with
  | nil => rfl
  | cons c s ih =>
    obtain ⟨p, ps, hp⟩ := exists_splitAt_eq_cons sep s
    rw [hp] at ih
    by_cases hc : c = sep
    · rw [splitAt, if_pos hc, hp, joinWith_cons_cons, ih, hc]
      rfl
    · rw [splitAt_cons_of_ne hc hp, ← ih]
      cases ps <;> simp [joinWith]

end LuaTidy.Text
