import LuaTidy.Rewrite.Layout
import LuaTidy.Proofs.Text.Occurrence

/-!
Long runs of blanks as stretches of a text, and what squeezing them does: a text with a long run
gets shorter, and dots that stand next to one another stay so.
-/
namespace LuaTidy.Blanks
open Text (isBlank)

theorem hasLongRun_cons_of {s : Text} (h : hasLongRun s = true) (c : Char) :
    hasLongRun (c :: s) = true := by
  match s, h with
  | a :: b :: d :: s, h =>
    rw [hasLongRun, h, Bool.or_true]

/-- A long run is a stretch of three or more characters, all of them blank. -/
theorem hasLongRun_iff (s : Text) :
    hasLongRun s = true ↔ ∃ run, run <:+: s ∧ 3 ≤ run.length ∧ ∀ c ∈ run, isBlank c = true := by
  constructor
  · intro h
    fun_induction hasLongRun s with
    | case1 a b c cs ih =>
      simp only [Bool.or_eq_true, Bool.and_eq_true] at h
      rcases h with ⟨⟨ha, hb⟩, hc⟩ | h
      · exact ⟨[a, b, c], ⟨[], cs, rfl⟩, by simp, by simp [ha, hb, hc]⟩
      · obtain ⟨run, hrun, hlen, hall⟩ := ih h
        exact ⟨run, hrun.trans (List.suffix_cons a _).isInfix, hlen, hall⟩
    | case2 => simp at h
  · rintro ⟨run, ⟨before, after, rfl⟩, hlen, hall⟩
    induction before with
    | nil =>
      match run, hlen with
      | a :: b :: c :: run, _ =>
        have ha := hall a (by simp)
        have hb := hall b (by simp)
        have hc := hall c (by simp)
        simp [hasLongRun, ha, hb, hc]
    | cons c before ih => exact hasLongRun_cons_of ih c

/-- A character that is no blank ends every run before it. -/
theorem hasLongRun_append_cons {c : Char} (hc : isBlank c = false) (s t : Text) :
    hasLongRun (s ++ c :: t) = (hasLongRun s || hasLongRun t) := by
  have hcons : ∀ t : Text, hasLongRun (c :: t) = hasLongRun t := by
    intro t
    match t with
    | [] => rfl
    | [_] => rfl
    | a :: b :: t => simp [hasLongRun, hc]
  have hcons₂ : ∀ a : Char, hasLongRun (a :: c :: t) = hasLongRun t := by
    intro a
    cases t with
    | nil => rfl
    | cons b t => rw [hasLongRun, hc, hcons, Bool.and_false, Bool.false_and, Bool.false_or]
  fun_induction hasLongRun s with
  | case1 a b d cs ih =>
    rw [Bool.or_assoc, ← ih]
    rfl
  | case2 s hs =>
    match s with
    | [] => exact hcons t
    | [a] => exact hcons₂ a
    | [a, b] =>
      have hab : hasLongRun (a :: b :: c :: t) = hasLongRun (b :: c :: t) := by
        rw [hasLongRun, hc, Bool.and_false, Bool.false_or]
      exact hab.trans (hcons₂ b)
    | a :: b :: d :: s => exact absurd rfl (hs a b d s)

theorem hasLongRun_append_of_no_blank {s : Text} (h : ∀ c ∈ s, isBlank c = false) (t : Text) :
    hasLongRun (s ++ t) = hasLongRun t := by
  induction s with
  | nil => rfl
  | cons c s ih =>
    have hc := hasLongRun_append_cons (h c List.mem_cons_self) [] (s ++ t)
    exact hc.trans (ih fun d hd => h d (List.mem_cons_of_mem _ hd))

theorem length_squeeze_le (inRun : Bool) (s : Text) : (squeeze inRun s).length ≤ s.length := by
  fun_induction squeeze inRun s with
  | case1 => exact Nat.le_refl _
  | case2 c cs hc ih => exact Nat.le_succ_of_le ih
  | case3 inRun c cs hc hrun ih => exact Nat.succ_le_succ ih
  | case4 inRun c cs hc ih => exact Nat.succ_le_succ ih

theorem length_squeeze_lt {s : Text} (h : hasLongRun s = true) (inRun : Bool) :
    (squeeze inRun s).length < s.length := by
  fun_induction hasLongRun s generalizing inRun with
  | case1 a b c cs ih =>
    simp only [Bool.or_eq_true, Bool.and_eq_true] at h
    rcases h with ⟨⟨ha, hb⟩, -⟩ | h
    · have hle := length_squeeze_le true (c :: cs)
      cases inRun <;> simp only [squeeze, ha, hb, if_true, Bool.false_eq_true, if_false,
        List.length_cons] at hle ⊢ <;> omega
    · have hlt : ∀ inRun, (squeeze inRun (b :: c :: cs)).length < (b :: c :: cs).length :=
        fun inRun => ih h inRun
      cases ha : isBlank a
      · rw [squeeze, if_neg (by simp [ha])]
        exact Nat.succ_lt_succ (hlt false)
      · rw [squeeze, if_pos ha]
        cases inRun
        · exact Nat.succ_lt_succ (hlt true)
        · exact Nat.lt_succ_of_lt (hlt true)
  | case2 => simp at h

theorem length_normalize_lt {s : Text} (h : hasLongRun s = true) :
    (normalize s).text.length < s.length := by
  rw [normalize, if_pos h]
  exact Nat.lt_of_le_of_lt (Text.length_trim_le isBlank _) (length_squeeze_lt h false)

private theorem ne_dot_of_isBlank {c : Char} (h : isBlank c = true) : c ≠ '.' := by
  rintro rfl
  simp [isBlank, Text.isWhiteSpace] at h

theorem occursIn_dots_squeeze (inRun : Bool) (s : Text) :
    Text.occursIn Text.dots (squeeze inRun s) = Text.occursIn Text.dots s := by
  fun_induction squeeze inRun s with
  | case1 => rfl
  | case2 c cs hc ih => rw [ih, Text.occursIn_dots_cons (ne_dot_of_isBlank hc)]
  | case3 inRun c cs hc hrun ih =>
    rw [Text.occursIn_dots_cons (by decide), ih, Text.occursIn_dots_cons (ne_dot_of_isBlank hc)]
  | case4 inRun c cs hc ih =>
    have hhead : Text.dots.isPrefixOf (c :: squeeze false cs) = Text.dots.isPrefixOf (c :: cs) := by
      cases cs with
      | nil => rfl
      | cons d ds =>
        cases hd : isBlank d with
        | false => simp [squeeze, hd, Text.isPrefixOf_dots]
        | true =>
          have hne : ('.' == d) = false := beq_eq_false_iff_ne.mpr (Ne.symm (ne_dot_of_isBlank hd))
          simp [squeeze, hd, Text.isPrefixOf_dots, hne]
    rw [Text.occursIn, Text.occursIn, hhead, ih]

/-- Normalizing blanks neither makes nor breaks a pair of dots. -/
theorem occursIn_dots_normalize (s : Text) :
    Text.occursIn Text.dots (normalize s).text = Text.occursIn Text.dots s := by
  rw [normalize]
  split
  · exact (Text.occursIn_dots_trim (by decide) _).trans (occursIn_dots_squeeze false s)
  · rfl

end LuaTidy.Blanks
