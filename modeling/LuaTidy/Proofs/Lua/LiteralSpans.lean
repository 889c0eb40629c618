import LuaTidy.Lua.Literal
import LuaTidy.Proofs.Text.PieceScan

/-!
The extents of literals are in order and do not overlap. Halving the range therefore finds the last
one that opens by a position, and no other one can hold that position.
-/
namespace LuaTidy.Lua

/-- Spans from left to right, none of them empty and no two of them overlapping. -/
structure InOrder (spans : List (Nat × Nat)) : Prop where
  lt : ∀ u ∈ spans, u.1 < u.2
  pairwise : spans.Pairwise fun u v => u.2 ≤ v.1

theorem le_of_mem_extentsFrom {α : Type} {p : Nat} {ps : List (Text.Piece α)} {u : Nat × Nat}
    (h : u ∈ extentsFrom p ps) : p ≤ u.1 := by
  induction ps generalizing p with
  | nil => simp [extentsFrom] at h
  | cons q ps ih =>
    cases q with
    | kept c => exact Nat.le_trans (Nat.le_succ p) (ih h)
    | found t a =>
      rcases List.mem_cons.mp h with rfl | h
      · exact Nat.le_refl _
      · exact Nat.le_trans (Nat.le_add_right p _) (ih h)

theorem inOrder_extentsFrom {α : Type} (r : Text.Recogniser α) (p : Nat) (s : Text) :
    InOrder (extentsFrom p (Text.pieces r s)) := by
  refine Text.pieces_induction (motive := fun _ ps => ∀ p, InOrder (extentsFrom p ps))
    ?_ ?_ ?_ s p
  · exact fun _ => ⟨by simp [extentsFrom], by simp [extentsFrom]⟩
  · exact fun _ _ _ ih p => ih (p + 1)
  · intro c cs n a _ ih p
    obtain ⟨hlt, hpair⟩ := ih (p + (c :: cs.take n).length)
    refine ⟨?_, List.pairwise_cons.mpr ⟨fun v hv => le_of_mem_extentsFrom hv, hpair⟩⟩
    intro u hu
    rcases List.mem_cons.mp hu with rfl | hu
    · simp
    · exact hlt u hu

theorem InOrder.le_of_lt {spans : List (Nat × Nat)} (h : InOrder spans) {i j : Nat} (hij : i < j)
    (hj : j < spans.length) : spans[i].2 ≤ spans[j].1 :=
  List.pairwise_iff_getElem.mp h.pairwise i j (Nat.lt_trans hij hj) hj hij

theorem InOrder.start_mono {spans : List (Nat × Nat)} (h : InOrder spans) {i j : Nat}
    (hij : i ≤ j) (hj : j < spans.length) : spans[i].1 ≤ spans[j].1 := by
  rcases Nat.lt_or_eq_of_le hij with hlt | rfl
  · exact Nat.le_trans (Nat.le_of_lt (h.lt _ (List.getElem_mem (Nat.lt_trans hlt hj))))
      (h.le_of_lt hlt hj)
  · exact Nat.le_refl _

/-- The number of spans that open at or before a position. -/
structure Opened (spans : List (Nat × Nat)) (pos : Int) (k : Nat) : Prop where
  le_length : k ≤ spans.length
  before : ∀ i (_ : i < spans.length), i < k → spans[i].1 ≤ pos
  after : ∀ i (_ : i < spans.length), k ≤ i → pos < spans[i].1

theorem opened_openedBy {spans : List (Nat × Nat)} (h : InOrder spans) (pos : Int) (lo hi : Nat)
    (hle : lo ≤ hi) (hhi : hi ≤ spans.length)
    (before : ∀ i (_ : i < spans.length), i < lo → spans[i].1 ≤ pos)
    (after : ∀ i (_ : i < spans.length), hi ≤ i → pos < spans[i].1) :
    Opened spans pos (openedBy spans.toArray pos lo hi) := by
  fun_induction openedBy spans.toArray pos lo hi with
  | case1 lo hi hlt mid hpos ih =>
    have hm : mid < spans.length := by omega
    have hget : spans.toArray.getD mid (0, 0) = spans[mid] := by simp [hm]
    rw [hget] at hpos
    refine ih (by omega) (by omega) before ?_
    intro i hi' him
    exact Int.lt_of_lt_of_le hpos (Int.ofNat_le.mpr (h.start_mono him hi'))
  | case2 lo hi hlt mid hpos ih =>
    have hm : mid < spans.length := by omega
    have hget : spans.toArray.getD mid (0, 0) = spans[mid] := by simp [hm]
    rw [hget] at hpos
    refine ih (by omega) hhi ?_ after
    intro i hi' him
    exact Int.le_trans (Int.ofNat_le.mpr (h.start_mono (by omega) hm)) (Int.not_lt.mp hpos)
  | case3 lo hi hge =>
    have he : lo = hi := by omega
    subst he
    exact ⟨hhi, before, after⟩

/-- The search asks one span only, but finds whatever span holds the position. -/
theorem encloses_iff {spans : List (Nat × Nat)} (h : InOrder spans) (pos : Int) :
    encloses spans.toArray pos = true ↔ ∃ u ∈ spans, u.1 < pos ∧ pos < u.2 := by
  have hk := opened_openedBy h pos 0 spans.length (Nat.zero_le _) (Nat.le_refl _)
    (fun i _ hi => absurd hi (Nat.not_lt_zero i)) (fun i hi hge => absurd hi (Nat.not_lt.mpr hge))
  rw [encloses, List.size_toArray]
  cases hc : openedBy spans.toArray pos 0 spans.length with
  | zero =>
    rw [hc] at hk
    simp only [Bool.false_eq_true, false_iff]
    rintro ⟨u, hu, hlt, -⟩
    obtain ⟨j, hj, rfl⟩ := List.mem_iff_getElem.mp hu
    exact absurd hlt (Int.not_lt.mpr (Int.le_of_lt (hk.after j hj (Nat.zero_le j))))
  | succ i =>
    rw [hc] at hk
    have hi : i < spans.length := hk.le_length
    have hget : spans.toArray.getD i (0, 0) = spans[i] := by simp [hi]
    simp only [hget, Bool.and_eq_true, decide_eq_true_eq]
    constructor
    · intro hin
      exact ⟨spans[i], List.getElem_mem hi, hin⟩
    · rintro ⟨u, hu, hlt, hgt⟩
      obtain ⟨j, hj, rfl⟩ := List.mem_iff_getElem.mp hu
      have hji : j = i := by
        rcases Nat.lt_trichotomy j i with hji | hji | hji
        · have hclosed := h.le_of_lt hji hi
          have hopen := hk.before i hi (Nat.lt_succ_self i)
          omega
        · exact hji
        · have hlater := hk.after j hj hji
          omega
      subst hji
      exact ⟨hlt, hgt⟩

theorem insideSpan_iff {spans : List (Nat × Nat)} (h : InOrder spans) (pos : Nat) :
    insideSpan spans.toArray pos = true ↔ ∃ u ∈ spans, u.1 < pos ∧ pos < u.2 := by
  simp only [insideSpan, encloses_iff h, Int.ofNat_lt]

theorem closing?_quote (q : Char) (cs : Text) : closing? q (q :: cs) = some 1 := by
  unfold closing?
  rw [if_pos rfl]

theorem closing?_plain {q c : Char} (hq : c ≠ q) (hb : c ≠ '\\') (hn : c ≠ '\n') (cs : Text) :
    closing? q (c :: cs) = (closing? q cs).map (· + 1) := by
  rw [closing?.eq_def]
  simp only [hq, hb, hn, if_false]

theorem closing?_escaped {q d : Char} (hq : '\\' ≠ q) (hd : d ≠ '\n') (cs : Text) :
    closing? q ('\\' :: d :: cs) = (closing? q cs).map (· + 2) := by
  rw [closing?.eq_def]
  simp [hq, hd]

theorem closing?_append {q : Char} {body : Text} (h : ∀ c ∈ body, c ≠ q ∧ c ≠ '\\' ∧ c ≠ '\n')
    (t : Text) : closing? q (body ++ q :: t) = some (body.length + 1) := by
  induction body with
  | nil => exact closing?_quote q t
  | cons c body ih =>
    obtain ⟨hq, hb, hn⟩ := h c List.mem_cons_self
    rw [List.cons_append, closing?_plain hq hb hn, ih fun d hd => h d (List.mem_cons_of_mem _ hd)]
    rfl

end LuaTidy.Lua
