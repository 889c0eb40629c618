import LuaTidy.Proofs.Rewrite.JoinedLiterals
import LuaTidy.Proofs.Text.Occurrence
import LuaTidy.Proofs.Text.PieceScan
import Mathlib.Logic.Function.Iterate

/-!
Merging literals as a deletion of joins. A scan from the left chooses the joins: behind a quote it
takes the nearest one that can be closed, and goes on behind the closing quote. Every other character
is kept. Each join has two dots, so that merging again and again comes to rest after at most half as
many passes as there are dots.
-/
namespace LuaTidy.Joins
open Text (Piece pieces isBlank eq_of_isQuote not_isBlank_of_isQuote)

/-- The parts of a text, as the scan comes upon them: characters that are kept, and joins that are
deleted, each with its quote. -/
inductive Scan : Text → List (Piece Char) → Prop
  | done : Scan [] []
  | passed {c : Char} {s : Text} {ps : List (Piece Char)}
      (nothing : Lua.isQuote c = true → ∀ left join, ¬ JoinAfter c s left join)
      (h : Scan s ps) : Scan (c :: s) (.kept c :: ps)
  | deleted {q : Char} {s rest : Text} {j : Joined} {ps : List (Piece Char)}
      (quote : Lua.isQuote q = true) (nearest : Nearest q s j rest) (h : Scan rest ps) :
      Scan (q :: s)
        ((q :: j.left).map .kept ++ .found j.join q :: ((j.right ++ [q]).map .kept ++ ps))

/-- What is kept of a part. -/
def keptOf : Piece Char → Text
  | .kept c => [c]
  | .found _ _ => []

theorem flatMap_keptOf_kept (s : Text) : (s.map Piece.kept).flatMap keptOf = s := by
  rw [List.flatMap_map]
  exact List.flatMap_singleton' s

theorem flatMap_source_kept (s : Text) :
    (s.map (Piece.kept (α := Char))).flatMap Piece.source = s := by
  rw [List.flatMap_map]
  exact List.flatMap_singleton' s

namespace Scan

variable {s : Text} {ps ps' : List (Piece Char)}

theorem source (h : Scan s ps) : ps.flatMap Piece.source = s := by
  induction h with
  | done => rfl
  | passed _ _ ih => exact congrArg (_ :: ·) ih
  | deleted _ nearest _ ih =>
    rw [List.flatMap_append, List.flatMap_cons, List.flatMap_append, ih, flatMap_source_kept,
      flatMap_source_kept, nearest.eq]
    simp [Piece.source]

theorem isJoin (h : Scan s ps) {join : Text} {q : Char} (hmem : .found join q ∈ ps) :
    Lua.isQuote q = true ∧ IsJoin q join := by
  induction h with
  | done => cases hmem
  | passed _ _ ih =>
    rcases List.mem_cons.mp hmem with hmem | hmem
    · cases hmem
    · exact ih hmem
  | deleted quote nearest _ ih =>
    simp only [List.mem_append, List.mem_cons, List.mem_map, reduceCtorEq, and_false,
      exists_false, false_or] at hmem
    rcases hmem with hmem | hmem
    · cases hmem
      exact ⟨quote, nearest.isJoin⟩
    · exact ih hmem

/-- The scan is determined. -/
theorem unique (h : Scan s ps) (h' : Scan s ps') : ps' = ps := by
  induction h generalizing ps' with
  | done => cases h' with | done => rfl
  | passed nothing _ ih =>
    cases h' with
    | passed _ h' => rw [ih h']
    | deleted quote nearest _ => exact absurd nearest.joinAfter (nothing quote _ _)
  | deleted quote nearest _ ih =>
    cases h' with
    | passed nothing _ => exact absurd nearest.joinAfter (nothing quote _ _)
    | deleted _ nearest' h' =>
      obtain ⟨rfl, rfl⟩ := nearest.unique (not_isBlank_of_isQuote quote) nearest'
      rw [ih h']

end Scan

/-- The recogniser takes the joins that the scan chooses. -/
theorem exists_scan (s : Text) : ∃ ps, Scan s ps ∧
    ps.flatMap keptOf = (pieces joinedAt? s).flatMap fun p => p.value?.getD p.source := by
  refine Text.pieces_induction (motive := fun s qs => ∃ ps, Scan s ps ∧
    ps.flatMap keptOf = qs.flatMap fun p => p.value?.getD p.source) ⟨[], .done, rfl⟩ ?_ ?_ s
  · rintro c cs hr ⟨ps, hps, hkept⟩
    exact ⟨_, .passed (joinedAt?_eq_none hr) hps, congrArg (c :: ·) hkept⟩
  · rintro c cs n v hr ⟨ps, hps, hkept⟩
    obtain ⟨hq, j, rest, hj, -, rfl, rfl⟩ := joinedAt?_eq_some hr
    refine ⟨_, .deleted hq hj hps, ?_⟩
    rw [List.flatMap_append, List.flatMap_cons, List.flatMap_append, flatMap_keptOf_kept,
      flatMap_keptOf_kept, hkept, List.flatMap_cons]
    simp [keptOf, Piece.value?]

/-- A join is counted like its two quotes and two dots, where blanks do not count. -/
theorem IsJoin.countP_eq {q : Char} {j : Text} (h : IsJoin q j) {p : Char → Bool}
    (hp : ∀ c, isBlank c = true → p c = false) : j.countP p = [q, '.', '.', q].countP p := by
  obtain ⟨a, b, rfl, ha, hb⟩ := h
  have hblank : ∀ t : Text, (∀ c ∈ t, isBlank c = true) → t.countP p = 0 := by
    intro t ht
    refine List.countP_eq_zero.mpr fun c hc => ?_
    rw [hp c (ht c hc)]
    exact Bool.false_ne_true
  simp only [List.countP_cons, List.countP_append, List.countP_nil, hblank a ha, hblank b hb]
  omega

theorem IsJoin.count_dots {q : Char} {j : Text} (hq : Lua.isQuote q = true) (h : IsJoin q j) :
    j.count '.' = 2 := by
  have hcount := h.countP_eq (p := (· == '.')) fun c hc => by
    rw [beq_eq_false_iff_ne]
    rintro rfl
    exact absurd hc (by decide)
  rw [List.count, hcount]
  rcases eq_of_isQuote hq with rfl | rfl <;> decide

theorem IsJoin.count_quotes {q : Char} {j : Text} (hq : Lua.isQuote q = true) (h : IsJoin q j) :
    j.countP Lua.isQuote = 2 := by
  have hcount := h.countP_eq (p := Lua.isQuote) fun c hc => by
    by_contra hquote
    rw [not_isBlank_of_isQuote (Bool.of_not_eq_false hquote)] at hc
    exact Bool.false_ne_true hc
  rw [hcount]
  rcases eq_of_isQuote hq with rfl | rfl <;> decide

theorem IsJoin.holds_dots {q : Char} {j : Text} (h : IsJoin q j) : ['.', '.'] <:+: j := by
  obtain ⟨a, b, rfl, -, -⟩ := h
  exact ⟨q :: a, b ++ [q], by simp⟩

/-- Where no join is chosen, everything is kept. -/
theorem flatMap_keptOf_of_none {ps : List (Piece Char)} (h : ∀ p ∈ ps, p.value? = none) :
    ps.flatMap keptOf = ps.flatMap Piece.source := by
  refine List.flatMap_congr fun p hp => ?_
  cases p with
  | kept c => rfl
  | found join q => cases h _ hp

namespace Scan

variable {s : Text} {ps : List (Piece Char)}

/-- Merging keeps what the scan keeps. -/
theorem merge_text (h : Scan s ps) : (merge s).text = ps.flatMap keptOf := by
  obtain ⟨ps', h', hkept⟩ := exists_scan s
  rw [h.unique h'] at hkept
  rw [merge]
  split
  · exact hkept.symm
  · next hdots =>
    rw [Text.occursIn_iff] at hdots
    have hnone : ∀ p ∈ ps, p.value? = none := by
      intro p hp
      cases p with
      | kept c => rfl
      | found join q =>
        have hinfix : join <:+: s := by
          rw [← h.source]
          exact List.infix_of_mem_flatten (List.mem_map_of_mem (f := Piece.source) hp)
        exact absurd ((h.isJoin hp).2.holds_dots.trans hinfix) hdots
    rw [flatMap_keptOf_of_none hnone, h.source]

/-- Each join that is deleted takes two dots away. -/
theorem count_dots (h : Scan s ps) :
    (merge s).text.count '.' + 2 * ps.countP (fun p => p.value?.isSome) = s.count '.' := by
  have hjoins : ∀ join q, .found join q ∈ ps → join.count '.' = 2 := fun join q hmem =>
    (h.isJoin hmem).2.count_dots (h.isJoin hmem).1
  rw [h.merge_text]
  conv_rhs => rw [← h.source]
  clear h
  induction ps with
  | nil => rfl
  | cons p ps ih =>
    have hrest := ih fun join q hmem => hjoins join q (List.mem_cons_of_mem _ hmem)
    rw [List.flatMap_cons, List.flatMap_cons, List.count_append, List.count_append,
      List.countP_cons, ← hrest]
    cases p with
    | kept c => simp [keptOf, Piece.source, Piece.value?, Nat.add_assoc]
    | found join q =>
      have hjoin := hjoins join q List.mem_cons_self
      have hsource : (Piece.found join q).source.count '.' = 2 := hjoin
      have hkept : (keptOf (.found join q)).count '.' = 0 := rfl
      simp only [hsource, hkept, Piece.value?, Option.isSome_some, if_true]
      omega

/-- Merging changes nothing exactly if no join is chosen. -/
theorem merge_text_eq_iff (h : Scan s ps) :
    (merge s).text = s ↔ ∀ p ∈ ps, p.value? = none := by
  constructor
  · intro heq p hp
    have hcount := h.count_dots
    rw [heq] at hcount
    have hzero : ps.countP (fun p => p.value?.isSome) = 0 := by omega
    simpa using List.countP_eq_zero.mp hzero p hp
  · intro hnone
    rw [h.merge_text, flatMap_keptOf_of_none hnone, h.source]

end Scan

theorem count_dots_merge {s : Text} (hne : (merge s).text ≠ s) :
    (merge s).text.count '.' + 2 ≤ s.count '.' := by
  obtain ⟨ps, h, -⟩ := exists_scan s
  have hcount := h.count_dots
  have hpos : 0 < ps.countP fun p => p.value?.isSome := by
    by_contra hzero
    have hnone := List.countP_eq_zero.mp (Nat.eq_zero_of_not_pos hzero)
    exact hne (h.merge_text_eq_iff.mpr fun p hp => by simpa using hnone p hp)
  omega

/-- What is not at rest after some passes has lost two dots in each of them. -/
theorem count_dots_iterate {f : Text → Text}
    (hf : ∀ t, f t ≠ t → (f t).count '.' + 2 ≤ t.count '.') (s : Text) (n : Nat)
    (hn : f (f^[n] s) ≠ f^[n] s) : (f^[n] s).count '.' + 2 * n ≤ s.count '.' := by
  induction n with
  | zero => exact Nat.le_refl _
  | succ n ih =>
    rw [Function.iterate_succ_apply'] at hn ⊢
    have hbefore : f (f^[n] s) ≠ f^[n] s := fun h => hn (congrArg f h)
    have hlost := hf _ hbefore
    have hrest := ih hbefore
    omega

theorem at_rest_after_half {f : Text → Text}
    (hf : ∀ t, f t ≠ t → (f t).count '.' + 2 ≤ t.count '.') (s : Text) :
    f (f^[s.count '.' / 2] s) = f^[s.count '.' / 2] s := by
  by_contra hne
  have hlost := count_dots_iterate hf s _ hne
  have hnext := hf _ hne
  omega

/-- Merging deletes the joins that the scan chooses, and nothing else; each of them has two quotes
and two dots. It changes nothing exactly if no join is chosen, and pass after pass it comes to rest
after at most half as many passes as the text has dots. -/
theorem joins_deleted_by_scan (s : Text) :
    (∃ ps, Scan s ps ∧ (∀ ps', Scan s ps' → ps' = ps) ∧
      ps.flatMap Piece.source = s ∧ (merge s).text = ps.flatMap keptOf ∧
      (∀ join q, .found join q ∈ ps → Lua.isQuote q = true ∧ IsJoin q join ∧
        join.countP Lua.isQuote = 2 ∧ join.count '.' = 2) ∧
      ((merge s).text = s ↔ ∀ p ∈ ps, p.value? = none)) ∧
    ∃ n, 2 * n ≤ s.count '.' ∧
      (merge ((fun t => (merge t).text)^[n] s)).text = (fun t => (merge t).text)^[n] s := by
  constructor
  · obtain ⟨ps, h, -⟩ := exists_scan s
    refine ⟨ps, h, fun ps' => h.unique, h.source, h.merge_text, ?_, h.merge_text_eq_iff⟩
    intro join q hmem
    obtain ⟨hq, hjoin⟩ := h.isJoin hmem
    exact ⟨hq, hjoin, hjoin.count_quotes hq, hjoin.count_dots hq⟩
  · exact ⟨s.count '.' / 2, Nat.mul_div_le _ 2,
      at_rest_after_half (f := fun t => (merge t).text) (fun t => count_dots_merge) s⟩

/-- As many passes as half the dots can be needed. -/
example :
    (merge "'a'..'b'..'c'").text = "'ab'..'c'" ∧ (merge "'ab'..'c'").text = "'abc'" := by
  decide

end LuaTidy.Joins
