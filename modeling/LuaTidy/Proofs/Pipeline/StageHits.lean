import LuaTidy.Pipeline.Stage
import LuaTidy.Proofs.Lua.Declared
import LuaTidy.Proofs.Rewrite.BlankRuns
import LuaTidy.Proofs.Rewrite.DecodedPieces
import LuaTidy.Proofs.Rewrite.FunctionNumbering
import LuaTidy.Proofs.Rewrite.VariableNumbering

/-!
What the count of a stage says about its effect. A stage that counts nothing leaves its text alone,
but for the stage that never counts; some stages count exactly if they change the text.
-/
namespace LuaTidy

theorem Blanks.normalize_hits (s : Text) :
    (normalize s).hits = if hasLongRun s then 1 else 0 := by
  rw [normalize]
  split <;> rfl

theorem Joins.merge_hits (s : Text) :
    (merge s).hits = if Text.occursIn Text.dots s then 1 else 0 := by
  rw [merge, Text.dots]
  split <;> rfl

theorem Variables.simplify_hits (n : Int) (stem s : Text) :
    (simplify n stem s).hits = if (given n stem s).isEmpty then 0 else 1 := by
  simp only [simplify]
  split <;> rfl

theorem Functions.simplify_hits (n : Int) (stem source : Text) (earlier : Lua.Renaming) (s : Text) :
    (simplify n stem source earlier s).hits =
      if (numbering n stem (Lua.declarations source)).isEmpty then 0 else 1 := by
  simp only [simplify]
  split <;> rfl

theorem Functions.mem_longNames_declarations (n : Int) (source d : Text) :
    d ∈ longNames n (Lua.declarations source) ↔ Lua.Declares source d ∧ n < d.length := by
  rw [mem_longNames, Lua.mem_declarations_iff, Variables.isLong, decide_eq_true_iff]

/-- The function stage counts exactly if the source declares a long name. -/
theorem Functions.simplify_hits_pos_iff (n : Int) (stem source : Text) (earlier : Lua.Renaming)
    (s : Text) : 0 < (simplify n stem source earlier s).hits ↔
      ∃ d, Lua.Declares source d ∧ n < d.length := by
  rw [simplify_hits]
  split
  · next h =>
    rw [isEmpty_numbering, List.eq_nil_iff_forall_not_mem] at h
    simp only [Nat.lt_irrefl, false_iff, not_exists]
    exact fun d hd => h d ((mem_longNames_declarations n source d).mpr hd)
  · next h =>
    rw [isEmpty_numbering] at h
    obtain ⟨d, hd⟩ := List.exists_mem_of_ne_nil _ h
    simp only [Nat.zero_lt_one, true_iff]
    exact ⟨d, (mem_longNames_declarations n source d).mp hd⟩

namespace StageKind

/-- The kinds that count exactly if they change the text. -/
def exact : List StageKind := [.whitespace, .base64, .hex, .formatting]

/-- The kinds that count at most once. -/
def single : List StageKind :=
  [.whitespace, .concat, .variableNames, .functionNames, .formatting]

end StageKind

namespace Stage

theorem apply_source (st : Stage) (notes : Notes) (s : Text) :
    (st.apply notes s).notes.source = notes.source := by
  cases st <;> rfl

/-- A stage that counts nothing changes nothing, unless it is the one that never counts. -/
theorem apply_text_of_no_hits {st : Stage} (hk : st.kind ≠ .escapes) {notes : Notes} {s : Text}
    (h : (st.apply notes s).hits = 0) : (st.apply notes s).text = s := by
  cases st with
  | whitespace =>
    simp only [apply, plain, Blanks.normalize] at h ⊢
    split at h
    · cases h
    · next hrun => rw [if_neg hrun]
  | concat =>
    simp only [apply, plain, Joins.merge] at h ⊢
    split at h
    · cases h
    · next hdots => rw [if_neg hdots]
  | variableNames n stem =>
    simp only [apply, Variables.simplify] at h ⊢
    split at h
    · next hgiven => rw [if_pos hgiven]
    · cases h
  | functionNames n stem =>
    simp only [apply, Functions.simplify] at h ⊢
    split at h
    · next hnone => rw [if_pos hnone]
    · cases h
  | base64 =>
    by_contra hne
    exact Nat.ne_of_gt ((Payloads.decode_hits_pos_iff s).mpr hne) h
  | hex =>
    by_contra hne
    exact Nat.ne_of_gt ((HexEscapes.decode_hits_pos_iff s).mpr hne) h
  | escapes => exact absurd rfl hk
  | formatting width =>
    simp only [apply, plain, Indentation.reindent] at h ⊢
    split at h
    · assumption
    · cases h

theorem apply_hits_pos_iff {st : Stage} (hk : st.kind ∈ StageKind.exact) (notes : Notes)
    (s : Text) : 0 < (st.apply notes s).hits ↔ (st.apply notes s).text ≠ s := by
  have hne : st.kind ≠ .escapes := by
    intro h
    rw [h] at hk
    revert hk
    decide
  constructor
  · intro hpos htext
    cases st with
    | whitespace =>
      simp only [apply, plain, Blanks.normalize_hits] at hpos htext
      split at hpos
      · next hrun =>
        have hlt := Blanks.length_normalize_lt hrun
        rw [htext] at hlt
        exact Nat.lt_irrefl _ hlt
      · exact Nat.lt_irrefl 0 hpos
    | concat => exact absurd hk (by decide)
    | variableNames n stem => simp [kind, StageKind.exact] at hk
    | functionNames n stem => simp [kind, StageKind.exact] at hk
    | base64 => exact (Payloads.decode_hits_pos_iff s).mp hpos htext
    | hex => exact (HexEscapes.decode_hits_pos_iff s).mp hpos htext
    | escapes => exact absurd rfl hne
    | formatting width =>
      simp only [apply, plain, Indentation.reindent] at hpos htext
      rw [if_pos htext] at hpos
      exact Nat.lt_irrefl 0 hpos
  · intro htext
    by_contra hpos
    exact htext (apply_text_of_no_hits hne (Nat.eq_zero_of_not_pos hpos))

theorem apply_hits_le_one {st : Stage} (hk : st.kind ∈ StageKind.single) (notes : Notes)
    (s : Text) : (st.apply notes s).hits ≤ 1 := by
  cases st with
  | whitespace =>
    simp only [apply, plain, Blanks.normalize_hits]
    split <;> decide
  | concat =>
    simp only [apply, plain, Joins.merge_hits]
    split <;> decide
  | variableNames n stem =>
    simp only [apply, Variables.simplify_hits]
    split <;> decide
  | functionNames n stem =>
    simp only [apply, Functions.simplify_hits]
    split <;> decide
  | base64 => exact absurd hk (by decide)
  | hex => exact absurd hk (by decide)
  | escapes => exact absurd hk (by decide)
  | formatting width =>
    simp only [apply, plain, Indentation.reindent]
    split <;> decide

end Stage
end LuaTidy
