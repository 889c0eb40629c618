import LuaTidy.Rewrite.Names
import LuaTidy.Proofs.Lua.Lexemes
import LuaTidy.Proofs.Lua.LiteralSpans
import LuaTidy.Proofs.Text.CharacterClasses

/-!
The names of a text outside its literals, read from any position on: a whole literal, with a text
without quotes before it, contributes the names of that text and none of its own.
-/
namespace LuaTidy.Lua

theorem mem_placedNamesFrom_cons (p q : Nat) (l : Lexeme) (ls : List Lexeme) (n : Text) :
    (q, n) ∈ placedNamesFrom p (l :: ls) ↔
      (q = p ∧ l.name? = some n) ∨ (q, n) ∈ placedNamesFrom (p + l.text.length) ls := by
  cases h : l.name? <;> simp [placedNamesFrom, h, eq_comm]

/-- A name is placed behind the text of the lexemes before it. -/
theorem mem_placedNamesFrom_iff (p q : Nat) (ls : List Lexeme) (n : Text) :
    (q, n) ∈ placedNamesFrom p ls ↔ ∃ as l bs, ls = as ++ l :: bs ∧ l.name? = some n ∧
      q = p + (as.flatMap Lexeme.text).length := by
  induction ls generalizing p with
  | nil => simp [placedNamesFrom]
  | cons l ls ih =>
    rw [mem_placedNamesFrom_cons, ih]
    constructor
    · rintro (⟨rfl, hn⟩ | ⟨as, l', bs, rfl, hn, rfl⟩)
      · exact ⟨[], l, ls, rfl, hn, rfl⟩
      · exact ⟨l :: as, l', bs, rfl, hn, by simp [Nat.add_assoc]⟩
    · rintro ⟨as, l', bs, hs, hn, rfl⟩
      cases as with
      | nil =>
        cases hs
        exact Or.inl ⟨rfl, hn⟩
      | cons a as =>
        cases hs
        exact Or.inr ⟨as, l', bs, rfl, hn, by simp [Nat.add_assoc]⟩

theorem mem_placedNamesFrom_bounds {p : Nat} {ls : List Lexeme} {q : Nat} {n : Text}
    (h : (q, n) ∈ placedNamesFrom p ls) :
    p ≤ q ∧ q + n.length ≤ p + (ls.flatMap Lexeme.text).length ∧
      ∃ l ∈ ls, l.name? = some n := by
  obtain ⟨as, l, bs, rfl, hn, rfl⟩ := (mem_placedNamesFrom_iff p q ls n).mp h
  obtain ⟨rfl, -⟩ := Lexeme.word_of_name? hn
  refine ⟨Nat.le_add_right _ _, ?_, _, List.mem_append_right as List.mem_cons_self, hn⟩
  simp only [List.flatMap_append, List.flatMap_cons, List.length_append, Lexeme.text]
  omega

theorem placedNamesFrom_append (p : Nat) (ls ms : List Lexeme) :
    placedNamesFrom p (ls ++ ms) =
      placedNamesFrom p ls ++ placedNamesFrom (p + (ls.flatMap Lexeme.text).length) ms := by
  induction ls generalizing p with
  | nil => simp [placedNamesFrom]
  | cons l ls ih =>
    simp only [List.cons_append, placedNamesFrom, ih, List.flatMap_cons, List.length_append,
      Nat.add_assoc]
    cases l.name? <;> simp

theorem placedNamesFrom_append_gap {c : Char} (hc : isWordChar c = false) (p : Nat) (s t : Text) :
    placedNamesFrom p (lexemes (s ++ c :: t)) =
      placedNamesFrom p (lexemes s) ++ placedNamesFrom (p + s.length + 1) (lexemes t) := by
  rw [lexemes_append_gap hc, placedNamesFrom_append, flatMap_text_lexemes]
  rfl

/-- The names outside the literals of a text that begins at position `p`. -/
def namesOutsideFrom (p : Nat) (s : Text) : List Text :=
  (placedNamesFrom p (lexemes s)).filterMap fun (q, name) =>
    if insideSpan (extentsFrom p (Text.pieces literal? s)).toArray q then none else some name

theorem namesInCode_eq (s : Text) : Variables.namesInCode s = namesOutsideFrom 0 s := rfl

theorem mem_namesOutsideFrom (p : Nat) (s n : Text) :
    n ∈ namesOutsideFrom p s ↔
      ∃ q, (q, n) ∈ placedNamesFrom p (lexemes s) ∧
        ¬ ∃ u ∈ extentsFrom p (Text.pieces literal? s), u.1 < q ∧ q < u.2 := by
  simp only [namesOutsideFrom, List.mem_filterMap, Prod.exists, Option.ite_none_left_eq_some,
    Option.some.injEq, insideSpan_iff (inOrder_extentsFrom literal? p s)]
  constructor
  · rintro ⟨q, m, hm, hout, rfl⟩
    exact ⟨q, hm, hout⟩
  · rintro ⟨q, hm, hout⟩
    exact ⟨q, n, hm, hout, rfl⟩

theorem extentsFrom_append_kept {α : Type} (p : Nat) (s : Text) (ps : List (Text.Piece α)) :
    extentsFrom p (s.map .kept ++ ps) = extentsFrom (p + s.length) ps := by
  induction s generalizing p with
  | nil => rfl
  | cons c s ih =>
    simp only [List.map_cons, List.cons_append, extentsFrom, ih, List.length_cons]
    congr 1
    omega

theorem literal?_of_not_isQuote {c : Char} (h : isQuote c = false) (cs : Text) :
    literal? c cs = none := by
  simp [literal?, h]

/-- A literal hides its own names, and the text around it keeps its names apart from them. -/
theorem mem_namesOutsideFrom_quoted {p : Nat} {s body t n : Text} {q : Char}
    (hs : ∀ c ∈ s, isQuote c = false) (hq : isQuote q = true)
    (hclose : closing? q (body ++ q :: t) = some (body.length + 1))
    (h : n ∈ namesOutsideFrom p (s ++ q :: (body ++ q :: t))) :
    n ∈ names s ∨ n ∈ namesOutsideFrom (p + s.length + body.length + 2) t := by
  have hr : literal? q (body ++ q :: t) = some (body.length + 1, ()) := by
    simp [literal?, hq, hclose]
  have hspans : extentsFrom p (Text.pieces literal? (s ++ q :: (body ++ q :: t))) =
      (p + s.length, p + s.length + body.length + 2) ::
        extentsFrom (p + s.length + body.length + 2) (Text.pieces literal? t) := by
    rw [Text.pieces_append_found (fun c hc cs => literal?_of_not_isQuote (hs c hc) cs) hr,
      extentsFrom_append_kept]
    simp [extentsFrom, Nat.add_assoc]
  have hword := Text.isWordChar_of_isQuote hq
  obtain ⟨k, hk, hout⟩ := (mem_namesOutsideFrom _ _ _).mp h
  rw [placedNamesFrom_append_gap hword, placedNamesFrom_append_gap hword] at hk
  rw [hspans] at hout
  rcases List.mem_append.mp hk with hk | hk
  · obtain ⟨-, -, l, hl, hn⟩ := mem_placedNamesFrom_bounds hk
    exact Or.inl ((mem_names_iff s n).mpr ⟨l, hl, hn⟩)
  rcases List.mem_append.mp hk with hk | hk
  · -- the token begins between the two quotes
    obtain ⟨hlo, hhi, l, hl, hn⟩ := mem_placedNamesFrom_bounds hk
    obtain ⟨-, c, cs, rfl, -⟩ := Lexeme.word_of_name? hn
    rw [flatMap_text_lexemes, List.length_cons] at hhi
    exact absurd ⟨_, List.mem_cons_self, by omega, by omega⟩ hout
  · refine Or.inr ((mem_namesOutsideFrom _ _ _).mpr ⟨k, ?_, ?_⟩)
    · convert hk using 2
      omega
    · rintro ⟨u, hu, hin⟩
      exact hout ⟨u, List.mem_cons_of_mem _ hu, hin⟩

end LuaTidy.Lua
