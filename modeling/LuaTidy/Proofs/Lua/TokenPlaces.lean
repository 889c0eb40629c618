import LuaTidy.Proofs.Lua.ShadedLexemes
import LuaTidy.Proofs.Text.Places

/-!
Identifier tokens by their places, without regard to lexemes: a name that no word character precedes
or follows. The lexemes of a text find exactly these, from left to right.
-/
namespace LuaTidy.Lua
open Text (Lists)

/-- A name stands at a place, and no longer word around it. -/
def TokenAt (s : Text) (p : Nat) (x : Text) : Prop :=
  ∃ before after, s = before ++ (x ++ after) ∧ before.length = p ∧ isName x = true ∧
    (∀ c ∈ before.getLast?, isWordChar c = false) ∧ ∀ c ∈ after.head?, isWordChar c = false

/-- A place is strictly between the two ends of a quoted literal. -/
def InLiteral (s : Text) (p : Nat) : Prop := ∃ u ∈ literalSpans s, u.1 < p ∧ p < u.2

theorem increasing_placedNamesFrom (p : Nat) {ls : List Lexeme} (h : Separated ls) :
    (placedNamesFrom p ls).Pairwise fun a b => a.1 < b.1 := by
  induction ls generalizing p with
  | nil => exact List.Pairwise.nil
  | cons l ls ih =>
    cases hl : l.name? with
    | none => simpa only [placedNamesFrom, hl] using ih (p + l.text.length) h.tail
    | some x =>
      obtain ⟨rfl, c, cs, rfl, -⟩ := Lexeme.word_of_name? hl
      simp only [placedNamesFrom, hl]
      refine List.pairwise_cons.mpr ⟨fun e he => ?_, ih _ h.tail⟩
      have hle := (mem_placedNamesFrom_bounds (q := e.1) (n := e.2) he).1
      rw [Lexeme.text, List.length_cons] at hle
      exact Nat.lt_of_lt_of_le (Nat.lt_add_of_pos_right (Nat.succ_pos _)) hle

theorem map_snd_placedNamesFrom (p : Nat) (ls : List Lexeme) :
    (placedNamesFrom p ls).map Prod.snd = ls.filterMap Lexeme.name? := by
  induction ls generalizing p with
  | nil => rfl
  | cons l ls ih =>
    cases hl : l.name? with
    | none => simp [placedNamesFrom, hl, ih]
    | some x => simp [placedNamesFrom, hl, ih]

theorem map_snd_placedNames (s : Text) : (placedNames s).map Prod.snd = names s :=
  map_snd_placedNamesFrom 0 (lexemes s)

theorem Separated.of_append {as bs : List Lexeme} (h : Separated (as ++ bs)) : Separated bs := by
  induction as with
  | nil => exact h
  | cons a as ih => exact ih h.tail

/-- No word character stands next to a word among separated lexemes. -/
theorem Separated.beside_word {as bs : List Lexeme} {w : Text}
    (h : Separated (as ++ .word w :: bs)) :
    (∀ c ∈ (as.flatMap Lexeme.text).getLast?, isWordChar c = false) ∧
      ∀ c ∈ (bs.flatMap Lexeme.text).head?, isWordChar c = false := by
  constructor
  · intro c hc
    rcases List.eq_nil_or_concat' as with rfl | ⟨as, a, rfl⟩
    · cases hc
    · rw [List.append_assoc] at h
      cases h.of_append with
      | gap d _ hd _ =>
        simp only [List.flatMap_append, List.flatMap_singleton, Lexeme.text,
          List.getLast?_concat] at hc
        cases hc
        exact hd
  · intro c hc
    cases h.of_append with
    | last _ _ => cases hc
    | word _ d bs _ hd _ =>
      cases hc
      exact hd

theorem lexemes_append_of_boundary {before t : Text}
    (hb : ∀ c ∈ before.getLast?, isWordChar c = false) :
    lexemes (before ++ t) = lexemes before ++ lexemes t := by
  rcases List.eq_nil_or_concat' before with rfl | ⟨before, c, rfl⟩
  · rfl
  · have hc : isWordChar c = false := hb c List.getLast?_concat
    have hbefore := lexemes_append_gap hc before []
    rw [List.append_assoc, List.singleton_append, lexemes_append_gap hc, hbefore]
    simp [lexemes]

theorem lexemes_word_append {w after : Text} (hw : IsWord w)
    (ha : ∀ c ∈ after.head?, isWordChar c = false) :
    lexemes (w ++ after) = .word w :: lexemes after := by
  cases after with
  | nil => rw [List.append_nil, lexemes_of_isWord hw, lexemes]
  | cons c after =>
    have hc := ha c rfl
    rw [lexemes_append_gap hc, lexemes_of_isWord hw, lexemes, push_gap hc]
    rfl

/-- The placed names of a text are its tokens. -/
theorem mem_placedNames_iff (s : Text) (p : Nat) (x : Text) :
    (p, x) ∈ placedNames s ↔ TokenAt s p x := by
  rw [placedNames, mem_placedNamesFrom_iff]
  constructor
  · rintro ⟨as, l, bs, hs, hx, rfl⟩
    obtain ⟨rfl, -⟩ := Lexeme.word_of_name? hx
    have hsep := separated_lexemes s
    have htext := flatMap_text_lexemes s
    rw [hs] at hsep htext
    rw [List.flatMap_append, List.flatMap_cons, Lexeme.text] at htext
    have hname : x ∈ names s := (mem_names_iff s x).mpr ⟨_, hs ▸ by simp, hx⟩
    obtain ⟨hbefore, hafter⟩ := hsep.beside_word
    exact ⟨_, _, htext.symm, (Nat.zero_add _).symm, isName_of_mem_names hname, hbefore, hafter⟩
  · rintro ⟨before, after, rfl, rfl, hx, hbefore, hafter⟩
    refine ⟨lexemes before, .word x, lexemes after, ?_, Lexeme.name?_word hx, ?_⟩
    · rw [lexemes_append_of_boundary hbefore, lexemes_word_append (isWord_of_isName hx) hafter]
    · rw [flatMap_text_lexemes, Nat.zero_add]

theorem lists_placedNames (s : Text) : Lists (TokenAt s) (placedNames s) :=
  ⟨increasing_placedNamesFrom 0 (separated_lexemes s), mem_placedNames_iff s⟩

/-- The names in the code of a text are the tokens that begin in no literal. -/
theorem mem_namesInCode_iff (s x : Text) :
    x ∈ Variables.namesInCode s ↔ ∃ p, TokenAt s p x ∧ ¬ InLiteral s p := by
  simp only [namesInCode_eq, mem_namesOutsideFrom, ← mem_placedNames_iff, InLiteral, literalSpans,
    List.mem_toArray, placedNames]

end LuaTidy.Lua
