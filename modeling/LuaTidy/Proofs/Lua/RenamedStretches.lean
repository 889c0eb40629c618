import LuaTidy.Proofs.Lua.Declared
import LuaTidy.Proofs.Lua.TokenRenaming

/-!
Stretches of a renamed text that no new name can have made: they stood in the text before. Among
them are the stretches without words, and the declarations if no new name ends like the keyword.
-/
namespace LuaTidy.Lua

/-- A lexeme that a renaming makes of no other lexeme. -/
def Renaming.Spares (m : Renaming) (l : Lexeme) : Prop := ∀ k : Lexeme, k.under m = l → k = l

theorem Renaming.spares_gap (m : Renaming) (c : Char) : m.Spares (.gap c) := by
  intro k hk
  cases h : k.name? with
  | none => rwa [Lexeme.under_of_name?_none h] at hk
  | some n =>
    rw [Lexeme.under_of_name? h] at hk
    cases hk

theorem Renaming.spares_word {m : Renaming} {w : Text} (hw : ∀ e ∈ m, e.2 ≠ w) :
    m.Spares (.word w) := by
  intro k hk
  cases h : k.name? with
  | none => rwa [Lexeme.under_of_name?_none h] at hk
  | some n =>
    rw [Lexeme.under_of_name? h, Lexeme.word.injEq] at hk
    rw [(Lexeme.word_of_name? h).1, Lexeme.word.injEq]
    cases hv : m.get? n with
    | none => rwa [Renaming.image_of_get?_none hv] at hk
    | some v =>
      rw [Renaming.image_of_get? hv] at hk
      exact absurd hk (hw _ (Entries.mem_of_get? hv))

theorem map_under_of_spares {m : Renaming} {ks ls : List Lexeme} (hls : ∀ l ∈ ls, m.Spares l)
    (h : ks.map (Lexeme.under m) = ls) : ks = ls := by
  induction ks generalizing ls with
  | nil => exact h
  | cons k ks ih =>
    subst h
    rw [List.map_cons] at hls ⊢
    have hk := hls _ List.mem_cons_self k rfl
    have hks := ih (fun l hl => hls l (List.mem_cons_of_mem _ hl)) rfl
    rw [← hk, ← hks]

/-- Spared lexemes that stand side by side in the renamed text did so before. -/
theorem infix_of_lexemes_rename {m : Renaming} (hm : m.GivesNames) {s : Text}
    {as ls bs : List Lexeme} (hls : ∀ l ∈ ls, m.Spares l)
    (h : lexemes (rename m s) = as ++ (ls ++ bs)) : ls.flatMap Lexeme.text <:+: s := by
  rw [lexemes_rename hm] at h
  obtain ⟨as', rest, hs, -, hrest⟩ := List.map_eq_append_iff.mp h
  obtain ⟨ls', bs', rfl, hls', -⟩ := List.map_eq_append_iff.mp hrest
  rw [map_under_of_spares hls hls'] at hs
  have htext := flatMap_text_lexemes s
  rw [hs, List.flatMap_append, List.flatMap_append, ← List.append_assoc] at htext
  exact ⟨_, _, htext⟩

theorem flatMap_text_gaps (u : Text) : (u.map Lexeme.gap).flatMap Lexeme.text = u := by
  induction u with
  | nil => rfl
  | cons c u ih => rw [List.map_cons, List.flatMap_cons, ih, Lexeme.text, List.singleton_append]

/-- Characters that are in no word separate what is before them from what is after them. -/
theorem lexemes_append_gaps {u : Text} (hne : u ≠ []) (hu : ∀ c ∈ u, isWordChar c = false)
    (s t : Text) : lexemes (s ++ (u ++ t)) = lexemes s ++ (u.map Lexeme.gap ++ lexemes t) := by
  obtain ⟨c, u, rfl⟩ := List.exists_cons_of_ne_nil hne
  rw [List.cons_append, lexemes_append_gap (hu c List.mem_cons_self),
    lexemes_gaps_append fun d hd => hu d (List.mem_cons_of_mem c hd)]
  rfl

/-- Renaming makes no stretch of characters that are in no word. -/
theorem infix_of_infix_rename {m : Renaming} (hm : m.GivesNames) {u s : Text}
    (hu : ∀ c ∈ u, isWordChar c = false) (h : u <:+: rename m s) : u <:+: s := by
  by_cases hne : u = []
  · rw [hne]
    exact List.nil_infix
  obtain ⟨before, after, hs⟩ := h
  rw [List.append_assoc] at hs
  have hlexemes := lexemes_append_gaps hne hu before after
  rw [hs] at hlexemes
  have hspares : ∀ l ∈ u.map Lexeme.gap, m.Spares l := by
    intro l hl
    obtain ⟨c, -, rfl⟩ := List.mem_map.mp hl
    exact m.spares_gap c
  have hinfix := infix_of_lexemes_rename hm hspares hlexemes
  rwa [flatMap_text_gaps] at hinfix

/-- A word at the end of a text is the end of its last lexeme. -/
theorem lexemes_append_word {w : Text} (hw : IsWord w) (s : Text) :
    ∃ ls v, lexemes (s ++ w) = ls ++ [.word (v ++ w)] := by
  induction s with
  | nil => exact ⟨[], [], lexemes_of_isWord hw⟩
  | cons c s ih =>
    obtain ⟨ls, v, h⟩ := ih
    rw [List.cons_append, lexemes, h]
    cases hc : isWordChar c with
    | false => exact ⟨.gap c :: ls, v, push_gap hc _⟩
    | true =>
      cases ls with
      | nil => exact ⟨[], c :: v, by simp [Lexeme.push, hc]⟩
      | cons l ls =>
        cases l with
        | gap d => exact ⟨.word [c] :: .gap d :: ls, v, by simp [Lexeme.push, hc]⟩
        | word x => exact ⟨.word (c :: x) :: ls, v, by simp [Lexeme.push, hc]⟩

private theorem isWord_keyword : IsWord keyword :=
  ⟨by decide, List.all_eq_true.mp (by decide)⟩

/-- Renaming makes no declaration of a name that it does not give, if no name that it gives ends
like the keyword. -/
theorem declares_of_declares_rename {m : Renaming} (hm : m.GivesNames)
    (hkeyword : ∀ e ∈ m, ¬ keyword <:+ e.2) {s n : Text} (hn : ∀ e ∈ m, e.2 ≠ n)
    (h : Declares (rename m s) n) : Declares s n := by
  obtain ⟨gap, space, hspaced, before, after, hs⟩ := h
  have hgap : ∀ c ∈ gap, isWordChar c = false := fun c hc =>
    Text.not_isWordChar_of_isBlank (hspaced.gap_blank c hc)
  have hspace : ∀ c ∈ space ++ ['('], isWordChar c = false := by
    intro c hc
    rcases List.mem_append.mp hc with hc | hc
    · exact Text.not_isWordChar_of_isBlank (hspaced.space_blank c hc)
    · rw [List.mem_singleton.mp hc]
      decide
  have hsplit : (before ++ keyword) ++ (gap ++ (n ++ ((space ++ ['(']) ++ after))) = rename m s := by
    rw [← hs, header]
    simp only [List.append_assoc]
  obtain ⟨ls, v, hfirst⟩ := lexemes_append_word isWord_keyword before
  have hlexemes : lexemes (rename m s) = ls ++ ((.word (v ++ keyword) :: (gap.map Lexeme.gap ++
      .word n :: (space ++ ['(']).map Lexeme.gap)) ++ lexemes after) := by
    rw [← hsplit, lexemes_append_gaps hspaced.gap_ne_nil hgap, hfirst,
      lexemes_append_gaps (by simp) hspace, lexemes_of_isWord (isWord_of_isName hspaced.name)]
    simp only [List.append_assoc, List.cons_append, List.nil_append]
  have hspares : ∀ l ∈ .word (v ++ keyword) :: (gap.map Lexeme.gap ++
      .word n :: (space ++ ['(']).map Lexeme.gap), m.Spares l := by
    have hgaps : ∀ u : Text, ∀ l ∈ u.map Lexeme.gap, m.Spares l := by
      intro u l hl
      obtain ⟨c, -, rfl⟩ := List.mem_map.mp hl
      exact m.spares_gap c
    simp only [List.forall_mem_cons, List.forall_mem_append]
    refine ⟨m.spares_word fun e he heq => ?_, hgaps gap, m.spares_word hn, hgaps _⟩
    exact hkeyword e he (heq ▸ List.suffix_append v keyword)
  have hinfix := infix_of_lexemes_rename hm hspares hlexemes
  rw [List.flatMap_cons, List.flatMap_append, List.flatMap_cons, flatMap_text_gaps,
    flatMap_text_gaps, Lexeme.text, Lexeme.text, List.append_assoc] at hinfix
  exact ⟨gap, space, hspaced, (List.suffix_append v _).isInfix.trans hinfix⟩

end LuaTidy.Lua
