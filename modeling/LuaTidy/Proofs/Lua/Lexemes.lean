import LuaTidy.Lua.Identifier
import Mathlib.Data.List.Basic

/-!
The lexemes of a text are the only way to split it into words and single other characters in which
no two words touch. Whatever keeps words apart may therefore be done to the lexemes themselves.
-/
namespace LuaTidy.Lua

/-- A name: a word that does not begin with a digit. -/
def isName : Text → Bool
  | [] => false
  | c :: cs => isNameStart c && cs.all isWordChar

/-- A word: one or more word characters. -/
def IsWord (w : Text) : Prop := w ≠ [] ∧ ∀ c ∈ w, isWordChar c = true

/-- Lexemes in which words are kept apart by other characters. -/
inductive Separated : List Lexeme → Prop
  | nil : Separated []
  | gap (c : Char) (ls : List Lexeme) (hc : isWordChar c = false) (h : Separated ls) :
      Separated (.gap c :: ls)
  | last (w : Text) (hw : IsWord w) : Separated [.word w]
  | word (w : Text) (c : Char) (ls : List Lexeme) (hw : IsWord w) (hc : isWordChar c = false)
      (h : Separated ls) : Separated (.word w :: .gap c :: ls)

theorem isWordChar_of_isNameStart {c : Char} (h : isNameStart c = true) : isWordChar c = true := by
  simp [isWordChar, h]

theorem isWord_of_isName {w : Text} (h : isName w = true) : IsWord w := by
  cases w with
  | nil => simp [isName] at h
  | cons c cs =>
    simp only [isName, Bool.and_eq_true, List.all_eq_true] at h
    refine ⟨List.cons_ne_nil _ _, ?_⟩
    intro d hd
    rcases List.mem_cons.mp hd with rfl | hd
    · exact isWordChar_of_isNameStart h.1
    · exact h.2 d hd

theorem IsWord.cons {c : Char} {w : Text} (hc : isWordChar c = true)
    (hw : ∀ d ∈ w, isWordChar d = true) : IsWord (c :: w) :=
  ⟨List.cons_ne_nil _ _, fun d hd => by
    rcases List.mem_cons.mp hd with rfl | hd
    · exact hc
    · exact hw d hd⟩

theorem push_gap {c : Char} (hc : isWordChar c = false) (ls : List Lexeme) :
    Lexeme.push c ls = .gap c :: ls := by simp [Lexeme.push, hc]

private theorem separated_push (c : Char) {ls : List Lexeme} (h : Separated ls) :
    Separated (Lexeme.push c ls) := by
  cases hc : isWordChar c with
  | false =>
    rw [push_gap hc]
    exact .gap c ls hc h
  | true =>
    simp only [Lexeme.push, hc, if_true]
    cases h with
    | nil => exact .last [c] (.cons hc (by simp))
    | gap d ls hd h => exact .word [c] d ls (.cons hc (by simp)) hd h
    | last w hw => exact .last (c :: w) (.cons hc hw.2)
    | word w d ls hw hd h => exact .word (c :: w) d ls (.cons hc hw.2) hd h

theorem separated_lexemes (s : Text) : Separated (lexemes s) := by
  induction s with
  | nil => exact .nil
  | cons c cs ih => exact separated_push c ih

theorem lexemes_append (s t : Text) : lexemes (s ++ t) = s.foldr Lexeme.push (lexemes t) := by
  induction s with
  | nil => rfl
  | cons c cs ih => rw [List.cons_append, lexemes, ih, List.foldr_cons]

private theorem foldr_push_gap (s : Text) (c : Char) (ls : List Lexeme) :
    s.foldr Lexeme.push (.gap c :: ls) = s.foldr Lexeme.push [] ++ .gap c :: ls := by
  induction s with
  | nil => rfl
  | cons d s ih =>
    rw [List.foldr_cons, List.foldr_cons, ih]
    cases s.foldr Lexeme.push [] with
    | nil => cases hd : isWordChar d <;> simp [Lexeme.push, hd]
    | cons l more =>
      cases l with
      | word w => cases hd : isWordChar d <;> simp [Lexeme.push, hd]
      | gap e => cases hd : isWordChar d <;> simp [Lexeme.push, hd]

/-- The lexemes on the two sides of a character that is in no word do not depend on one another. -/
theorem lexemes_append_gap {c : Char} (hc : isWordChar c = false) (s t : Text) :
    lexemes (s ++ c :: t) = lexemes s ++ .gap c :: lexemes t := by
  have hgap : lexemes (c :: t) = .gap c :: lexemes t := by
    rw [lexemes, push_gap hc]
  have hs := lexemes_append s []
  rw [List.append_nil] at hs
  rw [lexemes_append, hgap, foldr_push_gap, hs]
  rfl

theorem lexemes_gaps_append {u : Text} (hu : ∀ c ∈ u, isWordChar c = false) (t : Text) :
    lexemes (u ++ t) = u.map .gap ++ lexemes t := by
  induction u with
  | nil => rfl
  | cons c u ih =>
    rw [List.cons_append, lexemes, push_gap (hu c List.mem_cons_self),
      ih fun d hd => hu d (List.mem_cons_of_mem c hd)]
    rfl

private theorem foldr_push_word {w : Text} (hw : IsWord w) {ls : List Lexeme}
    (hls : ∀ v more, ls ≠ .word v :: more) : w.foldr Lexeme.push ls = .word w :: ls := by
  obtain ⟨hne, hall⟩ := hw
  induction w with
  | nil => exact absurd rfl hne
  | cons c cs ih =>
    have hc : isWordChar c = true := hall c List.mem_cons_self
    rw [List.foldr_cons]
    cases cs with
    | nil =>
      cases ls with
      | nil => simp [Lexeme.push, hc]
      | cons l more =>
        cases l with
        | gap d => simp [Lexeme.push, hc]
        | word v => exact absurd rfl (hls v more)
    | cons d ds =>
      rw [ih (List.cons_ne_nil _ _) (fun x hx => hall x (List.mem_cons_of_mem _ hx))]
      simp [Lexeme.push, hc]

/-- Separated lexemes are the lexemes of the text that they make up. -/
theorem lexemes_flatMap_text {ls : List Lexeme} (h : Separated ls) :
    lexemes (ls.flatMap Lexeme.text) = ls := by
  induction h with
  | nil => rfl
  | gap c ls hc h ih =>
    rw [List.flatMap_cons, Lexeme.text, List.singleton_append, lexemes, ih, push_gap hc]
  | last w hw =>
    have hw' : w.foldr Lexeme.push [] = [.word w] := foldr_push_word hw (by simp)
    simpa [Lexeme.text, lexemes] using (lexemes_append w []).trans hw'
  | word w c ls hw hc h ih =>
    have hgap : lexemes (c :: ls.flatMap Lexeme.text) = .gap c :: ls := by
      rw [lexemes, ih, push_gap hc]
    simp only [List.flatMap_cons, Lexeme.text, List.singleton_append]
    rw [lexemes_append, hgap]
    exact foldr_push_word hw (by simp)

theorem lexemes_of_isWord {w : Text} (hw : IsWord w) : lexemes w = [.word w] := by
  simpa [Lexeme.text] using lexemes_flatMap_text (.last w hw)

theorem Separated.mem {ls : List Lexeme} (h : Separated ls) {l : Lexeme} (hl : l ∈ ls) :
    (∀ w, l = .word w → IsWord w) ∧ ∀ c, l = .gap c → isWordChar c = false := by
  induction h with
  | nil => simp at hl
  | gap c ls hc h ih =>
    rcases List.mem_cons.mp hl with rfl | hl
    · simp [hc]
    · exact ih hl
  | last w hw =>
    cases List.mem_singleton.mp hl
    simp [hw]
  | word w c ls hw hc h ih =>
    rcases List.mem_cons.mp hl with rfl | hl
    · simp [hw]
    · rcases List.mem_cons.mp hl with rfl | hl
      · simp [hc]
      · exact ih hl

theorem Lexeme.word_of_name? {l : Lexeme} {n : Text} (h : l.name? = some n) :
    l = .word n ∧ ∃ c cs, n = c :: cs ∧ isNameStart c = true := by
  cases l with
  | gap c => simp [Lexeme.name?] at h
  | word w =>
    cases w with
    | nil => simp [Lexeme.name?] at h
    | cons c cs =>
      cases hc : isNameStart c with
      | false => simp [Lexeme.name?, hc] at h
      | true =>
        simp only [Lexeme.name?, hc, if_true, Option.some.injEq] at h
        subst h
        exact ⟨rfl, c, cs, rfl, hc⟩

theorem Lexeme.name?_word {w : Text} (h : isName w = true) : (Lexeme.word w).name? = some w := by
  cases w with
  | nil => simp [isName] at h
  | cons c cs =>
    simp only [isName, Bool.and_eq_true] at h
    simp [Lexeme.name?, h.1]

theorem names_append_gap {c : Char} (hc : isWordChar c = false) (s t : Text) :
    names (s ++ c :: t) = names s ++ names t := by
  rw [names, lexemes_append_gap hc, List.filterMap_append, List.filterMap_cons_none rfl]
  rfl

theorem names_of_isName {n : Text} (h : isName n = true) : names n = [n] := by
  rw [names, lexemes_of_isWord (isWord_of_isName h), List.filterMap_cons_some (Lexeme.name?_word h)]
  rfl

theorem mem_names_iff (s : Text) (n : Text) :
    n ∈ names s ↔ ∃ l ∈ lexemes s, l.name? = some n := by
  simp [names, List.mem_filterMap]

theorem isName_of_mem_names {s n : Text} (h : n ∈ names s) : isName n = true := by
  obtain ⟨l, hl, hn⟩ := (mem_names_iff s n).mp h
  obtain ⟨rfl, c, cs, rfl, hc⟩ := Lexeme.word_of_name? hn
  have hw := ((separated_lexemes s).mem hl).1 _ rfl
  simp only [isName, hc, Bool.true_and, List.all_eq_true]
  intro d hd
  exact hw.2 d (List.mem_cons_of_mem _ hd)

end LuaTidy.Lua
