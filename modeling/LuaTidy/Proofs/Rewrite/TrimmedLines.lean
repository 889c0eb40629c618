import LuaTidy.Rewrite.Layout
import LuaTidy.Proofs.Text.Parts
import LuaTidy.Proofs.Text.Trimming

/-!
The lines of an indented text. They are the trimmed lines of the text it comes from with spaces
before them, so that trimming gives the same lines again: indenting looks at nothing else, and what
was there of earlier indentation is gone.
-/
namespace LuaTidy.Indentation
open Text (isBlank)

/-- The lines of a text without the blanks at both ends of each. -/
def trimmedLines (s : Text) : List Text := (Text.lines s).map Text.strip

theorem trimmedLines_ne_nil (s : Text) : trimmedLines s ≠ [] := by
  obtain ⟨l, ls, hl⟩ := Text.exists_splitAt_eq_cons '\n' s
  rw [trimmedLines, Text.lines, hl]
  exact List.cons_ne_nil _ _

theorem not_mem_of_mem_trimmedLines {s line : Text} (h : line ∈ trimmedLines s) : '\n' ∉ line := by
  obtain ⟨l, hl, rfl⟩ := List.mem_map.mp h
  exact fun hc => Text.not_mem_of_mem_splitAt hl (Text.mem_of_mem_trim hc)

theorem strip_of_mem_trimmedLines {s line : Text} (h : line ∈ trimmedLines s) :
    Text.strip line = line := by
  obtain ⟨l, -, rfl⟩ := List.mem_map.mp h
  exact Text.trim_trim isBlank l

theorem eq_of_mem_margin {width : Int} {level : Nat} {c : Char} (h : c ∈ margin width level) :
    c = ' ' := by
  obtain ⟨spaces, hspaces, hc⟩ := List.mem_flatten.mp h
  rw [List.eq_of_mem_replicate hspaces] at hc
  exact List.eq_of_mem_replicate hc

/-- A line in an indented text is one of the lines that were indented, behind its margin. -/
theorem exists_of_mem_indentFrom {width : Int} {level : Nat} {ls : List Text} {l : Text}
    (h : l ∈ indentFrom width level ls) : ∃ m, ∃ line ∈ ls, l = margin width m ++ line := by
  induction ls generalizing level with
  | nil => cases h
  | cons line ls ih =>
    rw [indentFrom, List.mem_cons] at h
    rcases h with rfl | h
    · exact ⟨_, line, List.mem_cons_self, rfl⟩
    · obtain ⟨m, line', hline', rfl⟩ := ih h
      exact ⟨m, line', List.mem_cons_of_mem _ hline', rfl⟩

theorem indentFrom_ne_nil (width : Int) (level : Nat) {ls : List Text} (h : ls ≠ []) :
    indentFrom width level ls ≠ [] := by
  cases ls with
  | nil => exact absurd rfl h
  | cons line ls => exact List.cons_ne_nil _ _

theorem map_strip_indentFrom (width : Int) (level : Nat) {ls : List Text}
    (h : ∀ line ∈ ls, Text.strip line = line) :
    (indentFrom width level ls).map Text.strip = ls := by
  induction ls generalizing level with
  | nil => rfl
  | cons line ls ih =>
    have hmargin : ∀ c ∈ margin width (levelAt level line), isBlank c = true := by
      intro c hc
      rw [eq_of_mem_margin hc]
      decide
    have hline : Text.strip (margin width (levelAt level line) ++ line) = line :=
      (Text.trim_append_of_all hmargin line).trans (h line List.mem_cons_self)
    rw [indentFrom, List.map_cons, hline, ih _ fun l hl => h l (List.mem_cons_of_mem _ hl)]

theorem lines_reindent (width : Int) (s : Text) :
    Text.lines (reindent width s).text = indentFrom width 0 (trimmedLines s) := by
  apply Text.splitAt_joinWith (indentFrom_ne_nil width 0 (trimmedLines_ne_nil s))
  intro l hl hc
  obtain ⟨m, line, hline, rfl⟩ := exists_of_mem_indentFrom hl
  rcases List.mem_append.mp hc with hc | hc
  · exact absurd (eq_of_mem_margin hc) (by decide)
  · exact not_mem_of_mem_trimmedLines hline hc

theorem trimmedLines_reindent (width : Int) (s : Text) :
    trimmedLines (reindent width s).text = trimmedLines s := by
  rw [trimmedLines, lines_reindent]
  exact map_strip_indentFrom width 0 fun _ h => strip_of_mem_trimmedLines h

theorem reindent_text_congr (width : Int) {s t : Text} (h : trimmedLines s = trimmedLines t) :
    (reindent width s).text = (reindent width t).text :=
  congrArg (fun ls => Text.unlines (indentFrom width 0 ls)) h

/-- A text that is indented to itself does not count. -/
theorem reindent_eq_of_text_eq {width : Int} {s : Text} (h : (reindent width s).text = s) :
    reindent width s = ⟨s, 0⟩ := by
  have hhits : (reindent width s).hits = if (reindent width s).text = s then 0 else 1 := rfl
  rw [if_pos h] at hhits
  calc reindent width s = ⟨(reindent width s).text, (reindent width s).hits⟩ := rfl
    _ = ⟨s, 0⟩ := by rw [h, hhits]

/-- Indenting an indented text anew, be it by another width, is indenting the text it comes from; by
the same width it changes nothing and counts nothing. Just the trimmed lines of a text can be told
from it when it is indented. -/
theorem earlier_margins_forgotten (w₁ w₂ : Int) (s : Text) :
    (reindent w₂ (reindent w₁ s).text).text = (reindent w₂ s).text ∧
      reindent w₁ (reindent w₁ s).text = ⟨(reindent w₁ s).text, 0⟩ ∧
      ∀ t, (reindent w₁ t).text = (reindent w₁ s).text ↔ trimmedLines t = trimmedLines s := by
  have hagain : ∀ w, (reindent w (reindent w₁ s).text).text = (reindent w s).text := fun w =>
    reindent_text_congr w (trimmedLines_reindent w₁ s)
  refine ⟨hagain w₂, reindent_eq_of_text_eq (hagain w₁), fun t => ⟨fun h => ?_, ?_⟩⟩
  · rw [← trimmedLines_reindent w₁ t, h, trimmedLines_reindent]
  · exact reindent_text_congr w₁

end LuaTidy.Indentation
