import LuaTidy.Lua.Identifier
import LuaTidy.Proofs.Entries
import LuaTidy.Proofs.Lua.Lexemes

/-!
A renaming acts on the lexemes of a text one by one. When every new name is a name again, the
lexemes of the renamed text are the renamed lexemes, so that two renamings one after the other are
a single one.
-/
namespace LuaTidy.Lua

/-- Every new name has the shape of a name. -/
def Renaming.GivesNames (m : Renaming) : Prop := ∀ e ∈ m, isName e.2 = true

/-- The lexeme that takes the place of a lexeme under a renaming. -/
def Lexeme.under (m : Renaming) (l : Lexeme) : Lexeme :=
  match l.name? with
  | some n => .word (m.image n)
  | none => l

@[simp] theorem Renaming.image_nil (n : Text) : Renaming.image [] n = n := rfl

theorem Renaming.image_of_get? {m : Renaming} {n v : Text} (h : m.get? n = some v) :
    m.image n = v := by simp [image, h]

theorem Renaming.image_of_get?_none {m : Renaming} {n : Text} (h : m.get? n = none) :
    m.image n = n := by simp [image, h]

theorem Renaming.GivesNames.image {m : Renaming} (hm : m.GivesNames) {n : Text}
    (hn : isName n = true) : isName (m.image n) = true := by
  cases h : m.get? n with
  | none => rwa [Renaming.image_of_get?_none h]
  | some v =>
    rw [Renaming.image_of_get? h]
    exact hm _ (Entries.mem_of_get? h)

theorem Lexeme.under_of_name? {m : Renaming} {l : Lexeme} {n : Text} (h : l.name? = some n) :
    l.under m = .word (m.image n) := by simp [under, h]

theorem Lexeme.under_of_name?_none {m : Renaming} {l : Lexeme} (h : l.name? = none) :
    l.under m = l := by simp [under, h]

theorem Lexeme.text_under (m : Renaming) (l : Lexeme) : (l.under m).text = l.rename m := by
  cases h : l.name? with
  | none => rw [under_of_name?_none h, rename, h]
  | some n => rw [under_of_name? h, rename, h, text]

theorem rename_eq_flatMap_under (m : Renaming) (s : Text) :
    rename m s = ((lexemes s).map (Lexeme.under m)).flatMap Lexeme.text := by
  simp [rename, List.flatMap_map, Lexeme.text_under]

private theorem under_word {m : Renaming} (hm : m.GivesNames) {w : Text} (hw : IsWord w) :
    ∃ v, (Lexeme.word w).under m = .word v ∧ IsWord v := by
  cases h : (Lexeme.word w).name? with
  | none => exact ⟨w, Lexeme.under_of_name?_none h, hw⟩
  | some n =>
    obtain ⟨he, c, cs, rfl, hc⟩ := Lexeme.word_of_name? h
    cases he
    have hn : isName (c :: cs) = true := by
      simp only [isName, hc, Bool.true_and, List.all_eq_true]
      exact fun d hd => hw.2 d (List.mem_cons_of_mem _ hd)
    exact ⟨_, Lexeme.under_of_name? h, isWord_of_isName (hm.image hn)⟩

theorem Separated.map_under {ls : List Lexeme} (h : Separated ls) {m : Renaming}
    (hm : m.GivesNames) : Separated (ls.map (Lexeme.under m)) := by
  induction h with
  | nil => exact .nil
  | gap c ls hc h ih => exact .gap c _ hc ih
  | last w hw =>
    obtain ⟨v, hv, hvw⟩ := under_word hm hw
    rw [List.map_cons, hv]
    exact .last v hvw
  | word w c ls hw hc h ih =>
    obtain ⟨v, hv, hvw⟩ := under_word hm hw
    rw [List.map_cons, List.map_cons, hv]
    exact .word v c _ hvw hc ih

theorem lexemes_rename {m : Renaming} (hm : m.GivesNames) (s : Text) :
    lexemes (rename m s) = (lexemes s).map (Lexeme.under m) := by
  rw [rename_eq_flatMap_under]
  exact lexemes_flatMap_text ((separated_lexemes s).map_under hm)

theorem Lexeme.name?_under {m : Renaming} (hm : m.GivesNames) (l : Lexeme) :
    (l.under m).name? = l.name?.map m.image := by
  cases h : l.name? with
  | none => rw [under_of_name?_none h, h, Option.map_none]
  | some n =>
    rw [under_of_name? h, Option.map_some]
    cases hv : m.get? n with
    | none =>
      rw [Renaming.image_of_get?_none hv, ← (word_of_name? h).1]
      exact h
    | some v =>
      rw [Renaming.image_of_get? hv]
      exact name?_word (hm _ (Entries.mem_of_get? hv))

/-- The tokens of the renamed text are the new names of the tokens, one by one. -/
theorem names_rename {m : Renaming} (hm : m.GivesNames) (s : Text) :
    names (rename m s) = (names s).map m.image := by
  rw [names, names, lexemes_rename hm, List.filterMap_map, List.map_filterMap]
  exact List.filterMap_congr fun l _ => Lexeme.name?_under hm l

theorem rename_nil (s : Text) : rename [] s = s := by
  have hl : ∀ l : Lexeme, l.rename [] = l.text := by
    intro l
    cases h : l.name? with
    | none => simp [Lexeme.rename, h]
    | some n =>
      obtain ⟨rfl, -⟩ := Lexeme.word_of_name? h
      simp [Lexeme.rename, h, Lexeme.text]
  rw [rename, List.flatMap_congr (fun l _ => hl l), flatMap_text_lexemes]

/-- Two renamings one after the other rename like any single one that agrees with their
composition on the identifier tokens of the text. -/
theorem rename_rename {m₁ m₂ m : Renaming} (hm : m₁.GivesNames) {s : Text}
    (h : ∀ n ∈ names s, m₂.image (m₁.image n) = m.image n) :
    rename m₂ (rename m₁ s) = rename m s := by
  rw [rename, lexemes_rename hm, List.flatMap_map, rename]
  apply List.flatMap_congr
  intro l hl
  cases hn : l.name? with
  | none => rw [Lexeme.under_of_name?_none hn, Lexeme.rename, Lexeme.rename, hn]
  | some n =>
    have hname : n ∈ names s := (mem_names_iff s n).mpr ⟨l, hl, hn⟩
    have hw := Lexeme.name?_word (hm.image (isName_of_mem_names hname))
    rw [Lexeme.under_of_name? hn, Lexeme.rename, Lexeme.rename, hw, hn]
    exact h n hname

/-- A renaming that leaves every token as it is leaves the text as it is. -/
theorem rename_of_image_eq {m : Renaming} {s : Text} (h : ∀ n ∈ names s, m.image n = n) :
    rename m s = s := by
  have hnone : Renaming.GivesNames [] := fun e he => absurd he List.not_mem_nil
  have hrename : rename m (rename [] s) = rename [] s := rename_rename hnone h
  rwa [rename_nil] at hrename

end LuaTidy.Lua
