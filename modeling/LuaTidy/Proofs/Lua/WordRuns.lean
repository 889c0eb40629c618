import LuaTidy.Proofs.Lua.NamePattern
import Mathlib.Data.List.SplitBy

/-!
A text as maximal runs: word characters as far as they go, then other characters as far as they go,
and so on. Renaming maps the runs one by one. Where new names are names again, what it gives are the
runs of the new text, so that nothing is joined or split and renamings compose.
-/
namespace LuaTidy.Lua

/-- The maximal runs of word characters, and of other characters between them. -/
def runs (s : Text) : List Text := s.splitBy fun a b => isWordChar a == isWordChar b

/-- Whether a run consists of word characters. -/
def inWord (r : Text) : Bool := r.all isWordChar

/-- A run of word characters that does not begin with a digit. -/
def isNameRun (r : Text) : Bool := inWord r && !r.head?.any Char.isDigit

/-- A run after a renaming. -/
def Renaming.onRun (m : Renaming) (r : Text) : Text := if isNameRun r then m.image r else r

/-- Rename by one renaming, then by another one. -/
def Renaming.andThen (m₁ m₂ : Renaming) : Renaming :=
  m₁.map (fun e => (e.1, m₂.image e.2)) ++ m₂

/-- Stretches of characters of one kind, the kinds in turn. -/
structure Alternating (rs : List Text) : Prop where
  ne_nil : ∀ r ∈ rs, r ≠ []
  alike : ∀ r ∈ rs, ∀ c ∈ r, isWordChar c = inWord r
  in_turn : rs.IsChain fun r t => inWord r ≠ inWord t

theorem isDigit_eq (c : Char) : c.isDigit = ('0' ≤ c && c ≤ '9') := rfl

theorem not_isDigit_of_isNameStart {c : Char} (h : isNameStart c = true) : c.isDigit = false := by
  simp only [isNameStart, Bool.or_eq_true, Bool.and_eq_true, decide_eq_true_eq, beq_iff_eq,
    Text.le_iff_toNat_le, Char.reduceToNat] at h
  simp only [isDigit_eq, Bool.and_eq_false_iff, decide_eq_false_iff_not, Text.le_iff_toNat_le,
    Char.reduceToNat]
  rcases h with (h | h) | rfl
  · omega
  · omega
  · decide

theorem isNameStart_eq (c : Char) : isNameStart c = (isWordChar c && !c.isDigit) := by
  rw [isWordChar, ← isDigit_eq]
  cases hc : isNameStart c with
  | false => cases c.isDigit <;> rfl
  | true => rw [not_isDigit_of_isNameStart hc]; rfl

theorem isNameRun_eq {r : Text} (hne : r ≠ []) : isNameRun r = isName r := by
  obtain ⟨c, cs, rfl⟩ := List.exists_cons_of_ne_nil hne
  rw [isNameRun, inWord, isName, isNameStart_eq, List.all_cons, List.head?_cons, Option.any_some]
  cases isWordChar c <;> cases c.isDigit <;> simp

theorem alike_of_isChain {c : Char} {cs : Text}
    (h : (c :: cs).IsChain fun a b => (isWordChar a == isWordChar b) = true) :
    ∀ d ∈ c :: cs, isWordChar d = isWordChar c := by
  induction cs generalizing c with
  | nil => simp
  | cons e cs ih =>
    obtain ⟨hce, hrest⟩ := List.isChain_cons_cons.mp h
    intro d hd
    rcases List.mem_cons.mp hd with rfl | hd
    · rfl
    · rw [ih hrest d hd, eq_of_beq hce]

theorem inWord_of_alike {c : Char} {cs : Text} (h : ∀ d ∈ c :: cs, isWordChar d = isWordChar c) :
    inWord (c :: cs) = isWordChar c := by
  cases hc : isWordChar c with
  | false => simp [inWord, hc]
  | true =>
    rw [hc] at h
    exact List.all_eq_true.mpr h

theorem alternating_runs (s : Text) : Alternating (runs s) := by
  have hchain : ∀ r ∈ runs s, ∀ c ∈ r, isWordChar c = inWord r := by
    intro r hr c hc
    have halike := List.isChain_of_mem_splitBy hr
    cases r with
    | nil => cases hc
    | cons d ds => rw [alike_of_isChain halike c hc, inWord_of_alike (alike_of_isChain halike)]
  refine ⟨fun r hr => List.ne_nil_of_mem_splitBy hr, hchain, ?_⟩
  refine (List.isChain_getLast_head_splitBy _ s).imp_of_mem_imp fun r t hr ht h => ?_
  obtain ⟨hrne, htne, hdiffer⟩ := h
  rw [hchain r hr _ (List.getLast_mem hrne), hchain t ht _ (List.head_mem htne),
    beq_eq_false_iff_ne] at hdiffer
  exact hdiffer

theorem flatten_runs (s : Text) : (runs s).flatten = s := List.flatten_splitBy _ s

/-- Stretches in turn are the runs of the text that they make up. -/
theorem Alternating.runs_flatten {rs : List Text} (h : Alternating rs) : runs rs.flatten = rs := by
  refine List.splitBy_flatten (fun hnil => h.ne_nil _ hnil rfl) ?_ ?_
  · intro r hr
    refine (List.pairwise_of_forall_mem_list fun c hc d hd => ?_).isChain
    rw [h.alike r hr c hc, h.alike r hr d hd, beq_self_eq_true]
  · refine h.in_turn.imp_of_mem_imp fun r t hr ht hne => ⟨h.ne_nil r hr, h.ne_nil t ht, ?_⟩
    rw [h.alike r hr _ (List.getLast_mem _), h.alike t ht _ (List.head_mem _)]
    exact beq_eq_false_iff_ne.mpr hne

/-- The lexemes of a run: one word, or its characters one by one. -/
def runLexemes (r : Text) : List Lexeme := if inWord r then [.word r] else r.map .gap

theorem Alternating.tail {r : Text} {rs : List Text} (h : Alternating (r :: rs)) :
    Alternating rs :=
  ⟨fun t ht => h.ne_nil t (List.mem_cons_of_mem r ht),
    fun t ht => h.alike t (List.mem_cons_of_mem r ht), h.in_turn.tail⟩

/-- The character behind a run is of the other kind. -/
theorem Alternating.head?_flatten {r : Text} {rs : List Text} (h : Alternating (r :: rs)) :
    ∀ c ∈ rs.flatten.head?, isWordChar c ≠ inWord r := by
  intro c hc
  cases rs with
  | nil => cases hc
  | cons t rs =>
    obtain ⟨d, ds, rfl⟩ := List.exists_cons_of_ne_nil (h.ne_nil t (by simp))
    cases hc
    rw [h.alike (c :: ds) (by simp) c (by simp)]
    exact (List.isChain_cons_cons.mp h.in_turn).1.symm

theorem Alternating.lexemes_flatten {rs : List Text} (h : Alternating rs) :
    lexemes rs.flatten = rs.flatMap runLexemes := by
  induction rs with
  | nil => rfl
  | cons r rs ih =>
    have halike := h.alike r List.mem_cons_self
    have hhead := h.head?_flatten
    rw [List.flatten_cons, List.flatMap_cons, ← ih h.tail, runLexemes]
    cases hr : inWord r with
    | false =>
      rw [hr] at halike
      exact lexemes_gaps_append halike _
    | true =>
      rw [hr] at halike hhead
      have hw : IsWord r := ⟨h.ne_nil r List.mem_cons_self, halike⟩
      exact lexemes_word_append hw fun c hc => Bool.of_not_eq_true (hhead c hc)

theorem lexemes_eq_flatMap_runs (s : Text) : lexemes s = (runs s).flatMap runLexemes := by
  have h := (alternating_runs s).lexemes_flatten
  rwa [flatten_runs] at h

theorem name?_word_run {r : Text} (hne : r ≠ []) (hr : inWord r = true) :
    (Lexeme.word r).name? = Option.guard isNameRun r := by
  rw [Option.guard, isNameRun_eq hne]
  obtain ⟨c, cs, rfl⟩ := List.exists_cons_of_ne_nil hne
  have hcs : cs.all isWordChar = true := by
    rw [inWord, List.all_cons, Bool.and_eq_true] at hr
    exact hr.2
  rw [isName, hcs, Bool.and_true, Lexeme.name?]

theorem flatMap_rename_runLexemes (m : Renaming) {r : Text} (hne : r ≠ []) :
    (runLexemes r).flatMap (Lexeme.rename m) = m.onRun r := by
  rw [runLexemes]
  cases hr : inWord r with
  | false =>
    have hkept : m.onRun r = r := by simp [Renaming.onRun, isNameRun, hr]
    rw [hkept, if_neg Bool.false_ne_true, List.flatMap_map]
    exact List.flatMap_singleton' r
  | true =>
    rw [if_pos rfl, List.flatMap_singleton, Lexeme.rename, name?_word_run hne hr, Option.guard,
      Renaming.onRun]
    cases isNameRun r <;> rfl

theorem filterMap_name?_runLexemes {r : Text} (hne : r ≠ []) :
    (runLexemes r).filterMap Lexeme.name? = (Option.guard isNameRun r).toList := by
  rw [runLexemes]
  cases hr : inWord r with
  | false => simp [Option.guard, isNameRun, hr, Lexeme.name?, List.filterMap_map]
  | true =>
    rw [if_pos rfl, List.filterMap_cons, name?_word_run hne hr]
    cases Option.guard isNameRun r <;> rfl

theorem rename_eq_flatMap_runs (m : Renaming) (s : Text) :
    rename m s = (runs s).flatMap m.onRun := by
  rw [rename, lexemes_eq_flatMap_runs, List.flatMap_assoc]
  exact List.flatMap_congr fun r hr =>
    flatMap_rename_runLexemes m ((alternating_runs s).ne_nil r hr)

theorem names_eq_filter_runs (s : Text) : names s = (runs s).filter isNameRun := by
  rw [names, lexemes_eq_flatMap_runs, List.filterMap_flatMap, ← List.filterMap_eq_filter,
    List.filterMap_eq_flatMap_toList]
  exact List.flatMap_congr fun r hr =>
    filterMap_name?_runLexemes ((alternating_runs s).ne_nil r hr)

/-- A name run becomes a word, and every other run stays as it is. -/
theorem onRun_cases {m : Renaming} (hm : m.GivesNames) {r : Text} (hne : r ≠ []) :
    m.onRun r = r ∨ inWord r = true ∧ IsWord (m.onRun r) := by
  rw [Renaming.onRun]
  cases hr : isNameRun r with
  | false => exact Or.inl rfl
  | true =>
    have hword : inWord r = true := by
      rw [isNameRun, Bool.and_eq_true] at hr
      exact hr.1
    rw [isNameRun_eq hne] at hr
    exact Or.inr ⟨hword, isWord_of_isName (hm.image hr)⟩

theorem inWord_onRun {m : Renaming} (hm : m.GivesNames) {r : Text} (hne : r ≠ []) :
    inWord (m.onRun r) = inWord r := by
  rcases onRun_cases hm hne with h | ⟨hr, hw⟩
  · rw [h]
  · rw [hr]
    exact List.all_eq_true.mpr hw.2

/-- New names stand between the same runs as the old ones. -/
theorem Alternating.map_onRun {m : Renaming} (hm : m.GivesNames) {rs : List Text}
    (h : Alternating rs) : Alternating (rs.map m.onRun) := by
  refine ⟨?_, ?_, (List.isChain_map _).mpr (h.in_turn.imp_of_mem_imp fun r t hr ht hne => ?_)⟩
  · intro t ht
    obtain ⟨r, hr, rfl⟩ := List.mem_map.mp ht
    rcases onRun_cases hm (h.ne_nil r hr) with hr' | ⟨-, hw⟩
    · rw [hr']
      exact h.ne_nil r hr
    · exact hw.1
  · intro t ht c hc
    obtain ⟨r, hr, rfl⟩ := List.mem_map.mp ht
    rw [inWord_onRun hm (h.ne_nil r hr)]
    rcases onRun_cases hm (h.ne_nil r hr) with hr' | ⟨hword, hw⟩
    · rw [hr'] at hc
      exact h.alike r hr c hc
    · rw [hword]
      exact hw.2 c hc
  · rwa [inWord_onRun hm (h.ne_nil r hr), inWord_onRun hm (h.ne_nil t ht)]

theorem runs_rename {m : Renaming} (hm : m.GivesNames) (s : Text) :
    runs (rename m s) = (runs s).map m.onRun := by
  rw [rename_eq_flatMap_runs, List.flatMap_def]
  exact ((alternating_runs s).map_onRun hm).runs_flatten

theorem image_andThen (m₁ m₂ : Renaming) (x : Text) :
    (m₁.andThen m₂).image x = m₂.image (m₁.image x) := by
  rw [Renaming.andThen, Renaming.image, Entries.get?_append, Entries.get?_map]
  cases h : m₁.get? x with
  | none =>
    rw [Renaming.image_of_get?_none h]
    rfl
  | some v =>
    rw [Renaming.image_of_get? h]
    rfl

/-- Renaming replaces the maximal runs of word characters that do not begin with a digit and are
old names, all at once, as replacing by the pattern of names does. If all new names are names, the
runs of the new text are the old ones after the renaming, its names are the new ones of the old
names, and another renaming after it comes to a single one with the composed images. -/
theorem renamed_run_by_run (s : Text) :
    (∀ (m : Renaming) (out : Text), Replaced m none s out ↔ out = rename m s) ∧
      (∀ m : Renaming, rename m s = (runs s).flatMap m.onRun) ∧
      names s = (runs s).filter isNameRun ∧
      ∀ m₁ : Renaming, m₁.GivesNames →
        runs (rename m₁ s) = (runs s).map m₁.onRun ∧
        names (rename m₁ s) = (names s).map m₁.image ∧
        ∀ m₂ : Renaming, (∀ x, (m₁.andThen m₂).image x = m₂.image (m₁.image x)) ∧
          ∀ m : Renaming, (∀ x, m.image x = m₂.image (m₁.image x)) →
            rename m₂ (rename m₁ s) = rename m s := by
  refine ⟨fun m => replaced_iff m s, fun m => rename_eq_flatMap_runs m s, names_eq_filter_runs s,
    fun m₁ hm => ⟨runs_rename hm s, names_rename hm s, fun m₂ => ⟨image_andThen m₁ m₂, ?_⟩⟩⟩
  intro m himage
  exact rename_rename hm fun x _ => (himage x).symm

/-- Letters outside ASCII end a word, and a word that begins with a digit is no name. -/
theorem renamed_run_by_run_beside_foreign_letter :
    let s : Text := "éab 9ab=ab"
    let m₁ : Renaming := [("ab", "c")]
    let m₂ : Renaming := [("c", "d-e")]
    m₁.GivesNames ∧
      runs (rename m₁ s) = [['é'], ['c'], [' '], ['9', 'a', 'b'], ['='], ['c']] ∧
      rename m₂ (rename m₁ s) = ("éd-e 9ab=d-e" : Text) := by
  intro s m₁ m₂
  have hm : m₁.GivesNames := List.forall_mem_singleton.mpr (by decide)
  obtain ⟨-, -, -, hafter⟩ := renamed_run_by_run s
  obtain ⟨hruns, -, hcompose⟩ := hafter m₁ hm
  obtain ⟨himage, hrename⟩ := hcompose m₂
  refine ⟨hm, ?_, ?_⟩
  · rw [hruns]
    decide
  · rw [hrename _ himage]
    decide

end LuaTidy.Lua
