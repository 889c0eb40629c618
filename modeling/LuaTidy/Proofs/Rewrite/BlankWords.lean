import LuaTidy.Proofs.Rewrite.BlankRuns
import LuaTidy.Proofs.Text.Parts
import LuaTidy.Proofs.Text.Trimming

/-!
The words of a text are its stretches without blanks, each as long as it goes. Normalizing blanks
keeps them; where it rewrites a text, it leaves them with one space between two of them, and such a
text has no long run of blanks, so that it is left alone from then on.
-/
namespace LuaTidy.Blanks
open Text (isBlank joinWith)

/-- One or more characters, none of them blank. -/
def IsWord (w : Text) : Prop := w ≠ [] ∧ ∀ c ∈ w, isBlank c = false

/-- The words of a text: the parts between its blanks that are not empty. -/
def words (s : Text) : List Text := (s.splitOnP isBlank).filter (!·.isEmpty)

/-- A text is blanks only; or it has blanks, a word that ends where a blank or nothing follows, and
a rest with the other words. -/
inductive Worded : Text → List Text → Prop
  | blank (gap : Text) (hgap : ∀ c ∈ gap, isBlank c = true) : Worded gap []
  | word (gap w rest : Text) (ws : List Text) (hgap : ∀ c ∈ gap, isBlank c = true) (hw : IsWord w)
      (hend : ∀ c ∈ rest.head?, isBlank c = true) (hrest : Worded rest ws) :
      Worded (gap ++ (w ++ rest)) (w :: ws)

theorem words_nil : words [] = [] := by simp [words, List.splitOnP_nil]

theorem words_append_blank {c : Char} (hc : isBlank c = true) (s t : Text) :
    words (s ++ c :: t) = words s ++ words t := by
  rw [words, List.splitOnP_append_cons s t hc, List.filter_append]
  rfl

theorem words_blanks_append {gap : Text} (hgap : ∀ c ∈ gap, isBlank c = true) (t : Text) :
    words (gap ++ t) = words t := by
  induction gap with
  | nil => rfl
  | cons c gap ih =>
    have hc := words_append_blank (hgap c List.mem_cons_self) [] (gap ++ t)
    rw [List.nil_append, words_nil, List.nil_append] at hc
    rw [List.cons_append, hc]
    exact ih fun d hd => hgap d (List.mem_cons_of_mem c hd)

theorem words_of_isWord {w : Text} (hw : IsWord w) : words w = [w] := by
  rw [words, List.splitOnP_eq_singleton hw.2]
  simp [hw.1]

theorem Worded.blank_cons {c : Char} {s : Text} {ws : List Text} (h : Worded s ws)
    (hc : isBlank c = true) : Worded (c :: s) ws := by
  cases h with
  | blank gap hgap => exact .blank (c :: s) (List.forall_mem_cons.mpr ⟨hc, hgap⟩)
  | word gap w rest ws hgap hw hend hrest =>
    exact .word (c :: gap) w rest ws (List.forall_mem_cons.mpr ⟨hc, hgap⟩) hw hend hrest

/-- Every text has words. -/
theorem exists_worded (s : Text) : ∃ ws, Worded s ws := by
  induction s with
  | nil => exact ⟨[], .blank [] (by simp)⟩
  | cons c s ih =>
    obtain ⟨ws, hs⟩ := ih
    cases hc : isBlank c with
    | true => exact ⟨ws, hs.blank_cons hc⟩
    | false =>
      have hfirst : IsWord [c] := ⟨List.cons_ne_nil c [], List.forall_mem_singleton.mpr hc⟩
      have hstart (hend : ∀ d ∈ s.head?, isBlank d = true) : ∃ vs, Worded (c :: s) vs :=
        ⟨[c] :: ws, .word [] [c] s ws (by simp) hfirst hend hs⟩
      cases hs with
      | blank gap hgap => exact hstart fun d hd => hgap d (List.mem_of_head? hd)
      | word gap w rest ws hgap hw hend hrest =>
        cases gap with
        | cons d gap =>
          refine hstart fun e he => ?_
          cases he
          exact hgap d List.mem_cons_self
        | nil =>
          -- the character belongs to the word behind it
          have hlonger : IsWord (c :: w) :=
            ⟨List.cons_ne_nil c w, List.forall_mem_cons.mpr ⟨hc, hw.2⟩⟩
          exact ⟨(c :: w) :: ws, .word [] (c :: w) rest ws (by simp) hlonger hend hrest⟩

theorem Worded.eq_words {s : Text} {ws : List Text} (h : Worded s ws) : ws = words s := by
  induction h with
  | blank gap hgap =>
    have hnone := words_blanks_append hgap []
    rw [List.append_nil, words_nil] at hnone
    exact hnone.symm
  | word gap w rest ws hgap hw hend hrest ih =>
    rw [words_blanks_append hgap, ih]
    cases rest with
    | nil => rw [List.append_nil, words_of_isWord hw, words_nil]
    | cons c rest =>
      have hc := hend c rfl
      have hskip := words_blanks_append (List.forall_mem_singleton.mpr hc) rest
      rw [words_append_blank hc, words_of_isWord hw, ← hskip]
      rfl

/-- A text has its words and no others. -/
theorem worded_iff (s : Text) (ws : List Text) : Worded s ws ↔ ws = words s := by
  constructor
  · exact Worded.eq_words
  · rintro rfl
    obtain ⟨vs, hs⟩ := exists_worded s
    rwa [← hs.eq_words]

theorem Worded.isWord {s : Text} {ws : List Text} (h : Worded s ws) : ∀ w ∈ ws, IsWord w := by
  induction h with
  | blank gap hgap => simp
  | word gap w rest ws hgap hw hend hrest ih => exact List.forall_mem_cons.mpr ⟨hw, ih⟩

theorem isWord_words (s : Text) : ∀ w ∈ words s, IsWord w := ((worded_iff s _).mpr rfl).isWord

/-- Words with a space between two of them are the words of what they make up. -/
theorem worded_joinWith {ws : List Text} (h : ∀ w ∈ ws, IsWord w) : Worded (joinWith [' '] ws) ws := by
  induction ws with
  | nil => exact .blank [] (by simp)
  | cons w ws ih =>
    obtain ⟨hw, hws⟩ := List.forall_mem_cons.mp h
    cases ws with
    | nil =>
      have hone := Worded.word [] w [] [] (by simp) hw (by simp) (.blank [] (by simp))
      simpa [joinWith] using hone
    | cons v ws =>
      have hspace : isBlank ' ' = true := by decide
      rw [Text.joinWith_cons_cons, List.append_assoc]
      exact .word [] w _ (v :: ws) (by simp) hw (by simpa using hspace) ((ih hws).blank_cons hspace)

theorem not_isBlank_of_mem_head?_joinWith {ws : List Text} (h : ∀ w ∈ ws, IsWord w) :
    ∀ c ∈ (joinWith [' '] ws).head?, isBlank c = false := by
  cases ws with
  | nil => simp [joinWith]
  | cons w ws =>
    obtain ⟨hne, hw⟩ := h w List.mem_cons_self
    obtain ⟨t, ht⟩ := Text.exists_joinWith_cons [' '] w ws
    rw [ht, List.head?_append_of_ne_nil _ hne]
    exact fun c hc => hw c (List.mem_of_head? hc)

theorem not_isBlank_of_mem_getLast?_joinWith {ws : List Text} (h : ∀ w ∈ ws, IsWord w) :
    ∀ c ∈ (joinWith [' '] ws).getLast?, isBlank c = false := by
  fun_induction joinWith [' '] ws with
  | case1 => simp
  | case2 w => exact fun c hc => (h w List.mem_cons_self).2 c (List.mem_of_getLast? hc)
  | case3 w ws hws ih =>
    obtain ⟨v, vs, rfl⟩ := List.exists_cons_of_ne_nil hws
    obtain ⟨-, hvs⟩ := List.forall_mem_cons.mp h
    obtain ⟨t, ht⟩ := Text.exists_joinWith_cons [' '] v vs
    have hne : joinWith [' '] (v :: vs) ≠ [] := by
      rw [ht]
      exact List.append_ne_nil_of_left_ne_nil (hvs v List.mem_cons_self).1 t
    rw [List.getLast?_append_of_ne_nil _ hne]
    exact ih hvs

/-- No long run of blanks is left. -/
theorem hasLongRun_joinWith {ws : List Text} (h : ∀ w ∈ ws, IsWord w) :
    hasLongRun (joinWith [' '] ws) = false := by
  fun_induction joinWith [' '] ws with
  | case1 => rfl
  | case2 w =>
    have hw := hasLongRun_append_of_no_blank (h w List.mem_cons_self).2 []
    rwa [List.append_nil] at hw
  | case3 w ws hws ih =>
    obtain ⟨hw, hvs⟩ := List.forall_mem_cons.mp h
    rw [List.append_assoc, hasLongRun_append_of_no_blank hw.2]
    cases hjoin : joinWith [' '] ws with
    | nil => rfl
    | cons c t =>
      -- the character behind the space is no blank
      have hc := not_isBlank_of_mem_head?_joinWith hvs c (by rw [hjoin, List.head?_cons]; rfl)
      have hrest := hasLongRun_append_cons hc [] t
      rw [hjoin] at ih
      exact (hasLongRun_append_cons hc [' '] t).trans (hrest.symm.trans (ih hvs))

theorem squeeze_blanks_append {gap : Text} (hgap : ∀ c ∈ gap, isBlank c = true) (t : Text) :
    squeeze true (gap ++ t) = squeeze true t := by
  induction gap with
  | nil => rfl
  | cons c gap ih =>
    rw [List.cons_append, squeeze, if_pos (hgap c List.mem_cons_self), if_pos rfl]
    exact ih fun d hd => hgap d (List.mem_cons_of_mem c hd)

theorem squeeze_word_append {w : Text} (hw : IsWord w) (inRun : Bool) (t : Text) :
    squeeze inRun (w ++ t) = w ++ squeeze false t := by
  obtain ⟨hne, hall⟩ := hw
  induction w generalizing inRun with
  | nil => exact absurd rfl hne
  | cons c w ih =>
    obtain ⟨hc, hw⟩ := List.forall_mem_cons.mp hall
    rw [List.cons_append, squeeze, if_neg (by simp [hc])]
    cases w with
    | nil => rfl
    | cons d w =>
      rw [ih false (List.cons_ne_nil d w) hw]
      rfl

/-- Outside a run of blanks, squeezing begins with at most one space more. -/
theorem exists_squeeze_false_eq (s : Text) :
    ∃ l : Text, (∀ c ∈ l, isBlank c = true) ∧ squeeze false s = l ++ squeeze true s := by
  cases s with
  | nil => exact ⟨[], by simp, rfl⟩
  | cons c s =>
    cases hc : isBlank c with
    | true => exact ⟨[' '], List.forall_mem_singleton.mpr (by decide), by simp [squeeze, hc]⟩
    | false => exact ⟨[], by simp, by simp [squeeze, hc]⟩

/-- Behind a blank, squeezing leaves the words with spaces between them, and then a space at most. -/
theorem Worded.exists_squeeze_eq {s : Text} {ws : List Text} (h : Worded s ws) :
    ∃ r : Text, (∀ c ∈ r, isBlank c = true) ∧ squeeze true s = joinWith [' '] ws ++ r := by
  induction h with
  | blank gap hgap =>
    have hnone := squeeze_blanks_append hgap []
    rw [List.append_nil] at hnone
    exact ⟨[], by simp, hnone⟩
  | word gap w rest ws hgap hw hend hrest ih =>
    obtain ⟨r, hr, hsqueeze⟩ := ih
    rw [squeeze_blanks_append hgap, squeeze_word_append hw]
    cases rest with
    | nil =>
      obtain rfl : ws = [] := hrest.eq_words
      exact ⟨[], by simp, rfl⟩
    | cons c rest =>
      have hc := hend c rfl
      have hskip := squeeze_blanks_append (List.forall_mem_singleton.mpr hc) rest
      have hspace : squeeze false (c :: rest) = ' ' :: (joinWith [' '] ws ++ r) := by
        rw [← hsqueeze, ← List.singleton_append, hskip, List.singleton_append, squeeze, if_pos hc]
        rfl
      rw [hspace]
      cases ws with
      | nil => exact ⟨' ' :: r, List.forall_mem_cons.mpr ⟨by decide, hr⟩, rfl⟩
      | cons v ws =>
        refine ⟨r, hr, ?_⟩
        rw [Text.joinWith_cons_cons, List.append_assoc, List.append_assoc, List.singleton_append]

theorem strip_squeeze (s : Text) : Text.strip (squeeze false s) = joinWith [' '] (words s) := by
  obtain ⟨l, hl, hleft⟩ := exists_squeeze_false_eq s
  obtain ⟨r, hr, hright⟩ := ((worded_iff s _).mpr rfl).exists_squeeze_eq
  rw [hleft, hright]
  exact Text.trim_between hl hr (not_isBlank_of_mem_head?_joinWith (isWord_words s))
    (not_isBlank_of_mem_getLast?_joinWith (isWord_words s))

theorem normalize_of_long {s : Text} (h : hasLongRun s = true) :
    normalize s = ⟨joinWith [' '] (words s), 1⟩ := by
  rw [normalize, if_pos h, strip_squeeze]

theorem normalize_of_not_long {s : Text} (h : hasLongRun s = false) : normalize s = ⟨s, 0⟩ := by
  rw [normalize, h, if_neg Bool.false_ne_true]

/-- If a text has three or more blanks in a row somewhere, normalizing gives its words with one
space between two of them, and counts as applied; otherwise it gives the text. In both cases the
words of the text are kept, and normalizing again changes nothing and does not count. -/
theorem normalized_to_words (s : Text) :
    let long := ∃ run, run <:+: s ∧ 3 ≤ run.length ∧ ∀ c ∈ run, isBlank c = true
    (∀ ws, Worded s ws ↔ ws = words s) ∧
      (long ∧ normalize s = ⟨joinWith [' '] (words s), 1⟩ ∨ ¬ long ∧ normalize s = ⟨s, 0⟩) ∧
      words (normalize s).text = words s ∧
      normalize (normalize s).text = ⟨(normalize s).text, 0⟩ := by
  intro long
  have hlong : hasLongRun s = true ↔ long := hasLongRun_iff s
  refine ⟨worded_iff s, ?_⟩
  cases hrun : hasLongRun s with
  | true =>
    rw [normalize_of_long hrun]
    refine ⟨.inl ⟨hlong.mp hrun, rfl⟩, ?_, ?_⟩
    · exact (worded_joinWith (isWord_words s)).eq_words.symm
    · exact normalize_of_not_long (hasLongRun_joinWith (isWord_words s))
  | false =>
    have hshort : ¬ long := fun h => by
      rw [hlong.mpr h] at hrun
      cases hrun
    rw [normalize_of_not_long hrun]
    exact ⟨.inr ⟨hshort, rfl⟩, rfl, normalize_of_not_long hrun⟩

/-- Blanks beyond ASCII count, and so do the separators among the control characters. -/
example : normalize "\u00a0a b\u2028\u3000\x1cc " = ⟨"a b c", 1⟩ := by decide

end LuaTidy.Blanks
