import LuaTidy.Console.Wrap
import LuaTidy.Proofs.Text.Parts
import LuaTidy.Proofs.Text.PieceScan
import LuaTidy.Proofs.Text.Trimming

/-!
Messages as they are shown. A message that begins with a heading, which is one plain word and not
wider than the console, begins with it when it is shown, whatever becomes of the rest. A message
without markup is shown alike on every console.
-/
namespace LuaTidy.Console

/-- A character that takes one column and has no meaning in markup or between words. -/
structure Plain (c : Char) : Prop where
  backslash : c ≠ '\\'
  bracket : c ≠ '['
  kept : isDropped c = false
  blank : Text.isBlank c = false
  width : charWidth c = 1

/-- A plain word that fits on a line. -/
structure Heading (h : Text) : Prop where
  plain : ∀ c ∈ h, Plain c
  ne_nil : h ≠ []
  fits : h.length ≤ columns

instance : DecidablePred Plain := fun c =>
  decidable_of_iff
    (c ≠ '\\' ∧ c ≠ '[' ∧ isDropped c = false ∧ Text.isBlank c = false ∧ charWidth c = 1)
    ⟨fun ⟨hback, hbracket, hkept, hblank, hwidth⟩ => ⟨hback, hbracket, hkept, hblank, hwidth⟩,
      fun h => ⟨h.backslash, h.bracket, h.kept, h.blank, h.width⟩⟩

instance : DecidablePred Heading := fun h =>
  decidable_of_iff ((h.all fun c => decide (Plain c)) = true ∧ h ≠ [] ∧ h.length ≤ columns)
    ⟨fun ⟨hplain, hne, hfits⟩ => ⟨by simpa using hplain, hne, hfits⟩,
      fun h => ⟨by simpa using h.plain, h.ne_nil, h.fits⟩⟩

theorem marked?_eq_none {c : Char} (hback : c ≠ '\\') (hbracket : c ≠ '[') (cs : Text) :
    marked? c cs = none := by
  have hrun : (c :: cs).takeWhile (· == '\\') = [] := List.takeWhile_cons_of_neg (by simpa using hback)
  simp only [marked?, hrun, List.length_nil, List.drop_zero]
  split
  · next h => exact absurd (List.cons.inj h).1 hbracket
  · rfl

section
variable {rules : TagRules} {h : Text} {stack : List OpenTag} {kept s t : Text}
  {ps : List (Text.Piece Marked)}

theorem plainFrom_kept (s : Text) : plainFrom rules stack kept (s.map .kept ++ ps) =
    plainFrom rules stack (s.reverse ++ kept) ps := by
  induction s generalizing kept with
  | nil => rfl
  | cons c s ih =>
    rw [List.map_cons, List.cons_append, plainFrom, ih, List.reverse_cons, List.append_assoc]
    rfl

theorem unescapeBrackets_append (hh : '\\' ∉ h) (s : Text) :
    unescapeBrackets (h ++ s) = h ++ unescapeBrackets s := by
  induction h with
  | nil => rfl
  | cons c h ih =>
    rw [List.mem_cons, not_or] at hh
    rw [List.cons_append, unescapeBrackets.eq_def]
    split
    · next heq => exact absurd (List.cons.inj heq).1.symm hh.1
    · next heq =>
      cases heq
      rw [ih hh.2, List.cons_append]
    · next heq => cases heq

theorem exists_plainFrom_found_eq {source : Text} {m : Marked}
    (h : plainFrom rules stack kept (.found source m :: ps) = .ok t) :
    ∃ rest, t = unescapeBrackets kept.reverse ++ rest := by
  simp only [plainFrom, bind, Except.bind] at h
  -- the rows are: a tag without its meaning, a tag that closes, a tag that opens
  split at h
  · split at h
    · cases h
    · cases h
      exact ⟨_, by simp only [List.append_assoc]; rfl⟩
  · split at h
    · split at h
      · split at h
        · cases h
        · cases h
          exact ⟨_, List.append_assoc ..⟩
      · cases h
    · split at h
      · cases h
      · cases h
        exact ⟨_, List.append_assoc ..⟩

/-- What has been read so far stands at the beginning of the plain text. -/
theorem exists_plainFrom_eq (h : plainFrom rules stack kept ps = .ok t) :
    ∃ more rest, t = unescapeBrackets (kept.reverse ++ more) ++ rest := by
  induction ps generalizing stack kept t with
  | nil =>
    cases h
    exact ⟨[], [], by simp⟩
  | cons p ps ih =>
    cases p with
    | kept c =>
      rw [plainFrom] at h
      obtain ⟨more, rest, rfl⟩ := ih h
      exact ⟨c :: more, rest, by simp⟩
    | found source m =>
      obtain ⟨rest, rfl⟩ := exists_plainFrom_found_eq h
      exact ⟨[], rest, by rw [List.append_nil]⟩

/-- Without markup in it, a message is shown alike by all rules. -/
theorem show?_of_unmarked (hback : '\\' ∉ s) (hopen : '[' ∉ s) : show? rules s = show? {} s := by
  have hnone : ∀ c ∈ s, ∀ cs, marked? c cs = none := fun c hc cs =>
    marked?_eq_none (ne_of_mem_of_not_mem hc hback) (ne_of_mem_of_not_mem hc hopen) cs
  have hpieces : Text.pieces marked? s = s.map .kept ++ [] :=
    (congrArg _ (List.append_nil s).symm).trans (Text.pieces_append_of_none hnone [])
  have hplain : ∀ rules, plain rules s =
      Except.map (·.filter (!isDropped ·)) (plainFrom rules [] s.reverse []) := by
    intro rules
    rw [plain, hpieces, plainFrom_kept, List.append_nil]
  rw [show?, show?, hplain, hplain]
  rfl

theorem exists_plain_eq (hh : ∀ c ∈ h, c ≠ '\\' ∧ c ≠ '[' ∧ isDropped c = false)
    (hs : plain rules (h ++ s) = .ok t) : ∃ u, t = h ++ u := by
  have hpieces := Text.pieces_append_of_none (r := marked?)
    (fun c hc cs => marked?_eq_none (hh c hc).1 (hh c hc).2.1 cs) s
  rw [plain, hpieces, plainFrom_kept, List.append_nil] at hs
  cases hplain : plainFrom rules [] h.reverse (Text.pieces marked? s) with
  | error e =>
    rw [hplain] at hs
    cases hs
  | ok v =>
    rw [hplain] at hs
    cases hs
    obtain ⟨more, rest, rfl⟩ := exists_plainFrom_eq hplain
    have hfilter : h.filter (!isDropped ·) = h :=
      List.filter_eq_self.mpr fun c hc => by rw [(hh c hc).2.2, Bool.not_false]
    rw [List.reverse_reverse, unescapeBrackets_append fun hc => (hh _ hc).1 rfl, List.append_assoc]
    exact ⟨_, (List.filter_append ..).trans (by rw [hfilter])⟩

end

section
variable {rules : TagRules} {h w line : Text} {limit : Nat}

theorem exists_expandTabs_eq (hh : '\t' ∉ h) (column : Nat) (s : Text) :
    ∃ t, expandTabs column (h ++ s) = h ++ t := by
  induction h generalizing column with
  | nil => exact ⟨_, rfl⟩
  | cons c h ih =>
    rw [List.mem_cons, not_or] at hh
    obtain ⟨t, ht⟩ := ih hh.2 (column + charWidth c)
    rw [List.cons_append, expandTabs, if_neg (Ne.symm hh.1), ht]
    exact ⟨t, rfl⟩

theorem exists_wordsFrom_eq (c : Char) (s : Text) : ∃ w ws, wordsFrom (c :: s) = (c :: w) :: ws := by
  rw [wordsFrom]
  split
  · exact ⟨_, _, rfl⟩
  · split <;> exact ⟨_, _, rfl⟩

theorem wordsFrom_cons_of_not_blank {c : Char} (hc : Text.isBlank c = false) {s : Text}
    {ws : List Text} (hs : wordsFrom s = w :: ws) : wordsFrom (c :: s) = (c :: w) :: ws := by
  rw [wordsFrom, hs]
  simp only [hc, Bool.false_and, Bool.false_eq_true, if_false]

/-- A word that begins with a blank is a row of blanks. -/
theorem exists_wordsFrom_blank {c : Char} (hc : Text.isBlank c = true) (s : Text) :
    ∃ w ws, wordsFrom (c :: s) = (c :: w) :: ws ∧ ∀ d ∈ w, Text.isBlank d = true := by
  induction s generalizing c with
  | nil => exact ⟨[], [], rfl, fun d hd => absurd hd List.not_mem_nil⟩
  | cons d s ih =>
    cases hd : Text.isBlank d with
    | true =>
      obtain ⟨w, ws, hs, hw⟩ := ih hd
      refine ⟨d :: w, ws, ?_, List.forall_mem_cons.mpr ⟨hd, hw⟩⟩
      rw [wordsFrom, hs]
      simp [hd]
    | false =>
      obtain ⟨w, ws, hs⟩ := exists_wordsFrom_eq d s
      refine ⟨[], (d :: w) :: ws, ?_, fun e he => absurd he List.not_mem_nil⟩
      rw [wordsFrom, hs]
      simp [hc, hd]

theorem wordsFrom_append (hh : ∀ c ∈ h, Text.isBlank c = false) {s : Text} {ws : List Text}
    (hs : wordsFrom s = w :: ws) : wordsFrom (h ++ s) = (h ++ w) :: ws := by
  induction h with
  | nil => exact hs
  | cons c h ih =>
    exact wordsFrom_cons_of_not_blank (hh c List.mem_cons_self)
      (ih fun d hd => hh d (List.mem_cons_of_mem _ hd))

/-- A heading is the first word, with blanks after it. -/
theorem exists_words_eq (hne : h ≠ []) (hh : ∀ c ∈ h, Text.isBlank c = false) (s : Text) :
    ∃ w ws, words (h ++ ' ' :: s) = (h ++ w) :: ws ∧ ∀ c ∈ w, Text.isBlank c = true := by
  have hspace : Text.isBlank ' ' = true := by decide
  obtain ⟨w, ws, hs, hw⟩ := exists_wordsFrom_blank hspace s
  refine ⟨' ' :: w, ws, ?_, List.forall_mem_cons.mpr ⟨hspace, hw⟩⟩
  have hall : (h ++ ' ' :: w).all Text.isBlank = false := by
    obtain ⟨c, h, rfl⟩ := List.exists_cons_of_ne_nil hne
    simp [hh c List.mem_cons_self]
  rw [words, wordsFrom_append hh hs]
  cases ws with
  | nil => rfl
  | cons v ws => simp [hall]

theorem width_of_plain (hh : ∀ c ∈ h, charWidth c = 1) : width h = h.length := by
  have hfold : ∀ n, h.foldl (fun n c => n + charWidth c) n = n + h.length := by
    induction h with
    | nil => exact fun n => rfl
    | cons c h ih =>
      intro n
      rw [List.foldl_cons, ih (fun d hd => hh d (List.mem_cons_of_mem _ hd)),
        hh c List.mem_cons_self, List.length_cons, Nat.add_assoc, Nat.add_comm 1]
  rw [width, hfold, Nat.zero_add]

/-- A line that has been begun keeps its beginning. -/
theorem exists_fillFrom_eq (limit : Nat) (hline : line ≠ []) (used : Nat) (ws : List Text) :
    ∃ more rest, fillFrom limit line used ws = (line ++ more) :: rest := by
  induction ws generalizing line used with
  | nil => exact ⟨[], [], by rw [fillFrom, List.append_nil]⟩
  | cons v ws ih =>
    have hlonger : ∀ n, ∃ more rest, fillFrom limit (line ++ v) n ws = (line ++ more) :: rest := by
      intro n
      obtain ⟨more, rest, h⟩ := ih (List.append_ne_nil_of_left_ne_nil hline v) n
      exact ⟨v ++ more, rest, by rw [h, List.append_assoc]⟩
    have hempty : line.isEmpty = false := by simpa using hline
    simp only [fillFrom, hempty, Bool.or_false, Bool.false_eq_true, if_false]
    split
    · exact hlonger _
    · split
      · exact ⟨[], _, by rw [List.append_nil, List.cons_append]⟩
      · split
        · exact hlonger _
        · exact ⟨[], _, by rw [List.append_nil]⟩

theorem exists_cut_eq (limit : Nat) (hh : ∀ c ∈ h, charWidth c = 1) (used : Nat)
    (hfits : used + h.length ≤ limit) (s : Text) :
    ∃ p ps, cut limit used (h ++ s) = (h ++ p) :: ps := by
  induction h generalizing used with
  | nil =>
    cases s with
    | nil => exact ⟨[], [], rfl⟩
    | cons c s =>
      rw [List.nil_append, cut]
      split
      · split <;> exact ⟨_, _, rfl⟩
      · split <;> exact ⟨_, _, rfl⟩
  | cons c h ih =>
    rw [List.length_cons] at hfits
    obtain ⟨p, ps, hps⟩ := ih (fun d hd => hh d (List.mem_cons_of_mem _ hd)) (used + 1) (by omega)
    rw [List.cons_append, cut, hh c List.mem_cons_self, if_neg (by omega), hps]
    exact ⟨p, ps, rfl⟩

/-- A heading that has room on a line is not cut. -/
theorem exists_fit_eq (hh : ∀ c ∈ h, charWidth c = 1) (hfits : h.length ≤ limit) (s : Text) :
    ∃ t, fit limit (h ++ s) = h ++ t := by
  simp only [fit]
  generalize ((h ++ s).reverse.takeWhile Text.isBlank).length = blanks
  -- only what is beyond the limit is left out
  have hroom : h.length ≤ (h ++ s).length - min blanks ((h ++ s).length - limit) := by
    rw [List.length_append]
    omega
  rw [List.take_append, List.take_of_length_le hroom, crop]
  generalize s.take _ = t
  obtain ⟨p, ps, hp⟩ := exists_cut_eq limit hh 0 (by rwa [Nat.zero_add]) t
  rw [hp]
  exact ⟨p, rfl⟩

theorem exists_splitAt_append {sep : Char} (hh : sep ∉ h) (s : Text) :
    ∃ p ps, Text.splitAt sep (h ++ s) = (h ++ p) :: ps := by
  induction h with
  | nil => exact Text.exists_splitAt_eq_cons sep s
  | cons c h ih =>
    rw [List.mem_cons, not_or] at hh
    obtain ⟨p, ps, hp⟩ := ih hh.2
    exact ⟨p, ps, Text.splitAt_cons_of_ne (Ne.symm hh.1) hp⟩

/-- The first line of a message begins with its heading. -/
theorem exists_wrap_eq (hh : Heading h) (s : Text) :
    ∃ t ls, wrap columns (h ++ ' ' :: s) = (h ++ t) :: ls := by
  have hblank : ∀ c ∈ h, Text.isBlank c = false := fun c hc => (hh.plain c hc).blank
  have hwidth : ∀ c ∈ h, charWidth c = 1 := fun c hc => (hh.plain c hc).width
  have hfree : ∀ c, Text.isBlank c = true → c ≠ ' ' → c ∉ h ++ [' '] := by
    intro c hc hspace hmem
    rcases List.mem_append.mp hmem with hmem | hmem
    · rw [hblank c hmem] at hc
      cases hc
    · exact hspace (List.mem_singleton.mp hmem)
  have hsplit : ∀ t : Text, (h ++ [' ']) ++ t = h ++ ' ' :: t := fun t => List.append_assoc h [' '] t
  obtain ⟨l, ls, hlines⟩ := exists_splitAt_append (hfree '\n' (by decide) (by decide)) s
  obtain ⟨u, hu⟩ := exists_expandTabs_eq (hfree '\t' (by decide) (by decide)) 0 l
  rw [hsplit, hsplit] at hlines hu
  obtain ⟨w, ws, hwords, hw⟩ := exists_words_eq hh.ne_nil hblank u
  have hplaced : fillFrom columns [] 0 ((h ++ w) :: ws) =
      fillFrom columns (h ++ w) (0 + width (h ++ w)) ws := by
    have hlast : ∀ c ∈ h.getLast?, Text.isBlank c = false := fun c hc =>
      hblank c (List.mem_of_getLast? hc)
    rw [fillFrom, Text.dropWhileEnd_append hlast hw, width_of_plain hwidth, if_pos, List.nil_append]
    rw [Nat.zero_add]
    exact hh.fits
  obtain ⟨more, rest, hfill⟩ := exists_fillFrom_eq columns
    (List.append_ne_nil_of_left_ne_nil hh.ne_nil w) (0 + width (h ++ w)) ws
  obtain ⟨t, ht⟩ := exists_fit_eq hwidth hh.fits (w ++ more)
  rw [wrap, Text.lines, hlines, List.flatMap_cons, hu, hwords, hplaced, hfill, List.append_assoc,
    List.map_cons, ht]
  exact ⟨t, _, rfl⟩

/-- A message that can be shown is shown with its heading first. -/
theorem heading_of_show? (hh : Heading h) {s t : Text} (hs : show? rules (h ++ ' ' :: s) = .ok t) :
    h <+: t := by
  have hspace : ∀ c ∈ h ++ [' '], c ≠ '\\' ∧ c ≠ '[' ∧ isDropped c = false := by
    intro c hc
    rcases List.mem_append.mp hc with hc | hc
    · exact ⟨(hh.plain c hc).backslash, (hh.plain c hc).bracket, (hh.plain c hc).kept⟩
    · rw [List.mem_singleton.mp hc]
      decide
  have hsplit : ∀ t : Text, (h ++ [' ']) ++ t = h ++ ' ' :: t := fun t => List.append_assoc h [' '] t
  rw [show?, ← hsplit] at hs
  cases hplain : plain rules (h ++ [' '] ++ s) with
  | error e =>
    rw [hplain] at hs
    cases hs
  | ok v =>
    obtain ⟨u, rfl⟩ := exists_plain_eq hspace hplain
    obtain ⟨v, ls, hwrap⟩ := exists_wrap_eq hh u
    obtain ⟨x, hx⟩ := Text.exists_joinWith_cons ['\n'] (h ++ v) ls
    rw [hplain, hsplit] at hs
    cases hs
    show h <+: Text.unlines (wrap columns (h ++ ' ' :: u)) ++ ['\n']
    rw [hwrap, Text.unlines, hx, List.append_assoc, List.append_assoc]
    exact List.prefix_append ..

end

end LuaTidy.Console
