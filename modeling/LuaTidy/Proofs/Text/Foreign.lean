import LuaTidy.Text.Basic
import LuaTidy.Proofs.Text.CharacterClasses
import LuaTidy.Proofs.Text.Parts
import LuaTidy.Proofs.Text.PieceScan

/-!
The foreign characters of a text: those that are neither ASCII nor blank. Trimming, joining lines
and rewriting piece by piece keep them in order, as long as no part loses or gains one.
-/
namespace LuaTidy.Text

def isAscii (c : Char) : Bool := c.toNat < 0x80

/-- Characters that are neither ASCII nor blank. -/
def isForeign (c : Char) : Bool := !isAscii c && !isBlank c

/-- The foreign characters of a text, in order. -/
def foreign (s : Text) : Text := s.filter isForeign

@[simp] theorem foreign_nil : foreign [] = [] := rfl

@[simp] theorem foreign_append (s t : Text) : foreign (s ++ t) = foreign s ++ foreign t :=
  List.filter_append s t

theorem foreign_cons (c : Char) (s : Text) : foreign (c :: s) = foreign [c] ++ foreign s :=
  foreign_append [c] s

theorem foreign_eq_nil {s : Text} (h : ∀ c ∈ s, isForeign c = false) : foreign s = [] :=
  List.filter_eq_nil_iff.mpr fun c hc => by simp [h c hc]

theorem foreign_cons_of_not {c : Char} (h : isForeign c = false) (s : Text) :
    foreign (c :: s) = foreign s :=
  List.filter_cons_of_neg (by simp [h])

theorem foreign_flatMap {α : Type} (f : α → Text) (xs : List α) :
    foreign (xs.flatMap f) = xs.flatMap fun x => foreign (f x) :=
  List.filter_flatMap

theorem not_isForeign_of_isAscii {c : Char} (h : isAscii c = true) : isForeign c = false := by
  simp [isForeign, h]

theorem not_isForeign_of_lt {c : Char} (h : c.toNat < 0x80) : isForeign c = false :=
  not_isForeign_of_isAscii (decide_eq_true h)

theorem not_isForeign_of_isBlank {c : Char} (h : isBlank c = true) : isForeign c = false := by
  simp [isForeign, h]

theorem not_isForeign_of_isWordChar {c : Char} (h : Lua.isWordChar c = true) :
    isForeign c = false := by
  have hc := (toNat_of_isWordChar h).2
  exact not_isForeign_of_lt (by omega)

theorem not_isForeign_of_isQuote {c : Char} (h : Lua.isQuote c = true) : isForeign c = false := by
  rcases eq_of_isQuote h with rfl | rfl <;> decide

/-- The only printable character beyond ASCII is a blank. -/
theorem not_isForeign_of_isPrintable {c : Char} (h : isPrintable c = true) :
    isForeign c = false := by
  simp only [isPrintable, isAsciiAlphanumeric, Bool.or_eq_true, Bool.and_eq_true,
    decide_eq_true_eq, beq_iff_eq, le_iff_toNat_le, Char.reduceToNat, List.contains_iff_mem] at h
  rcases h with (((h | h) | rfl) | h) | h
  · exact not_isForeign_of_lt (by omega)
  · exact not_isForeign_of_lt (by omega)
  · decide
  · exact not_isForeign_of_isBlank (by simp [isBlank, isWhiteSpace, h])
  · have hall : printablePunctuation.all (!isForeign ·) = true := by decide
    simpa using List.all_eq_true.mp hall c h

theorem foreign_dropWhile {p : Char → Bool} (hp : ∀ c, p c = true → isForeign c = false)
    (s : Text) : foreign (s.dropWhile p) = foreign s := by
  induction s with
  | nil => rfl
  | cons c s ih =>
    cases hc : p c with
    | false => rw [List.dropWhile_cons_of_neg (by simp [hc])]
    | true => rw [List.dropWhile_cons_of_pos hc, ih, foreign_cons_of_not (hp c hc)]

theorem foreign_reverse (s : Text) : foreign s.reverse = (foreign s).reverse :=
  List.filter_reverse

theorem foreign_strip (s : Text) : foreign (strip s) = foreign s := by
  have hdrop := foreign_dropWhile fun c => not_isForeign_of_isBlank
  rw [strip, trim, dropWhileEnd, foreign_reverse, hdrop, foreign_reverse, hdrop,
    List.reverse_reverse]

theorem foreign_joinWith {sep : Text} (hsep : foreign sep = []) (ls : List Text) :
    foreign (joinWith sep ls) = ls.flatMap foreign := by
  fun_induction joinWith sep ls with
  | case1 => rfl
  | case2 p => simp
  | case3 p ps hps ih => simp [hsep, ih]

/-- The foreign characters of a text are those of its lines. -/
theorem foreign_lines (s : Text) : (lines s).flatMap foreign = foreign s := by
  have hsep : foreign ['\n'] = [] := by decide
  rw [← foreign_joinWith hsep, lines, joinWith_splitAt]

/-- A text written anew piece by piece, where each piece keeps its foreign characters. -/
theorem foreign_flatMap_pieces {α : Type} {r : Recogniser α} {written : Piece α → Text} {s : Text}
    (h : ∀ p ∈ pieces r s, foreign (written p) = foreign p.source) :
    foreign ((pieces r s).flatMap written) = foreign s := by
  calc foreign ((pieces r s).flatMap written)
      = (pieces r s).flatMap fun p => foreign p.source := by
        rw [foreign_flatMap]
        exact List.flatMap_congr h
    _ = foreign s := by rw [← foreign_flatMap, flatMap_source_pieces]

end LuaTidy.Text
