import LuaTidy.Proofs.Lua.TokenPlaces
import LuaTidy.Proofs.Text.Trimming
import Mathlib.Data.List.TakeWhile

/-!
Names as a pattern reads them: a name between two word boundaries is looked for at every place from
left to right, and reading goes on behind it. The pattern fits exactly the words that are names; a
word that begins with a digit is passed over up to its end.
-/
namespace LuaTidy.Lua

/-- Of two neighbours one is in a word, and the other one is not or is missing. -/
def Boundary (before after : Option Char) : Prop :=
  before.any isWordChar ≠ after.any isWordChar

/-- The pattern fits `w` between the character `before` it and the `rest`. -/
structure Fits (before : Option Char) (w rest : Text) : Prop where
  opens : Boundary before w.head?
  name : isName w = true
  closes : Boundary w.getLast? rest.head?

/-- What a text behind the character `before` becomes, if the longest stretch that the pattern fits
at a place gets its new name, and a character is copied where the pattern fits nothing. -/
inductive Replaced (m : Renaming) : Option Char → Text → Text → Prop
  | nil (before : Option Char) : Replaced m before [] []
  | found {before : Option Char} {w rest out : Text} (fits : Fits before w rest)
      (longest : ∀ v t, v ++ t = w ++ rest → Fits before v t → v.length ≤ w.length)
      (h : Replaced m w.getLast? rest out) : Replaced m before (w ++ rest) (m.image w ++ out)
  | copied {before : Option Char} {c : Char} {cs out : Text}
      (nothing : ∀ v t, v ++ t = c :: cs → ¬ Fits before v t)
      (h : Replaced m (some c) cs out) : Replaced m before (c :: cs) (c :: out)

theorem any_isWordChar_head? {w : Text} (hw : IsWord w) : w.head?.any isWordChar = true := by
  obtain ⟨c, cs, rfl⟩ := List.exists_cons_of_ne_nil hw.1
  exact hw.2 c List.mem_cons_self

theorem any_isWordChar_getLast? {w : Text} (hw : IsWord w) : w.getLast?.any isWordChar = true := by
  rw [List.getLast?_eq_some_getLast hw.1]
  exact hw.2 _ (List.getLast_mem hw.1)

theorem fits_iff (before : Option Char) (w rest : Text) :
    Fits before w rest ↔
      before.any isWordChar = false ∧ isName w = true ∧ rest.head?.any isWordChar = false := by
  constructor
  · rintro ⟨hopens, hname, hcloses⟩
    have hw := isWord_of_isName hname
    rw [Boundary, any_isWordChar_head? hw] at hopens
    rw [Boundary, any_isWordChar_getLast? hw] at hcloses
    exact ⟨Bool.of_not_eq_true hopens, hname, Bool.of_not_eq_true hcloses.symm⟩
  · rintro ⟨hbefore, hname, hrest⟩
    have hw := isWord_of_isName hname
    refine ⟨?_, hname, ?_⟩
    · rw [Boundary, any_isWordChar_head? hw, hbefore]
      exact Bool.false_ne_true
    · rw [Boundary, any_isWordChar_getLast? hw, hrest]
      exact Bool.false_ne_true.symm

theorem any_head?_dropWhile (s : Text) : (s.dropWhile isWordChar).head?.any isWordChar = false := by
  have hhead := List.head?_dropWhile_not isWordChar s
  cases h : (s.dropWhile isWordChar).head? with
  | none => rfl
  | some c =>
    rw [h] at hhead
    exact hhead

/-- At the first letter of a word the pattern fits the whole word. -/
theorem fits_takeWhile {before : Option Char} (hbefore : before.any isWordChar = false) {c : Char}
    (hc : isNameStart c = true) (cs : Text) :
    Fits before (c :: cs.takeWhile isWordChar) (cs.dropWhile isWordChar) := by
  refine (fits_iff _ _ _).mpr ⟨hbefore, ?_, any_head?_dropWhile cs⟩
  simp only [isName, hc, Bool.true_and, List.all_eq_true]
  exact fun d hd => List.mem_takeWhile_imp hd

/-- The pattern fits no second stretch at a place. -/
theorem eq_of_fits {before : Option Char} {v t w rest : Text} (hv : Fits before v t)
    (hw : Fits before w rest) (h : v ++ t = w ++ rest) : v = w := by
  obtain ⟨-, hvname, ht⟩ := (fits_iff _ _ _).mp hv
  obtain ⟨-, hwname, hrest⟩ := (fits_iff _ _ _).mp hw
  rw [Option.any_eq_false] at ht hrest
  exact (Text.split_unique (isWord_of_isName hvname).2 ht (isWord_of_isName hwname).2 hrest h).1

theorem rename_gap_cons (m : Renaming) {c : Char} (hc : isWordChar c = false) (cs : Text) :
    rename m (c :: cs) = c :: rename m cs := by
  rw [rename, lexemes, push_gap hc]
  rfl

theorem rename_word_append (m : Renaming) {w rest : Text} (hw : IsWord w)
    (hrest : rest.head?.any isWordChar = false) :
    rename m (w ++ rest) = (Lexeme.word w).rename m ++ rename m rest := by
  rw [Option.any_eq_false] at hrest
  rw [rename, lexemes_word_append hw hrest]
  rfl

/-- What renaming makes of a text behind `before`: the rest of a word that is not over is copied. -/
def renameBehind (m : Renaming) (before : Option Char) (s : Text) : Text :=
  if before.any isWordChar then s.takeWhile isWordChar ++ rename m (s.dropWhile isWordChar)
  else rename m s

theorem renameBehind_of_head? (m : Renaming) (before : Option Char) {s : Text}
    (hs : s.head?.any isWordChar = false) : renameBehind m before s = rename m s := by
  have htake : s.takeWhile isWordChar = [] := by
    cases s with
    | nil => rfl
    | cons c cs => exact List.takeWhile_cons_of_neg (Bool.not_eq_true _ ▸ hs)
  have hdrop := List.takeWhile_append_dropWhile (p := isWordChar) (l := s)
  rw [htake, List.nil_append] at hdrop
  rw [renameBehind, htake, hdrop, List.nil_append, ite_self]

theorem renameBehind_found (m : Renaming) {before : Option Char} {w rest : Text}
    (h : Fits before w rest) :
    renameBehind m before (w ++ rest) = m.image w ++ renameBehind m w.getLast? rest := by
  obtain ⟨hbefore, hname, hrest⟩ := (fits_iff _ _ _).mp h
  have hrename : (Lexeme.word w).rename m = m.image w := by
    rw [Lexeme.rename, Lexeme.name?_word hname]
  rw [renameBehind, hbefore, if_neg Bool.false_ne_true,
    rename_word_append m (isWord_of_isName hname) hrest, hrename,
    renameBehind_of_head? m _ hrest]

theorem renameBehind_copied (m : Renaming) {before : Option Char} {c : Char}
    (h : before.any isWordChar = true ∨ isNameStart c = false) (cs : Text) :
    renameBehind m before (c :: cs) = c :: renameBehind m (some c) cs := by
  cases hc : isWordChar c with
  | false =>
    have hhead : (c :: cs).head?.any isWordChar = false := hc
    rw [renameBehind_of_head? m before hhead, rename_gap_cons m hc, renameBehind, Option.any_some,
      hc, if_neg Bool.false_ne_true]
  | true =>
    rw [renameBehind, renameBehind, Option.any_some, hc, if_pos rfl]
    split
    · rw [List.takeWhile_cons, List.dropWhile_cons, hc, if_pos rfl, if_pos rfl, List.cons_append]
    · next hbefore =>
      -- a word that begins with a digit
      have hstart := h.resolve_left hbefore
      have hw : IsWord (c :: cs.takeWhile isWordChar) :=
        .cons hc fun d hd => List.mem_takeWhile_imp hd
      have hrename := rename_word_append m hw (any_head?_dropWhile cs)
      rw [List.cons_append, List.takeWhile_append_dropWhile] at hrename
      rw [hrename, Lexeme.rename, Lexeme.name?, hstart]
      rfl

theorem Replaced.eq_renameBehind {m : Renaming} {before : Option Char} {s out : Text}
    (h : Replaced m before s out) : out = renameBehind m before s := by
  induction h with
  | nil before =>
    rw [renameBehind]
    split <;> rfl
  | found fits longest h ih => rw [renameBehind_found m fits, ih]
  | @copied before c cs out nothing h ih =>
    have hcopied : before.any isWordChar = true ∨ isNameStart c = false := by
      by_contra hfits
      rw [not_or, Bool.not_eq_true, Bool.not_eq_false] at hfits
      refine nothing (c :: cs.takeWhile isWordChar) (cs.dropWhile isWordChar) ?_
        (fits_takeWhile hfits.1 hfits.2 cs)
      rw [List.cons_append, List.takeWhile_append_dropWhile]
    rw [renameBehind_copied m hcopied, ih]

theorem exists_replaced (m : Renaming) (before : Option Char) (s : Text) :
    ∃ out, Replaced m before s out := by
  induction hn : s.length using Nat.strongRecOn generalizing before s with
  | _ n ih =>
    subst hn
    cases s with
    | nil => exact ⟨[], .nil before⟩
    | cons c cs =>
      by_cases hfits : before.any isWordChar = false ∧ isNameStart c = true
      · have hfound := fits_takeWhile hfits.1 hfits.2 cs
        have hlt : (cs.dropWhile isWordChar).length < (c :: cs).length :=
          Nat.lt_succ_of_le (List.dropWhile_sublist _).length_le
        obtain ⟨out, hout⟩ := ih _ hlt _ _ rfl
        have hall := Replaced.found hfound
          (fun v t h hv => Nat.le_of_eq (congrArg _ (eq_of_fits hv hfound h))) hout
        rw [List.cons_append, List.takeWhile_append_dropWhile] at hall
        exact ⟨_, hall⟩
      · obtain ⟨out, hout⟩ := ih cs.length (Nat.lt_succ_self _) (some c) cs rfl
        refine ⟨c :: out, .copied ?_ hout⟩
        rintro v t h hv
        obtain ⟨hbefore, hname, -⟩ := (fits_iff _ _ _).mp hv
        cases v with
        | nil => cases hname
        | cons d v =>
          cases h
          rw [isName, Bool.and_eq_true] at hname
          exact hfits ⟨hbefore, hname.1⟩

/-- Renaming is what replacing by the pattern comes to. -/
theorem replaced_iff (m : Renaming) (s out : Text) : Replaced m none s out ↔ out = rename m s := by
  have hall : ∀ out, Replaced m none s out → out = rename m s := fun _ h => h.eq_renameBehind
  refine ⟨hall out, ?_⟩
  rintro rfl
  obtain ⟨out, hout⟩ := exists_replaced m none s
  rwa [← hall out hout]

end LuaTidy.Lua
