import LuaTidy.Text.Pieces
import Mathlib.Data.List.Basic

/-!
Reading a text into pieces, step by step: a character that begins nothing is kept, a recognised
stretch is one piece, and reading goes on behind it.
-/
namespace LuaTidy.Text

variable {α : Type} {r : Recogniser α}

@[simp] theorem pieces_nil : pieces r [] = [] := rfl

theorem pieces_cons_kept {c : Char} {cs : Text} (h : r c cs = none) :
    pieces r (c :: cs) = .kept c :: pieces r cs := by
  simp [pieces, piecesAfter, h]

theorem pieces_cons_found {c : Char} {cs : Text} {n : Nat} {a : α} (h : r c cs = some (n, a)) :
    pieces r (c :: cs) = .found (c :: cs.take n) a :: pieces r (cs.drop n) := by
  rw [← piecesAfter_eq]
  simp [pieces, piecesAfter, h]

/-- What holds of a text and its pieces at every step of reading holds of the whole text. -/
theorem pieces_induction {motive : Text → List (Piece α) → Prop} (nil : motive [] [])
    (kept : ∀ c cs, r c cs = none → motive cs (pieces r cs) →
      motive (c :: cs) (.kept c :: pieces r cs))
    (found : ∀ c cs n a, r c cs = some (n, a) → motive (cs.drop n) (pieces r (cs.drop n)) →
      motive (c :: cs) (.found (c :: cs.take n) a :: pieces r (cs.drop n)))
    (s : Text) : motive s (pieces r s) := by
  induction hn : s.length using Nat.strongRecOn generalizing s with
  | _ n ih =>
    cases s with
    | nil => exact nil
    | cons c cs =>
      rw [List.length_cons] at hn
      cases h : r c cs with
      | none =>
        rw [pieces_cons_kept h]
        exact kept c cs h (ih cs.length (by omega) cs rfl)
      | some p =>
        rw [pieces_cons_found h]
        exact found c cs p.1 p.2 h (ih _ (by rw [List.length_drop]; omega) _ rfl)

/-- Characters that never begin a stretch are kept, whatever follows. -/
theorem pieces_append_of_none {s : Text} (h : ∀ c ∈ s, ∀ cs, r c cs = none) (t : Text) :
    pieces r (s ++ t) = s.map .kept ++ pieces r t := by
  induction s with
  | nil => rfl
  | cons c s ih =>
    rw [List.cons_append, pieces_cons_kept (h c List.mem_cons_self _),
      ih (fun d hd => h d (List.mem_cons_of_mem _ hd)), List.map_cons, List.cons_append]

/-- A stretch that is recognised whole, behind characters that begin none. -/
theorem pieces_append_found {s body t : Text} {c d : Char} {a : α}
    (h : ∀ c ∈ s, ∀ cs, r c cs = none)
    (hr : r c (body ++ d :: t) = some (body.length + 1, a)) :
    pieces r (s ++ c :: (body ++ d :: t)) =
      s.map .kept ++ .found (c :: (body ++ [d])) a :: pieces r t := by
  have htake : (body ++ d :: t).take (body.length + 1) = body ++ [d] := by
    rw [List.take_length_add_append]
    rfl
  have hdrop : (body ++ d :: t).drop (body.length + 1) = t := by
    rw [List.drop_length_add_append]
    rfl
  rw [pieces_append_of_none h, pieces_cons_found hr, htake, hdrop]

/-- Where a recogniser does not look into a text behind, reading stops short of that text. -/
theorem pieces_append_of_unseen {t : Text} (hsame : ∀ c cs, r c (cs ++ t) = r c cs)
    (hwithin : ∀ c cs n a, r c cs = some (n, a) → n ≤ cs.length) (s : Text) :
    pieces r (s ++ t) = pieces r s ++ pieces r t := by
  refine pieces_induction (motive := fun s ps => pieces r (s ++ t) = ps ++ pieces r t) rfl ?_ ?_ s
  · intro c cs hr ih
    rw [List.cons_append, pieces_cons_kept ((hsame c cs).trans hr), ih, List.cons_append]
  · intro c cs n a hr ih
    have hn := hwithin c cs n a hr
    rw [List.cons_append, pieces_cons_found ((hsame c cs).trans hr), List.take_append_of_le_length hn,
      List.drop_append_of_le_length hn, ih, List.cons_append]

/-- A recognised stretch is what the recogniser claimed where it begins. -/
theorem found_of_mem_pieces {s t : Text} {a : α} (h : .found t a ∈ pieces r s) :
    ∃ c cs n, r c cs = some (n, a) ∧ t = c :: cs.take n ∧ (c :: cs) <:+ s := by
  revert h
  refine pieces_induction (motive := fun s ps => .found t a ∈ ps →
    ∃ c cs n, r c cs = some (n, a) ∧ t = c :: cs.take n ∧ (c :: cs) <:+ s) ?_ ?_ ?_ s
  · intro h
    simp at h
  · intro c cs _ ih h
    rcases List.mem_cons.mp h with h | h
    · cases h
    · obtain ⟨d, ds, n, hr, ht, hs⟩ := ih h
      exact ⟨d, ds, n, hr, ht, hs.trans (List.suffix_cons c cs)⟩
  · intro c cs n b hr ih h
    rcases List.mem_cons.mp h with h | h
    · cases h
      exact ⟨c, cs, n, hr, rfl, List.suffix_rfl⟩
    · obtain ⟨d, ds, k, hr', ht, hs⟩ := ih h
      exact ⟨d, ds, k, hr', ht, hs.trans ((List.drop_suffix n cs).trans (List.suffix_cons c cs))⟩

end LuaTidy.Text
