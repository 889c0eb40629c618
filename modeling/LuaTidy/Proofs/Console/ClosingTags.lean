import LuaTidy.Console.Wrap
import LuaTidy.Proofs.Text.PieceScan
import Mathlib.Data.List.Infix

/-!
Messages that cannot be shown. What keeps a message from being shown is a tag in it that closes
something, so that a message without closing tags is always shown.
-/
namespace LuaTidy.Console

variable {rules : TagRules} {stack : List OpenTag} {kept s t : Text}
  {ps : List (Text.Piece Marked)} {e : MarkupError} {m : Marked}

theorem closing_of_plainFrom_found {source : Text}
    (h : plainFrom rules stack kept (.found source m :: ps) = .error e) :
    (e.tag = m.tag ∧ m.tag.head? = some '/') ∨ ∃ stack', plainFrom rules stack' [] ps = .error e := by
  simp only [plainFrom, bind, Except.bind] at h
  -- the rows are: a tag without its meaning, a tag that closes, a tag that opens
  split at h
  · split at h
    · next hrest =>
      cases h
      exact .inr ⟨_, hrest⟩
    · cases h
  · split at h
    · next name closed hname =>
      split at h
      · split at h
        · next hrest =>
          cases h
          exact .inr ⟨_, hrest⟩
        · cases h
      · cases h
        refine .inl ⟨rfl, ?_⟩
        obtain ⟨rest, hrest⟩ := hname ▸ List.takeWhile_prefix (l := m.tag) (· != '=')
        rw [← hrest, List.cons_append, List.head?_cons]
    · split at h
      · next hrest =>
        cases h
        exact .inr ⟨_, hrest⟩
      · cases h

theorem closing_of_plainFrom (h : plainFrom rules stack kept ps = .error e) :
    ∃ source m, .found source m ∈ ps ∧ e.tag = m.tag ∧ m.tag.head? = some '/' := by
  induction ps generalizing stack kept with
  | nil => cases h
  | cons p ps ih =>
    have hrest : ∀ {stack kept}, plainFrom rules stack kept ps = .error e →
        ∃ source m, .found source m ∈ p :: ps ∧ e.tag = m.tag ∧ m.tag.head? = some '/' := by
      intro stack kept h
      obtain ⟨source, m, hmem, htag⟩ := ih h
      exact ⟨source, m, List.mem_cons_of_mem _ hmem, htag⟩
    cases p with
    | kept c => exact hrest h
    | found source m =>
      rcases closing_of_plainFrom_found h with htag | ⟨stack', h⟩
      · exact ⟨source, m, List.mem_cons_self, htag⟩
      · exact hrest h

theorem tagBody?_eq_some (h : tagBody? s = some t) : ∃ rest, s = t ++ ']' :: rest := by
  rw [tagBody?.eq_def] at h
  split at h
  · cases h
  · next c rest =>
    split at h
    · simp only at h
      split at h
      · next more hmore =>
        cases h
        have hinside := List.prefix_append_drop (List.takeWhile_prefix (l := rest)
          fun d => d != ']' && d != '[')
        rw [hmore] at hinside
        exact ⟨more, by rw [List.cons_append, ← hinside]⟩
      · cases h
    · cases h

theorem tag_of_marked? {c : Char} {cs : Text} {n : Nat} (h : marked? c cs = some (n, m)) :
    '[' :: (m.tag ++ [']']) <:+: c :: cs := by
  simp only [marked?] at h
  split at h
  · next rest hrest =>
    cases hbody : tagBody? rest with
    | none =>
      rw [hbody] at h
      cases h
    | some t =>
      rw [hbody] at h
      cases h
      obtain ⟨more, rfl⟩ := tagBody?_eq_some hbody
      have hall := List.prefix_append_drop (List.takeWhile_prefix (l := c :: cs) (· == '\\'))
      rw [hrest] at hall
      refine ⟨(c :: cs).takeWhile (· == '\\'), more, ?_⟩
      simpa using hall.symm
  · cases h

/-- What cannot be shown has a tag that closes something, which is the one that the error tells. -/
theorem closing_tag_of_show? (h : show? rules s = .error e) :
    e.tag.head? = some '/' ∧ '[' :: (e.tag ++ [']']) <:+: s := by
  rw [show?, plain] at h
  cases hplain : plainFrom rules [] [] (Text.pieces marked? s) with
  | ok t =>
    rw [hplain] at h
    cases h
  | error e' =>
    rw [hplain] at h
    cases h
    obtain ⟨source, m, hmem, htag, hhead⟩ := closing_of_plainFrom hplain
    obtain ⟨c, cs, n, hmarked, -, hsuffix⟩ := Text.found_of_mem_pieces hmem
    rw [htag]
    exact ⟨hhead, (tag_of_marked? hmarked).trans hsuffix.isInfix⟩

end LuaTidy.Console
