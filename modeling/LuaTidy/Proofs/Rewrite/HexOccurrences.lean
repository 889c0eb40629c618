import LuaTidy.Lua.Literal
import LuaTidy.Rewrite.Literals
import LuaTidy.Proofs.Text.PieceScan

/-!
Hexadecimal escapes where they stand in a text. No escape begins within another one, so decoding is
said by two equations: an escape of a printable character becomes that character, and any other
character is kept. An escape of a character that is not printable is kept with all its characters.
-/
namespace LuaTidy.HexEscapes
open Text (Piece hexValue? isPrintable)

/-- A complete escape, with the character that it stands for: a backslash, an `x` and two
hexadecimal digits of either letter case. -/
inductive IsEscape : Text → Char → Prop
  | intro {h l : Char} {hi lo : Nat} (high : hexValue? h = some hi) (low : hexValue? l = some lo) :
      IsEscape ['\\', 'x', h, l] (Char.ofNat (hi * 16 + lo))

/-- An escape of a printable character stands at the very beginning. -/
def Begins (s : Text) : Prop := ∃ e d t, IsEscape e d ∧ isPrintable d = true ∧ s = e ++ t

theorem plain_of_hexValue? {c : Char} {n : Nat} (h : hexValue? c = some n) :
    c ≠ '\\' ∧ Lua.isQuote c = false := by
  have hnone : ∀ b ∈ ['\\', '"', '\''], hexValue? b = none := by
    simp only [List.forall_mem_cons]
    exact ⟨rfl, rfl, rfl, List.forall_mem_nil _⟩
  have hc : c ∉ ['\\', '"', '\''] := by
    intro hmem
    rw [hnone c hmem] at h
    cases h
  simpa [Lua.isQuote] using hc

namespace IsEscape

variable {e e' t t' : Text} {d d' : Char}

/-- An escape begins with a backslash, and has no other one in it and no quote. -/
theorem exists_cons (h : IsEscape e d) : ∃ ds, e = '\\' :: ds ∧ ds.length = 3 ∧
    ∀ c ∈ ds, c ≠ '\\' ∧ Lua.isQuote c = false := by
  obtain ⟨high, low⟩ := h
  refine ⟨_, rfl, rfl, ?_⟩
  simp only [List.forall_mem_cons]
  exact ⟨by decide, plain_of_hexValue? high, plain_of_hexValue? low, by simp⟩

theorem length_eq (h : IsEscape e d) : e.length = 4 := by
  obtain ⟨ds, rfl, hlen, -⟩ := h.exists_cons
  rw [List.length_cons, hlen]

theorem cons_eq {c : Char} {cs : Text} (h : IsEscape e d) (heq : c :: cs = e ++ t) :
    c = '\\' ∧ ∃ ds, e = '\\' :: ds ∧ cs = ds ++ t ∧ ds.length = 3 ∧
      ∀ b ∈ ds, b ≠ '\\' ∧ Lua.isQuote b = false := by
  obtain ⟨ds, rfl, hds⟩ := h.exists_cons
  rw [List.cons_append] at heq
  obtain ⟨hc, hcs⟩ := List.cons.inj heq
  exact ⟨hc, ds, rfl, hcs, hds⟩

/-- What an escape stands for can be told from a text that begins with it. -/
theorem unique (h : IsEscape e d) (h' : IsEscape e' d') (heq : e ++ t = e' ++ t') :
    e = e' ∧ d = d' := by
  cases h with
  | intro high low =>
    cases h' with
    | intro high' low' =>
      cases heq
      cases high.symm.trans high'
      cases low.symm.trans low'
      exact ⟨rfl, rfl⟩

end IsEscape

/-- The recogniser answers exactly at a complete escape. -/
theorem escape?_eq_some_iff (c : Char) (cs : Text) (n : Nat) (v : Option Char) :
    escape? c cs = some (n, v) ↔ n = 3 ∧ ∃ e d t, IsEscape e d ∧ c :: cs = e ++ t ∧
      v = if isPrintable d then some d else none := by
  constructor
  · intro h
    unfold escape? at h
    split at h
    · simp only [Option.bind_eq_bind, Option.bind_eq_some_iff, Option.some.injEq,
        Prod.mk.injEq] at h
      obtain ⟨hi, high, lo, low, rfl, rfl⟩ := h
      exact ⟨rfl, _, _, _, .intro high low, rfl, rfl⟩
    · cases h
  · rintro ⟨rfl, e, d, t, ⟨high, low⟩, heq, rfl⟩
    cases heq
    simp [escape?, high, low]

theorem not_begins_of_ne {c : Char} (hc : c ≠ '\\') (cs : Text) : ¬ Begins (c :: cs) := by
  rintro ⟨e, d, t, he, -, heq⟩
  exact hc (he.cons_eq heq).1

@[simp] theorem decode_nil : decode [] = ⟨[], 0⟩ := rfl

theorem decode_escape {e : Text} {d : Char} (he : IsEscape e d) (hd : isPrintable d = true)
    (t : Text) : decode (e ++ t) = ⟨d :: (decode t).text, (decode t).hits + 1⟩ := by
  cases he with
  | @intro h l hi lo high low =>
    have hread : escape? '\\' ('x' :: h :: l :: t) = some (3, some (Char.ofNat (hi * 16 + lo))) :=
      (escape?_eq_some_iff _ _ _ _).mpr
        ⟨rfl, _, _, t, .intro high low, rfl, by rw [if_pos hd]⟩
    simp [decode, Text.pieces_cons_found hread, written, Piece.value?]

theorem decode_of_none {c : Char} {cs : Text} (h : escape? c cs = none) :
    decode (c :: cs) = ⟨c :: (decode cs).text, (decode cs).hits⟩ := by
  simp [decode, Text.pieces_cons_kept h, written, Piece.value?, Piece.source]

theorem decode_append_of_not_mem {s : Text} (hs : '\\' ∉ s) (t : Text) :
    decode (s ++ t) = ⟨s ++ (decode t).text, (decode t).hits⟩ := by
  induction s with
  | nil => rfl
  | cons c s ih =>
    rw [List.mem_cons, not_or] at hs
    have hnone : escape? c (s ++ t) = none := by
      rw [Option.eq_none_iff_forall_ne_some]
      rintro ⟨n, v⟩ hread
      obtain ⟨-, e, d, u, he, heq, -⟩ := (escape?_eq_some_iff _ _ _ _).mp hread
      exact hs.1 (he.cons_eq heq).1.symm
    rw [List.cons_append, decode_of_none hnone, ih hs.2]
    rfl

theorem decode_of_not_mem {s : Text} (hs : '\\' ∉ s) : decode s = ⟨s, 0⟩ := by
  have hdecode := decode_append_of_not_mem hs []
  rwa [List.append_nil, decode_nil, List.append_nil] at hdecode

/-- A character at which no escape of a printable character begins is kept. -/
theorem decode_cons {c : Char} {cs : Text} (h : ¬ Begins (c :: cs)) :
    decode (c :: cs) = ⟨c :: (decode cs).text, (decode cs).hits⟩ := by
  cases hread : escape? c cs with
  | none => exact decode_of_none hread
  | some p =>
    obtain ⟨n, v⟩ := p
    obtain ⟨rfl, e, d, t, he, heq, rfl⟩ := (escape?_eq_some_iff _ _ _ _).mp hread
    have hd : ¬ isPrintable d = true := fun hd => h ⟨e, d, t, he, hd, heq⟩
    -- the whole escape is kept, and none begins at its other characters
    obtain ⟨rfl, ds, rfl, rfl, hlen, hds⟩ := he.cons_eq heq
    have hplain : '\\' ∉ ds := fun hmem => (hds _ hmem).1 rfl
    rw [if_neg hd] at hread
    rw [decode_append_of_not_mem hplain, decode, Text.pieces_cons_found hread,
      List.take_left' hlen, List.drop_left' hlen]
    simp [decode, written, Piece.value?, Piece.source]

/-- What holds of a text whenever it holds behind its first character, or behind the escape of a
printable character that it begins with, holds of every text. -/
theorem escape_induction {motive : Text → Prop} (nil : motive [])
    (kept : ∀ c cs, ¬ Begins (c :: cs) → motive cs → motive (c :: cs))
    (escape : ∀ e d t, IsEscape e d → isPrintable d = true → motive t → motive (e ++ t))
    (s : Text) : motive s := by
  induction hn : s.length using Nat.strongRecOn generalizing s with
  | _ n ih =>
    subst hn
    cases s with
    | nil => exact nil
    | cons c cs =>
      by_cases h : Begins (c :: cs)
      · obtain ⟨e, d, t, he, hd, heq⟩ := h
        have hlt : t.length < (c :: cs).length := by
          rw [heq, List.length_append, he.length_eq]
          omega
        rw [heq]
        exact escape e d t he hd (ih _ hlt t rfl)
      · exact kept c cs h (ih _ (Nat.lt_succ_self _) cs rfl)

end LuaTidy.HexEscapes
