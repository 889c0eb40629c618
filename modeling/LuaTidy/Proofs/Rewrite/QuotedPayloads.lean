import LuaTidy.Proofs.Rewrite.DecodedPieces

/-!
Literals that stand apart: a text between two quote characters, of either kind each, and a gap up to
the next literal. As long as no gap is a code itself, reading for payloads never takes a closing
quote for an opening one, and every literal is decoded or kept as if it stood alone.
-/
namespace LuaTidy.Payloads
open Lua (isQuote)
open Text.Base64 (IsCode)

/-- A text between two quotes, and the text behind it up to the next one. -/
structure Quoted where
  opening : Char
  body : Text
  closing : Char
  gap : Text
  opens : isQuote opening = true
  closes : isQuote closing = true
  body_plain : ∀ c ∈ body, isQuote c = false
  gap_plain : ∀ c ∈ gap, isQuote c = false

namespace Quoted

def literal (l : Quoted) : Text := l.opening :: (l.body ++ [l.closing])

def text (l : Quoted) : Text := l.literal ++ l.gap

/-- What is decoded from the literal alone. -/
def payload? (l : Quoted) : Option Text := if IsCode l.body then decode? l.body else none

/-- The literal after decoding, and the gap behind it. -/
def decoded (l : Quoted) : Text :=
  (match l.payload? with
    | some d => '"' :: (d ++ ['"'])
    | none => l.literal) ++ l.gap

end Quoted

theorem not_isQuote_of_mem_code {code : Text} (h : IsCode code) :
    ∀ c ∈ code, isQuote c = false := by
  intro c hc
  by_contra hq
  rw [Bool.not_eq_false] at hq
  rcases h.alphabet_or_equals hc with hs | rfl
  · rw [not_isSextet_of_isQuote hq] at hs
    cases hs
  · revert hq
    decide

theorem payload?_of_not_isQuote {c : Char} (h : isQuote c = false) (cs : Text) :
    payload? c cs = none := by
  simp [payload?, h]

/-- A quote with no other one behind it opens nothing. -/
theorem payload?_of_plain {s : Text} (hs : ∀ c ∈ s, isQuote c = false) (q : Char) :
    payload? q s = none := by
  have hcode : code? s = none := by
    refine Option.eq_none_iff_forall_ne_some.mpr fun code h => ?_
    obtain ⟨-, q', t, hq', rfl⟩ := (code?_eq_some_iff s code).mp h
    have hplain := hs q' (by simp)
    rw [hq'] at hplain
    cases hplain
  rw [payload?, hcode]
  exact ite_self none

/-- What is read at a quote depends on the text up to the next quote only. -/
theorem payload?_of_quote {q q' : Char} (hq : isQuote q = true) (hq' : isQuote q' = true)
    {body : Text} (hbody : ∀ c ∈ body, isQuote c = false) (t : Text) :
    payload? q (body ++ q' :: t) =
      if IsCode body then some (body.length + 1, decode? body) else none := by
  have hcode : code? (body ++ q' :: t) = if IsCode body then some body else none := by
    split
    · next h => exact (code?_eq_some_iff _ _).mpr ⟨h, q', t, hq', rfl⟩
    · next h =>
      refine Option.eq_none_iff_forall_ne_some.mpr fun code hread => h ?_
      obtain ⟨hgrammar, e, u, he, hsplit⟩ := (code?_eq_some_iff _ _).mp hread
      have hsame := Text.split_unique (p := fun c => !isQuote c) (by simpa using hbody)
        (by simp [hq']) (by simpa using not_isQuote_of_mem_code hgrammar) (by simp [he]) hsplit
      rwa [hsame.1]
  rw [payload?, if_pos hq, hcode]
  split <;> rfl

theorem decode_cons_kept {c : Char} {cs : Text} (h : payload? c cs = none) :
    decode (c :: cs) = ⟨c :: (decode cs).text, (decode cs).hits⟩ := by
  simp [decode, Text.pieces_cons_kept h, written, Text.Piece.value?, Text.Piece.source]

theorem decode_plain_append {s : Text} (hs : ∀ c ∈ s, isQuote c = false) (t : Text) :
    decode (s ++ t) = ⟨s ++ (decode t).text, (decode t).hits⟩ := by
  induction s with
  | nil => rfl
  | cons c s ih =>
    have hc := payload?_of_not_isQuote (hs c List.mem_cons_self) (s ++ t)
    rw [List.cons_append, decode_cons_kept hc, ih fun d hd => hs d (List.mem_cons_of_mem c hd)]
    rfl

theorem decode_found {c d : Char} {body t : Text} {v : Option Text}
    (h : payload? c (body ++ d :: t) = some (body.length + 1, v)) :
    decode (c :: (body ++ d :: t)) =
      ⟨written (.found (c :: (body ++ [d])) v) ++ (decode t).text,
        (decode t).hits + if v.isSome then 1 else 0⟩ := by
  have hpieces := Text.pieces_append_found (s := []) (by simp) h
  rw [List.nil_append, List.map_nil, List.nil_append] at hpieces
  rw [decode, hpieces, List.flatMap_cons, List.countP_cons]
  rfl

/-- Each literal is decoded alone, if the gap behind it cannot be taken for a code. -/
theorem decode_quoted (l : Quoted) {t : Text}
    (ht : (∀ c ∈ t, isQuote c = false) ∨
      ∃ q u, t = q :: u ∧ isQuote q = true ∧ ¬ IsCode l.gap) :
    decode (l.text ++ t) =
      ⟨l.decoded ++ (decode t).text, (decode t).hits + if l.payload?.isSome then 1 else 0⟩ := by
  have hread := payload?_of_quote l.opens l.closes l.body_plain (l.gap ++ t)
  have htext : l.text ++ t = l.opening :: (l.body ++ l.closing :: (l.gap ++ t)) := by
    simp [Quoted.text, Quoted.literal]
  rw [htext, Quoted.decoded, Quoted.payload?]
  split at hread
  · next hcode =>
    rw [decode_found hread, decode_plain_append l.gap_plain, if_pos hcode]
    cases decode? l.body <;>
      simp [written, Text.Piece.value?, Text.Piece.source, Quoted.literal]
  · next hcode =>
    -- neither the opening quote nor the closing one begins anything
    have hclosing : payload? l.closing (l.gap ++ t) = none := by
      rcases ht with ht | ⟨q, u, rfl, hq, hgap⟩
      · refine payload?_of_plain ?_ l.closing
        intro c hc
        rcases List.mem_append.mp hc with hc | hc
        · exact l.gap_plain c hc
        · exact ht c hc
      · rw [payload?_of_quote l.closes hq l.gap_plain, if_neg hgap]
    rw [decode_cons_kept hread, decode_plain_append l.body_plain, decode_cons_kept hclosing,
      decode_plain_append l.gap_plain, if_neg hcode]
    simp [Quoted.literal]

theorem decode_literals {ls : List Quoted} (hgaps : ∀ l ∈ ls.dropLast, ¬ IsCode l.gap) :
    decode (ls.flatMap Quoted.text) =
      ⟨ls.flatMap Quoted.decoded, ls.countP fun l => l.payload?.isSome⟩ := by
  induction ls with
  | nil => rfl
  | cons l ls ih =>
    have hinner : ∀ k ∈ ls.dropLast, k ∈ (l :: ls).dropLast := by
      cases ls with
      | nil => simp
      | cons k ls => exact fun k' hk' => List.mem_cons_of_mem l hk'
    have hrest := ih fun k hk => hgaps k (hinner k hk)
    have ht : (∀ c ∈ ls.flatMap Quoted.text, isQuote c = false) ∨
        ∃ q u, ls.flatMap Quoted.text = q :: u ∧ isQuote q = true ∧ ¬ IsCode l.gap := by
      cases ls with
      | nil => exact Or.inl (by simp)
      | cons k ls => exact Or.inr ⟨k.opening, _, rfl, k.opens, hgaps l List.mem_cons_self⟩
    rw [List.flatMap_cons, decode_quoted l ht, hrest, List.flatMap_cons, List.countP_cons]

/-- In a text of literals with gaps around them, of which the inner ones are no codes, decoding puts
every literal that is a code of a printable text in double quotes, and keeps the others and the gaps
as they are; it counts what it replaces, and what it replaces makes the text shorter. -/
theorem literals_decoded_apart {g : Text} (hg : ∀ c ∈ g, isQuote c = false) {ls : List Quoted}
    (hgaps : ∀ l ∈ ls.dropLast, ¬ IsCode l.gap) :
    let s := g ++ ls.flatMap Quoted.text
    (decode s).text = g ++ ls.flatMap Quoted.decoded ∧
      (decode s).hits = ls.countP (fun l => l.payload?.isSome) ∧
      (0 < (decode s).hits → (decode s).text.length < s.length) := by
  intro s
  have hs : decode s = ⟨g ++ ls.flatMap Quoted.decoded, ls.countP fun l => l.payload?.isSome⟩ := by
    rw [decode_plain_append hg, decode_literals hgaps]
  refine ⟨by rw [hs], by rw [hs], fun hhits => ?_⟩
  exact shortens.length_lt (List.countP_pos_iff.mp hhits)

/-- A code in quotes of two kinds, then a text that is no code and a code of no text. -/
theorem literals_decoded_apart_mixed_quotes :
    let first : Quoted :=
      ⟨'"', "SGk=", '\'', " .. ", by decide, by decide, by simp [isQuote], by simp [isQuote]⟩
    let second : Quoted :=
      ⟨'\'', "no code", '\'', ", ", by decide, by decide, by simp [isQuote], by simp [isQuote]⟩
    let third : Quoted :=
      ⟨'"', "", '"', "", by decide, by decide, by simp [isQuote], by simp [isQuote]⟩
    let ls := [first, second, third]
    let s : Text := "print(" ++ ls.flatMap Quoted.text
    ((∀ c ∈ ("print(" : Text), isQuote c = false) ∧ ∀ l ∈ ls.dropLast, ¬ IsCode l.gap) ∧
      s = ("print(\"SGk=' .. 'no code', \"\"" : Text) ∧
      (decode s).text = ("print(\"Hi\" .. 'no code', \"\"" : Text) ∧ (decode s).hits = 1 ∧
      (decode s).text.length < s.length := by
  intro first second third ls s
  have hg : ∀ c ∈ ("print(" : Text), isQuote c = false := by simp [isQuote]
  have hgaps : ∀ l ∈ ls.dropLast, ¬ IsCode l.gap := by decide
  obtain ⟨htext, hhits, hshorter⟩ := literals_decoded_apart hg hgaps
  have hone : ls.countP (fun l => l.payload?.isSome) = 1 := by decide
  rw [hone] at hhits
  refine ⟨⟨hg, hgaps⟩, by decide, ?_, hhits, hshorter (hhits ▸ Nat.one_pos)⟩
  rw [htext]
  decide

end LuaTidy.Payloads
