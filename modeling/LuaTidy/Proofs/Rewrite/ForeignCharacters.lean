import LuaTidy.Proofs.Rewrite.DecodedPieces
import LuaTidy.Proofs.Rewrite.FunctionNumbering
import LuaTidy.Proofs.Rewrite.JoinedLiterals
import LuaTidy.Proofs.Rewrite.TrimmedLines
import LuaTidy.Proofs.Rewrite.VariableNumbering
import LuaTidy.Proofs.Text.Foreign

/-!
Every rewrite keeps the foreign characters of a text. What it removes is ASCII or blank, and so is
what it puts in; a renaming has to give names of which this is true.
-/
namespace LuaTidy
open Text (foreign foreign_append foreign_cons_of_not foreign_eq_nil isForeign
  not_isForeign_of_isBlank not_isForeign_of_isPrintable not_isForeign_of_isQuote
  not_isForeign_of_isWordChar not_isForeign_of_lt)

theorem Blanks.foreign_squeeze (inRun : Bool) (s : Text) : foreign (squeeze inRun s) = foreign s := by
  fun_induction squeeze inRun s with
  | case1 => rfl
  | case2 c cs hc ih => rw [ih, foreign_cons_of_not (not_isForeign_of_isBlank hc)]
  | case3 inRun c cs hc hrun ih =>
    rw [foreign_cons_of_not (by decide), ih, foreign_cons_of_not (not_isForeign_of_isBlank hc)]
  | case4 inRun c cs hc ih => rw [Text.foreign_cons, ih, ← Text.foreign_cons]

theorem Blanks.foreign_normalize (s : Text) : foreign (normalize s).text = foreign s := by
  rw [normalize]
  split
  · exact (Text.foreign_strip _).trans (foreign_squeeze false s)
  · rfl

namespace Joins

theorem foreign_join {q : Char} {j : Text} (hq : Lua.isQuote q = true) (h : IsJoin q j) :
    foreign j = [] := by
  obtain ⟨a, b, rfl, ha, hb⟩ := h
  refine foreign_eq_nil fun c hc => ?_
  simp only [List.mem_cons, List.mem_append, List.not_mem_nil, or_false] at hc
  rcases hc with rfl | hc | rfl | rfl | hc | rfl
  · exact not_isForeign_of_isQuote hq
  · exact not_isForeign_of_isBlank (ha c hc)
  · decide
  · decide
  · exact not_isForeign_of_isBlank (hb c hc)
  · exact not_isForeign_of_isQuote hq

theorem foreign_merge (s : Text) : foreign (merge s).text = foreign s := by
  rw [merge]
  split
  · refine Text.foreign_flatMap_pieces fun p hp => ?_
    cases p with
    | kept c => rfl
    | found t v =>
      obtain ⟨c, cs, n, hr, rfl, -⟩ := Text.found_of_mem_pieces hp
      obtain ⟨hq, j, rest, hj, htake, -, rfl⟩ := joinedAt?_eq_some hr
      have hnone := foreign_join hq hj.isJoin
      have hquote := not_isForeign_of_isQuote hq
      simp [Text.Piece.value?, Text.Piece.source, htake, foreign_cons_of_not hquote, hnone]
  · rfl

end Joins

theorem Lua.foreign_rename {m : Renaming} (h : ∀ e ∈ m, foreign e.2 = []) (s : Text) :
    foreign (rename m s) = foreign s := by
  have hlexeme : ∀ l ∈ lexemes s, foreign (l.rename m) = foreign l.text := by
    intro l hl
    cases hn : l.name? with
    | none => rw [Lexeme.rename, hn]
    | some n =>
      obtain ⟨rfl, -⟩ := Lexeme.word_of_name? hn
      have hword := ((separated_lexemes s).mem hl).1 n rfl
      have hold : foreign n = [] :=
        foreign_eq_nil fun c hc => not_isForeign_of_isWordChar (hword.2 c hc)
      have hnew : foreign (m.image n) = [] := by
        cases hm : m.get? n with
        | none => rwa [Renaming.image_of_get?_none hm]
        | some v =>
          rw [Renaming.image_of_get? hm]
          exact h _ (Entries.mem_of_get? hm)
      simp only [Lexeme.rename, hn]
      exact hnew.trans hold.symm
  calc foreign (rename m s)
      = (lexemes s).flatMap fun l => foreign l.text := by
        rw [rename, Text.foreign_flatMap]
        exact List.flatMap_congr hlexeme
    _ = foreign s := by rw [← Text.foreign_flatMap, flatMap_text_lexemes]

theorem Variables.foreign_shortName {stem : Text} (h : foreign stem = []) (k : Nat) :
    foreign (shortName stem k) = [] := by
  have hdigits : foreign (Text.decimal k) = [] :=
    foreign_eq_nil fun c hc => not_isForeign_of_isWordChar (isWordChar_of_mem_decimal hc)
  rw [shortName, foreign_append, h, hdigits, List.nil_append]

theorem Variables.foreign_simplify {stem : Text} (h : foreign stem = []) (n : Int) (s : Text) :
    foreign (simplify n stem s).text = foreign s := by
  rw [simplify_text]
  refine Lua.foreign_rename ?_ s
  rintro ⟨x, v⟩ he
  obtain ⟨-, -, k, -, rfl⟩ := mem_given he
  exact foreign_shortName h _

theorem Functions.foreign_simplify {stem : Text} (h : foreign stem = []) (n : Int) (source : Text)
    (earlier : Lua.Renaming) (s : Text) :
    foreign (simplify n stem source earlier s).text = foreign s := by
  rw [simplify_text]
  refine Lua.foreign_rename ?_ s
  rintro ⟨k, v⟩ he
  obtain ⟨d, hd⟩ := mem_withAliases he
  have hget := Entries.get?_of_mem (nodup_keys_numbering n stem _) hd
  obtain ⟨i, -, rfl⟩ := (get?_numbering n stem _ d v).mp hget
  exact Variables.foreign_shortName h _

/-- A decoder keeps foreign characters if each decoded stretch has as many as what it stands for. -/
theorem Shortens.foreign_flatMap {α : Type} {r : Text.Recogniser (Option α)}
    {written : Text.Piece (Option α) → Text} (h : Shortens r written)
    (hdecoded : ∀ c cs n a, r c cs = some (n, some a) →
      foreign (written (.found (c :: cs.take n) (some a))) = foreign (c :: cs.take n)) (s : Text) :
    foreign ((Text.pieces r s).flatMap written) = foreign s := by
  refine Text.foreign_flatMap_pieces fun p hp => ?_
  cases p with
  | kept c => rw [h.copied _ rfl]
  | found t v =>
    cases v with
    | none => rw [h.copied _ rfl]
    | some a =>
      obtain ⟨c, cs, n, hr, rfl, -⟩ := Text.found_of_mem_pieces hp
      exact hdecoded c cs n a hr

namespace Payloads

theorem foreign_of_decode? {code d : Text} (h : decode? code = some d) : foreign d = [] :=
  foreign_eq_nil fun e he => not_isForeign_of_isPrintable
    (List.all_eq_true.mp (allPrintable_of_decode? h) e he)

theorem foreign_decode (s : Text) : foreign (decode s).text = foreign s := by
  refine shortens.foreign_flatMap (fun c cs n d h => ?_) s
  obtain ⟨hc, code, q, hgrammar, hq, htake, hdecode⟩ := payload?_eq_some h
  have hsource : foreign (c :: (code ++ [q])) = [] := by
    refine foreign_eq_nil fun e he => ?_
    simp only [List.mem_cons, List.mem_append, List.not_mem_nil, or_false] at he
    rcases he with rfl | he | rfl
    · exact not_isForeign_of_isQuote hc
    · rcases hgrammar.alphabet_or_equals he with hs | rfl
      · exact not_isForeign_of_lt (Text.Base64.toNat_lt_of_isSextet hs)
      · decide
    · exact not_isForeign_of_isQuote hq
  have hdouble : foreign ['"'] = [] := by decide
  rw [htake, hsource]
  calc foreign ('"' :: d ++ ['"']) = foreign ['"'] ++ (foreign d ++ foreign ['"']) := by
        rw [List.cons_append, Text.foreign_cons, foreign_append]
    _ = [] := by
        rw [hdouble, foreign_of_decode? hdecode.symm, List.append_nil, List.nil_append]

end Payloads

namespace HexEscapes

theorem toNat_lt_of_hexValue? {c : Char} {n : Nat} (h : Text.hexValue? c = some n) :
    c.toNat < 0x80 := by
  by_contra hge
  have hnone : Text.digitValue? c = none := by
    simp only [Text.digitValue?, Bool.and_eq_true, decide_eq_true_eq, Text.le_iff_toNat_le,
      Char.reduceToNat]
    rw [if_neg (by omega), if_neg (by omega), if_neg (by omega)]
  rw [Text.hexValue?, hnone] at h
  cases h

theorem foreign_decode (s : Text) : foreign (decode s).text = foreign s := by
  refine shortens.foreign_flatMap (fun c cs n d hr => ?_) s
  obtain ⟨rfl, e, d', t, he, heq, hd⟩ := (escape?_eq_some_iff c cs n (some d)).mp hr
  rw [eq_comm, Option.ite_none_right_eq_some, Option.some.injEq] at hd
  obtain ⟨hprintable, rfl⟩ := hd
  have hwritten : foreign [d'] = [] := foreign_eq_nil fun b hb => by
    rw [List.mem_singleton.mp hb]
    exact not_isForeign_of_isPrintable hprintable
  have hsource : foreign (c :: cs.take 3) = [] := by
    obtain @⟨h, l, hi, lo, high, low⟩ := he
    cases heq
    show foreign ['\\', 'x', h, l] = []
    refine foreign_eq_nil fun b hb => ?_
    simp only [List.mem_cons, List.not_mem_nil, or_false] at hb
    rcases hb with rfl | rfl | rfl | rfl
    · decide
    · decide
    · exact not_isForeign_of_lt (toNat_lt_of_hexValue? high)
    · exact not_isForeign_of_lt (toNat_lt_of_hexValue? low)
  exact hwritten.trans hsource.symm

end HexEscapes

namespace Backslashes

theorem foreign_replace {letter meaning : Char} (hl : isForeign letter = false)
    (hm : isForeign meaning = false) (s : Text) :
    foreign (replace letter meaning s) = foreign s := by
  fun_induction replace letter meaning s with
  | case1 => rfl
  | case2 => rfl
  | case3 c d cs hc ih =>
    obtain ⟨rfl, rfl⟩ := hc
    rw [foreign_cons_of_not hm, ih, foreign_cons_of_not (by decide), foreign_cons_of_not hl]
  | case4 c d cs hc ih => rw [Text.foreign_cons, ih, ← Text.foreign_cons]

theorem foreign_resolve (s : Text) : foreign (resolve s).text = foreign s := by
  have hescapes : ∀ e ∈ escapes, isForeign e.1 = false ∧ isForeign e.2 = false := by decide
  have hfold : ∀ es : List (Char × Char),
      (∀ e ∈ es, isForeign e.1 = false ∧ isForeign e.2 = false) →
        ∀ t, foreign (es.foldl (fun t e => replace e.1 e.2 t) t) = foreign t := by
    intro es hes
    induction es with
    | nil => exact fun t => rfl
    | cons e es ih =>
      intro t
      obtain ⟨hl, hm⟩ := hes e List.mem_cons_self
      rw [List.foldl_cons, ih (fun e' he' => hes e' (List.mem_cons_of_mem _ he')),
        foreign_replace hl hm]
  exact hfold escapes hescapes s

end Backslashes

namespace Indentation

theorem foreign_margin (width : Int) (level : Nat) : foreign (margin width level) = [] := by
  refine foreign_eq_nil fun c hc => ?_
  rw [eq_of_mem_margin hc]
  decide

theorem foreign_indentFrom (width : Int) (level : Nat) (ls : List Text) :
    (indentFrom width level ls).flatMap foreign = ls.flatMap foreign := by
  induction ls generalizing level with
  | nil => rfl
  | cons l ls ih =>
    rw [indentFrom, List.flatMap_cons, List.flatMap_cons, ih, foreign_append, foreign_margin,
      List.nil_append]

theorem foreign_reindent (width : Int) (s : Text) : foreign (reindent width s).text = foreign s := by
  calc foreign (reindent width s).text
      = ((Text.lines s).map Text.strip).flatMap foreign := by
        rw [reindent, Text.unlines, Text.foreign_joinWith (by decide), foreign_indentFrom]
    _ = (Text.lines s).flatMap foreign := by
        rw [List.flatMap_map]
        exact List.flatMap_congr fun l _ => Text.foreign_strip l
    _ = foreign s := Text.foreign_lines s

end Indentation
end LuaTidy
