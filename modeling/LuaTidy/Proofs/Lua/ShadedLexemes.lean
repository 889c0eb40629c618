import LuaTidy.Proofs.Lua.NamesInCode
import LuaTidy.Proofs.Lua.TokenRenaming

/-!
The literals of a text, found by its lexemes: a word, whatever its letters, never opens or closes
one. A renaming therefore leaves every identifier inside or outside the literals, as it was.
-/
namespace LuaTidy.Lua

/-- How many lexemes after an opening quote `q` complete the literal, as `closing?` reads it. -/
def closingLexeme? (q : Char) : List Lexeme → Option Nat
  | [] => none
  | .word _ :: ls => (closingLexeme? q ls).map (· + 1)
  | .gap c :: ls =>
    if c = q then some 1
    else if c = '\\' then
      match ls with
      | [] => none
      | l :: ms => if l = .gap '\n' then none else (closingLexeme? q ms).map (· + 2)
    else if c = '\n' then none
    else (closingLexeme? q ls).map (· + 1)

/-- How many lexemes after a lexeme belong to the literal that it opens; none if it opens none. -/
def literalLexemes (l : Lexeme) (ls : List Lexeme) : Nat :=
  match l with
  | .word _ => 0
  | .gap c => if isQuote c then (closingLexeme? c ls).getD 0 else 0

/-- Lexemes, each with whether it belongs to a literal that opens before it. The first `k` of them
belong to one that is open already. -/
def shaded : Nat → List Lexeme → List (Lexeme × Bool)
  | _, [] => []
  | k + 1, l :: ls => (l, true) :: shaded k ls
  | 0, l :: ls => (l, false) :: shaded (literalLexemes l ls) ls

theorem ne_lineFeed_of_isWordChar {c : Char} (hc : isWordChar c = true) : c ≠ '\n' := by
  rintro rfl
  revert hc
  decide

theorem closing?_append_word {q : Char} (hq : isQuote q = true) {w : Text}
    (hw : ∀ c ∈ w, isWordChar c = true) (t : Text) :
    closing? q (w ++ t) = (closing? q t).map (· + w.length) := by
  induction w with
  | nil => simp
  | cons c w ih =>
    have hc := hw c List.mem_cons_self
    have hcq : c ≠ q := by
      rintro rfl
      rw [Text.isWordChar_of_isQuote hq] at hc
      cases hc
    have hcb : c ≠ '\\' := by
      rintro rfl
      revert hc
      decide
    have hcn := ne_lineFeed_of_isWordChar hc
    rw [List.cons_append, closing?_plain hcq hcb hcn, ih fun d hd => hw d (List.mem_cons_of_mem _ hd),
      Option.map_map]
    congr 1

theorem Separated.tail {l : Lexeme} {ls : List Lexeme} (h : Separated (l :: ls)) :
    Separated ls := by
  cases h with
  | gap c ls hc h => exact h
  | last w hw => exact .nil
  | word w c ls hw hc h => exact .gap c ls hc h

theorem Separated.isWord {w : Text} {ls : List Lexeme} (h : Separated (.word w :: ls)) :
    IsWord w := (h.mem List.mem_cons_self).1 w rfl

/-- The length of the text of the first lexemes. -/
def textLength (ls : List Lexeme) (k : Nat) : Nat := ((ls.take k).flatMap Lexeme.text).length

@[simp] theorem textLength_zero (ls : List Lexeme) : textLength ls 0 = 0 := by
  simp [textLength]

@[simp] theorem textLength_cons_succ (l : Lexeme) (ls : List Lexeme) (k : Nat) :
    textLength (l :: ls) (k + 1) = l.text.length + textLength ls k := by
  simp [textLength]

theorem textLength_le (ls : List Lexeme) (k : Nat) :
    textLength ls k ≤ (ls.flatMap Lexeme.text).length := by
  have hsplit := congrArg (List.flatMap Lexeme.text) (List.take_append_drop k ls)
  rw [← hsplit, List.flatMap_append, List.length_append, textLength]
  exact Nat.le_add_right _ _

theorem drop_textLength (ls : List Lexeme) (k : Nat) :
    (ls.flatMap Lexeme.text).drop (textLength ls k) = (ls.drop k).flatMap Lexeme.text := by
  have hsplit := congrArg (List.flatMap Lexeme.text) (List.take_append_drop k ls)
  rw [List.flatMap_append] at hsplit
  rw [← hsplit, textLength, List.drop_left]

/-- Reading by lexemes and reading by characters close a literal at the same place. -/
theorem closing?_flatMap_text {q : Char} (hq : isQuote q = true) {ls : List Lexeme}
    (h : Separated ls) :
    closing? q (ls.flatMap Lexeme.text) = (closingLexeme? q ls).map (textLength ls) := by
  fun_induction closingLexeme? q ls with
  | case1 => rfl
  | case2 w ls ih =>
    rw [List.flatMap_cons, Lexeme.text, closing?_append_word hq h.isWord.2, ih h.tail,
      Option.map_map, Option.map_map]
    congr 1
    funext k
    simp [Lexeme.text, Nat.add_comm]
  | case3 ls => exact closing?_quote q _
  | case4 hne =>
    rw [closing?.eq_def]
    simp [Lexeme.text, hne]
  | case5 ms hne =>
    rw [closing?.eq_def]
    simp [Lexeme.text, hne]
  | case6 l ms hl hne ih =>
    have hms := ih h.tail.tail
    rw [Option.map_map]
    cases l with
    | gap d =>
      have hd : d ≠ '\n' := fun he => hl (by rw [he])
      have hread := closing?_escaped hne hd (ms.flatMap Lexeme.text)
      rw [hms, Option.map_map] at hread
      exact hread
    | word w =>
      -- the backslash takes the first letter of the word along
      obtain ⟨hw, hall⟩ := h.tail.isWord
      obtain ⟨d, w, rfl⟩ := List.exists_cons_of_ne_nil hw
      have hd := ne_lineFeed_of_isWordChar (hall d List.mem_cons_self)
      have hread := closing?_escaped hne hd (w ++ ms.flatMap Lexeme.text)
      rw [closing?_append_word hq fun e he => hall e (List.mem_cons_of_mem _ he), hms,
        Option.map_map, Option.map_map] at hread
      refine hread.trans ?_
      congr 1
      funext k
      simp [Lexeme.text]
      omega
  | case7 ls hne hb =>
    rw [closing?.eq_def]
    simp [Lexeme.text, hne]
  | case8 c ls hq' hb hn ih =>
    rw [List.flatMap_cons, Lexeme.text, List.singleton_append, closing?_plain hq' hb hn, ih h.tail,
      Option.map_map, Option.map_map]
    rfl

/-- The identifier that a lexeme is, with its shade. -/
def named (e : Lexeme × Bool) : Option (Text × Bool) := e.1.name?.map (·, e.2)

/-- Whether a position comes before `after` or lies inside one of the spans. -/
def held (after : Nat) (spans : List (Nat × Nat)) (pos : Nat) : Bool :=
  pos < after || spans.any fun u => u.1 < pos && pos < u.2

theorem insideSpan_eq_held {spans : List (Nat × Nat)} (h : InOrder spans) (pos : Nat) :
    insideSpan spans.toArray pos = held 0 spans pos := by
  rw [Bool.eq_iff_iff, insideSpan_iff h]
  simp [held]

private theorem map_placedNamesFrom_cons (shade : Nat → Bool) (p : Nat) (l : Lexeme)
    (ls : List Lexeme) :
    ((placedNamesFrom p (l :: ls)).map fun e => (e.2, shade e.1)) =
      (named (l, shade p)).toList ++
        (placedNamesFrom (p + l.text.length) ls).map fun e => (e.2, shade e.1) := by
  cases h : l.name? <;> simp [placedNamesFrom, named, h]

private theorem map_placedNamesFrom_congr {shade shade' : Nat → Bool} {p : Nat}
    (h : ∀ q, p ≤ q → shade q = shade' q) (ls : List Lexeme) :
    ((placedNamesFrom p ls).map fun e => (e.2, shade e.1)) =
      (placedNamesFrom p ls).map fun e => (e.2, shade' e.1) := by
  refine List.map_congr_left ?_
  rintro ⟨q, n⟩ he
  rw [h q (mem_placedNamesFrom_bounds he).1]

private theorem held_start (spans : List (Nat × Nat)) {p : Nat} (h : ∀ u ∈ spans, p ≤ u.1) :
    held p spans p = false := by
  simp only [held, Nat.lt_irrefl, decide_false, Bool.false_or, List.any_eq_false,
    Bool.and_eq_true, decide_eq_true_eq, not_and]
  intro u hu hlt
  have hle := h u hu
  omega

/-- What the first lexeme contributes to the extents of the literals, seen from behind it. -/
private theorem held_extentsFrom {l : Lexeme} {ls : List Lexeme} (h : Separated (l :: ls))
    {p q : Nat} (hq : p + l.text.length ≤ q) :
    let after := p + l.text.length + textLength ls (literalLexemes l ls)
    held p (extentsFrom p (Text.pieces literal? ((l :: ls).flatMap Lexeme.text))) q =
      held after (extentsFrom after
        (Text.pieces literal? ((ls.drop (literalLexemes l ls)).flatMap Lexeme.text))) q := by
  intro after
  rw [List.flatMap_cons]
  cases l with
  | word w =>
    have hnone : ∀ c ∈ w, ∀ cs, literal? c cs = none := fun c hc cs =>
      literal?_of_not_isQuote (Text.not_isQuote_of_isWordChar (h.isWord.2 c hc)) cs
    simp only [Lexeme.text] at hq
    have hp : ¬ q < p := by omega
    have hp' : ¬ q < p + w.length := by omega
    rw [Lexeme.text, Text.pieces_append_of_none hnone, extentsFrom_append_kept]
    simp [after, held, literalLexemes, Lexeme.text, hp, hp']
  | gap c =>
    have hp : ¬ q < p := by
      simp only [Lexeme.text, List.length_singleton] at hq
      omega
    have hp' : ¬ q < p + 1 := by
      simp only [Lexeme.text, List.length_singleton] at hq
      omega
    rw [Lexeme.text, List.singleton_append]
    cases hc : isQuote c with
    | false =>
      rw [Text.pieces_cons_kept (literal?_of_not_isQuote hc _)]
      simp [after, held, literalLexemes, Lexeme.text, extentsFrom, hc, hp, hp']
    | true =>
      have hclose := closing?_flatMap_text hc h.tail
      cases hk : closingLexeme? c ls with
      | none =>
        have hnone : literal? c (ls.flatMap Lexeme.text) = none := by
          simp [literal?, hc, hclose, hk]
        rw [Text.pieces_cons_kept hnone]
        simp [after, held, literalLexemes, Lexeme.text, extentsFrom, hc, hk, hp, hp']
      | some k =>
        have hsome : literal? c (ls.flatMap Lexeme.text) = some (textLength ls k, ()) := by
          simp [literal?, hc, hclose, hk]
        have htake : ((ls.flatMap Lexeme.text).take (textLength ls k)).length = textLength ls k :=
          List.length_take_of_le (textLength_le ls k)
        have hpq : p < q := by omega
        rw [Text.pieces_cons_found hsome, drop_textLength]
        simp [after, held, literalLexemes, Lexeme.text, extentsFrom, hc, hk, hp, hpq, htake,
          Nat.add_assoc, Nat.add_comm]

/-- From any position on, the shades of the lexemes tell which identifiers are held by literals. -/
theorem map_placedNamesFrom_held {ls : List Lexeme} (h : Separated ls) (p k : Nat) :
    let after := p + textLength ls k
    ((placedNamesFrom p ls).map fun e =>
      (e.2, held after (extentsFrom after
        (Text.pieces literal? ((ls.drop k).flatMap Lexeme.text))) e.1)) =
      (shaded k ls).filterMap named := by
  induction ls generalizing p k with
  | nil => cases k <;> rfl
  | cons l ls ih =>
    have hpos : 0 < l.text.length := by
      cases l with
      | gap c => exact Nat.one_pos
      | word w => exact List.length_pos_iff.mpr h.isWord.1
    cases k with
    | succ k =>
      have hbefore : ∀ spans, held (p + (l.text.length + textLength ls k)) spans p = true := by
        intro spans
        have hlt : p < p + (l.text.length + textLength ls k) := by omega
        simp [held, hlt]
      rw [shaded, List.filterMap_cons]
      simp only [textLength_cons_succ, List.drop_succ_cons]
      rw [map_placedNamesFrom_cons, hbefore]
      have hrest := ih h.tail (p + l.text.length) k
      simp only [Nat.add_assoc] at hrest
      rw [hrest]
      cases named (l, true) <;> rfl
    | zero =>
      have hstart := held_start (extentsFrom p (Text.pieces literal? ((l :: ls).flatMap Lexeme.text)))
        fun u hu => le_of_mem_extentsFrom hu
      rw [shaded, List.filterMap_cons]
      simp only [textLength_zero, Nat.add_zero, List.drop_zero]
      rw [map_placedNamesFrom_cons, hstart,
        map_placedNamesFrom_congr (fun q hq => held_extentsFrom h hq), ih h.tail]
      cases named (l, false) <;> rfl

/-- The identifiers of a text, each with whether it begins strictly inside a literal. -/
def shadedNames (s : Text) : List (Text × Bool) :=
  (placedNames s).map fun e => (e.2, insideSpan (literalSpans s) e.1)

theorem shadedNames_eq (s : Text) : shadedNames s = (shaded 0 (lexemes s)).filterMap named := by
  have hinside : ∀ q, insideSpan (literalSpans s) q =
      held 0 (extentsFrom 0 (Text.pieces literal? s)) q :=
    insideSpan_eq_held (inOrder_extentsFrom literal? 0 s)
  have hheld := map_placedNamesFrom_held (separated_lexemes s) 0 0
  simp only [textLength_zero, Nat.add_zero, List.drop_zero, flatMap_text_lexemes] at hheld
  simp only [shadedNames, hinside]
  exact hheld

theorem closingLexeme?_map_under (m : Renaming) (q : Char) (ls : List Lexeme) :
    closingLexeme? q (ls.map (Lexeme.under m)) = closingLexeme? q ls := by
  have hword : ∀ w, ∃ v, (Lexeme.word w).under m = .word v := by
    intro w
    cases h : (Lexeme.word w).name? with
    | none => exact ⟨w, Lexeme.under_of_name?_none h⟩
    | some n => exact ⟨_, Lexeme.under_of_name? h⟩
  have hgap : ∀ c, (Lexeme.gap c).under m = .gap c := fun c => rfl
  fun_induction closingLexeme? q ls with
  | case1 => rfl
  | case2 w ls ih =>
    obtain ⟨v, hv⟩ := hword w
    rw [List.map_cons, hv, closingLexeme?, ih]
  | case3 ls =>
    rw [closingLexeme?.eq_def]
    simp [hgap]
  | case4 hne => simp [hgap, closingLexeme?, hne]
  | case5 ms hne => simp [hgap, closingLexeme?, hne]
  | case6 l ms hl hne ih =>
    have hl' : l.under m ≠ .gap '\n' := by
      cases l with
      | gap c => exact hl
      | word w =>
        obtain ⟨v, hv⟩ := hword w
        simp [hv]
    simp [hgap, closingLexeme?, hne, hl', ih]
  | case7 ls hne hb =>
    rw [closingLexeme?.eq_def]
    simp [hgap, hne]
  | case8 c ls hq hb hn ih =>
    rw [closingLexeme?.eq_def]
    simp [hgap, hq, hb, hn, ih]

theorem literalLexemes_map_under (m : Renaming) (l : Lexeme) (ls : List Lexeme) :
    literalLexemes (l.under m) (ls.map (Lexeme.under m)) = literalLexemes l ls := by
  cases l with
  | gap c =>
    have hgap : (Lexeme.gap c).under m = .gap c := rfl
    simp only [hgap, literalLexemes, closingLexeme?_map_under]
  | word w =>
    cases h : (Lexeme.word w).name? with
    | none => rw [Lexeme.under_of_name?_none h, literalLexemes, literalLexemes]
    | some n => rw [Lexeme.under_of_name? h, literalLexemes, literalLexemes]

theorem shaded_map_under (m : Renaming) (k : Nat) (ls : List Lexeme) :
    shaded k (ls.map (Lexeme.under m)) = (shaded k ls).map fun e => (e.1.under m, e.2) := by
  induction ls generalizing k with
  | nil => cases k <;> rfl
  | cons l ls ih =>
    cases k with
    | zero => simp only [List.map_cons, shaded, literalLexemes_map_under, ih]
    | succ k => simp only [List.map_cons, shaded, ih]

/-- Renaming moves no identifier into a literal or out of one. -/
theorem shadedNames_rename {m : Renaming} (hm : m.GivesNames) (s : Text) :
    shadedNames (rename m s) = (shadedNames s).map fun e => (m.image e.1, e.2) := by
  rw [shadedNames_eq, shadedNames_eq, lexemes_rename hm, shaded_map_under, List.filterMap_map,
    List.map_filterMap]
  refine List.filterMap_congr fun e _ => ?_
  simp only [Function.comp_apply, named, Lexeme.name?_under hm, Option.map_map]
  rfl

theorem namesInCode_eq_shadedNames (s : Text) :
    Variables.namesInCode s = (shadedNames s).filterMap fun e => if e.2 then none else some e.1 := by
  rw [shadedNames, List.filterMap_map]
  rfl

theorem namesInCode_rename {m : Renaming} (hm : m.GivesNames) (s : Text) :
    Variables.namesInCode (rename m s) = (Variables.namesInCode s).map m.image := by
  rw [namesInCode_eq_shadedNames, namesInCode_eq_shadedNames, shadedNames_rename hm,
    List.filterMap_map, List.map_filterMap]
  refine List.filterMap_congr fun e _ => ?_
  cases h : e.2 <;> simp [h]

end LuaTidy.Lua
