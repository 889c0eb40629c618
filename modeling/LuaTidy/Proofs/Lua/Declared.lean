import LuaTidy.Lua.Identifier
import LuaTidy.Proofs.Lua.Lexemes
import LuaTidy.Proofs.Text.CharacterClasses
import LuaTidy.Proofs.Text.Places
import LuaTidy.Proofs.Text.Trimming
import Mathlib.Data.List.TakeWhile

/-!
Reading declarations from the left finds every one of them: none begins inside another one, so
that passing over what has been read passes over no declaration.
-/
namespace LuaTidy.Lua
open Text (isBlank Lists pieces placedFrom)

def keyword : Text := "function"

/-- The text of a declaration, with the blanks before and after the name. -/
def header (gap n space : Text) : Text := keyword ++ (gap ++ (n ++ (space ++ ['('])))

/-- A name between blanks, the second of which there may be none, as a declaration has it. -/
structure Spaced (gap n space : Text) : Prop where
  gap_ne_nil : gap ≠ []
  gap_blank : ∀ c ∈ gap, isBlank c = true
  name : isName n = true
  space_blank : ∀ c ∈ space, isBlank c = true

/-- A declaration of a name stands somewhere in a text, be it at the end of a longer word. -/
def Declares (s n : Text) : Prop := ∃ gap space, Spaced gap n space ∧ header gap n space <:+: s

/-- A declaration of a name begins at a place of a text. -/
def DeclaresAt (s : Text) (p : Nat) (n : Text) : Prop :=
  ∃ before gap space after, Spaced gap n space ∧ s = before ++ (header gap n space ++ after) ∧
    before.length = p

theorem header_append (gap n space rest : Text) :
    header gap n space ++ rest = keyword ++ (gap ++ (n ++ (space ++ '(' :: rest))) := by
  simp only [header, List.append_assoc, List.singleton_append]

theorem after?_eq_some_iff (lead s t : Text) : after? lead s = some t ↔ s = lead ++ t := by
  simp only [after?, Option.ite_none_right_eq_some, Option.some.injEq, List.isPrefixOf_iff_prefix]
  constructor
  · rintro ⟨⟨u, rfl⟩, h⟩
    rw [List.drop_left] at h
    rw [h]
  · rintro rfl
    exact ⟨List.prefix_append lead t, List.drop_left⟩

private theorem head?_not_blank {n t : Text} (hn : isName n = true) :
    ∀ c ∈ (n ++ t).head?, isBlank c = false := by
  cases n with
  | nil => simp [isName] at hn
  | cons c cs =>
    intro d hd
    cases hd
    exact Text.not_isBlank_of_isWordChar ((isWord_of_isName hn).2 c List.mem_cons_self)

theorem head?_space_not_word {space t : Text} (h : ∀ c ∈ space, isBlank c = true) :
    ∀ c ∈ (space ++ '(' :: t).head?, isWordChar c = false := by
  intro c hc
  cases hw : isWordChar c with
  | false => rfl
  | true =>
    have hb := Text.not_isBlank_of_isWordChar hw
    cases space with
    | nil =>
      cases hc
      simp [isWordChar, isNameStart] at hw
    | cons d ds =>
      cases hc
      rw [h c List.mem_cons_self] at hb
      cases hb

theorem declaration?_header {gap n space : Text} (h : Spaced gap n space) (rest : Text) :
    declaration? (header gap n space ++ rest) = some (n, rest) := by
  obtain ⟨hne, hgap, hname, hspace⟩ := h
  obtain ⟨c, cs, rfl⟩ := List.exists_cons_of_ne_nil (isWord_of_isName hname).1
  obtain ⟨hc, hcs⟩ : isNameStart c = true ∧ ∀ d ∈ cs, isWordChar d = true := by
    simpa [isName] using hname
  have hafter : after? "function" (header gap (c :: cs) space ++ rest) =
      some (gap ++ c :: (cs ++ (space ++ '(' :: rest))) :=
    (after?_eq_some_iff _ _ _).mpr (header_append gap (c :: cs) space rest)
  have hnamed : (gap ++ c :: (cs ++ (space ++ '(' :: rest))).dropWhile isBlank =
      c :: (cs ++ (space ++ '(' :: rest)) :=
    Text.dropWhile_append_of_head hgap (head?_not_blank (t := space ++ '(' :: rest) hname)
  have hlen : ¬ (c :: (cs ++ (space ++ '(' :: rest))).length =
      (gap ++ c :: (cs ++ (space ++ '(' :: rest))).length := by
    have hpos := List.length_pos_iff.mpr hne
    rw [List.length_append]
    omega
  have hhead := head?_space_not_word hspace (t := rest)
  have hparen : ∀ d ∈ ('(' :: rest).head?, isBlank d = false := by
    intro d hd
    cases hd
    decide
  simp only [declaration?, hafter, Option.bind_eq_bind, Option.bind_some, hnamed, hlen, if_false,
    hc, if_true, Text.takeWhile_append_of_head hcs hhead, Text.dropWhile_append_of_head hcs hhead,
    Text.dropWhile_append_of_head hspace hparen]

theorem header_of_declaration? {s n rest : Text} (h : declaration? s = some (n, rest)) :
    ∃ gap space, Spaced gap n space ∧ s = header gap n space ++ rest := by
  obtain ⟨t, ht, hread⟩ := Option.bind_eq_some_iff.mp h
  dsimp only at hread
  have hs : s = keyword ++ t := (after?_eq_some_iff _ _ _).mp ht
  subst hs
  have hgap : t.takeWhile isBlank ++ t.dropWhile isBlank = t := List.takeWhile_append_dropWhile
  split at hread
  · cases hread
  next hlen =>
    split at hread
    · cases hread
    next c cs hnamed =>
      split at hread
      next hc =>
        split at hread
        next after hparen =>
          cases hread
          have hname : cs.takeWhile isWordChar ++ cs.dropWhile isWordChar = cs :=
            List.takeWhile_append_dropWhile
          have hspace : (cs.dropWhile isWordChar).takeWhile isBlank ++ '(' :: rest =
              cs.dropWhile isWordChar := by
            rw [← hparen]
            exact List.takeWhile_append_dropWhile
          refine ⟨t.takeWhile isBlank, (cs.dropWhile isWordChar).takeWhile isBlank,
            ⟨?_, ?_, ?_, ?_⟩, ?_⟩
          · intro he
            rw [he, List.nil_append] at hgap
            exact hlen (congrArg List.length hgap)
          · exact fun d hd => List.mem_takeWhile_imp hd
          · simp only [isName, hc, Bool.true_and, List.all_eq_true]
            exact fun d hd => List.mem_takeWhile_imp hd
          · exact fun d hd => List.mem_takeWhile_imp hd
          · rw [header_append, hspace, List.cons_append, hname, ← hnamed, hgap]
        · cases hread
      · cases hread

private theorem keyword_eq_cons : ∃ w, keyword = 'f' :: w ∧ 'f' ∉ w :=
  ⟨['u', 'n', 'c', 't', 'i', 'o', 'n'], by decide, by decide⟩

private theorem keyword_isWordChar : ∀ c ∈ keyword, isWordChar c = true :=
  List.all_eq_true.mp (by decide)

private theorem not_mem_of_blank {s : Text} (h : ∀ c ∈ s, isBlank c = true) : 'f' ∉ s := by
  intro hf
  have hb := h 'f' hf
  simp [isBlank, Text.isWhiteSpace] at hb

/-- A declaration does not begin inside the name of another one: a keyword at the end of that name
would be followed by a parenthesis. -/
theorem header_not_in_name {gap n space space' v : Text} (h : Spaced gap n space)
    (hspace' : ∀ c ∈ space', isBlank c = true) (hv : ∀ c ∈ v, isWordChar c = true)
    (post rest : Text) :
    keyword ++ (gap ++ (n ++ (space ++ '(' :: post))) ≠ v ++ (space' ++ '(' :: rest) := by
  intro he
  have hgaphead : ∀ c ∈ (gap ++ (n ++ (space ++ '(' :: post))).head?, isWordChar c = false := by
    obtain ⟨g, gs, hg⟩ := List.exists_cons_of_ne_nil h.gap_ne_nil
    intro c hc
    rw [hg] at hc
    cases hc
    cases hword : isWordChar g with
    | false => rfl
    | true =>
      have hb := h.gap_blank g (hg ▸ List.mem_cons_self)
      rw [Text.not_isBlank_of_isWordChar hword] at hb
      cases hb
  have hsplit := (Text.split_unique keyword_isWordChar hgaphead hv
    (head?_space_not_word hspace') he).2
  have hparen : ∀ c ∈ ('(' :: rest).head?, isBlank c = false := by
    intro c hc
    cases hc
    decide
  have hname := (Text.split_unique h.gap_blank (head?_not_blank h.name) hspace' hparen hsplit).2
  obtain ⟨c, cs, rfl⟩ := List.exists_cons_of_ne_nil (isWord_of_isName h.name).1
  cases hname
  exact absurd h.name (by simp [isName, isNameStart])

/-- A declaration does not begin inside another one. -/
theorem header_disjoint {gap n space gap' n' space' rest before post : Text}
    (h : Spaced gap n space) (h' : Spaced gap' n' space')
    (he : header gap' n' space' ++ rest = before ++ (header gap n space ++ post)) :
    before = [] ∨ ∃ more, before = header gap' n' space' ++ more ∧
      rest = more ++ (header gap n space ++ post) := by
  obtain ⟨w, hw, hfw⟩ := keyword_eq_cons
  cases before with
  | nil => exact Or.inl rfl
  | cons d before =>
    right
    rw [header_append, header_append, hw, List.cons_append] at he
    obtain ⟨rfl, htail⟩ := List.cons.inj he
    -- the first letter occurs neither in the rest of the keyword nor in the blanks after it
    have hf : 'f' ∉ w ++ gap' := by
      rw [List.mem_append]
      exact fun hm => hm.elim hfw (not_mem_of_blank h'.gap_blank)
    rw [← List.append_assoc] at htail
    obtain ⟨u, rfl, hu⟩ := Text.split_at_char hf htail
    rcases List.append_eq_append_iff.mp hu with ⟨v, rfl, hv⟩ | ⟨v, hn', hv⟩
    · have hf' : 'f' ∉ space' ++ ['('] := by
        rw [List.mem_append]
        exact fun hm => hm.elim (not_mem_of_blank h'.space_blank) (by decide)
      rw [← List.singleton_append, ← List.append_assoc] at hv
      obtain ⟨more, rfl, hrest⟩ := Text.split_at_char hf' hv
      refine ⟨more, ?_, ?_⟩
      · rw [header_append, hw]
        simp
      · rw [hrest, header_append, hw]
        rfl
    · have hvword : ∀ c ∈ v, isWordChar c = true := fun c hc =>
        (isWord_of_isName h'.name).2 c (hn' ▸ List.mem_append_right u hc)
      have hne := header_not_in_name h h'.space_blank hvword post rest
      rw [hw] at hne
      exact absurd hv hne

/-- What is read as a declaration is one, and reading goes on right behind it. -/
theorem header_of_declarationAt? {c : Char} {cs n : Text} {k : Nat}
    (h : declarationAt? c cs = some (k, n)) :
    ∃ gap space, Spaced gap n space ∧ c :: cs = header gap n space ++ cs.drop k := by
  obtain ⟨⟨m, rest⟩, hd, he⟩ := Option.map_eq_some_iff.mp h
  cases he
  obtain ⟨gap, space, hspaced, hcs⟩ := header_of_declaration? hd
  refine ⟨gap, space, hspaced, ?_⟩
  have hsuffix : rest <:+ cs := by
    obtain ⟨w, hw, -⟩ := keyword_eq_cons
    rw [header_append, hw, List.cons_append] at hcs
    rw [(List.cons.inj hcs).2]
    exact ⟨w ++ (gap ++ (n ++ (space ++ ['(']))), by simp⟩
  rw [← List.suffix_iff_eq_drop.mp hsuffix]
  exact hcs

theorem declarationAt?_header {gap n space post cs : Text} {c : Char} (h : Spaced gap n space)
    (hcs : header gap n space ++ post = c :: cs) : ∃ k, declarationAt? c cs = some (k, n) := by
  have hd := declaration?_header h post
  rw [hcs] at hd
  exact ⟨_, by rw [declarationAt?, hd, Option.map_some]⟩

theorem declaresAt_append (u t : Text) (i : Nat) (n : Text) :
    DeclaresAt (u ++ t) (u.length + i) n ↔ DeclaresAt t i n := by
  constructor
  · rintro ⟨before, gap, space, after, h, hs, hlen⟩
    have hu : u <+: before :=
      List.prefix_of_prefix_length_le ⟨_, rfl⟩ ⟨_, hs.symm⟩ (hlen ▸ Nat.le_add_right _ _)
    obtain ⟨before, rfl⟩ := hu
    rw [List.append_assoc] at hs
    rw [List.length_append] at hlen
    exact ⟨before, gap, space, after, h, List.append_cancel_left hs, Nat.add_left_cancel hlen⟩
  · rintro ⟨before, gap, space, after, h, rfl, rfl⟩
    exact ⟨u ++ before, gap, space, after, h, by rw [List.append_assoc], List.length_append⟩

theorem declares_iff (s n : Text) : Declares s n ↔ ∃ p, DeclaresAt s p n := by
  constructor
  · rintro ⟨gap, space, h, before, after, hs⟩
    exact ⟨_, before, gap, space, after, h, by rw [← hs, List.append_assoc], rfl⟩
  · rintro ⟨p, before, gap, space, after, h, hs, -⟩
    exact ⟨gap, space, h, before, after, by rw [hs, List.append_assoc]⟩

theorem not_declaresAt_nil (p : Nat) (n : Text) : ¬ DeclaresAt [] p n := by
  rintro ⟨before, gap, space, after, -, hs, -⟩
  obtain ⟨w, hw, -⟩ := keyword_eq_cons
  rw [header_append, hw] at hs
  simp at hs

/-- Where no declaration is read, none begins. -/
theorem not_declaresAt_zero {c : Char} {cs : Text} (hr : declarationAt? c cs = none) (n : Text) :
    ¬ DeclaresAt (c :: cs) 0 n := by
  rintro ⟨before, gap, space, after, h, hs, hlen⟩
  rw [List.eq_nil_of_length_eq_zero hlen, List.nil_append] at hs
  obtain ⟨k, hk⟩ := declarationAt?_header h hs.symm
  rw [hr] at hk
  cases hk

/-- Where a declaration is read, the next one begins behind it. -/
theorem declaresAt_found {c : Char} {cs m : Text} {k : Nat} (hr : declarationAt? c cs = some (k, m))
    (p : Nat) (n : Text) : DeclaresAt (c :: cs) p n ↔ (p = 0 ∧ n = m) ∨
      ∃ i, p = (c :: cs.take k).length + i ∧ DeclaresAt (cs.drop k) i n := by
  obtain ⟨gap', space', h', hcs⟩ := header_of_declarationAt? hr
  have hstretch : header gap' m space' = c :: cs.take k := by
    refine List.append_cancel_right (hcs.symm.trans ?_)
    rw [List.cons_append, List.take_append_drop]
  constructor
  · rintro ⟨before, gap, space, after, h, hs, rfl⟩
    rcases header_disjoint h h' (hcs.symm.trans hs) with rfl | ⟨more, rfl, hrest⟩
    · obtain ⟨j, hj⟩ := declarationAt?_header h hs.symm
      rw [hr] at hj
      cases hj
      exact Or.inl ⟨rfl, rfl⟩
    · refine Or.inr ⟨more.length, ?_, more, gap, space, after, h, hrest, rfl⟩
      rw [List.length_append, hstretch]
  · rintro (⟨rfl, rfl⟩ | ⟨i, rfl, h⟩)
    · exact ⟨[], gap', space', cs.drop k, h', hcs, rfl⟩
    · have hs : c :: cs = (c :: cs.take k) ++ cs.drop k := hstretch ▸ hcs
      rw [hs]
      exact (declaresAt_append _ _ i n).mpr h

theorem mem_placedFrom_declarations (p q : Nat) (s n : Text) :
    (q, n) ∈ placedFrom p (pieces declarationAt? s) ↔ ∃ k, q = p + k ∧ DeclaresAt s k n := by
  refine Text.pieces_induction (motive := fun s ps => ∀ p,
    (q, n) ∈ placedFrom p ps ↔ ∃ k, q = p + k ∧ DeclaresAt s k n) ?_ ?_ ?_ s p
  · intro p
    simp [placedFrom, not_declaresAt_nil]
  · intro c cs hr ih p
    rw [placedFrom, ih]
    constructor
    · rintro ⟨k, rfl, h⟩
      exact ⟨[c].length + k, Nat.add_assoc p 1 k, (declaresAt_append [c] cs k n).mpr h⟩
    · rintro ⟨k, rfl, h⟩
      cases k with
      | zero => exact absurd h (not_declaresAt_zero hr n)
      | succ k =>
        rw [Nat.add_comm k 1] at h
        exact ⟨k, by omega, (declaresAt_append [c] cs k n).mp h⟩
  · intro c cs k m hr ih p
    simp only [placedFrom, List.mem_cons, Prod.mk.injEq, ih, declaresAt_found hr]
    constructor
    · rintro (⟨rfl, rfl⟩ | ⟨i, rfl, h⟩)
      · exact ⟨0, rfl, Or.inl ⟨rfl, rfl⟩⟩
      · exact ⟨_, Nat.add_assoc _ _ _, Or.inr ⟨i, rfl, h⟩⟩
    · rintro ⟨j, rfl, ⟨rfl, rfl⟩ | ⟨i, rfl, h⟩⟩
      · exact Or.inl ⟨rfl, rfl⟩
      · exact Or.inr ⟨i, (Nat.add_assoc _ _ _).symm, h⟩

/-- The declarations of a text as they are read, each with the place where it begins. -/
def placedDeclarations (s : Text) : List (Nat × Text) := placedFrom 0 (pieces declarationAt? s)

theorem map_snd_placedDeclarations (s : Text) :
    (placedDeclarations s).map Prod.snd = declarations s :=
  Text.map_snd_placedFrom 0 _

/-- Reading passes over no place where a declaration begins. -/
theorem lists_placedDeclarations (s : Text) : Lists (DeclaresAt s) (placedDeclarations s) where
  increasing := Text.increasing_placedFrom declarationAt? 0 s
  mem_iff p n := by simp [placedDeclarations, mem_placedFrom_declarations]

/-- Every declaration in a text is found, and nothing else is. -/
theorem mem_declarations_iff (s n : Text) : n ∈ declarations s ↔ Declares s n := by
  simp only [← map_snd_placedDeclarations, List.mem_map, Prod.exists, exists_eq_right,
    (lists_placedDeclarations s).mem_iff, declares_iff]

end LuaTidy.Lua
