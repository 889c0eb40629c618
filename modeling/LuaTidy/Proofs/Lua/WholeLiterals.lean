import LuaTidy.Proofs.Lua.LiteralSpans
import Mathlib.Data.List.Sort

/-!
What the spans of a text are, said without the scan that finds them: stretches between two equal
quotes on one line, no two of which overlap, such that no quote outside them opens another one.
Asking whether a position lies inside one of them is asking all of them.
-/
namespace LuaTidy.Lua

/-- Whether the next character is escaped: a backslash that is not escaped itself escapes it. -/
def escapesNext (s : Text) : Bool := s.foldl (fun escaped c => c == '\\' && !escaped) false

/-- What may stand between two quotes `q`: no line feed, `q` only where it is escaped, and no
backslash at the end that escapes the closing quote. -/
structure Enclosed (q : Char) (body : Text) : Prop where
  one_line : '\n' ∉ body
  quotes_escaped : ∀ before after, body = before ++ q :: after → escapesNext before = true
  complete : escapesNext body = false

/-- A whole literal takes up the places from the first one on, up to the second one. -/
def LiteralAt (s : Text) (u : Nat × Nat) : Prop :=
  ∃ before q body after, s = before ++ q :: (body ++ q :: after) ∧ isQuote q = true ∧
    Enclosed q body ∧ u = (before.length, before.length + body.length + 2)

/-- Whole literals from left to right, outside of which no literal begins. -/
structure LiteralsOf (s : Text) (spans : List (Nat × Nat)) : Prop where
  in_order : InOrder spans
  literal : ∀ u ∈ spans, LiteralAt s u
  complete : ∀ u, LiteralAt s u → ∃ v ∈ spans, v.1 ≤ u.1 ∧ u.1 < v.2

theorem escapesNext_plain {c : Char} (hc : c ≠ '\\') (s : Text) :
    escapesNext (c :: s) = escapesNext s := by
  rw [escapesNext, List.foldl_cons, beq_eq_false_iff_ne.mpr hc]
  rfl

theorem escapesNext_escape (d : Char) (s : Text) :
    escapesNext ('\\' :: d :: s) = escapesNext s := by
  simp [escapesNext]

theorem ne_backslash_of_isQuote {q : Char} (hq : isQuote q = true) : '\\' ≠ q := by
  rintro rfl
  revert hq
  decide

theorem enclosed_nil (q : Char) : Enclosed q [] := ⟨by simp, by simp, rfl⟩

theorem enclosed_plain {q c : Char} (hc : c ≠ '\\') (body : Text) :
    Enclosed q (c :: body) ↔ c ≠ q ∧ c ≠ '\n' ∧ Enclosed q body := by
  constructor
  · rintro ⟨hline, hquotes, hcomplete⟩
    rw [List.mem_cons, not_or] at hline
    refine ⟨?_, Ne.symm hline.1, hline.2, ?_, by rwa [escapesNext_plain hc] at hcomplete⟩
    · rintro rfl
      cases hquotes [] body rfl
    · rintro before after rfl
      rw [← escapesNext_plain hc]
      exact hquotes (c :: before) after rfl
  · rintro ⟨hq, hn, hline, hquotes, hcomplete⟩
    refine ⟨by simp [Ne.symm hn, hline], ?_, by rwa [escapesNext_plain hc]⟩
    rintro (_ | ⟨d, before⟩) after h
    · cases h
      exact absurd rfl hq
    · cases h
      rw [escapesNext_plain hc]
      exact hquotes before after rfl

theorem enclosed_escape {q d : Char} (hq : '\\' ≠ q) (body : Text) :
    Enclosed q ('\\' :: d :: body) ↔ d ≠ '\n' ∧ Enclosed q body := by
  constructor
  · rintro ⟨hline, hquotes, hcomplete⟩
    simp only [List.mem_cons, not_or] at hline
    refine ⟨Ne.symm hline.2.1, hline.2.2, ?_, by rwa [escapesNext_escape] at hcomplete⟩
    rintro before after rfl
    rw [← escapesNext_escape d]
    exact hquotes ('\\' :: d :: before) after rfl
  · rintro ⟨hd, hline, hquotes, hcomplete⟩
    refine ⟨by simp [Ne.symm hd, hline], ?_, by rwa [escapesNext_escape]⟩
    rintro (_ | ⟨c, _ | ⟨e, before⟩⟩) after h
    · cases h
      exact absurd rfl hq
    · cases h
      rfl
    · cases h
      rw [escapesNext_escape]
      exact hquotes before after rfl

theorem not_enclosed_backslash (q : Char) : ¬ Enclosed q ['\\'] := fun h => by cases h.complete

theorem closing?_of_enclosed {q : Char} (hq : isQuote q = true) {body : Text}
    (h : Enclosed q body) (after : Text) :
    closing? q (body ++ q :: after) = some (body.length + 1) := by
  have hbackslash := ne_backslash_of_isQuote hq
  induction hn : body.length using Nat.strongRecOn generalizing body with
  | _ n ih =>
    subst hn
    cases body with
    | nil => exact closing?_quote q after
    | cons c body =>
      by_cases hc : c = '\\'
      · subst hc
        cases body with
        | nil => exact absurd h (not_enclosed_backslash q)
        | cons d body =>
          obtain ⟨hd, hbody⟩ := (enclosed_escape hbackslash body).mp h
          have hlt : body.length < ('\\' :: d :: body).length := by
            simp only [List.length_cons]
            omega
          rw [List.cons_append, List.cons_append, closing?_escaped hbackslash hd,
            ih _ hlt hbody rfl]
          rfl
      · obtain ⟨hcq, hcn, hbody⟩ := (enclosed_plain hc body).mp h
        have hlt : body.length < (c :: body).length := by simp
        rw [List.cons_append, closing?_plain hcq hc hcn, ih _ hlt hbody rfl]
        rfl

theorem enclosed_of_closing? {q : Char} (hq : isQuote q = true) {s : Text} {n : Nat}
    (h : closing? q s = some n) :
    ∃ body after, s = body ++ q :: after ∧ Enclosed q body ∧ n = body.length + 1 := by
  have hbackslash := ne_backslash_of_isQuote hq
  fun_induction closing? q s generalizing n with
  | case1 => cases h
  | case2 cs =>
    cases h
    exact ⟨[], cs, rfl, enclosed_nil q, rfl⟩
  | case3 => cases h
  | case4 => cases h
  | case5 d ds hd hne ih =>
    obtain ⟨k, hk, rfl⟩ := Option.map_eq_some_iff.mp h
    obtain ⟨body, after, rfl, hbody, rfl⟩ := ih hk
    exact ⟨'\\' :: d :: body, after, rfl, (enclosed_escape hbackslash body).mpr ⟨hd, hbody⟩, rfl⟩
  | case6 => cases h
  | case7 c cs hcq hcb hcn ih =>
    obtain ⟨k, hk, rfl⟩ := Option.map_eq_some_iff.mp h
    obtain ⟨body, after, rfl, hbody, rfl⟩ := ih hk
    exact ⟨c :: body, after, rfl, (enclosed_plain hcb body).mpr ⟨hcq, hcn, hbody⟩, rfl⟩

/-- A quote opens a whole literal exactly if the scan recognises one there. -/
theorem literal?_eq_some_iff (q : Char) (s : Text) (n : Nat) (a : Unit) :
    literal? q s = some (n, a) ↔ isQuote q = true ∧
      ∃ body after, s = body ++ q :: after ∧ Enclosed q body ∧ n = body.length + 1 := by
  simp only [literal?, Option.ite_none_right_eq_some, Option.map_eq_some_iff, Prod.mk.injEq,
    and_true]
  constructor
  · rintro ⟨hq, k, hk, rfl⟩
    exact ⟨hq, enclosed_of_closing? hq hk⟩
  · rintro ⟨hq, body, after, rfl, hbody, rfl⟩
    exact ⟨hq, _, closing?_of_enclosed hq hbody after, rfl⟩

theorem LiteralAt.bounds {s : Text} {u : Nat × Nat} (h : LiteralAt s u) :
    u.1 < u.2 ∧ u.2 ≤ s.length := by
  obtain ⟨before, q, body, after, rfl, -, -, rfl⟩ := h
  simp only [List.length_append, List.length_cons]
  omega

/-- A literal that begins at the end of a stretch is recognised there. -/
theorem LiteralAt.recognised {before s : Text} {u : Nat × Nat} (h : LiteralAt (before ++ s) u)
    (hu : u.1 = before.length) :
    ∃ q body after, s = q :: (body ++ q :: after) ∧ u.2 = before.length + body.length + 2 ∧
      literal? q (body ++ q :: after) = some (body.length + 1, ()) := by
  obtain ⟨first, q, body, after, hs, hq, hbody, rfl⟩ := h
  obtain ⟨rfl, hrest⟩ := List.append_inj hs hu.symm
  exact ⟨q, body, after, hrest, rfl, (literal?_eq_some_iff q _ _ ()).mpr
    ⟨hq, body, after, rfl, hbody, rfl⟩⟩

/-- What the scan finds behind a stretch are literals. -/
theorem literalAt_of_mem_extentsFrom (before : Text) {s : Text} {u : Nat × Nat}
    (hu : u ∈ extentsFrom before.length (Text.pieces literal? s)) : LiteralAt (before ++ s) u := by
  revert hu
  refine Text.pieces_induction (motive := fun s ps => ∀ before : Text,
    u ∈ extentsFrom before.length ps → LiteralAt (before ++ s) u) ?_ ?_ ?_ s before
  · intro before hu
    cases hu
  · intro c cs _ ih before hu
    have hrest := ih (before ++ [c])
    rw [List.append_assoc, List.length_append] at hrest
    exact hrest hu
  · intro q cs n a hr ih before hu
    obtain ⟨hq, body, after, hcs, hbody, hn⟩ := (literal?_eq_some_iff q cs n a).mp hr
    rcases List.mem_cons.mp hu with rfl | hu
    · refine ⟨before, q, body, after, by rw [hcs], hq, hbody, ?_⟩
      simp [hcs, hn]
      omega
    · have hrest := ih (before ++ q :: cs.take n)
      rw [List.append_assoc, List.length_append, List.cons_append, List.take_append_drop] at hrest
      exact hrest hu

/-- A literal behind a stretch begins in one that the scan finds there. -/
theorem exists_mem_extentsFrom (before : Text) {s : Text} {u : Nat × Nat}
    (h : LiteralAt (before ++ s) u) (hu : before.length ≤ u.1) :
    ∃ v ∈ extentsFrom before.length (Text.pieces literal? s), v.1 ≤ u.1 ∧ u.1 < v.2 := by
  revert h hu
  refine Text.pieces_induction (motive := fun s ps => ∀ before : Text, LiteralAt (before ++ s) u →
    before.length ≤ u.1 → ∃ v ∈ extentsFrom before.length ps, v.1 ≤ u.1 ∧ u.1 < v.2)
    ?_ ?_ ?_ s before
  · intro before h hu
    have hbounds := h.bounds
    rw [List.append_nil] at hbounds
    omega
  · intro c cs hnone ih before h hu
    rcases Nat.eq_or_lt_of_le hu with hu | hu
    · obtain ⟨q, body, after, hs, -, hsome⟩ := h.recognised hu.symm
      cases hs
      rw [hnone] at hsome
      cases hsome
    · have hrest := ih (before ++ [c])
      rw [List.append_assoc, List.length_append] at hrest
      exact hrest h hu
  · intro q cs n a hr ih before h hu
    rcases Nat.lt_or_ge u.1 (before.length + (q :: cs.take n).length) with hlt | hge
    · exact ⟨_, List.mem_cons_self, hu, hlt⟩
    · have hrest := ih (before ++ q :: cs.take n)
      rw [List.append_assoc, List.length_append, List.cons_append, List.take_append_drop] at hrest
      obtain ⟨v, hv, hin⟩ := hrest h hge
      exact ⟨v, List.mem_cons_of_mem _ hv, hin⟩

theorem literalsOf_literalSpans (s : Text) : LiteralsOf s (literalSpans s).toList where
  in_order := inOrder_extentsFrom literal? 0 s
  literal _ hu := literalAt_of_mem_extentsFrom [] hu
  complete _ hu := exists_mem_extentsFrom [] hu (Nat.zero_le _)

/-- A literal's end is determined by its beginning. -/
theorem LiteralAt.end_unique {s : Text} {a b c : Nat} (hb : LiteralAt s (a, b))
    (hc : LiteralAt s (a, c)) : b = c := by
  have hlen : a = (s.take a).length := by
    have hbounds := hb.bounds
    rw [List.length_take]
    omega
  rw [← List.take_append_drop a s] at hb hc
  obtain ⟨q, body, after, hs, hend, hread⟩ := hb.recognised hlen
  obtain ⟨q', body', after', hs', hend', hread'⟩ := hc.recognised hlen
  rw [hs] at hs'
  obtain ⟨rfl, hrest⟩ := List.cons.inj hs'
  rw [← hrest, hread, Option.some.injEq, Prod.mk.injEq] at hread'
  omega

theorem InOrder.increasing {spans : List (Nat × Nat)} (h : InOrder spans) :
    spans.Pairwise fun u v => u.1 < v.1 :=
  h.pairwise.imp_of_mem fun hu _ huv => Nat.lt_of_lt_of_le (h.lt _ hu) huv

/-- No other span begins within a span. -/
theorem InOrder.eq_of_overlap {spans : List (Nat × Nat)} (h : InOrder spans) {u v : Nat × Nat}
    (hu : u ∈ spans) (hv : v ∈ spans) (hle : v.1 ≤ u.1) (hlt : u.1 < v.2) : v = u := by
  obtain ⟨i, hi, rfl⟩ := List.mem_iff_getElem.mp hu
  obtain ⟨j, hj, rfl⟩ := List.mem_iff_getElem.mp hv
  rcases Nat.lt_trichotomy i j with hij | rfl | hij
  · have hclosed := h.le_of_lt hij hj
    have hnonempty := h.lt _ hu
    omega
  · rfl
  · have hclosed := h.le_of_lt hij hi
    omega

theorem LiteralsOf.subset {s : Text} {us vs : List (Nat × Nat)} (hu : LiteralsOf s us)
    (hv : LiteralsOf s vs) {u : Nat × Nat} (hmem : u ∈ us) : u ∈ vs := by
  induction hn : u.1 using Nat.strongRecOn generalizing u us vs with
  | _ n ih =>
    obtain ⟨v, hvmem, hle, hlt⟩ := hv.complete u (hu.literal u hmem)
    rcases Nat.lt_or_eq_of_le hle with hbefore | hsame
    · -- a span that begins earlier is in both lists, and would overlap
      have hback : v ∈ us := ih v.1 (hn ▸ hbefore) hv hu hvmem rfl
      exact hu.in_order.eq_of_overlap hmem hback hle hlt ▸ hvmem
    · obtain ⟨a, b⟩ := u
      obtain ⟨a', b'⟩ := v
      cases hsame
      exact (hu.literal _ hmem).end_unique (hv.literal _ hvmem) ▸ hvmem

/-- A text has one such list of literals only. -/
theorem LiteralsOf.unique {s : Text} {us vs : List (Nat × Nat)} (hu : LiteralsOf s us)
    (hv : LiteralsOf s vs) : us = vs := by
  have hirrefl : Std.Irrefl fun u v : Nat × Nat => u.1 < v.1 := ⟨fun u => Nat.lt_irrefl u.1⟩
  have hantisymm : Std.Antisymm fun u v : Nat × Nat => u.1 < v.1 :=
    ⟨fun u v huv hvu => absurd huv (Nat.lt_asymm hvu)⟩
  exact hu.in_order.increasing.eq_of_mem_iff hv.in_order.increasing fun u =>
    ⟨hu.subset hv, hv.subset hu⟩

/-- The spans of a text are its literals from left to right, and a search by halving tells of every
position, be it before the text or behind it, whether it lies strictly inside one of them. -/
theorem literals_found_by_halving (s : Text) :
    (∀ spans, LiteralsOf s spans ↔ spans = (literalSpans s).toList) ∧
      ∀ pos : Int, encloses (literalSpans s) pos = true ↔
        ∃ u ∈ literalSpans s, (u.1 : Int) < pos ∧ pos < u.2 := by
  have hspans := literalsOf_literalSpans s
  refine ⟨fun spans => ⟨fun h => h.unique hspans, ?_⟩, fun pos => ?_⟩
  · rintro rfl
    exact hspans
  · have hsearch := encloses_iff hspans.in_order pos
    simpa only [Array.toArray_toList, Array.mem_toList_iff] using hsearch

/-- A quote that begins no literal is passed over, and what follows it is read from there on. -/
example : (literalSpans "\"a 'b\\'' \"").toList = [(0, 10)] ∧
    (literalSpans "\"a 'b\\''").toList = [(3, 8)] := by decide +kernel

end LuaTidy.Lua
