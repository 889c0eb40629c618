import LuaTidy.Rewrite.Literals
import LuaTidy.Proofs.Value.Reordering
import Mathlib.Data.List.Induction
import Mathlib.Data.List.Infix

/-!
Backslash escapes of several kinds, replaced all at once. As long as the kinds are independent of
one another, replacing one kind after the other comes to a single scan from the left, in whatever
order the kinds are taken. Replacing once more finds something only where a backslash that begins no
escape stands before an escaped quote.
-/
namespace LuaTidy.Backslashes

/-- What two characters in a row stand for, if they are an escape of one of the kinds. -/
def meaningOf? (es : Entries Char Char) (c d : Char) : Option Char :=
  if c = '\\' then es.get? d else none

/-- One scan from the left that replaces the escapes of all kinds. -/
def atOnce (es : Entries Char Char) : Text → Text
  | [] => []
  | [c] => [c]
  | c :: d :: cs =>
    match meaningOf? es c d with
    | some m => m :: atOnce es cs
    | none => c :: atOnce es (d :: cs)

/-- No kind of escape makes or breaks one of another kind: the letters are distinct, neither a
letter nor a meaning is a backslash, and a meaning is the letter of no other kind. -/
structure Independent (es : Entries Char Char) : Prop where
  letters : es.keys.Nodup
  plain : ∀ e ∈ es, e.1 ≠ '\\' ∧ e.2 ≠ '\\'
  apart : ∀ e ∈ es, ∀ f ∈ es, e.2 = f.1 → e = f

variable {es fs : Entries Char Char}

/-- No escape begins at a character that stands before the text. -/
def Passes (es : Entries Char Char) (c : Char) (s : Text) : Prop :=
  ∀ d ∈ s.head?, meaningOf? es c d = none

theorem passes_of_ne {c : Char} (hc : c ≠ '\\') (s : Text) : Passes es c s :=
  fun _ _ => if_neg hc

/-- A backslash is passed only where no letter follows it. -/
theorem Passes.get?_eq_none {d : Char} {s : Text} (h : Passes es '\\' s) (hd : d ∈ s.head?) :
    es.get? d = none := by
  have hmeaning := h d hd
  rwa [meaningOf?, if_pos rfl] at hmeaning

theorem exists_of_not_passes {c : Char} {s : Text} (h : ¬ Passes es c s) :
    c = '\\' ∧ ∃ d ∈ s.head?, ∃ m, es.get? d = some m := by
  simp only [Passes, not_forall] at h
  obtain ⟨d, hd, hmeaning⟩ := h
  obtain ⟨m, hmeaning⟩ := Option.ne_none_iff_exists'.mp hmeaning
  obtain ⟨hc, hm⟩ := Option.ite_none_right_eq_some.mp hmeaning
  exact ⟨hc, d, hd, m, hm⟩

theorem Passes.append {c : Char} {s : Text} (h : Passes es c s) (h' : Passes fs c s) :
    Passes (es ++ fs) c s := by
  intro d hd
  have hes := h d hd
  have hfs := h' d hd
  rw [meaningOf?, ite_eq_right_iff] at hes hfs ⊢
  intro hc
  rw [Entries.get?_append, hes hc, hfs hc, Option.none_or]

theorem atOnce_escape {d m : Char} (h : es.get? d = some m) (cs : Text) :
    atOnce es ('\\' :: d :: cs) = m :: atOnce es cs := by
  rw [atOnce, meaningOf?, if_pos rfl, h]

theorem atOnce_cons {c : Char} {s : Text} (h : Passes es c s) :
    atOnce es (c :: s) = c :: atOnce es s := by
  cases s with
  | nil => rfl
  | cons d s => rw [atOnce, h d rfl]

/-- A text is read from the left, an escape or a single character at a time. -/
theorem atOnce_induction (es : Entries Char Char) {motive : Text → Prop} (nil : motive [])
    (escape : ∀ d m cs, es.get? d = some m → motive cs → motive ('\\' :: d :: cs))
    (passed : ∀ c s, Passes es c s → motive s → motive (c :: s)) (s : Text) : motive s := by
  fun_induction atOnce es s with
  | case1 => exact nil
  | case2 c => exact passed c [] (by simp [Passes]) nil
  | case3 c d cs m h ih =>
    obtain ⟨rfl, hd⟩ := Option.ite_none_right_eq_some.mp h
    exact escape d m cs hd ih
  | case4 c d cs h ih =>
    refine passed c (d :: cs) ?_ ih
    rintro d' ⟨rfl⟩
    exact h

theorem replace_eq_atOnce (letter meaning : Char) (s : Text) :
    replace letter meaning s = atOnce [(letter, meaning)] s := by
  fun_induction replace letter meaning s with
  | case1 => rfl
  | case2 c => rfl
  | case3 c d cs h ih =>
    obtain ⟨rfl, rfl⟩ := h
    have hd : Entries.get? [(d, meaning)] d = some meaning := if_pos rfl
    rw [ih, atOnce_escape hd]
  | case4 c d cs h ih =>
    have hpasses : Passes [(letter, meaning)] c (d :: cs) := by
      rintro d' ⟨rfl⟩
      rw [meaningOf?, ite_eq_right_iff]
      intro hc
      exact if_neg fun hd => h ⟨hc, hd.symm⟩
    rw [ih, atOnce_cons hpasses]

/-- The first character of what is written was the first one, or an escape that stood there. -/
theorem mem_head?_atOnce {s : Text} {x : Char} (h : x ∈ (atOnce es s).head?) :
    x ∈ s.head? ∨ ∃ d cs, s = '\\' :: d :: cs ∧ es.get? d = some x := by
  induction s using atOnce_induction es with
  | nil => exact Or.inl h
  | escape d m cs hd _ =>
    rw [atOnce_escape hd] at h
    cases h
    exact Or.inr ⟨d, cs, rfl, hd⟩
  | passed c s hc _ =>
    rw [atOnce_cons hc] at h
    exact Or.inl h

namespace Independent

theorem plain_of_get? (h : Independent es) {d m : Char} (hd : es.get? d = some m) :
    d ≠ '\\' ∧ m ≠ '\\' :=
  h.plain _ (Entries.mem_of_get? hd)

theorem left (h : Independent (es ++ fs)) : Independent es where
  letters := by
    have hletters := h.letters
    rw [Entries.keys, List.map_append] at hletters
    exact hletters.of_append_left
  plain e he := h.plain e (List.mem_append_left fs he)
  apart e he f hf := h.apart e (List.mem_append_left fs he) f (List.mem_append_left fs hf)

/-- A meaning among the first kinds is no letter of the other ones. -/
theorem get?_meaning (h : Independent (es ++ fs)) {d x : Char} (hd : es.get? d = some x) :
    fs.get? x = none := by
  rw [Entries.get?_eq_none_iff]
  intro hx
  obtain ⟨⟨x, m⟩, hf, rfl⟩ := List.mem_map.mp hx
  have he : (d, x) ∈ es := Entries.mem_of_get? hd
  have hsame : (d, x) = (x, m) :=
    h.apart _ (List.mem_append_left fs he) _ (List.mem_append_right es hf) rfl
  cases hsame
  have hletters := h.letters
  rw [Entries.keys, List.map_append, List.nodup_append] at hletters
  exact hletters.2.2 _ (List.mem_map_of_mem he) _ hx rfl

/-- Kinds replaced in two scans can be replaced in one. -/
theorem atOnce_atOnce (h : Independent (es ++ fs)) (s : Text) :
    atOnce fs (atOnce es s) = atOnce (es ++ fs) s := by
  induction s using atOnce_induction es with
  | nil => rfl
  | escape d m cs hd ih =>
    have hboth : Entries.get? (es ++ fs) d = some m := by
      rw [Entries.get?_append, hd, Option.some_or]
    have hm := (h.left.plain_of_get? hd).2
    rw [atOnce_escape hd, atOnce_cons (passes_of_ne hm _), ih, atOnce_escape hboth]
  | passed c s hc ih =>
    rw [atOnce_cons hc]
    by_cases hpasses : Passes fs c s
    · have hwritten : Passes fs c (atOnce es s) := by
        intro x hx
        rcases mem_head?_atOnce hx with hx | ⟨d, cs, -, hd⟩
        · exact hpasses x hx
        · rw [meaningOf?, h.get?_meaning hd, ite_self]
      rw [atOnce_cons hwritten, ih, atOnce_cons (hc.append hpasses)]
    · -- an escape of one of the other kinds begins here
      obtain ⟨rfl, d, hd, m, hm⟩ := exists_of_not_passes hpasses
      obtain ⟨cs, rfl⟩ := List.head?_eq_some_iff.mp hd
      have hboth : Entries.get? (es ++ fs) d = some m := by
        rw [Entries.get?_append, hc.get?_eq_none rfl, hm, Option.none_or]
      have hplain := (h.plain_of_get? hboth).1
      have hletter : ∀ gs : Entries Char Char, atOnce gs (d :: cs) = d :: atOnce gs cs :=
        fun gs => atOnce_cons (passes_of_ne hplain cs)
      rw [hletter, hletter, atOnce_cons (passes_of_ne hplain _)] at ih
      rw [hletter, atOnce_escape hm, (List.cons.inj ih).2, atOnce_escape hboth]

theorem foldl_replace (h : Independent es) (s : Text) :
    es.foldl (fun t e => replace e.1 e.2 t) s = atOnce es s := by
  induction es using List.reverseRecOn with
  | nil =>
    induction s using atOnce_induction [] with
    | nil => rfl
    | escape d m cs hd _ => cases hd
    | passed c s hc ih => rw [atOnce_cons hc, ← ih]; rfl
  | append_singleton es e ih =>
    rw [List.foldl_append, List.foldl_cons, List.foldl_nil, ih h.left, replace_eq_atOnce,
      h.atOnce_atOnce]

theorem atOnce_perm (h : Independent es) (hperm : fs.Perm es) (s : Text) :
    atOnce fs s = atOnce es s := by
  have hget : fs.get? = es.get? := funext fun d => Entries.get?_perm hperm.symm h.letters d
  induction s using atOnce_induction es with
  | nil => rfl
  | escape d m cs hd ih =>
    have hd' := hd
    rw [← hget] at hd'
    rw [atOnce_escape hd, atOnce_escape hd', ih]
  | passed c s hc ih =>
    have hc' : Passes fs c s := by
      intro d hd
      rw [meaningOf?, hget]
      exact hc d hd
    rw [atOnce_cons hc, atOnce_cons hc', ih]

theorem perm (h : Independent es) (hperm : fs.Perm es) : Independent fs where
  letters := (hperm.map Prod.fst).nodup_iff.mpr h.letters
  plain e he := h.plain e (hperm.mem_iff.mp he)
  apart e he f hf := h.apart e (hperm.mem_iff.mp he) f (hperm.mem_iff.mp hf)

/-- A second scan changes nothing exactly if no two backslashes stand before a letter that means
itself. -/
theorem atOnce_twice_iff (h : Independent es) (s : Text) :
    atOnce es (atOnce es s) = atOnce es s ↔
      ∀ q, es.get? q = some q → ¬ ['\\', '\\', q] <:+: s := by
  induction s using atOnce_induction es with
  | nil => simp [atOnce]
  | escape d m cs hd ih =>
    obtain ⟨hletter, hm⟩ := h.plain_of_get? hd
    rw [atOnce_escape hd, atOnce_cons (passes_of_ne hm _), List.cons_inj_right, ih]
    simp [List.infix_cons_iff, Ne.symm hletter]
  | passed c s hc ih =>
    rw [atOnce_cons hc]
    by_cases hpasses : Passes es c (atOnce es s)
    · have hfirst : ∀ q, es.get? q = some q → ¬ ['\\', '\\', q] <+: c :: s := by
        rintro q hq ⟨t, heq⟩
        cases heq
        have hhead : q ∈ (atOnce es ('\\' :: q :: t)).head? := by
          rw [atOnce_escape hq]
          rfl
        rw [hpasses.get?_eq_none hhead] at hq
        cases hq
      rw [atOnce_cons hpasses, List.cons_inj_right, ih]
      refine forall₂_congr fun q hq => ?_
      rw [List.infix_cons_iff, not_or, and_iff_right (hfirst q hq)]
    · obtain ⟨rfl, x, hx, m, hm⟩ := exists_of_not_passes hpasses
      rcases mem_head?_atOnce hx with hx | ⟨d, cs, rfl, hd⟩
      · rw [hc.get?_eq_none hx] at hm
        cases hm
      · -- the letter that was written means itself, and the next scan takes it
        have hsame := h.apart _ (Entries.mem_of_get? hd) _ (Entries.mem_of_get? hm) rfl
        cases hsame
        rw [atOnce_escape hd, atOnce_escape hd]
        constructor
        · intro heq
          exact absurd (List.cons.inj heq).1 (h.plain_of_get? hd).2
        · intro hnone
          exact absurd ⟨[], cs, rfl⟩ (hnone _ hd)

end Independent

theorem independent_escapes : Independent escapes where
  letters := by decide
  plain := by decide
  apart := by decide

/-- Replacing the kinds of escape one after the other is one scan from the left for all of them,
whatever the order of the kinds. A second time changes nothing exactly if two backslashes stand
neither before a double quote nor before a single one. -/
theorem escapes_resolved_at_once (s : Text) :
    (resolve s).text = atOnce escapes s ∧
      (∀ es : List (Char × Char), es.Perm escapes →
        es.foldl (fun t e => replace e.1 e.2 t) s = (resolve s).text) ∧
      ((resolve (resolve s).text).text = (resolve s).text ↔
        ¬ ['\\', '\\', '"'] <:+: s ∧ ¬ ['\\', '\\', '\''] <:+: s) := by
  have hscan : ∀ t, (resolve t).text = atOnce escapes t := independent_escapes.foldl_replace
  refine ⟨hscan s, ?_, ?_⟩
  · intro es hperm
    rw [(independent_escapes.perm hperm).foldl_replace, independent_escapes.atOnce_perm hperm,
      hscan]
  · have hquotes : ∀ q, Entries.get? escapes q = some q ↔ q = '"' ∨ q = '\'' := by
      have hall : ∀ e ∈ escapes, e.1 = e.2 → e.1 = '"' ∨ e.1 = '\'' := by decide
      refine fun q => ⟨fun hq => hall _ (Entries.mem_of_get? hq) rfl, ?_⟩
      rintro (rfl | rfl) <;> rfl
    rw [hscan, hscan, independent_escapes.atOnce_twice_iff]
    simp [hquotes]

/-- The kinds from the last to the first; a quote that is written behind a backslash. -/
theorem escapes_resolved_at_once_reversed :
    let s : Text := "\\\\\"\\n"
    let t : Text := "\\\"\n"
    escapes.reverse.Perm escapes ∧
      escapes.reverse.foldl (fun t e => replace e.1 e.2 t) s = t ∧
      ['\\', '\\', '"'] <:+: s ∧ (resolve s).text = t ∧ (resolve t).text ≠ t := by
  intro s t
  have hperm : escapes.reverse.Perm escapes := List.reverse_perm escapes
  have htext : (resolve s).text = t := by decide
  have htwo : ['\\', '\\', '"'] <:+: s := ⟨[], ['\\', 'n'], by decide⟩
  obtain ⟨-, horder, htwice⟩ := escapes_resolved_at_once s
  refine ⟨hperm, (horder _ hperm).trans htext, htwo, htext, fun h => ?_⟩
  rw [htext] at htwice
  exact (htwice.mp h).1 htwo

end LuaTidy.Backslashes
