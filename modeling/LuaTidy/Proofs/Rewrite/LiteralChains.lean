import LuaTidy.Proofs.Rewrite.JoinScan
import Mathlib.Algebra.Group.Nat.Defs
import Mathlib.Data.Nat.Log

/-!
Chains of literals: literals in quotes of one kind, with the operator and blanks between them. One
pass merges the first literal with the second, the third with the fourth and so on, because the scan
goes on behind the closing quote of the second literal and so finds no join there; the operators
between the pairs are kept. A chain thus has half as many literals after a pass, and the binary
logarithm of their number tells how many passes make it one literal.
-/
namespace LuaTidy.Joins
open Text (Piece isBlank not_isBlank_of_isQuote)

/-- What stands between the quotes of a literal: no quote of either kind, and all on one line. -/
structure Content where
  text : Text
  no_quote : ∀ c ∈ text, Lua.isQuote c = false
  one_line : '\n' ∉ text

def Content.append (s t : Content) : Content where
  text := s.text ++ t.text
  no_quote := fun c hc => (List.mem_append.mp hc).elim (s.no_quote c) (t.no_quote c)
  one_line := fun hc => (List.mem_append.mp hc).elim s.one_line t.one_line

theorem Content.not_mem {q : Char} (hq : Lua.isQuote q = true) (s : Content) : q ∉ s.text := by
  intro hmem
  rw [s.no_quote q hmem] at hq
  cases hq

/-- The operator between two literals, with the blanks before and after it. -/
structure Operator where
  before : Text
  after : Text
  before_blank : ∀ c ∈ before, isBlank c = true
  after_blank : ∀ c ∈ after, isBlank c = true

namespace Operator

def text (o : Operator) : Text := o.before ++ '.' :: '.' :: o.after

theorem no_quote (o : Operator) : ∀ c ∈ o.text, Lua.isQuote c = false := by
  intro c hc
  by_contra hquote
  have hblank : isBlank c = false := not_isBlank_of_isQuote (Bool.of_not_eq_false hquote)
  simp only [text, List.mem_append, List.mem_cons] at hc
  rcases hc with hc | rfl | rfl | hc
  · rw [o.before_blank c hc] at hblank
    cases hblank
  · exact hquote (by decide)
  · exact hquote (by decide)
  · rw [o.after_blank c hc] at hblank
    cases hblank

theorem isJoin (q : Char) (o : Operator) : IsJoin q (q :: (o.text ++ [q])) :=
  ⟨o.before, o.after, by simp [text], o.before_blank, o.after_blank⟩

end Operator

/-- One or more literals with operators between them. -/
inductive Chain where
  | last (s : Content)
  | link (s : Content) (o : Operator) (rest : Chain)

namespace Chain

/-- A chain as it is written with the quote `q`. -/
def text (q : Char) : Chain → Text
  | .last s => q :: (s.text ++ [q])
  | .link s o rest => q :: (s.text ++ q :: (o.text ++ rest.text q))

/-- What the literals stand for, from the left. -/
def contents : Chain → List Text
  | .last s => [s.text]
  | .link s _ rest => s.text :: rest.contents

/-- The operators, from the left. -/
def operators : Chain → List Operator
  | .last _ => []
  | .link _ o rest => o :: rest.operators

/-- The chain with neighbours made one, two by two from the left; the last literal of an odd number
stays alone. -/
def paired : Chain → Chain
  | .last s => .last s
  | .link s _ (.last t) => .last (s.append t)
  | .link s _ (.link t o rest) => .link (s.append t) o rest.paired

theorem contents_paired (c : Chain) (i : Nat) :
    c.paired.contents[i]? = c.contents[2 * i]?.map (· ++ c.contents[2 * i + 1]?.getD []) := by
  fun_induction paired c generalizing i with
  | case1 s => cases i <;> simp [contents]
  | case2 s o t => cases i <;> simp [contents, Content.append, Nat.mul_succ]
  | case3 s o t o' rest ih => cases i <;> simp [contents, Content.append, Nat.mul_succ, ih]

theorem operators_paired (c : Chain) (i : Nat) :
    c.paired.operators[i]? = c.operators[2 * i + 1]? := by
  fun_induction paired c generalizing i with
  | case1 s => simp [operators]
  | case2 s o t => simp [operators]
  | case3 s o t o' rest ih => cases i <;> simp [operators, Nat.mul_succ, ih]

theorem flatten_contents_paired (c : Chain) : c.paired.contents.flatten = c.contents.flatten := by
  fun_induction paired c with
  | case1 s => rfl
  | case2 s o t => simp [contents, Content.append]
  | case3 s o t o' rest ih => simp [contents, Content.append, ih]

theorem length_contents_paired (c : Chain) :
    c.paired.contents.length = (c.contents.length + 1) / 2 := by
  fun_induction paired c with
  | case1 s => simp [contents]
  | case2 s o t => simp [contents]
  | case3 s o t o' rest ih =>
    simp only [contents, List.length_cons, ih]
    omega

theorem length_contents_pos (c : Chain) : 0 < c.contents.length := by
  cases c <;> exact Nat.succ_pos _

/-- A chain of one literal has its content between the quotes. -/
theorem text_of_length_le_one {c : Chain} (h : c.contents.length ≤ 1) (q : Char) :
    c.text q = q :: (c.contents.flatten ++ [q]) := by
  cases c with
  | last s => simp [text, contents]
  | link s o rest =>
    have hpos := rest.length_contents_pos
    rw [contents, List.length_cons] at h
    omega

theorem flatten_contents_iterate (c : Chain) (k : Nat) :
    (paired^[k] c).contents.flatten = c.contents.flatten := by
  induction k generalizing c with
  | zero => rfl
  | succ k ih => rw [Function.iterate_succ_apply, ih, flatten_contents_paired]

/-- Pairing as often as the number of literals can be halved leaves one literal. -/
theorem length_contents_iterate {c : Chain} {k : Nat} (h : c.contents.length ≤ 2 ^ k) :
    (paired^[k] c).contents.length ≤ 1 := by
  induction k generalizing c with
  | zero => exact h
  | succ k ih =>
    rw [Function.iterate_succ_apply]
    apply ih
    rw [length_contents_paired]
    rw [Nat.pow_succ] at h
    omega

end Chain

/-- Characters that are no quotes are passed. -/
theorem Scan.append_of_no_quote {s a : Text} {ps : List (Piece Char)} (h : Scan s ps)
    (ha : ∀ c ∈ a, Lua.isQuote c = false) : Scan (a ++ s) (a.map .kept ++ ps) := by
  induction a with
  | nil => exact h
  | cons c a ih =>
    refine .passed (fun hq => ?_) (ih fun d hd => ha d (List.mem_cons_of_mem _ hd))
    rw [ha c List.mem_cons_self] at hq
    cases hq

/-- A join has to begin at a quote, so that it is not before the first one. -/
theorem JoinAfter.le_length {q : Char} {s t left join : Text} (hs : q ∉ s)
    (h : JoinAfter q (s ++ t) left join) : s.length ≤ left.length := by
  obtain ⟨-, ⟨a, b, rfl, -, -⟩, right, rest, -, heq⟩ := h
  obtain ⟨w, rfl, -⟩ := Text.split_at_char hs heq
  rw [List.length_append]
  exact Nat.le_add_right _ _

/-- Behind the opening quote of a lone literal there is no join. -/
theorem not_joinAfter_single {q : Char} {s left join : Text} (hs : q ∉ s) :
    ¬ JoinAfter q (s ++ [q]) left join := by
  intro h
  have hle := h.le_length hs
  obtain ⟨-, ⟨a, b, rfl, -, -⟩, right, rest, -, heq⟩ := h
  -- the join and the quote behind it do not fit into one character
  have hlen := congrArg List.length heq
  simp only [List.length_append, List.length_cons, List.length_nil] at hlen
  omega

/-- Behind the opening quote of a literal that another one follows, the operator between them is the
nearest join, and the other literal ends at its closing quote. -/
theorem nearest_of_contents {q : Char} (hq : Lua.isQuote q = true) (s t : Content) (o : Operator)
    (rest : Text) :
    Nearest q (s.text ++ q :: (o.text ++ q :: (t.text ++ q :: rest)))
      ⟨s.text, q :: (o.text ++ [q]), t.text⟩ rest where
  eq := by simp
  isJoin := o.isJoin q
  left_line := s.one_line
  right_line := t.one_line
  closes_first := t.not_mem hq
  nearest := fun _ _ h => h.le_length (s.not_mem hq)

namespace Chain

/-- What the scan of a chain keeps is the chain with its neighbours made one. -/
theorem exists_scan_text {q : Char} (hq : Lua.isQuote q = true) (c : Chain) :
    ∃ ps, Scan (c.text q) ps ∧ ps.flatMap keptOf = c.paired.text q := by
  fun_induction paired c with
  | case1 s =>
    -- neither the opening quote nor the closing one has a join behind it
    have hend : Scan [q] [.kept q] := by
      refine .passed (fun _ left join h => ?_) .done
      obtain ⟨-, -, right, rest, -, heq⟩ := h
      simp at heq
    refine ⟨_, .passed (fun _ _ _ => not_joinAfter_single (s.not_mem hq))
      (hend.append_of_no_quote s.no_quote), ?_⟩
    simp [keptOf, flatMap_keptOf_kept, text]
  | case2 s o t =>
    refine ⟨_, .deleted hq (nearest_of_contents hq s t o []) .done, ?_⟩
    simp [keptOf, flatMap_keptOf_kept, text, Content.append]
  | case3 s o t o' rest ih =>
    obtain ⟨ps, hps, hkept⟩ := ih
    refine ⟨_, .deleted hq (nearest_of_contents hq s t o _) (hps.append_of_no_quote o'.no_quote), ?_⟩
    simp [keptOf, flatMap_keptOf_kept, text, Content.append, hkept]

theorem merge_text {q : Char} (hq : Lua.isQuote q = true) (c : Chain) :
    (merge (c.text q)).text = c.paired.text q := by
  obtain ⟨ps, hps, hkept⟩ := exists_scan_text hq c
  rw [hps.merge_text, hkept]

theorem merge_iterate {q : Char} (hq : Lua.isQuote q = true) (c : Chain) (k : Nat) :
    (fun t => (merge t).text)^[k] (c.text q) = (paired^[k] c).text q := by
  have hstep : Function.Semiconj (text q) paired fun t => (merge t).text :=
    fun c => (merge_text hq c).symm
  exact (hstep.iterate_right k c).symm

/-- One pass over a chain makes the first literal and the second one literal, the third and the
fourth, and so on, and keeps the operators between the pairs as they are written. No number of passes
changes what the literals of a chain stand for together, and after as many as the binary logarithm of
the number of literals, rounded up, there is one literal. -/
theorem literals_merged_pairwise {q : Char} (hq : Lua.isQuote q = true) (c : Chain) :
    (merge (c.text q)).text = c.paired.text q ∧
      (∀ i, c.paired.contents[i]? =
        c.contents[2 * i]?.map (· ++ c.contents[2 * i + 1]?.getD [])) ∧
      (∀ i, c.paired.operators[i]? = c.operators[2 * i + 1]?) ∧
      (∀ k, ∃ d : Chain, (fun t => (merge t).text)^[k] (c.text q) = d.text q ∧
        d.contents.flatten = c.contents.flatten) ∧
      (fun t => (merge t).text)^[Nat.clog 2 c.contents.length] (c.text q) =
        q :: (c.contents.flatten ++ [q]) := by
  refine ⟨c.merge_text hq, c.contents_paired, c.operators_paired, fun k => ?_, ?_⟩
  · exact ⟨paired^[k] c, c.merge_iterate hq k, c.flatten_contents_iterate k⟩
  · have hlength := Nat.le_pow_clog Nat.one_lt_two c.contents.length
    rw [c.merge_iterate hq, text_of_length_le_one (length_contents_iterate hlength),
      c.flatten_contents_iterate]

/-- Three literals, of which one is empty and one has dots of its own, with a line end behind an
operator. -/
theorem literals_merged_pairwise_odd_number :
    let c : Chain :=
      .link ⟨"x..", by simp [Lua.isQuote], by decide⟩
          ⟨" ", "\n", by simp [isBlank, Text.isWhiteSpace], by simp [isBlank, Text.isWhiteSpace]⟩
        (.link ⟨"", by simp, by decide⟩ ⟨"", " ", by simp, by simp [isBlank, Text.isWhiteSpace]⟩
          (.last ⟨"z", by simp [Lua.isQuote], by decide⟩))
    Lua.isQuote '"' = true ∧ c.text '"' = ("\"x..\" ..\n\"\".. \"z\"" : Text) ∧
      (merge (c.text '"')).text = ("\"x..\".. \"z\"" : Text) ∧
      (fun t => (merge t).text)^[2] (c.text '"') = ("\"x..z\"" : Text) := by
  intro c
  have hquote : Lua.isQuote '"' = true := by decide
  obtain ⟨hpairs, -, -, -, hone⟩ := literals_merged_pairwise hquote c
  have hpasses : Nat.clog 2 c.contents.length = 2 := by
    change Nat.clog 2 3 = 2
    decide
  rw [hpasses] at hone
  exact ⟨hquote, by decide, hpairs, hone⟩

end Chain
end LuaTidy.Joins
