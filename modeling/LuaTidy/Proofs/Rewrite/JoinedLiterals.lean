import LuaTidy.Rewrite.Literals
import LuaTidy.Proofs.Text.CharacterClasses
import LuaTidy.Proofs.Text.Trimming
import Mathlib.Data.List.TakeWhile

/-!
What the recogniser of joins reads: behind an opening quote the nearest join on the line that is
followed by the same quote on its own line, and the text behind the join up to the first such quote.
It answers exactly where there is such a join.
-/
namespace LuaTidy.Joins
open Text (isBlank not_isBlank_of_isQuote)

theorem before?_eq_some_iff (q : Char) (s b : Text) :
    before? q s = some b ↔ q ∉ b ∧ '\n' ∉ b ∧ ∃ t, s = b ++ q :: t := by
  induction s generalizing b with
  | nil => simp [before?]
  | cons c s ih =>
    rw [before?]
    by_cases hc : c = q
    · subst hc
      rw [if_pos rfl, Option.some.injEq]
      constructor
      · rintro rfl
        exact ⟨List.not_mem_nil, List.not_mem_nil, s, rfl⟩
      · rintro ⟨hmem, -, t, heq⟩
        cases b with
        | nil => rfl
        | cons d b =>
          cases heq
          exact absurd List.mem_cons_self hmem
    · rw [if_neg hc]
      by_cases hn : c = '\n'
      · subst hn
        rw [if_pos rfl]
        refine ⟨nofun, ?_⟩
        rintro ⟨-, hmem, t, heq⟩
        cases b with
        | nil =>
          cases heq
          exact absurd rfl hc
        | cons d b =>
          cases heq
          exact absurd List.mem_cons_self hmem
      · rw [if_neg hn, Option.map_eq_some_iff]
        constructor
        · rintro ⟨b, hb, rfl⟩
          obtain ⟨hq, hline, t, rfl⟩ := (ih b).mp hb
          exact ⟨by simp [Ne.symm hc, hq], by simp [Ne.symm hn, hline], t, rfl⟩
        · rintro ⟨hq, hline, t, heq⟩
          cases b with
          | nil =>
            cases heq
            exact absurd rfl hc
          | cons d b =>
            cases heq
            rw [List.mem_cons, not_or] at hq hline
            exact ⟨b, (ih b).mpr ⟨hq.2, hline.2, t, rfl⟩, rfl⟩

theorem exists_before? (q : Char) {right : Text} (h : '\n' ∉ right) (rest : Text) :
    ∃ b, before? q (right ++ q :: rest) = some b := by
  induction right with
  | nil => exact ⟨[], if_pos rfl⟩
  | cons c right ih =>
    rw [List.mem_cons, not_or] at h
    obtain ⟨b, hb⟩ := ih h.2
    rw [List.cons_append, before?]
    split
    · exact ⟨[], rfl⟩
    · rw [if_neg (Ne.symm h.1), hb]
      exact ⟨c :: b, rfl⟩

/-- A join: two quotes and two dots between them, with blanks around the dots. -/
def IsJoin (q : Char) (j : Text) : Prop :=
  ∃ a b, j = q :: (a ++ '.' :: '.' :: (b ++ [q])) ∧
    (∀ c ∈ a, isBlank c = true) ∧ ∀ c ∈ b, isBlank c = true

theorem join?_eq_some {q : Char} {s j : Text} (h : join? q s = some j) :
    IsJoin q j ∧ ∃ t, s = j ++ t := by
  cases s with
  | nil => cases h
  | cons c cs =>
    rw [join?] at h
    split at h
    · next hc =>
      split at h
      · next ds hds =>
        split at h
        · cases h
        · next e t he =>
          split at h
          · next hq =>
            subst hc
            subst hq
            have hcs : cs.takeWhile isBlank ++ '.' :: '.' :: ds = cs := by
              rw [← hds, List.takeWhile_append_dropWhile]
            have hdsplit : ds.takeWhile isBlank ++ e :: t = ds := by
              rw [← he, List.takeWhile_append_dropWhile]
            have hj : j = e :: (cs.takeWhile isBlank ++ '.' :: '.' ::
                (ds.takeWhile isBlank ++ [e])) := by
              simpa using h.symm
            refine ⟨⟨_, _, hj, fun d hd => List.mem_takeWhile_imp hd,
              fun d hd => List.mem_takeWhile_imp hd⟩, t, ?_⟩
            calc e :: cs = e :: (cs.takeWhile isBlank ++ '.' :: '.' ::
                  (ds.takeWhile isBlank ++ e :: t)) := by rw [hdsplit, hcs]
              _ = j ++ t := by simp [hj]
          · cases h
      · cases h
    · cases h

theorem join?_append {q : Char} {j : Text} (hq : isBlank q = false) (h : IsJoin q j) (t : Text) :
    join? q (j ++ t) = some j := by
  obtain ⟨a, b, rfl, ha, hb⟩ := h
  have hdot : ∀ c ∈ ('.' :: '.' :: (b ++ q :: t)).head?, isBlank c = false := by
    rintro c ⟨rfl⟩
    decide
  have hquote : ∀ c ∈ (q :: t).head?, isBlank c = false := by
    rintro c ⟨rfl⟩
    exact hq
  have hsplit : q :: (a ++ '.' :: '.' :: (b ++ [q])) ++ t =
      q :: (a ++ '.' :: '.' :: (b ++ q :: t)) := by simp
  rw [hsplit, join?, if_pos rfl, Text.dropWhile_append_of_head ha hdot,
    Text.takeWhile_append_of_head ha hdot]
  simp only [Text.dropWhile_append_of_head hb hquote, Text.takeWhile_append_of_head hb hquote]
  simp

/-- Behind `left` on the same line stands a join that the quote `q` follows on its line. -/
def JoinAfter (q : Char) (s left join : Text) : Prop :=
  '\n' ∉ left ∧ IsJoin q join ∧
    ∃ right rest, '\n' ∉ right ∧ s = left ++ (join ++ (right ++ q :: rest))

/-- The nearest join of that kind, and the text behind it up to the first quote `q`. -/
structure Nearest (q : Char) (s : Text) (j : Joined) (rest : Text) : Prop where
  eq : s = j.left ++ (j.join ++ (j.right ++ q :: rest))
  isJoin : IsJoin q j.join
  left_line : '\n' ∉ j.left
  right_line : '\n' ∉ j.right
  closes_first : q ∉ j.right
  nearest : ∀ left join, JoinAfter q s left join → j.left.length ≤ left.length

variable {q : Char} {s rest rest' : Text} {j j' : Joined}

theorem Nearest.joinAfter (h : Nearest q s j rest) : JoinAfter q s j.left j.join :=
  ⟨h.left_line, h.isJoin, j.right, rest, h.right_line, h.eq⟩

theorem Nearest.unique (hq : isBlank q = false) (h : Nearest q s j rest)
    (h' : Nearest q s j' rest') : j = j' ∧ rest = rest' := by
  obtain ⟨left, join, right⟩ := j
  obtain ⟨left', join', right'⟩ := j'
  have hlen : left.length = left'.length :=
    Nat.le_antisymm (h.nearest _ _ h'.joinAfter) (h'.nearest _ _ h.joinAfter)
  obtain ⟨rfl, hjoins⟩ := List.append_inj (h.eq.symm.trans h'.eq) hlen
  have hread := join?_append hq h.isJoin (right ++ q :: rest)
  rw [hjoins, join?_append hq h'.isJoin] at hread
  cases hread
  have hrights := List.append_cancel_left hjoins
  have hbefore := (before?_eq_some_iff q _ right).mpr ⟨h.closes_first, h.right_line, rest, rfl⟩
  rw [hrights, (before?_eq_some_iff q _ right').mpr
    ⟨h'.closes_first, h'.right_line, rest', rfl⟩] at hbefore
  cases hbefore
  cases List.append_cancel_left hrights
  exact ⟨rfl, rfl⟩

/-- The joined literals whose join stands right behind the opening quote. -/
def joinedHere? (q : Char) (s : Text) : Option Joined := do
  let join ← join? q s
  let right ← before? q (s.drop join.length)
  some ⟨[], join, right⟩

theorem joinedHere?_eq_some (h : joinedHere? q s = some j) :
    j.left = [] ∧ ∃ rest, Nearest q s j rest := by
  simp only [joinedHere?, Option.bind_eq_bind, Option.bind_eq_some_iff, Option.some.injEq] at h
  obtain ⟨join, hjoin, right, hright, rfl⟩ := h
  obtain ⟨his, t, rfl⟩ := join?_eq_some hjoin
  rw [List.drop_left] at hright
  obtain ⟨hq, hline, rest, rfl⟩ := (before?_eq_some_iff q t right).mp hright
  exact ⟨rfl, rest, rfl, his, List.not_mem_nil, hline, hq, fun _ _ _ => Nat.zero_le _⟩

theorem joinedHere?_isSome (hq : isBlank q = false) {join : Text} (h : JoinAfter q s [] join) :
    joinedHere? q s ≠ none := by
  obtain ⟨-, his, right, rest, hline, rfl⟩ := h
  obtain ⟨b, hb⟩ := exists_before? q hline rest
  rw [joinedHere?, List.nil_append, join?_append hq his]
  simp [hb]

theorem joined?_cons (q c : Char) (cs : Text) :
    joined? q (c :: cs) = (joinedHere? q (c :: cs)).or
      (if c = '\n' then none else (joined? q cs).map fun j => { j with left := c :: j.left }) := by
  rw [joined?, ← joinedHere?]
  cases joinedHere? q (c :: cs) <;> rfl

theorem JoinAfter.cons {c : Char} {left join : Text} (hc : c ≠ '\n') (h : JoinAfter q s left join) :
    JoinAfter q (c :: s) (c :: left) join := by
  obtain ⟨hleft, his, right, rest, hline, rfl⟩ := h
  exact ⟨by simp [Ne.symm hc, hleft], his, right, rest, hline, rfl⟩

theorem JoinAfter.tail {c : Char} {left join : Text} (h : JoinAfter q (c :: s) left join)
    (hne : left ≠ []) : c ≠ '\n' ∧ ∃ left', left = c :: left' ∧ JoinAfter q s left' join := by
  obtain ⟨hleft, his, right, rest, hline, heq⟩ := h
  cases left with
  | nil => exact absurd rfl hne
  | cons d left =>
    cases heq
    rw [List.mem_cons, not_or] at hleft
    exact ⟨Ne.symm hleft.1, left, rfl, hleft.2, his, right, rest, hline, rfl⟩

/-- The recogniser finds the nearest join, and answers nothing only where there is none. -/
theorem joined?_spec (hq : isBlank q = false) (s : Text) :
    (∀ j, joined? q s = some j → ∃ rest, Nearest q s j rest) ∧
      (joined? q s = none → ∀ left join, ¬ JoinAfter q s left join) := by
  induction s with
  | nil =>
    refine ⟨nofun, ?_⟩
    rintro - left join ⟨-, -, right, rest, -, heq⟩
    simp at heq
  | cons c cs ih =>
    rw [joined?_cons]
    cases hhere : joinedHere? q (c :: cs) with
    | some j =>
      refine ⟨?_, nofun⟩
      rintro j ⟨rfl⟩
      exact (joinedHere?_eq_some hhere).2
    | none =>
      have hleft : ∀ left join, JoinAfter q (c :: cs) left join → left ≠ [] := by
        rintro left join h rfl
        exact joinedHere?_isSome hq h hhere
      rw [Option.none_or]
      split
      · next hc =>
        exact ⟨nofun, fun _ left join h => (h.tail (hleft _ _ h)).1 hc⟩
      · next hc =>
        constructor
        · intro j hj
          obtain ⟨k, hk, rfl⟩ := Option.map_eq_some_iff.mp hj
          obtain ⟨rest, h⟩ := ih.1 k hk
          refine ⟨rest, congrArg (c :: ·) h.eq, h.isJoin, ?_, h.right_line, h.closes_first, ?_⟩
          · exact (h.joinAfter.cons hc).1
          · intro left join hafter
            obtain ⟨-, left', rfl, htail⟩ := hafter.tail (hleft _ _ hafter)
            exact Nat.succ_le_succ (h.nearest _ _ htail)
        · intro hj left join hafter
          obtain ⟨-, left', -, htail⟩ := hafter.tail (hleft _ _ hafter)
          exact ih.2 (Option.map_eq_none_iff.mp hj) left' join htail

/-- Where joined literals are recognised, the stretch reaches up to the closing quote, and what it
stands for lacks the join. -/
theorem joinedAt?_eq_some {c : Char} {cs v : Text} {n : Nat} (h : joinedAt? c cs = some (n, v)) :
    Lua.isQuote c = true ∧ ∃ j rest, Nearest c cs j rest ∧
      cs.take n = j.left ++ (j.join ++ (j.right ++ [c])) ∧ cs.drop n = rest ∧
      v = c :: (j.left ++ (j.right ++ [c])) := by
  simp only [joinedAt?, Option.ite_none_right_eq_some, Option.map_eq_some_iff, Prod.mk.injEq] at h
  obtain ⟨hq, j, hj, rfl, rfl⟩ := h
  obtain ⟨rest, hnearest⟩ := (joined?_spec (not_isBlank_of_isQuote hq) cs).1 j hj
  have hsplit : cs = (j.left ++ (j.join ++ (j.right ++ [c]))) ++ rest := by
    rw [hnearest.eq]
    simp
  have hlen : (j.left ++ (j.join ++ (j.right ++ [c]))).length =
      j.left.length + j.join.length + j.right.length + 1 := by
    simp only [List.length_append, List.length_singleton]
    omega
  refine ⟨hq, j, rest, hnearest, ?_, ?_, by simp⟩
  · rw [hsplit, List.take_left' hlen]
  · rw [hsplit, List.drop_left' hlen]

theorem joinedAt?_eq_none {c : Char} {cs : Text} (h : joinedAt? c cs = none)
    (hq : Lua.isQuote c = true) (left join : Text) : ¬ JoinAfter c cs left join := by
  rw [joinedAt?, if_pos hq, Option.map_eq_none_iff] at h
  exact (joined?_spec (not_isBlank_of_isQuote hq) cs).2 h left join

end LuaTidy.Joins
