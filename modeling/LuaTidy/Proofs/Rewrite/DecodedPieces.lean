import LuaTidy.Rewrite.Literals
import LuaTidy.Proofs.Rewrite.HexOccurrences
import LuaTidy.Proofs.Rewrite.PayloadCodes

/-!
Decoders that replace some recognised stretches by something shorter and copy all other ones. Such
a decoder changes a text exactly if it decodes anything. Without backslashes there are no escapes.
-/
namespace LuaTidy
open Text (Piece Recogniser pieces)

/-- A way to write pieces that copies what stands for nothing and shortens everything else. -/
structure Shortens {α : Type} (r : Recogniser (Option α)) (written : Piece (Option α) → Text) :
    Prop where
  copied : ∀ p, p.value?.join = none → written p = p.source
  shorter : ∀ c cs n a, r c cs = some (n, some a) →
    (written (.found (c :: cs.take n) (some a))).length < (c :: cs.take n).length

namespace Shortens

variable {α : Type} {r : Recogniser (Option α)} {written : Piece (Option α) → Text}

theorem eq_of_undecoded (h : Shortens r written) {s : Text}
    (hs : ∀ p ∈ pieces r s, p.value?.join = none) : (pieces r s).flatMap written = s := by
  calc (pieces r s).flatMap written = (pieces r s).flatMap Piece.source :=
        List.flatMap_congr fun p hp => h.copied p (hs p hp)
    _ = s := Text.flatMap_source_pieces r s

theorem length_le (h : Shortens r written) (s : Text) :
    ((pieces r s).flatMap written).length ≤ s.length := by
  refine Text.pieces_induction (motive := fun s ps => (ps.flatMap written).length ≤ s.length)
    (Nat.le_refl 0) ?_ ?_ s
  · intro c cs _ ih
    rw [List.flatMap_cons, h.copied _ rfl]
    exact Nat.succ_le_succ ih
  · intro c cs n v hr ih
    have hlen := congrArg List.length (List.take_append_drop n cs)
    have hhead : (written (.found (c :: cs.take n) v)).length ≤ (c :: cs.take n).length := by
      cases v with
      | none => exact Nat.le_of_eq (congrArg List.length (h.copied _ rfl))
      | some a => exact Nat.le_of_lt (h.shorter c cs n a hr)
    rw [List.length_append] at hlen
    rw [List.flatMap_cons, List.length_append, List.length_cons]
    rw [List.length_cons] at hhead
    omega

/-- One decoded stretch makes the whole text shorter. -/
theorem length_lt (h : Shortens r written) {s : Text}
    (hs : ∃ p ∈ pieces r s, p.value?.join.isSome = true) :
    ((pieces r s).flatMap written).length < s.length := by
  revert hs
  refine Text.pieces_induction (motive := fun s ps => (∃ p ∈ ps, p.value?.join.isSome = true) →
    (ps.flatMap written).length < s.length) ?_ ?_ ?_ s
  · rintro ⟨p, hp, _⟩
    cases hp
  · rintro c cs _ ih ⟨p, hp, hsome⟩
    rw [List.flatMap_cons, h.copied _ rfl]
    rcases List.mem_cons.mp hp with rfl | hp
    · cases hsome
    · exact Nat.succ_lt_succ (ih ⟨p, hp, hsome⟩)
  · rintro c cs n v hr ih ⟨p, hp, hsome⟩
    have hlen := congrArg List.length (List.take_append_drop n cs)
    rw [List.length_append] at hlen
    rw [List.flatMap_cons, List.length_append, List.length_cons]
    cases v with
    | none =>
      have hhead := congrArg List.length (h.copied (.found (c :: cs.take n) none) rfl)
      have hrest : p ∈ pieces r (cs.drop n) := by
        rcases List.mem_cons.mp hp with rfl | hp
        · cases hsome
        · exact hp
      have htail := ih ⟨p, hrest, hsome⟩
      rw [Piece.source, List.length_cons] at hhead
      omega
    | some a =>
      have hhead := h.shorter c cs n a hr
      have htail := h.length_le (cs.drop n)
      rw [List.length_cons] at hhead
      omega

/-- What is counted is what changes the text. -/
theorem hits_pos_iff (h : Shortens r written) (s : Text) :
    0 < (pieces r s).countP (fun p => p.value?.join.isSome) ↔ (pieces r s).flatMap written ≠ s := by
  rw [List.countP_pos_iff]
  constructor
  · intro hs he
    have hlt := h.length_lt hs
    rw [he] at hlt
    exact Nat.lt_irrefl _ hlt
  · intro hne
    by_contra hnone
    refine hne (h.eq_of_undecoded fun p hp => ?_)
    by_contra hsome
    exact hnone ⟨p, hp, Option.isSome_iff_ne_none.mpr hsome⟩

end Shortens

namespace Payloads

theorem length_lt_of_decode? {code d : Text} (h : decode? code = some d) :
    d.length < code.length := by
  simp only [decode?, Text.Base64.decode?, Option.bind_eq_bind, Option.bind_eq_some_iff,
    Option.ite_none_right_eq_some, Option.some.injEq] at h
  obtain ⟨bytes, ⟨_, rfl⟩, h⟩ := h
  split at h
  · cases h
  · next hne =>
    cases h
    rw [Bool.or_eq_true, not_or] at hne
    have hpos : (code.takeWhile Text.Base64.isSextet).length ≤ code.length :=
      (List.takeWhile_sublist _).length_le
    have hle := List.length_filterMap_le Text.Base64.sextet? (code.takeWhile Text.Base64.isSextet)
    have hlen := Text.Base64.length_bytesOf
      ((code.takeWhile Text.Base64.isSextet).filterMap Text.Base64.sextet?)
    rw [List.isEmpty_map, List.isEmpty_iff_length_eq_zero] at hne
    rw [List.length_map]
    omega

theorem shortens : Shortens payload? written where
  copied p hp := by rw [written, hp]
  shorter c cs n d h := by
    obtain ⟨-, code, q, -, -, htake, hd⟩ := payload?_eq_some h
    have hlt := length_lt_of_decode? hd.symm
    simp only [htake, written, Piece.value?, Option.join_some, List.length_cons,
      List.length_append, List.length_nil]
    omega

theorem decode_hits_pos_iff (s : Text) : 0 < (decode s).hits ↔ (decode s).text ≠ s :=
  shortens.hits_pos_iff s

end Payloads

namespace HexEscapes

theorem shortens : Shortens escape? written where
  copied p hp := by rw [written, hp]
  shorter c cs n d h := by
    obtain ⟨rfl, e, d', t, he, heq, hd⟩ := (escape?_eq_some_iff c cs n (some d)).mp h
    obtain ⟨-, ds, -, rfl, hlen, -⟩ := he.cons_eq heq
    rw [List.take_left' hlen, List.length_cons, hlen]
    exact Nat.succ_lt_succ (Nat.succ_pos 2)

theorem decode_hits_pos_iff (s : Text) : 0 < (decode s).hits ↔ (decode s).text ≠ s :=
  shortens.hits_pos_iff s

end HexEscapes

namespace Backslashes

theorem replace_of_not_mem {letter meaning : Char} {s : Text} (h : '\\' ∉ s) :
    replace letter meaning s = s := by
  fun_induction replace letter meaning s with
  | case1 => rfl
  | case2 => rfl
  | case3 c d cs hc ih => exact absurd (hc.1 ▸ List.mem_cons_self) h
  | case4 c d cs hc ih => rw [ih fun hm => h (List.mem_cons_of_mem c hm)]

theorem resolve_of_not_mem {s : Text} (h : '\\' ∉ s) : (resolve s).text = s := by
  simp only [resolve, escapes, List.foldl_cons, List.foldl_nil, replace_of_not_mem h]

end Backslashes
end LuaTidy
