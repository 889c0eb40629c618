import LuaTidy.Text.Basic
import LuaTidy.Text.Utf8
import Mathlib.Tactic.SplitIfs

/-!
Line ends among bytes. The bytes of a line end belong to no longer symbol, so that it makes no
difference whether line ends are unified before the bytes are read as a text or after that.
-/
namespace LuaTidy.Text

section
variable {α : Type} [DecidableEq α] {ret feed c : α} {s : List α}

theorem unifyEnds_of_ne (hc : c ≠ ret) (s : List α) :
    unifyEnds ret feed (c :: s) = c :: unifyEnds ret feed s := by
  cases s with
  | nil => exact if_neg hc
  | cons d s => exact if_neg hc

theorem unifyEnds_return (hs : s.head? ≠ some feed) :
    unifyEnds ret feed (ret :: s) = feed :: unifyEnds ret feed s := by
  cases s with
  | nil => exact if_pos rfl
  | cons d s =>
    have hd : d ≠ feed := fun h => hs (congrArg some h)
    rw [unifyEnds, if_pos rfl, if_neg hd]

theorem unifyEnds_return_feed (s : List α) :
    unifyEnds ret feed (ret :: feed :: s) = feed :: unifyEnds ret feed s := by
  rw [unifyEnds, if_pos rfl, if_pos rfl]

theorem head?_unifyEnds_return (s : List α) :
    (unifyEnds ret feed (ret :: s)).head? = some feed := by
  by_cases hs : s.head? = some feed
  · obtain ⟨rest, rfl⟩ := List.head?_eq_some_iff.mp hs
    rw [unifyEnds_return_feed, List.head?_cons]
  · rw [unifyEnds_return hs, List.head?_cons]

/-- Only a `ret` makes a difference. -/
theorem unifyEnds_eq_self_iff (h : ret ≠ feed) (s : List α) :
    unifyEnds ret feed s = s ↔ ret ∉ s := by
  induction s with
  | nil => simp [unifyEnds]
  | cons c s ih =>
    by_cases hc : c = ret
    · subst hc
      refine iff_of_false (fun hsame => ?_) (by simp)
      have hhead : (unifyEnds c feed (c :: s)).head? = some feed := head?_unifyEnds_return s
      rw [hsame, List.head?_cons] at hhead
      exact h (Option.some.inj hhead)
    · simp [unifyEnds_of_ne hc, ih, Ne.symm hc]

end

namespace Utf8

/-- Bytes with that of the line feed as the only line end. -/
def unifyLineEnds (bs : Bytes) : Bytes := unifyEnds 0x0D 0x0A bs

variable {b : UInt8} {bs : Bytes}

theorem symbolsAfter_eq_drop (n : Nat) (bs : Bytes) :
    symbolsAfter n bs = symbols (bs.drop n) := by
  induction bs generalizing n with
  | nil => cases n <;> rfl
  | cons b bs ih =>
    cases n with
    | zero => rfl
    | succ n => exact ih n

theorem decodeLenient_cons (b : UInt8) (bs : Bytes) : decodeLenient (b :: bs) =
    (symbol b bs).1.lenient :: decodeLenient (bs.drop (symbol b bs).2) := by
  rw [decodeLenient, symbols, symbolsAfter, symbolsAfter_eq_drop]
  rfl

/-- A byte of its own is a symbol. -/
theorem symbol_of_lt (hb : b.toNat < 0x80) (bs : Bytes) :
    symbol b bs = (.char (Char.ofNat b.toNat), 0) := by
  have hnone : ∀ low high, continuations 0 low high bs = [] := by cases bs <;> intros <;> rfl
  simp [symbol, lead?, hb, hnone]

theorem decodeLenient_return (bs : Bytes) :
    decodeLenient (0x0D :: bs) = '\r' :: decodeLenient bs := by
  rw [decodeLenient_cons, symbol_of_lt (by decide)]
  rfl

theorem decodeLenient_feed (bs : Bytes) :
    decodeLenient (0x0A :: bs) = '\n' :: decodeLenient bs := by
  rw [decodeLenient_cons, symbol_of_lt (by decide)]
  rfl

/-- What the first byte of a longer sequence announces: other bytes than those of line ends, and
bits of which some are above those of a line end. -/
theorem lead_longer {n : Nat} {l : Lead} (h : lead? n = some l) (hn : 0x80 ≤ n) :
    0 < l.more ∧ 0x80 ≤ l.low ∧ ∀ d, l.low ≤ d → d ≤ l.high → 0x10 ≤ l.bits * 64 + d % 64 := by
  unfold lead? at h
  split_ifs at h <;> cases h <;> dsimp only
  · omega
  all_goals exact ⟨by omega, by omega, fun d hlow hhigh => by omega⟩

theorem le_foldl_bits (ds : List Nat) (acc : Nat) :
    acc ≤ ds.foldl (fun acc d => acc * 64 + d % 64) acc := by
  induction ds generalizing acc with
  | nil => exact Nat.le_refl acc
  | cons d ds ih =>
    have hstep := ih (acc * 64 + d % 64)
    rw [List.foldl_cons]
    omega

theorem continuations_cons_bounds {n low high d : Nat} {ds : List Nat}
    (h : continuations n low high bs = d :: ds) : low ≤ d ∧ d ≤ high := by
  rw [continuations.eq_def] at h
  split at h
  · cases h
  · split at h
    · cases h
    · split at h
      · next hd => cases h; exact hd
      · cases h

theorem eq_toNat_of_ofNat {n : Nat} {c : Char} (h : Char.ofNat n = c) (hc : c ≠ '\x00') :
    n = c.toNat := by
  by_cases hn : n.isValidChar
  · have hvalue : Char.ofNat n = Char.ofNatAux n hn := dif_pos hn
    rw [← h, hvalue]
    rfl
  · have hzero : Char.ofNat n = '\x00' := dif_neg hn
    exact absurd (h.symm.trans hzero) hc

/-- Only the byte of a line end is read as that. -/
theorem lenient_symbol_ne {c : Char} (hc : c = '\n' ∨ c = '\r') (hb : b.toNat ≠ c.toNat) :
    (symbol b bs).1.lenient ≠ c := by
  have hlow : c.toNat < 0x10 := by rcases hc with rfl | rfl <;> decide
  have hzero : c ≠ '\x00' := by rcases hc with rfl | rfl <;> decide
  have hreplace : replacement ≠ c := by rcases hc with rfl | rfl <;> decide
  by_cases hlt : b.toNat < 0x80
  · rw [symbol_of_lt hlt]
    exact fun h => hb (eq_toNat_of_ofNat h hzero)
  · rw [symbol]
    cases hl : lead? b.toNat with
    | none => exact hreplace
    | some l =>
      obtain ⟨hmore, -, hbits⟩ := lead_longer hl (by omega)
      dsimp only
      split
      · next hn =>
        cases hfollow : continuations l.more l.low l.high bs with
        | nil =>
          rw [hfollow, List.length_nil] at hn
          omega
        | cons d ds =>
          obtain ⟨hd, hd'⟩ := continuations_cons_bounds hfollow
          have hvalue := le_foldl_bits ds (l.bits * 64 + d % 64)
          have hbits := hbits d hd hd'
          intro h
          have hsame := eq_toNat_of_ofNat h hzero
          rw [List.foldl_cons] at hsame
          omega
      · exact hreplace

theorem continuations_eq_nil {n low high : Nat} (hb : bs.head? = some b)
    (hout : ¬ (low ≤ b.toNat ∧ b.toNat ≤ high)) : continuations n low high bs = [] := by
  obtain ⟨rest, rfl⟩ := List.head?_eq_some_iff.mp hb
  cases n with
  | zero => rfl
  | succ n => simp [continuations, hout]

/-- Line ends stay behind the continuation bytes at the head of a row. -/
theorem continuations_unifyLineEnds {low : Nat} (hlow : 0x80 ≤ low) (n high : Nat) (bs : Bytes) :
    continuations n low high (unifyLineEnds bs) = continuations n low high bs ∧
      (unifyLineEnds bs).drop (continuations n low high bs).length =
        unifyLineEnds (bs.drop (continuations n low high bs).length) := by
  induction bs generalizing n low high with
  | nil => simp [unifyLineEnds, unifyEnds, continuations]
  | cons b bs ih =>
    cases n with
    | zero =>
      have hnone : ∀ bs, continuations 0 low high bs = [] := by intro bs; cases bs <;> rfl
      simp [hnone]
    | succ n =>
      by_cases hb : low ≤ b.toNat ∧ b.toNat ≤ high
      · have hne : b ≠ 0x0D := by
          rintro rfl
          exact absurd (Nat.le_trans hlow hb.1) (by decide)
        obtain ⟨hsame, hdrop⟩ := ih (Nat.le_refl 0x80) n 0xBF
        have hunified : unifyLineEnds (b :: bs) = b :: unifyLineEnds bs := unifyEnds_of_ne hne bs
        simp [hunified, continuations, hb, hsame, hdrop]
      · have hnone : continuations (n + 1) low high (b :: bs) = [] :=
          continuations_eq_nil rfl hb
        have hunified : continuations (n + 1) low high (unifyLineEnds (b :: bs)) = [] := by
          by_cases hreturn : b = 0x0D
          · subst hreturn
            refine continuations_eq_nil (head?_unifyEnds_return bs) fun h => ?_
            exact absurd (Nat.le_trans hlow h.1) (by decide)
          · rw [unifyLineEnds, unifyEnds_of_ne hreturn]
            exact continuations_eq_nil rfl hb
        rw [hnone, hunified]
        exact ⟨rfl, rfl⟩

theorem head?_decodeLenient_ne_feed (hbs : bs.head? ≠ some 0x0A) :
    (decodeLenient bs).head? ≠ some '\n' := by
  cases bs with
  | nil =>
    intro h
    cases h
  | cons c bs =>
    have hc : c.toNat ≠ '\n'.toNat := fun h => hbs (congrArg some (UInt8.toNat_inj.mp h))
    rw [decodeLenient_cons, List.head?_cons]
    exact fun h => lenient_symbol_ne (.inl rfl) hc (Option.some.inj h)

/-- The first symbol is the same, up to the bytes of a malformed one. -/
theorem symbol_unifyLineEnds (b : UInt8) (bs : Bytes) :
    (symbol b (unifyLineEnds bs)).1.lenient = (symbol b bs).1.lenient ∧
      (symbol b (unifyLineEnds bs)).2 = (symbol b bs).2 ∧
      (unifyLineEnds bs).drop (symbol b bs).2 = unifyLineEnds (bs.drop (symbol b bs).2) := by
  by_cases hlt : b.toNat < 0x80
  · rw [symbol_of_lt hlt, symbol_of_lt hlt]
    exact ⟨rfl, rfl, rfl⟩
  · rw [symbol, symbol]
    cases hl : lead? b.toNat with
    | none => exact ⟨rfl, rfl, rfl⟩
    | some l =>
      obtain ⟨-, hlow, -⟩ := lead_longer hl (by omega)
      obtain ⟨hsame, hdrop⟩ := continuations_unifyLineEnds hlow l.more l.high bs
      dsimp only
      rw [hsame]
      split
      · exact ⟨rfl, rfl, hdrop⟩
      · exact ⟨rfl, rfl, hdrop⟩

/-- Line ends can be unified before or after bytes are read as a text. -/
theorem unifyLineEnds_decodeLenient (bs : Bytes) :
    Text.unifyLineEnds (decodeLenient bs) = decodeLenient (unifyLineEnds bs) := by
  -- on the number of bytes, since a symbol takes several of them at once
  induction hn : bs.length using Nat.strongRecOn generalizing bs with
  | _ n ih =>
    cases bs with
    | nil => rfl
    | cons b bs =>
      rw [List.length_cons] at hn
      by_cases hb : b = 0x0D
      · subst hb
        by_cases hbs : bs.head? = some 0x0A
        · obtain ⟨rest, rfl⟩ := List.head?_eq_some_iff.mp hbs
          rw [List.length_cons] at hn
          have hrest := ih rest.length (by omega) rest rfl
          rw [decodeLenient_return, decodeLenient_feed, Text.unifyLineEnds, unifyEnds_return_feed,
            unifyLineEnds, unifyEnds_return_feed, decodeLenient_feed]
          exact congrArg _ hrest
        · have hhead := head?_decodeLenient_ne_feed hbs
          have hrest := ih bs.length (by omega) bs rfl
          rw [decodeLenient_return, Text.unifyLineEnds, unifyEnds_return hhead, unifyLineEnds,
            unifyEnds_return hbs, decodeLenient_feed]
          exact congrArg _ hrest
      · have hreturn : b.toNat ≠ '\r'.toNat := fun h => hb (UInt8.toNat_inj.mp h)
        obtain ⟨hsame, hlength, hdrop⟩ := symbol_unifyLineEnds b bs
        have hrest := ih (bs.drop (symbol b bs).2).length (by rw [List.length_drop]; omega) _ rfl
        have hunified : unifyLineEnds (b :: bs) = b :: unifyLineEnds bs := unifyEnds_of_ne hb bs
        have hkept : Text.unifyLineEnds ((symbol b bs).1.lenient :: _) = _ :=
          unifyEnds_of_ne (lenient_symbol_ne (.inr rfl) hreturn)
            (decodeLenient (bs.drop (symbol b bs).2))
        rw [hunified, decodeLenient_cons, decodeLenient_cons, hsame, hlength, hdrop, hkept, ← hrest]
        rfl

end Utf8
end LuaTidy.Text
