import LuaTidy.Proofs.Text.Base64Code
import Mathlib.Algebra.GroupWithZero.Nat

/-!
The bits of a code that no byte has use for: two of the last character of data for each equal sign.
Coding the bytes that a code writes clears these bits and changes nothing else.
-/
namespace LuaTidy.Text.Base64

/-- Two codes with equally many equal signs that are the same, except perhaps for the two lowest
bits for each equal sign of the last character of data. -/
def SameUsedBits (s t : Text) : Prop :=
  ∃ data x y k, s = data ++ x :: List.replicate k '=' ∧ t = data ++ y :: List.replicate k '=' ∧
    ∃ v w, sextet? x = some v ∧ sextet? y = some w ∧ v / 4 ^ k = w / 4 ^ k

theorem bytesOf_lt {ss : List Nat} (h : ∀ n ∈ ss, n < 64) : ∀ b ∈ bytesOf ss, b < 256 := by
  fun_induction bytesOf ss with
  | case1 a b c d rest ih =>
    simp only [List.forall_mem_cons] at h ⊢
    obtain ⟨ha, hb, hc, hd, hrest⟩ := h
    exact ⟨by omega, by omega, by omega, ih hrest⟩
  | case2 a b c =>
    simp only [List.forall_mem_cons, List.not_mem_nil, false_implies, implies_true, and_true] at h ⊢
    omega
  | case3 a b =>
    simp only [List.forall_mem_cons, List.not_mem_nil, false_implies, implies_true, and_true] at h ⊢
    omega
  | case4 => simp

/-- The sextets of the bytes are those that the bytes were read from, the last one cut off below the
bits that a byte has. -/
theorem sextets_bytesOf {k : Nat} (hk : k ≤ 2) : ∀ {ss : List Nat} {x : Nat},
    (∀ n ∈ ss ++ [x], n < 64) → (ss.length + 1 + k) % 4 = 0 →
      sextets (bytesOf (ss ++ [x])) = ss ++ [x / 4 ^ k * 4 ^ k]
  | [], x, _, hfull => by
    rw [List.length_nil] at hfull
    omega
  | [a], x, h, hfull => by
    have htwo : k = 2 := by
      rw [List.length_singleton] at hfull
      omega
    subst htwo
    have hx := h x (by simp)
    simp only [List.cons_append, List.nil_append, bytesOf, sextets, List.cons.injEq, and_true]
    omega
  | [a, b], x, h, hfull => by
    have hone : k = 1 := by
      simp only [List.length_cons, List.length_nil] at hfull
      omega
    subst hone
    have hb := h b (by simp)
    have hx := h x (by simp)
    simp only [List.cons_append, List.nil_append, bytesOf, sextets, List.cons.injEq, and_true]
    omega
  | [a, b, c], x, h, hfull => by
    have hzero : k = 0 := by
      simp only [List.length_cons, List.length_nil] at hfull
      omega
    subst hzero
    have hb := h b (by simp)
    have hc := h c (by simp)
    have hx := h x (by simp)
    simp only [List.cons_append, List.nil_append, bytesOf, sextets, List.cons.injEq, and_true]
    omega
  | a :: b :: c :: d :: ss, x, h, hfull => by
    simp only [List.length_cons] at hfull
    simp only [List.cons_append, List.forall_mem_cons] at h
    obtain ⟨ha, hb, hc, hd, hss⟩ := h
    have hrest := sextets_bytesOf hk hss (by omega)
    simp only [List.cons_append, bytesOf, sextets, hrest, List.cons.injEq, and_true]
    omega

theorem missing_length_bytesOf {ss : List Nat} {k : Nat} (hfull : (ss.length + k) % 4 = 0)
    (hk : k ≤ 2) : missing (bytesOf ss).length = k := by
  rw [missing, length_bytesOf]
  obtain rfl | rfl | rfl : k = 0 ∨ k = 1 ∨ k = 2 := by omega
  · omega
  · omega
  · omega

/-- Coding the bytes of a code gives the code back, up to the bits that no byte has use for. -/
theorem sameUsedBits_encode {data : Text} {k : Nat} (h : Padded data k) (hne : data ≠ []) :
    SameUsedBits (data ++ List.replicate k '=') (encode (bytesOf (data.filterMap sextet?))) := by
  obtain ⟨ss, hss, rfl⟩ := exists_map_sextetChar h.alphabet
  rw [filterMap_sextet? hss]
  have hfull := h.full
  rw [List.length_map] at hfull
  rcases List.eq_nil_or_concat' ss with rfl | ⟨init, x, rfl⟩
  · exact absurd rfl hne
  · have hsextets := sextets_bytesOf h.le_two hss
      (by rwa [List.length_append, List.length_singleton] at hfull)
    have hx : x < 64 := hss x (by simp)
    have hcut : x / 4 ^ k * 4 ^ k < 64 := Nat.lt_of_le_of_lt (Nat.div_mul_le_self _ _) hx
    refine ⟨init.map sextetChar, sextetChar x, sextetChar (x / 4 ^ k * 4 ^ k), k, by simp, ?_,
      x, x / 4 ^ k * 4 ^ k, sextet?_sextetChar x hx, sextet?_sextetChar _ hcut, ?_⟩
    · rw [encode_eq, hsextets, missing_length_bytesOf hfull h.le_two]
      simp
    · rw [Nat.mul_div_cancel _ (Nat.pow_pos (by decide))]

end LuaTidy.Text.Base64
