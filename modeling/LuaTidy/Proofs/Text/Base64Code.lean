import LuaTidy.Proofs.Text.Base64Grammar
import LuaTidy.Proofs.Text.CharacterClasses

/-!
The code of a row of bytes: its sextets, each written as one character, and equal signs for the
bytes that are missing in the last group of three. Decoding gives the bytes back.
-/
namespace LuaTidy.Text.Base64

/-- The bits of a row of bytes in groups of six, the last group filled up with zeros. -/
def sextets : List Nat → List Nat
  | a :: b :: c :: rest =>
    (a / 4) :: (a % 4 * 16 + b / 16) :: (b % 16 * 4 + c / 64) :: (c % 64) :: sextets rest
  | [a, b] => [a / 4, a % 4 * 16 + b / 16, b % 16 * 4]
  | [a] => [a / 4, a % 4 * 16]
  | [] => []

/-- How many bytes are missing to a multiple of three. -/
def missing (n : Nat) : Nat := (3 - n % 3) % 3

theorem sextet?_sextetChar : ∀ n < 64, sextet? (sextetChar n) = some n := by decide

theorem toNat_lt_of_isSextet {c : Char} (h : isSextet c = true) : c.toNat < 0x80 := by
  by_contra hge
  have hnone : sextet? c = none := by
    simp only [sextet?, Bool.and_eq_true, decide_eq_true_eq, beq_iff_eq, le_iff_toNat_le,
      Char.reduceToNat]
    have hplus : c ≠ '+' := fun he => hge (by rw [he]; decide)
    have hslash : c ≠ '/' := fun he => hge (by rw [he]; decide)
    rw [if_neg (by omega), if_neg (by omega), if_neg (by omega), if_neg hplus, if_neg hslash]
  rw [isSextet, hnone] at h
  cases h

private theorem sextetChar_ofNat :
    ∀ k < 0x80, ∀ n ∈ sextet? (Char.ofNat k), n < 64 ∧ sextetChar n = Char.ofNat k := by decide

/-- A character of the alphabet is the one for its value. -/
theorem sextetChar_sextet? {c : Char} {n : Nat} (h : sextet? c = some n) :
    n < 64 ∧ sextetChar n = c := by
  have hc : isSextet c = true := by rw [isSextet, h, Option.isSome_some]
  have hall := sextetChar_ofNat c.toNat (toNat_lt_of_isSextet hc) n
  rw [Char.ofNat_toNat] at hall
  exact hall h

theorem isSextet_sextetChar {n : Nat} (h : n < 64) : isSextet (sextetChar n) = true := by
  rw [isSextet, sextet?_sextetChar n h, Option.isSome_some]

theorem filterMap_sextet? {ss : List Nat} (h : ∀ n ∈ ss, n < 64) :
    (ss.map sextetChar).filterMap sextet? = ss := by
  rw [List.filterMap_map]
  calc ss.filterMap (sextet? ∘ sextetChar)
      = ss.filterMap some := List.filterMap_congr fun n hn => sextet?_sextetChar n (h n hn)
    _ = ss := List.filterMap_some

/-- Characters of the alphabet are written for values below 64. -/
theorem exists_map_sextetChar {data : Text} (h : ∀ c ∈ data, isSextet c = true) :
    ∃ ss : List Nat, (∀ n ∈ ss, n < 64) ∧ ss.map sextetChar = data := by
  induction data with
  | nil => exact ⟨[], by simp, rfl⟩
  | cons c data ih =>
    obtain ⟨hc, hdata⟩ := List.forall_mem_cons.mp h
    obtain ⟨ss, hss, rfl⟩ := ih hdata
    obtain ⟨n, hn⟩ := Option.isSome_iff_exists.mp hc
    obtain ⟨hlt, hchar⟩ := sextetChar_sextet? hn
    exact ⟨n :: ss, List.forall_mem_cons.mpr ⟨hlt, hss⟩, by rw [List.map_cons, hchar]⟩

theorem length_sextets (bs : List Nat) :
    (sextets bs).length + missing bs.length = (bs.length + 2) / 3 * 4 := by
  fun_induction sextets bs with
  | case1 a b c rest ih =>
    simp only [missing, List.length_cons] at ih ⊢
    omega
  | case2 a b => simp [missing]
  | case3 a => simp [missing]
  | case4 => rfl

theorem sextets_lt {bs : List Nat} (h : ∀ b ∈ bs, b < 256) : ∀ n ∈ sextets bs, n < 64 := by
  fun_induction sextets bs with
  | case1 a b c rest ih =>
    simp only [List.forall_mem_cons] at h ⊢
    obtain ⟨ha, hb, hc, hrest⟩ := h
    exact ⟨by omega, by omega, by omega, by omega, ih hrest⟩
  | case2 a b =>
    simp only [List.forall_mem_cons, List.not_mem_nil, false_implies, implies_true, and_true] at h ⊢
    omega
  | case3 a =>
    simp only [List.forall_mem_cons, List.not_mem_nil, false_implies, implies_true, and_true] at h ⊢
    omega
  | case4 => simp

theorem encode_eq (bs : List Nat) :
    encode bs = (sextets bs).map sextetChar ++ List.replicate (missing bs.length) '=' := by
  fun_induction sextets bs with
  | case1 a b c rest ih =>
    have hm : missing (a :: b :: c :: rest).length = missing rest.length := by
      simp only [missing, List.length_cons]
      omega
    rw [encode, ih, hm]
    simp
  | case2 a b => rfl
  | case3 a => rfl
  | case4 => rfl

theorem bytesOf_sextets {bs : List Nat} (h : ∀ b ∈ bs, b < 256) : bytesOf (sextets bs) = bs := by
  fun_induction sextets bs with
  | case1 a b c rest ih =>
    simp only [List.forall_mem_cons] at h
    obtain ⟨ha, hb, hc, hrest⟩ := h
    simp only [bytesOf, ih hrest, List.cons.injEq, and_true]
    omega
  | case2 a b =>
    simp only [List.forall_mem_cons, List.not_mem_nil, false_implies, implies_true, and_true] at h
    simp only [bytesOf, List.cons.injEq, and_true]
    omega
  | case3 a =>
    simp only [List.forall_mem_cons, List.not_mem_nil, false_implies, implies_true, and_true] at h
    simp only [bytesOf, List.cons.injEq, and_true]
    omega
  | case4 => rfl

theorem length_bytesOf (ss : List Nat) : (bytesOf ss).length = ss.length * 3 / 4 := by
  fun_induction bytesOf ss with
  | case1 a b c d rest ih =>
    simp only [List.length_cons, ih]
    omega
  | case2 => simp
  | case3 => simp
  | case4 ss h₁ h₂ h₃ =>
    match ss with
    | [] => rfl
    | [_] => simp
    | [a, b] => exact absurd rfl (h₃ a b)
    | [a, b, c] => exact absurd rfl (h₂ a b c)
    | a :: b :: c :: d :: rest => exact absurd rfl (h₁ a b c d rest)

theorem padded_encode {bs : List Nat} (h : ∀ b ∈ bs, b < 256) :
    Padded ((sextets bs).map sextetChar) (missing bs.length) := by
  have hlen := length_sextets bs
  refine ⟨?_, by rw [List.length_map, hlen, Nat.mul_mod_left], by rw [missing]; omega⟩
  intro c hc
  obtain ⟨n, hn, rfl⟩ := List.mem_map.mp hc
  exact isSextet_sextetChar (sextets_lt h n hn)

theorem isCode_encode {bs : List Nat} (h : ∀ b ∈ bs, b < 256) : IsCode (encode bs) := by
  rw [encode_eq]
  exact (padded_encode h).isCode

theorem decode?_encode {bs : List Nat} (h : ∀ b ∈ bs, b < 256) : decode? (encode bs) = some bs := by
  rw [encode_eq, (padded_encode h).decode?, filterMap_sextet? (sextets_lt h), bytesOf_sextets h]

end LuaTidy.Text.Base64
