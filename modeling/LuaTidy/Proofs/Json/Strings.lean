import LuaTidy.Json.Quoted
import Mathlib.Data.List.Basic

/-!
Strings in documents: reading undoes writing, for every text and whatever follows the closing quote,
and what is written holds no control characters.
-/
namespace LuaTidy.Json

theorem hexValue?_hexDigit {n : Nat} (h : n < 16) : Text.hexValue? (Text.hexDigit n) = some n := by
  have hall : ∀ k : Fin 16, Text.hexValue? (Text.hexDigit k) = some k.val := by decide
  exact hall ⟨n, h⟩

/-- The four digits of a code unit. -/
theorem hex_four (n : Nat) :
    Text.hex 4 n = [Text.hexDigit (n / 16 / 16 / 16 % 16), Text.hexDigit (n / 16 / 16 % 16),
      Text.hexDigit (n / 16 % 16), Text.hexDigit (n % 16)] := by
  simp [Text.hex]

theorem codeUnit?_digits {n : Nat} (h : n < 0x10000) :
    codeUnit? (Text.hexDigit (n / 16 / 16 / 16 % 16)) (Text.hexDigit (n / 16 / 16 % 16))
      (Text.hexDigit (n / 16 % 16)) (Text.hexDigit (n % 16)) = some n := by
  have hdigit : ∀ k, Text.hexValue? (Text.hexDigit (k % 16)) = some (k % 16) := fun k =>
    hexValue?_hexDigit (Nat.mod_lt k (by decide))
  simp only [codeUnit?, hdigit, Option.bind_eq_bind, Option.bind_some, Option.some.injEq]
  omega

section
variable (rest : Text)

theorem unquoteAfter?_plain {c : Char} (hq : c ≠ '"') (hb : c ≠ '\\') (hc : 0x20 ≤ c.toNat) :
    unquoteAfter? none (c :: rest) = (unquoteAfter? none rest).map fun p => (c :: p.1, p.2) := by
  have hlow : ¬ c.toNat < 0x20 := Nat.not_lt.mpr hc
  rw [unquoteAfter?.eq_def]
  split
  · next he => cases he
  · next he =>
    cases he
    exact absurd rfl hb
  · next he =>
    cases he
    exact absurd rfl hb
  · next he =>
    cases he
    simp only [hq, hb, hlow, false_or, if_false, Option.isSome_none, Bool.false_eq_true]
    cases unquoteAfter? none rest <;> rfl

theorem unquoteAfter?_short {e c : Char} (he : e ≠ 'u') (h : shortMeaning? e = some c) :
    unquoteAfter? none ('\\' :: e :: rest) =
      (unquoteAfter? none rest).map fun p => (c :: p.1, p.2) := by
  rw [unquoteAfter?.eq_def]
  split
  · next hs => cases hs
  · next hs =>
    cases hs
    exact absurd rfl he
  · next hs =>
    cases hs
    simp only [h, Option.bind_eq_bind, Option.bind_some, Option.isSome_none, Bool.false_eq_true,
      if_false]
    cases unquoteAfter? none rest <;> rfl
  · next hescape hs =>
    cases hs
    exact (hescape e rest rfl rfl).elim

theorem unquoteAfter?_unit {n : Nat} (hn : n < 0xD800) :
    unquoteAfter? none (unitEscape n ++ rest) =
      (unquoteAfter? none rest).map fun p => (Char.ofNat n :: p.1, p.2) := by
  have hunit := codeUnit?_digits (Nat.lt_trans hn (by decide))
  have hhigh : ¬ (0xD800 ≤ n ∧ n < 0xDC00) := by omega
  have hlow : ¬ (0xDC00 ≤ n ∧ n < 0xE000) := by omega
  rw [unitEscape, hex_four]
  simp only [List.cons_append, List.nil_append, unquoteAfter?, hunit, hhigh, hlow,
    Option.bind_eq_bind, Option.bind_some, if_false]
  cases unquoteAfter? none rest <;> rfl

end

/-- A two-character escape stands for the character that it is written for. -/
theorem shortMeaning?_shortEscape? {c e : Char} (h : shortEscape? c = some e) :
    shortMeaning? e = some c ∧ e ≠ 'u' ∧ 0x20 ≤ e.toNat := by
  have hc := Char.ofNat_toNat c
  rw [shortEscape?] at h
  split at h <;> cases h
  all_goals next hn =>
    rw [← hc, hn]
    decide

theorem ne_of_shortEscape?_none {c : Char} (h : shortEscape? c = none) : c ≠ '"' ∧ c ≠ '\\' := by
  constructor
  · rintro rfl
    cases h
  · rintro rfl
    cases h

theorem unquoteAfter?_escape (c : Char) (rest : Text) :
    unquoteAfter? none (escape c ++ rest) =
      (unquoteAfter? none rest).map fun p => (c :: p.1, p.2) := by
  rw [escape]
  split
  · next e he =>
    obtain ⟨hmeaning, hu, -⟩ := shortMeaning?_shortEscape? he
    exact unquoteAfter?_short rest hu hmeaning
  · next hnone =>
    split
    · next hlow =>
      have hunit := unquoteAfter?_unit rest (Nat.lt_trans hlow (by decide))
      rwa [Char.ofNat_toNat] at hunit
    · next hlow =>
      obtain ⟨hq, hb⟩ := ne_of_shortEscape?_none hnone
      exact unquoteAfter?_plain rest hq hb (Nat.not_lt.mp hlow)

/-- A written text is read again, and reading stops right behind its closing quote. -/
theorem unquote?_escaped (s tail : Text) :
    unquote? (s.flatMap escape ++ '"' :: tail) = some (s, tail) := by
  rw [unquote?]
  induction s with
  | nil => simp [unquoteAfter?]
  | cons c s ih =>
    rw [List.flatMap_cons, List.append_assoc, unquoteAfter?_escape, ih]
    rfl

theorem toNat_of_mem_escape {c d : Char} (h : d ∈ escape c) : 0x20 ≤ d.toNat := by
  rw [escape] at h
  split at h
  · next e he =>
    simp only [List.mem_cons, List.not_mem_nil, or_false] at h
    rcases h with rfl | rfl
    · decide
    · exact (shortMeaning?_shortEscape? he).2.2
  · split at h
    · have hdigit : ∀ n, 0x20 ≤ (Text.hexDigit (n % 16)).toNat := by
        intro n
        have hall : ∀ k : Fin 16, 0x20 ≤ (Text.hexDigit k).toNat := by decide
        exact hall ⟨n % 16, Nat.mod_lt n (by decide)⟩
      rw [unitEscape, hex_four] at h
      simp only [List.mem_cons, List.not_mem_nil, or_false] at h
      rcases h with rfl | rfl | rfl | rfl | rfl | rfl
      · decide
      · decide
      all_goals exact hdigit _
    · next hlow =>
      rw [List.mem_singleton.mp h]
      exact Nat.not_lt.mp hlow

theorem toNat_of_mem_quote {s : Text} {d : Char} (h : d ∈ quote s) : 0x20 ≤ d.toNat := by
  simp only [quote, List.mem_append, List.mem_cons, List.not_mem_nil, or_false,
    List.mem_flatMap] at h
  rcases h with (rfl | ⟨c, -, hd⟩) | rfl
  · decide
  · exact toNat_of_mem_escape hd
  · decide

end LuaTidy.Json
