import LuaTidy.Lua.Identifier
import LuaTidy.Lua.Literal
import LuaTidy.Text.Basic

/-! How the classes of characters lie to one another, by their code points. -/
namespace LuaTidy.Text

theorem le_iff_toNat_le (a b : Char) : a ≤ b ↔ a.toNat ≤ b.toNat := UInt32.le_iff_toNat_le

theorem toNat_of_isWordChar {c : Char} (h : Lua.isWordChar c = true) :
    0x30 ≤ c.toNat ∧ c.toNat ≤ 0x7A := by
  simp only [Lua.isWordChar, Lua.isNameStart, Bool.or_eq_true, Bool.and_eq_true, decide_eq_true_eq,
    beq_iff_eq, le_iff_toNat_le, Char.reduceToNat] at h
  rcases h with ((h | h) | rfl) | h
  · omega
  · omega
  · decide
  · omega

theorem not_isBlank_of_toNat {c : Char} (h : 0x21 ≤ c.toNat) (h' : c.toNat < 0x85) :
    isBlank c = false := by
  simp only [isBlank, isWhiteSpace, Bool.or_eq_false_iff, Bool.and_eq_false_iff,
    decide_eq_false_iff_not, beq_eq_false_iff_ne]
  omega

theorem not_isBlank_of_isWordChar {c : Char} (h : Lua.isWordChar c = true) : isBlank c = false := by
  obtain ⟨hlo, hhi⟩ := toNat_of_isWordChar h
  exact not_isBlank_of_toNat (by omega) (by omega)

theorem not_isWordChar_of_isBlank {c : Char} (h : isBlank c = true) : Lua.isWordChar c = false := by
  cases hc : Lua.isWordChar c with
  | false => rfl
  | true =>
    rw [not_isBlank_of_isWordChar hc] at h
    cases h

theorem eq_of_isQuote {c : Char} (h : Lua.isQuote c = true) : c = '"' ∨ c = '\'' := by
  rwa [Lua.isQuote, Bool.or_eq_true, beq_iff_eq, beq_iff_eq] at h

theorem isWordChar_of_isQuote {c : Char} (h : Lua.isQuote c = true) : Lua.isWordChar c = false := by
  rcases eq_of_isQuote h with rfl | rfl <;> decide

theorem not_isBlank_of_isQuote {c : Char} (h : Lua.isQuote c = true) : isBlank c = false := by
  rcases eq_of_isQuote h with rfl | rfl <;> decide

theorem not_isQuote_of_isWordChar {c : Char} (h : Lua.isWordChar c = true) :
    Lua.isQuote c = false := by
  cases hq : Lua.isQuote c with
  | false => rfl
  | true => simp [isWordChar_of_isQuote hq] at h

theorem toNat_lt_of_isPrintable {c : Char} (h : isPrintable c = true) : c.toNat < 256 := by
  simp only [isPrintable, isAsciiAlphanumeric, Bool.or_eq_true, Bool.and_eq_true,
    decide_eq_true_eq, beq_iff_eq, le_iff_toNat_le, Char.reduceToNat, List.contains_iff_mem] at h
  rcases h with (((h | h) | rfl) | h) | h
  · omega
  · omega
  · decide
  · omega
  · have hall : printablePunctuation.all (fun d => d.toNat < 256) = true := by decide
    exact of_decide_eq_true (List.all_eq_true.mp hall c h)

end LuaTidy.Text
