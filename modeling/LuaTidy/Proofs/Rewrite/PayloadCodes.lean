import LuaTidy.Rewrite.Literals
import LuaTidy.Proofs.Text.Base64Code
import LuaTidy.Proofs.Text.CharacterClasses
import LuaTidy.Proofs.Text.PieceScan
import Mathlib.Data.List.TakeWhile

/-! The code of a printable text is read back as a payload, whatever follows its closing quote. -/
namespace LuaTidy.Payloads

/-- The base64 code of a text whose characters are bytes. -/
def codeOf (d : Text) : Text := Text.Base64.encode (d.map Char.toNat)

theorem bytes_lt_of_allPrintable {d : Text} (h : Text.allPrintable d = true) :
    ∀ b ∈ d.map Char.toNat, b < 256 := by
  intro b hb
  obtain ⟨c, hc, rfl⟩ := List.mem_map.mp hb
  exact Text.toNat_lt_of_isPrintable (List.all_eq_true.mp h c hc)

/-- Every character of a code is one of the alphabet or an equal sign. -/
theorem forall_mem_codeOf {P : Char → Prop} (hdata : ∀ n < 64, P (Text.Base64.sextetChar n))
    (hpad : P '=') {d : Text} (hd : Text.allPrintable d = true) : ∀ c ∈ codeOf d, P c := by
  intro c hc
  rw [codeOf, Text.Base64.encode_eq] at hc
  rcases List.mem_append.mp hc with hc | hc
  · obtain ⟨n, hn, rfl⟩ := List.mem_map.mp hc
    exact hdata n (Text.Base64.sextets_lt (bytes_lt_of_allPrintable hd) n hn)
  · rw [List.eq_of_mem_replicate hc]
    exact hpad

theorem decode?_codeOf {d : Text} (hne : d ≠ []) (hd : Text.allPrintable d = true) :
    decode? (codeOf d) = some d := by
  have hbytes := Text.Base64.decode?_encode (bytes_lt_of_allPrintable hd)
  have hback : (d.map Char.toNat).map Char.ofNat = d := by
    rw [List.map_map]
    exact List.map_id'' (fun c => Char.ofNat_toNat c) d
  simp [decode?, codeOf, hbytes, hback, hne, hd]

theorem padding?_of_padded {data : Text} {k : Nat} (h : Text.Base64.Padded data k) :
    padding? data.length = some (List.replicate k '=') := by
  rcases h.length_cases with ⟨hl, rfl⟩ | ⟨hl, rfl⟩ | ⟨hl, rfl⟩ <;> simp [padding?, hl]

theorem exists_padded_of_padding? {data pad : Text}
    (hdata : ∀ c ∈ data, Text.Base64.isSextet c = true) (h : padding? data.length = some pad) :
    ∃ k, Text.Base64.Padded data k ∧ pad = List.replicate k '=' := by
  rw [padding?] at h
  split at h
  · next hl =>
    cases h
    exact ⟨0, ⟨hdata, by omega, by omega⟩, rfl⟩
  · next hl =>
    cases h
    exact ⟨2, ⟨hdata, by omega, by omega⟩, rfl⟩
  · next hl =>
    cases h
    exact ⟨1, ⟨hdata, by omega, by omega⟩, rfl⟩
  · cases h

theorem not_isSextet_of_isQuote {q : Char} (hq : Lua.isQuote q = true) :
    Text.Base64.isSextet q = false := by
  rcases Text.eq_of_isQuote hq with rfl | rfl <;> decide

/-- What is read is a code of the grammar that a quote follows. -/
theorem code?_eq_some_iff (s code : Text) :
    code? s = some code ↔
      Text.Base64.IsCode code ∧ ∃ q t, Lua.isQuote q = true ∧ s = code ++ q :: t := by
  constructor
  · intro h
    simp only [code?, Option.bind_eq_bind, Option.bind_eq_some_iff] at h
    obtain ⟨pad, hpad, h⟩ := h
    obtain ⟨k, hpadded, rfl⟩ := exists_padded_of_padding?
      (fun c hc => List.mem_takeWhile_imp hc) hpad
    split at h
    · next q t hrest =>
      simp only [Option.ite_none_right_eq_some, Bool.and_eq_true, List.isPrefixOf_iff_prefix,
        Option.some.injEq] at h
      obtain ⟨⟨⟨u, hpad⟩, hq⟩, rfl⟩ := h
      rw [← hpad, List.drop_left] at hrest
      refine ⟨hpadded.isCode, q, t, hq, ?_⟩
      rw [List.append_assoc, ← hrest, hpad, List.takeWhile_append_dropWhile]
    · cases h
  · rintro ⟨hcode, q, t, hq, rfl⟩
    obtain ⟨data, k, hpadded, rfl⟩ := hcode.exists_padded
    have hhead : ∀ c ∈ (q :: t).head?, Text.Base64.isSextet c = false := by
      intro c hc
      cases hc
      exact not_isSextet_of_isQuote hq
    rw [List.append_assoc]
    simp only [code?, hpadded.takeWhile hhead, hpadded.dropWhile hhead, padding?_of_padded hpadded]
    simp [hq]

theorem allPrintable_of_decode? {code d : Text} (h : decode? code = some d) :
    Text.allPrintable d = true := by
  simp only [decode?, Option.bind_eq_bind, Option.bind_eq_some_iff] at h
  obtain ⟨bytes, -, h⟩ := h
  rw [Option.ite_none_left_eq_some, Bool.or_eq_true, not_or, Bool.not_eq_true',
    Bool.not_eq_false] at h
  obtain ⟨⟨-, hprintable⟩, hd⟩ := h
  cases hd
  exact hprintable

/-- A recognised stretch is a code between two quotes, and stands for what the code writes. -/
theorem payload?_eq_some {c : Char} {cs : Text} {n : Nat} {v : Option Text}
    (h : payload? c cs = some (n, v)) :
    Lua.isQuote c = true ∧ ∃ code q, Text.Base64.IsCode code ∧ Lua.isQuote q = true ∧
      cs.take n = code ++ [q] ∧ v = decode? code := by
  simp only [payload?, Option.ite_none_right_eq_some, Option.map_eq_some_iff, Prod.mk.injEq] at h
  obtain ⟨hc, code, hcode, rfl, rfl⟩ := h
  obtain ⟨hgrammar, q, t, hq, rfl⟩ := (code?_eq_some_iff _ _).mp hcode
  refine ⟨hc, code, q, hgrammar, hq, ?_, rfl⟩
  rw [List.take_length_add_append]
  rfl

instance decidableIsCode : DecidablePred Text.Base64.IsCode := fun s =>
  decidable_of_iff (code? (s ++ ['"']) = some s) <| by
    rw [code?_eq_some_iff]
    exact and_iff_left ⟨'"', [], by decide, rfl⟩

theorem payload?_codeOf {d t : Text} (hne : d ≠ []) (hd : Text.allPrintable d = true) :
    payload? '"' (codeOf d ++ '"' :: t) = some ((codeOf d).length + 1, some d) := by
  have hq : Lua.isQuote '"' = true := by decide
  have hgrammar := Text.Base64.isCode_encode (bytes_lt_of_allPrintable hd)
  rw [← codeOf] at hgrammar
  have hcode := (code?_eq_some_iff _ _).mpr ⟨hgrammar, '"', t, hq, rfl⟩
  simp [payload?, hq, hcode, decode?_codeOf hne hd]

end LuaTidy.Payloads
