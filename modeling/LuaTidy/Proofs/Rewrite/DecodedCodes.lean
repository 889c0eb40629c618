import LuaTidy.Proofs.Rewrite.PayloadCodes
import LuaTidy.Proofs.Text.UnusedBits

/-!
Decoding against coding, in both directions: a printable text is decoded from its code, and what a
code of the grammar is decoded to has that code, up to the bits that no byte has use for.
-/
namespace LuaTidy.Payloads
open Text.Base64 (IsCode Padded SameUsedBits bytesOf sextet?)

/-- No text comes of a code without bytes, or with a byte that is no printable character. -/
theorem decode?_eq_ite {s : Text} {bytes : List Nat}
    (hs : Text.Base64.decode? s = some bytes) :
    decode? s = if bytes = [] ∨ ∃ b ∈ bytes, Text.isPrintable (Char.ofNat b) = false then none
      else some (bytes.map Char.ofNat) := by
  have hrefused : ((bytes.map Char.ofNat).isEmpty || !Text.allPrintable (bytes.map Char.ofNat)) =
      true ↔ bytes = [] ∨ ∃ b ∈ bytes, Text.isPrintable (Char.ofNat b) = false := by
    simp [Text.allPrintable]
  simp only [decode?, hs, Option.bind_eq_bind, Option.bind_some, hrefused]

theorem toNat_ofNat_of_lt {b : Nat} (h : b < 256) : (Char.ofNat b).toNat = b := by
  have hvalid : b.isValidChar := Or.inl (by omega)
  rw [Char.ofNat, dif_pos hvalid]
  rfl

theorem codeOf_map_ofNat {bytes : List Nat} (h : ∀ b ∈ bytes, b < 256) :
    codeOf (bytes.map Char.ofNat) = Text.Base64.encode bytes := by
  have hback : (bytes.map Char.ofNat).map Char.toNat = bytes := by
    rw [List.map_map]
    exact (List.map_congr_left fun b hb => toNat_ofNat_of_lt (h b hb)).trans (List.map_id' bytes)
  rw [codeOf, hback]

theorem count_equals {data : Text} {k : Nat} (h : Padded data k) :
    (data ++ List.replicate k '=').count '=' = k := by
  have hdata : '=' ∉ data := fun hmem => by
    have halphabet := h.alphabet _ hmem
    rw [Text.Base64.not_isSextet_equals] at halphabet
    cases halphabet
  rw [List.count_append, List.count_eq_zero_of_not_mem hdata, List.count_replicate_self,
    Nat.zero_add]

/-- Three bytes for four characters, less one for each equal sign. -/
theorem length_bytesOf_padded {data : Text} {k : Nat} (h : Padded data k) :
    4 * ((bytesOf (data.filterMap sextet?)).length + k) = 3 * (data.length + k) := by
  obtain ⟨ss, hss, rfl⟩ := Text.Base64.exists_map_sextetChar h.alphabet
  have hcases := h.length_cases
  rw [Text.Base64.filterMap_sextet? hss, Text.Base64.length_bytesOf]
  rw [List.length_map] at hcases ⊢
  omega

theorem bytesOf_eq_nil_iff {data : Text} {k : Nat} (h : Padded data k) :
    bytesOf (data.filterMap sextet?) = [] ↔ data ++ List.replicate k '=' = [] := by
  have hlen := length_bytesOf_padded h
  have hcases := h.length_cases
  rw [← List.length_eq_zero_iff, ← List.length_eq_zero_iff, List.length_append,
    List.length_replicate]
  omega

theorem bytesOf_lt_of_padded {data : Text} {k : Nat} (h : Padded data k) :
    ∀ b ∈ bytesOf (data.filterMap sextet?), b < 256 := by
  obtain ⟨ss, hss, rfl⟩ := Text.Base64.exists_map_sextetChar h.alphabet
  rw [Text.Base64.filterMap_sextet? hss]
  exact Text.Base64.bytesOf_lt hss

/-- A printable text that is not empty is decoded from its code. A code of the grammar always writes
bytes; nothing is decoded from it exactly if it is empty or one of the bytes is not printable; and
a text that is decoded has three characters for four of the code, less one for each equal sign, and
the same code up to the unused low bits of the last character of data. -/
theorem decoding_inverts_coding :
    (∀ d : Text, d ≠ [] → Text.allPrintable d = true →
      IsCode (codeOf d) ∧ decode? (codeOf d) = some d) ∧
      ∀ s : Text, IsCode s → ∃ bytes, Text.Base64.decode? s = some bytes ∧
        (decode? s = none ↔ s = [] ∨ ∃ b ∈ bytes, Text.isPrintable (Char.ofNat b) = false) ∧
        ∀ d, decode? s = some d →
          4 * (d.length + s.count '=') = 3 * s.length ∧ SameUsedBits s (codeOf d) := by
  refine ⟨fun d hne hd => ⟨Text.Base64.isCode_encode (bytes_lt_of_allPrintable hd),
    decode?_codeOf hne hd⟩, fun s hs => ?_⟩
  obtain ⟨data, k, h, rfl⟩ := hs.exists_padded
  have hbytes := h.decode?
  refine ⟨_, hbytes, ?_, fun d hd => ?_⟩
  · rw [decode?_eq_ite hbytes, ← bytesOf_eq_nil_iff h]
    simp only [ite_eq_left_iff, reduceCtorEq, imp_false, not_not]
  · rw [decode?_eq_ite hbytes, Option.ite_none_left_eq_some] at hd
    obtain ⟨hkept, hd⟩ := hd
    cases hd
    have hne : data ≠ [] := by
      rintro rfl
      exact hkept (Or.inl rfl)
    refine ⟨?_, ?_⟩
    · rw [count_equals h, List.length_map, length_bytesOf_padded h, List.length_append,
        List.length_replicate]
    · rw [codeOf_map_ofNat (bytesOf_lt_of_padded h)]
      exact Text.Base64.sameUsedBits_encode h hne

/-- A code whose unused low bits are not all zero. -/
theorem decoding_inverts_coding_unused_bits :
    let d : Text := "AB"
    let s : Text := "QUJ="
    (d ≠ [] ∧ Text.allPrintable d = true ∧ decode? (codeOf d) = some d ∧ codeOf d ≠ s) ∧
      IsCode s ∧ decode? s = some d ∧ 4 * (d.length + s.count '=') = 3 * s.length ∧
      SameUsedBits s (codeOf d) := by
  intro d s
  have hne : d ≠ [] := List.cons_ne_nil _ _
  have hprintable : Text.allPrintable d = true := by decide
  have hcode : IsCode s := .lacksOne (by decide) (by decide) (by decide)
  have hdecoded : decode? s = some d := by decide
  obtain ⟨hinverse, hback⟩ := decoding_inverts_coding
  obtain ⟨_, -, -, hsome⟩ := hback s hcode
  exact ⟨⟨hne, hprintable, (hinverse d hne hprintable).2, by decide⟩, hcode, hdecoded,
    hsome d hdecoded⟩

end LuaTidy.Payloads
