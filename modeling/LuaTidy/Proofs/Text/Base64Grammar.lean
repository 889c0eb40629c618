import LuaTidy.Text.Base64
import LuaTidy.Proofs.Text.Trimming

/-!
Codes as a grammar has them: groups of four characters of the alphabet, the last of which may lack
one or two. A code splits into its data and its equal signs, and the decoder reads every code.
-/
namespace LuaTidy.Text.Base64

/-- Groups of four characters of the alphabet; equal signs stand for what the last one lacks. -/
inductive IsCode : Text → Prop
  | nil : IsCode []
  | lacksTwo {a b : Char} (ha : isSextet a = true) (hb : isSextet b = true) :
      IsCode [a, b, '=', '=']
  | lacksOne {a b c : Char} (ha : isSextet a = true) (hb : isSextet b = true)
      (hc : isSextet c = true) : IsCode [a, b, c, '=']
  | group {a b c d : Char} {rest : Text} (ha : isSextet a = true) (hb : isSextet b = true)
      (hc : isSextet c = true) (hd : isSextet d = true) (h : IsCode rest) :
      IsCode (a :: b :: c :: d :: rest)

/-- Characters of the alphabet that `k` equal signs complete. -/
structure Padded (data : Text) (k : Nat) : Prop where
  alphabet : ∀ c ∈ data, isSextet c = true
  full : (data.length + k) % 4 = 0
  le_two : k ≤ 2

theorem Padded.group {a b c d : Char} {data : Text} {k : Nat} :
    Padded (a :: b :: c :: d :: data) k ↔ isSextet a = true ∧ isSextet b = true ∧
      isSextet c = true ∧ isSextet d = true ∧ Padded data k := by
  constructor
  · rintro ⟨halphabet, hfull, hk⟩
    simp only [List.forall_mem_cons] at halphabet
    obtain ⟨ha, hb, hc, hd, hdata⟩ := halphabet
    simp only [List.length_cons] at hfull
    exact ⟨ha, hb, hc, hd, hdata, by omega, hk⟩
  · rintro ⟨ha, hb, hc, hd, hdata, hfull, hk⟩
    refine ⟨by simpa only [List.forall_mem_cons] using ⟨ha, hb, hc, hd, hdata⟩, ?_, hk⟩
    simp only [List.length_cons]
    omega

theorem IsCode.exists_padded {s : Text} (h : IsCode s) :
    ∃ data k, Padded data k ∧ s = data ++ List.replicate k '=' := by
  induction h with
  | nil => exact ⟨[], 0, ⟨by simp, rfl, by omega⟩, rfl⟩
  | lacksTwo ha hb => exact ⟨[_, _], 2, ⟨by simp [ha, hb], by simp, by omega⟩, rfl⟩
  | lacksOne ha hb hc => exact ⟨[_, _, _], 1, ⟨by simp [ha, hb, hc], by simp, by omega⟩, rfl⟩
  | group ha hb hc hd h ih =>
    obtain ⟨data, k, hdata, rfl⟩ := ih
    exact ⟨_, k, Padded.group.mpr ⟨ha, hb, hc, hd, hdata⟩, rfl⟩

theorem Padded.isCode {k : Nat} : ∀ {data : Text}, Padded data k →
    IsCode (data ++ List.replicate k '=')
  | [], ⟨_, hfull, hk⟩ => by
    have hzero : k = 0 := by
      rw [List.length_nil] at hfull
      omega
    rw [hzero]
    exact .nil
  | [_], ⟨_, hfull, hk⟩ => by
    rw [List.length_singleton] at hfull
    omega
  | [a, b], ⟨halphabet, hfull, hk⟩ => by
    have htwo : k = 2 := by
      simp only [List.length_cons, List.length_nil] at hfull
      omega
    rw [htwo]
    exact .lacksTwo (halphabet a (by simp)) (halphabet b (by simp))
  | [a, b, c], ⟨halphabet, hfull, hk⟩ => by
    have hone : k = 1 := by
      simp only [List.length_cons, List.length_nil] at hfull
      omega
    rw [hone]
    exact .lacksOne (halphabet a (by simp)) (halphabet b (by simp)) (halphabet c (by simp))
  | _ :: _ :: _ :: _ :: _, h => by
    obtain ⟨ha, hb, hc, hd, hrest⟩ := Padded.group.mp h
    exact .group ha hb hc hd hrest.isCode

theorem not_isSextet_equals : isSextet '=' = false := by decide

theorem IsCode.alphabet_or_equals {s : Text} (h : IsCode s) {c : Char} (hc : c ∈ s) :
    isSextet c = true ∨ c = '=' := by
  obtain ⟨data, k, hdata, rfl⟩ := h.exists_padded
  rcases List.mem_append.mp hc with hc | hc
  · exact Or.inl (hdata.alphabet c hc)
  · exact Or.inr (List.eq_of_mem_replicate hc)

private theorem head?_padding {t : Text} (ht : ∀ c ∈ t.head?, isSextet c = false) (k : Nat) :
    ∀ c ∈ (List.replicate k '=' ++ t).head?, isSextet c = false := by
  cases k with
  | zero => exact ht
  | succ k =>
    intro c hc
    cases hc
    exact not_isSextet_equals

theorem Padded.takeWhile {data : Text} {k : Nat} (h : Padded data k) {t : Text}
    (ht : ∀ c ∈ t.head?, isSextet c = false) :
    (data ++ (List.replicate k '=' ++ t)).takeWhile isSextet = data :=
  takeWhile_append_of_head h.alphabet (head?_padding ht k)

theorem Padded.dropWhile {data : Text} {k : Nat} (h : Padded data k) {t : Text}
    (ht : ∀ c ∈ t.head?, isSextet c = false) :
    (data ++ (List.replicate k '=' ++ t)).dropWhile isSextet = List.replicate k '=' ++ t :=
  dropWhile_append_of_head h.alphabet (head?_padding ht k)

/-- How much data the last group holds, for each number of equal signs. -/
theorem Padded.length_cases {data : Text} {k : Nat} (h : Padded data k) :
    data.length % 4 = 0 ∧ k = 0 ∨ data.length % 4 = 3 ∧ k = 1 ∨ data.length % 4 = 2 ∧ k = 2 := by
  have hfull := h.full
  have hk := h.le_two
  omega

/-- The decoder reads every code. -/
theorem Padded.decode? {data : Text} {k : Nat} (h : Padded data k) :
    decode? (data ++ List.replicate k '=') = some (bytesOf (data.filterMap sextet?)) := by
  have hdata := h.takeWhile (t := []) (by simp)
  have hpad := h.dropWhile (t := []) (by simp)
  rw [List.append_nil] at hdata hpad
  have hpadding : padding data.length k = true := by
    rcases h.length_cases with ⟨hl, rfl⟩ | ⟨hl, rfl⟩ | ⟨hl, rfl⟩ <;> simp [padding, hl]
  simp [Base64.decode?, hdata, hpad, hpadding]

end LuaTidy.Text.Base64
