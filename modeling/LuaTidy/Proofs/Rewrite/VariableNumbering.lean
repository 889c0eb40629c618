import LuaTidy.Rewrite.Names
import LuaTidy.Proofs.Lua.TokenRenaming
import Mathlib.Data.List.Induction

/-!
A long name is numbered by the last of its tokens. Tokens have different positions and numbers
have different digits, so no two names get the same short name.
-/
namespace LuaTidy.Variables

/-- The last of the tokens that are `x` has `k` tokens before it. -/
def LastAt (tokens : List Text) (x : Text) (k : Nat) : Prop :=
  tokens[k]? = some x ∧ ∀ j, k < j → tokens[j]? ≠ some x

theorem decimal_injective : Function.Injective Text.decimal := by
  intro a b h
  have hd := congrArg (fun ds => Nat.ofDigitChars 10 ds 0) h
  simpa only [Text.decimal, Nat.ofDigitChars_ten_toDigits] using hd

theorem shortName_injective (stem : Text) : Function.Injective (shortName stem) :=
  fun _ _ h => decimal_injective (List.append_cancel_left h)

theorem isWordChar_of_mem_decimal {k : Nat} {c : Char} (h : c ∈ Text.decimal k) :
    Lua.isWordChar c = true := by
  have hd := Nat.isDigit_of_mem_toDigits (by decide) (by decide) h
  simp only [Char.isDigit, Bool.and_eq_true, decide_eq_true_eq] at hd
  simp only [Lua.isWordChar, Bool.or_eq_true, Bool.and_eq_true, decide_eq_true_eq]
  exact Or.inr hd

theorem isName_shortName {stem : Text} (h : Lua.isName stem = true) (k : Nat) :
    Lua.isName (shortName stem k) = true := by
  cases stem with
  | nil => simp [Lua.isName] at h
  | cons c cs =>
    simp only [Lua.isName, Bool.and_eq_true, List.all_eq_true] at h
    simp only [shortName, List.cons_append, Lua.isName, Bool.and_eq_true, List.all_eq_true]
    refine ⟨h.1, fun d hd => ?_⟩
    rcases List.mem_append.mp hd with hd | hd
    · exact h.2 d hd
    · exact isWordChar_of_mem_decimal hd

theorem LastAt.name_unique {ts : List Text} {x y : Text} {k : Nat} (hx : LastAt ts x k)
    (hy : LastAt ts y k) : x = y :=
  Option.some.inj (hx.1.symm.trans hy.1)

theorem LastAt.place_unique {ts : List Text} {x : Text} {j k : Nat} (hj : LastAt ts x j)
    (hk : LastAt ts x k) : j = k := by
  rcases Nat.lt_trichotomy j k with hlt | he | hlt
  · exact absurd hk.1 (hj.2 k hlt)
  · exact he
  · exact absurd hj.1 (hk.2 j hlt)

theorem lastAt_concat_iff (ts : List Text) (t x : Text) (k : Nat) :
    LastAt (ts ++ [t]) x k ↔ (x = t ∧ k = ts.length) ∨ (x ≠ t ∧ LastAt ts x k) := by
  have hlast : (ts ++ [t])[ts.length]? = some t := by simp
  constructor
  · rintro ⟨hk, hafter⟩
    have hlt : k < (ts ++ [t]).length := (List.getElem?_eq_some_iff.mp hk).1
    rw [List.length_append, List.length_singleton] at hlt
    by_cases he : k = ts.length
    · subst he
      exact Or.inl ⟨Option.some.inj (hk.symm.trans hlast), rfl⟩
    · have hk' : k < ts.length := by omega
      refine Or.inr ⟨fun hx => hafter ts.length hk' (hx ▸ hlast), ?_, ?_⟩
      · rwa [List.getElem?_append_left hk'] at hk
      · intro j hj hx
        have hj' : j < ts.length := (List.getElem?_eq_some_iff.mp hx).1
        exact hafter j hj (by rwa [List.getElem?_append_left hj'])
  · rintro (⟨rfl, rfl⟩ | ⟨hne, hk, hafter⟩)
    · refine ⟨hlast, fun j hj hx => ?_⟩
      have hlt := (List.getElem?_eq_some_iff.mp hx).1
      rw [List.length_append, List.length_singleton] at hlt
      omega
    · have hk' : k < ts.length := (List.getElem?_eq_some_iff.mp hk).1
      refine ⟨by rwa [List.getElem?_append_left hk'], fun j hj hx => ?_⟩
      by_cases hj' : j < ts.length
      · exact hafter j hj (by rwa [List.getElem?_append_left hj'] at hx)
      · have hlt := (List.getElem?_eq_some_iff.mp hx).1
        rw [List.length_append, List.length_singleton] at hlt
        have he : j = ts.length := by omega
        subst he
        exact hne (Option.some.inj (hx.symm.trans hlast))

theorem numbering_concat (n : Int) (stem : Text) (ts : List Text) (t : Text) :
    numbering n stem (ts ++ [t]) =
      if isLong n t then (numbering n stem ts).insert t (shortName stem (ts.length + 1))
      else numbering n stem ts := by
  simp [numbering, List.zipIdx_append, Nat.add_comm]

theorem nodup_keys_numbering (n : Int) (stem : Text) (ts : List Text) :
    (numbering n stem ts).keys.Nodup := by
  induction ts using List.reverseRecOn with
  | nil => exact List.nodup_nil
  | append_singleton ts t ih =>
    rw [numbering_concat]
    split
    · exact Entries.nodup_keys_insert ih _ _
    · exact ih

/-- The long tokens get short names, numbered from one by their last occurrences. -/
theorem get?_numbering (n : Int) (stem : Text) (ts : List Text) (x v : Text) :
    (numbering n stem ts).get? x = some v ↔
      isLong n x = true ∧ ∃ k, LastAt ts x k ∧ v = shortName stem (k + 1) := by
  induction ts using List.reverseRecOn with
  | nil => simp [numbering, LastAt]
  | append_singleton ts t ih =>
    simp only [numbering_concat, lastAt_concat_iff]
    cases ht : isLong n t with
    | false =>
      have hx : isLong n x = true → x ≠ t := fun hx he => by simp [he, ht] at hx
      rw [if_neg Bool.false_ne_true, ih]
      constructor
      · rintro ⟨hl, k, hk, rfl⟩
        exact ⟨hl, k, Or.inr ⟨hx hl, hk⟩, rfl⟩
      · rintro ⟨hl, k, hk | hk, rfl⟩
        · exact absurd hk.1 (hx hl)
        · exact ⟨hl, k, hk.2, rfl⟩
    | true =>
      rw [if_pos rfl, Entries.get?_insert]
      by_cases hx : t = x
      · subst hx
        simp only [if_true, Option.some.injEq, ht, true_and, ne_eq, not_true, false_and, or_false]
        constructor
        · rintro rfl
          exact ⟨ts.length, rfl, rfl⟩
        · rintro ⟨k, rfl, rfl⟩
          rfl
      · simp only [if_neg hx, ih, Ne.symm hx, false_and, false_or, ne_eq, not_false_eq_true,
          true_and]

theorem nodup_keys_given (n : Int) (stem s : Text) : (given n stem s).keys.Nodup :=
  (Entries.keys_filter_sublist _ _).nodup (nodup_keys_numbering n stem (Lua.names s))

/-- The names given are those of long tokens, in the text outside its literals. -/
theorem get?_given (n : Int) (stem s x v : Text) :
    (given n stem s).get? x = some v ↔
      x ∈ namesInCode s ∧ isLong n x = true ∧
        ∃ k, LastAt (Lua.names s) x k ∧ v = shortName stem (k + 1) := by
  rw [given, Entries.get?_filter _ (fun x => (namesInCode s).contains x)]
  by_cases hx : x ∈ namesInCode s
  · simp [hx, get?_numbering]
  · simp [hx]

theorem given_injective {n : Int} {stem s x y v : Text} (hx : (given n stem s).get? x = some v)
    (hy : (given n stem s).get? y = some v) : x = y := by
  obtain ⟨-, -, j, hj, rfl⟩ := (get?_given n stem s x v).mp hx
  obtain ⟨-, -, k, hk, he⟩ := (get?_given n stem s y _).mp hy
  have hjk : j = k := Nat.succ.inj (shortName_injective stem he)
  subst hjk
  exact hj.name_unique hk

theorem mem_given {n : Int} {stem s x v : Text} (h : (x, v) ∈ given n stem s) :
    x ∈ namesInCode s ∧ isLong n x = true ∧
      ∃ k, LastAt (Lua.names s) x k ∧ v = shortName stem (k + 1) :=
  (get?_given n stem s x v).mp (Entries.get?_of_mem (nodup_keys_given n stem s) h)

theorem given_eq_nil {n : Int} {s : Text} (stem : Text)
    (h : ∀ x ∈ namesInCode s, isLong n x = false) : given n stem s = [] := by
  rw [List.eq_nil_iff_forall_not_mem]
  rintro ⟨x, v⟩ he
  obtain ⟨hx, hlong, -⟩ := mem_given he
  rw [h x hx] at hlong
  cases hlong

theorem givesNames_given (n : Int) {stem : Text} (h : Lua.isName stem = true) (s : Text) :
    (given n stem s).GivesNames := by
  rintro ⟨x, v⟩ he
  obtain ⟨-, -, k, -, rfl⟩ := mem_given he
  exact isName_shortName h _

@[simp] theorem simplify_given (n : Int) (stem s : Text) :
    (simplify n stem s).given = given n stem s := by
  simp only [simplify]
  split
  · next h => exact (List.isEmpty_iff.mp h).symm
  · rfl

theorem simplify_text (n : Int) (stem s : Text) :
    (simplify n stem s).text = Lua.rename (given n stem s) s := by
  simp only [simplify]
  split
  · next h => rw [List.isEmpty_iff.mp h, Lua.rename_nil]
  · rfl

end LuaTidy.Variables
