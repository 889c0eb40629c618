import LuaTidy.Pipeline.Stage
import LuaTidy.Proofs.Lua.RenamedStretches
import LuaTidy.Proofs.Lua.TokenPlaces
import LuaTidy.Proofs.Rewrite.MergedNames

/-!
Numbered names settle a text: once its long variables have short names, there are no long variables
left to name, and no function is declared that was not declared before. Where the numbered names are
long themselves, a second pass gives each of them the number that it has.
-/
namespace LuaTidy.Variables
open Lua (names rename keyword)

theorem exists_lastAt {ts : List Text} {x : Text} (h : x ∈ ts) : ∃ k, LastAt ts x k := by
  induction ts using List.reverseRecOn with
  | nil => exact absurd h List.not_mem_nil
  | append_singleton ts t ih =>
    by_cases hx : x = t
    · exact ⟨ts.length, (lastAt_concat_iff ts t x _).mpr (Or.inl ⟨hx, rfl⟩)⟩
    · have hts : x ∈ ts := by simpa [hx] using h
      obtain ⟨k, hk⟩ := ih hts
      exact ⟨k, (lastAt_concat_iff ts t x k).mpr (Or.inr ⟨hx, hk⟩)⟩

theorem mem_names_of_mem_namesInCode {s x : Text} (h : x ∈ namesInCode s) : x ∈ names s := by
  rw [Lua.namesInCode_eq, Lua.mem_namesOutsideFrom] at h
  obtain ⟨p, hp, -⟩ := h
  obtain ⟨-, -, l, hl, hx⟩ := Lua.mem_placedNamesFrom_bounds hp
  exact (Lua.mem_names_iff s x).mpr ⟨l, hl, hx⟩

/-- The names that are given others are the long ones in the code. -/
theorem mem_keys_given (n : Int) (stem s x : Text) :
    x ∈ (given n stem s).keys ↔ x ∈ namesInCode s ∧ isLong n x = true := by
  constructor
  · intro h
    obtain ⟨⟨_, v⟩, he, rfl⟩ := List.mem_map.mp h
    obtain ⟨hx, hlong, -⟩ := mem_given he
    exact ⟨hx, hlong⟩
  · rintro ⟨hx, hlong⟩
    obtain ⟨k, hk⟩ := exists_lastAt (mem_names_of_mem_namesInCode hx)
    have hgiven := (get?_given n stem s x _).mpr ⟨hx, hlong, k, hk, rfl⟩
    exact List.mem_map_of_mem (Entries.mem_of_get? hgiven)

theorem not_isLong_of_get?_given_none {n : Int} {stem s x : Text} (hx : x ∈ namesInCode s)
    (h : (given n stem s).get? x = none) : isLong n x = false := by
  rw [Entries.get?_eq_none_iff, mem_keys_given, not_and, Bool.not_eq_true] at h
  exact h hx

/-- Where the names given are short, a second renaming finds nothing to do. -/
theorem given_rename_given {n : Int} {stem : Text} (hstem : Lua.isName stem = true) {s : Text}
    (hshort : ∀ e ∈ given n stem s, (e.2.length : Int) ≤ n) :
    given n stem (rename (given n stem s) s) = [] := by
  refine given_eq_nil stem fun y hy => ?_
  rw [Lua.namesInCode_rename (givesNames_given n hstem s)] at hy
  obtain ⟨x, hx, rfl⟩ := List.mem_map.mp hy
  cases hv : (given n stem s).get? x with
  | none =>
    rw [Lua.Renaming.image_of_get?_none hv]
    exact not_isLong_of_get?_given_none hx hv
  | some v =>
    have hle : (v.length : Int) ≤ n := hshort _ (Entries.mem_of_get? hv)
    rw [Lua.Renaming.image_of_get? hv, isLong, decide_eq_false_iff_not]
    exact Int.not_lt.mpr hle

/-- A numbered name ends in a digit, the keyword in a letter. -/
theorem not_keyword_suffix_shortName (stem : Text) (k : Nat) : ¬ keyword <:+ shortName stem k := by
  rintro ⟨before, h⟩
  obtain ⟨w, hw⟩ : ∃ w, keyword = w ++ ['n'] :=
    ⟨['f', 'u', 'n', 'c', 't', 'i', 'o'], by decide⟩
  have hlast := congrArg List.getLast? h
  rw [hw, shortName, ← List.append_assoc, List.getLast?_concat, List.getLast?_append] at hlast
  cases hd : (Text.decimal k).getLast? with
  | none =>
    rw [List.getLast?_eq_none_iff] at hd
    exact Nat.toDigits_ne_nil hd
  | some d =>
    rw [hd, Option.some_or, Option.some.injEq] at hlast
    have hdigit := Nat.isDigit_of_mem_toDigits (by decide) (by decide) (List.mem_of_getLast? hd)
    rw [← hlast] at hdigit
    revert hdigit
    decide

/-- Where the names given are short, the renamed text declares no long name that was not declared
before. -/
theorem declares_of_declares_rename_given {n : Int} {stem : Text} (hstem : Lua.isName stem = true)
    {s d : Text} (hshort : ∀ e ∈ given n stem s, (e.2.length : Int) ≤ n) (hd : n < d.length)
    (h : Lua.Declares (rename (given n stem s) s) d) : Lua.Declares s d := by
  refine Lua.declares_of_declares_rename (givesNames_given n hstem s) ?_ ?_ h
  · rintro ⟨x, v⟩ he
    obtain ⟨-, -, k, -, rfl⟩ := mem_given he
    exact not_keyword_suffix_shortName stem _
  · rintro e he rfl
    exact absurd hd (Int.not_lt.mpr (hshort e he))

theorem LastAt.map {ts : List Text} {x : Text} {k : Nat} (h : LastAt ts x k) {f : Text → Text}
    (hf : ∀ y ∈ ts, f y = f x → y = x) : LastAt (ts.map f) (f x) k := by
  refine ⟨by rw [List.getElem?_map, h.1, Option.map_some], fun j hj he => ?_⟩
  rw [List.getElem?_map, Option.map_eq_some_iff] at he
  obtain ⟨y, hy, hyx⟩ := he
  exact h.2 j hj (hf y (List.mem_of_getElem? hy) hyx ▸ hy)

/-- Where no short name is a token already, a second renaming gives the short names themselves. -/
theorem image_given_rename_given {n : Int} {stem : Text} (hstem : Lua.isName stem = true) {s : Text}
    (hfree : ∀ y ∈ names s, ∀ x, ¬ (given n stem s).Captures x y) :
    ∀ y ∈ names (rename (given n stem s) s),
      (given n stem (rename (given n stem s) s)).image y = y := by
  have hgives := givesNames_given n hstem s
  have hnames := Lua.names_rename hgives s
  intro y _
  cases hw : (given n stem (rename (given n stem s) s)).get? y with
  | none => exact Lua.Renaming.image_of_get?_none hw
  | some w =>
    rw [Lua.Renaming.image_of_get? hw]
    obtain ⟨hy, hlong, k, hk, rfl⟩ := (get?_given _ _ _ _ _).mp hw
    rw [Lua.namesInCode_rename hgives] at hy
    obtain ⟨x, hx, rfl⟩ := List.mem_map.mp hy
    cases hv : (given n stem s).get? x with
    | none =>
      -- an unchanged name of the code is not long
      rw [Lua.Renaming.image_of_get?_none hv, not_isLong_of_get?_given_none hx hv] at hlong
      cases hlong
    | some v =>
      obtain ⟨-, -, j, hj, he⟩ := (get?_given n stem s x v).mp hv
      have hsame : ∀ z ∈ names s, (given n stem s).image z = (given n stem s).image x → z = x := by
        intro z hz hzx
        rcases (Lua.Renaming.image_eq_image_iff (fun _ _ _ => given_injective) z x).mp hzx with
          h | h | h
        · exact h
        · exact absurd h (hfree x (mem_names_of_mem_namesInCode hx) z)
        · exact absurd h (hfree z hz x)
      have hlast := hj.map hsame
      rw [← hnames] at hlast
      rw [Lua.Renaming.image_of_get? hv] at hk hlast ⊢
      rw [hk.place_unique hlast, he]

/-- A second pass changes nothing if the short names are not long, and then no long name is left in
the code, or if no token was spelled like a short name before it was given. -/
theorem settled_by_one_pass (n : Int) {stem : Text} (hstem : Lua.isName stem = true) (s : Text)
    (notes notes' : Notes) :
    let out := ((Stage.variableNames n stem).apply notes s).text
    let second := (Stage.variableNames n stem).apply notes' out
    ((∀ e ∈ given n stem s, (e.2.length : Int) ≤ n) →
      (∀ p x, Lua.TokenAt out p x → n < x.length → Lua.InLiteral out p) ∧
        second.text = out ∧ second.hits = 0) ∧
    ((∀ y ∈ names s, ∀ x, ¬ (given n stem s).Captures x y) → second.text = out) := by
  intro out second
  have hout : out = rename (given n stem s) s := simplify_text n stem s
  have htext : second.text = rename (given n stem out) out := simplify_text n stem out
  constructor
  · intro hshort
    have hnone : given n stem out = [] := hout ▸ given_rename_given hstem hshort
    refine ⟨fun p x hx hlong => ?_, ?_, ?_⟩
    · by_contra hp
      have hcode : x ∈ namesInCode out := (Lua.mem_namesInCode_iff out x).mpr ⟨p, hx, hp⟩
      have hget : (given n stem out).get? x = none := by rw [hnone, Entries.get?_nil]
      exact absurd hlong (of_decide_eq_false (not_isLong_of_get?_given_none hcode hget))
    · rw [htext, hnone, Lua.rename_nil]
    · simp only [second, Stage.apply, simplify, hnone, List.isEmpty_nil, if_true]
  · intro hfree
    rw [htext]
    refine Lua.rename_of_image_eq fun y hy => ?_
    rw [hout] at hy ⊢
    exact image_given_rename_given hstem hfree y hy

/-- Short names that are not long, and long ones of which one was a name to be renamed itself. -/
theorem settled_by_one_pass_of_short_and_long :
    let s : Text := "name = 'name' .. other"
    let out := ((Stage.variableNames 3 "v").apply ⟨none, none⟩ s).text
    let t : Text := "ab x1"
    let out' := ((Stage.variableNames 1 "x").apply ⟨none, none⟩ t).text
    (Lua.isName "v" = true ∧ Lua.isName "x" = true ∧
      (∀ e ∈ given 3 "v" s, (e.2.length : Int) ≤ 3) ∧
      ∀ y ∈ names t, ∀ x, ¬ (given 1 "x" t).Captures x y) ∧
    ((Stage.variableNames 3 "v").apply ⟨none, none⟩ out).hits = 0 ∧
    ((Stage.variableNames 1 "x").apply ⟨none, none⟩ out').text = out' := by
  intro s out t out'
  have hv : Lua.isName "v" = true := by decide
  have hx : Lua.isName "x" = true := by decide
  have hshort : ∀ e ∈ given 3 "v" s, (e.2.length : Int) ≤ 3 := by decide +kernel
  have hfree : ∀ y ∈ names t, ∀ x, ¬ (given 1 "x" t).Captures x y := by
    have hrenamed : ∀ y ∈ names t, (given 1 "x" t).get? y ≠ none := by decide +kernel
    exact fun y hy x h => hrenamed y hy h.2
  exact ⟨⟨hv, hx, hshort, hfree⟩,
    ((settled_by_one_pass 3 hv s ⟨none, none⟩ ⟨none, none⟩).1 hshort).2.2,
    (settled_by_one_pass 1 hx t ⟨none, none⟩ ⟨none, none⟩).2 hfree⟩

end LuaTidy.Variables
