import LuaTidy.Proofs.Lua.TokenPlaces
import LuaTidy.Proofs.Pipeline.StageHits

/-!
The function stage by declarations and their places: it passes over none, numbers the long names in
the order of their first declarations, and leaves none of them in the text, whatever an earlier
renaming made of them.
-/
namespace LuaTidy.Functions
open Lua (DeclaresAt Spaced TokenAt declarations header keyword names placedDeclarations)
open Text (FirstBefore Lists)

/-- The name in a declaration is a token: blanks precede it, and a blank or the parenthesis follows
it. -/
theorem tokenAt_header {gap d space : Text} (h : Spaced gap d space) (before after : Text) :
    TokenAt (before ++ (header gap d space ++ after))
      (before.length + keyword.length + gap.length) d := by
  refine ⟨before ++ (keyword ++ gap), space ++ '(' :: after, ?_, ?_, h.name, ?_, ?_⟩
  · rw [Lua.header_append]
    simp only [List.append_assoc]
  · simp only [List.length_append, Nat.add_assoc]
  · intro c hc
    rw [← List.append_assoc, List.getLast?_append_of_ne_nil _ h.gap_ne_nil] at hc
    exact Text.not_isWordChar_of_isBlank (h.gap_blank c (List.mem_of_getLast? hc))
  · exact Lua.head?_space_not_word h.space_blank

theorem mem_declared_iff (n : Int) (source d : Text) :
    d ∈ longNames n (declarations source) ↔ n < d.length ∧ ∃ p, DeclaresAt source p d := by
  rw [mem_longNames_declarations, Lua.declares_iff, and_comm]

theorem pairwise_declared (n : Int) (source : Text) :
    (longNames n (declarations source)).Pairwise (FirstBefore (DeclaresAt source)) := by
  have hfirst := pairwise_longNames n (declarations source)
  rw [← Lua.map_snd_placedDeclarations] at hfirst ⊢
  exact hfirst.imp fun h => (Lua.lists_placedDeclarations source).firstBefore h

theorem mem_numbering {n : Int} {stem : Text} {ds : List Text} {d v : Text}
    (h : (d, v) ∈ numbering n stem ds) :
    ∃ k, 1 ≤ k ∧ k ≤ (longNames n ds).length ∧ v = Variables.shortName stem k := by
  have hget := Entries.get?_of_mem (nodup_keys_numbering n stem ds) h
  obtain ⟨i, hi, rfl⟩ := (get?_numbering n stem ds d v).mp hget
  exact ⟨i + 1, Nat.succ_pos i, (List.getElem?_eq_some_iff.mp hi).1, rfl⟩

theorem givesNames_withAliases (n : Int) {stem : Text} (hstem : Lua.isName stem = true)
    (ds : List Text) (earlier : Lua.Renaming) :
    (withAliases earlier (numbering n stem ds)).GivesNames := by
  rintro ⟨x, v⟩ he
  obtain ⟨d, hd⟩ := mem_withAliases he
  obtain ⟨k, -, -, rfl⟩ := mem_numbering hd
  exact Variables.isName_shortName hstem k

/-- The tokens of the renamed text are the new names of those that were there. -/
theorem names_simplify (n : Int) {stem : Text} (hstem : Lua.isName stem = true) (source : Text)
    (earlier : Lua.Renaming) (s : Text) :
    names (simplify n stem source earlier s).text =
      (names s).map (withAliases earlier (numbering n stem (declarations source))).image := by
  rw [simplify_text, Lua.names_rename (givesNames_withAliases n hstem _ earlier)]

/-- A long declared name takes its number, unless an earlier renaming gave it to a function. -/
theorem image_of_declared {n : Int} {stem : Text} {ds : List Text} {k : Nat} {d : Text}
    (hk : (longNames n ds)[k]? = some d) {earlier : Lua.Renaming}
    (hother : ∀ f ∈ longNames n ds, earlier.get? f ≠ some d) :
    (withAliases earlier (numbering n stem ds)).image d = Variables.shortName stem (k + 1) := by
  have hfree : ∀ f, earlier.get? f = some d → (numbering n stem ds).get? f = none := by
    intro f hf
    rw [Entries.get?_eq_none_iff, keys_numbering]
    exact fun hmem => hother f hmem hf
  apply Lua.Renaming.image_of_get?
  rw [get?_withAliases_of_not_alias hfree]
  exact (get?_numbering n stem ds d _).mpr ⟨k, hk, rfl⟩

/-- A new name is not long, and a long declared name is given a new one. -/
theorem image_not_mem_declared {n : Int} {stem : Text} {ds : List Text}
    (hshort : ∀ k, 1 ≤ k → k ≤ (longNames n ds).length →
      ((Variables.shortName stem k).length : Int) ≤ n) (earlier : Lua.Renaming) (x : Text) :
    (withAliases earlier (numbering n stem ds)).image x ∉ longNames n ds := by
  cases hv : (withAliases earlier (numbering n stem ds)).get? x with
  | some v =>
    obtain ⟨d, hd⟩ := mem_withAliases (Entries.mem_of_get? hv)
    obtain ⟨k, hk, hle, rfl⟩ := mem_numbering hd
    rw [Lua.Renaming.image_of_get? hv, mem_longNames, Variables.isLong, decide_eq_true_iff]
    exact fun h => absurd h.2 (Int.not_lt.mpr (hshort k hk hle))
  | none =>
    rw [Lua.Renaming.image_of_get?_none hv]
    intro hx
    rw [← keys_numbering n stem] at hx
    exact (Entries.get?_eq_none_iff _ x).mp hv (mem_keys_withAliases hx earlier)

/-- Every declaration is read, wherever one begins; the long declared names, in the order of their
first declarations, are numbered from one; and where the numbered names are short, no token is left
that is a long declared name. A token of that kind takes its number, but for one that an earlier
renaming gave to a function. -/
theorem declared_long_names_replaced (n : Int) (stem source : Text) (earlier : Lua.Renaming)
    (s : Text) :
    let declared := longNames n (declarations source)
    let r := simplify n stem source earlier s
    (Lists (DeclaresAt source) (placedDeclarations source) ∧
      declarations source = (placedDeclarations source).map Prod.snd) ∧
    (∀ before gap d space after, Spaced gap d space →
      source = before ++ (header gap d space ++ after) →
      TokenAt source (before.length + keyword.length + gap.length) d) ∧
    (∀ d, d ∈ declared ↔ n < d.length ∧ ∃ p, DeclaresAt source p d) ∧
    declared.Pairwise (FirstBefore (DeclaresAt source)) ∧
    r.hits = (if declared = [] then 0 else 1) ∧
    r.given = (declared.zipIdx 1).map (fun e => (e.1, stem ++ Text.decimal e.2)) ∧
    (Lua.isName stem = true →
      (∀ (i k : Nat) (d : Text), (names s)[i]? = some d → declared[k]? = some d →
        (∀ f ∈ declared, earlier.get? f ≠ some d) →
        (names r.text)[i]? = some (stem ++ Text.decimal (k + 1))) ∧
      ((∀ k, 1 ≤ k → k ≤ declared.length → ((stem ++ Text.decimal k).length : Int) ≤ n) →
        ∀ x ∈ names r.text, x ∉ declared)) := by
  intro declared r
  refine ⟨⟨Lua.lists_placedDeclarations source, (Lua.map_snd_placedDeclarations source).symm⟩, ?_,
    mem_declared_iff n source, pairwise_declared n source, ?_, ?_, fun hstem => ?_⟩
  · rintro before gap d space after h rfl
    exact tokenAt_header h before after
  · simp only [r, declared, simplify_hits, isEmpty_numbering]
  · exact (simplify_given n stem source earlier s).trans (numbering_eq n stem _)
  · have hnames := names_simplify n hstem source earlier s
    constructor
    · intro i k d hi hk hother
      rw [hnames, List.getElem?_map, hi, Option.map_some, image_of_declared hk hother]
      rfl
    · intro hshort x hx
      rw [hnames] at hx
      obtain ⟨y, -, rfl⟩ := List.mem_map.mp hx
      exact image_not_mem_declared hshort earlier y

/-- An earlier renaming gave one declared name to the other, whose own number it hides. -/
theorem declared_long_names_replaced_under_alias :
    let source : Text := "function alpha() prefunction  beta ( function alpha ("
    let declared := longNames 3 (declarations source)
    let r := simplify 3 "f" source [("alpha", "beta")] "beta(alpha, gamma)"
    (Lua.isName "f" = true ∧
      ∀ k, 1 ≤ k → k ≤ declared.length → (("f" ++ Text.decimal k : Text).length : Int) ≤ 3) ∧
    names r.text = [("f1" : Text), ("f1" : Text), ("gamma" : Text)] ∧
      ∀ x ∈ names r.text, x ∉ declared := by
  intro source declared r
  have hstem : Lua.isName "f" = true := by decide
  have hlength : declared.length = 2 := by decide
  have hshort : ∀ k, 1 ≤ k → k ≤ declared.length →
      (("f" ++ Text.decimal k : Text).length : Int) ≤ 3 := by
    intro k hk hle
    rw [hlength] at hle
    obtain rfl | rfl : k = 1 ∨ k = 2 := by omega
    · decide
    · decide
  have hleft := (declared_long_names_replaced 3 "f" source [("alpha", "beta")]
    "beta(alpha, gamma)").2.2.2.2.2.2 hstem
  exact ⟨⟨hstem, hshort⟩, by decide, hleft.2 hshort⟩

end LuaTidy.Functions
