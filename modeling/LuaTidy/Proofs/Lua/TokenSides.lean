import LuaTidy.Proofs.Lua.TokenPlaces

/-!
On which side of the quotes the tokens of a text begin: inside a literal, or outside all of them.
A renaming moves the tokens to other places, and the literals with them, so that every token stays
on its side.
-/
namespace LuaTidy.Lua
open Text (Lists Nth)

/-- The search among the spans finds whether a place is in a literal. -/
theorem insideSpan_iff_inLiteral (s : Text) (p : Nat) :
    insideSpan (literalSpans s) p = true ↔ InLiteral s p := by
  have hsearch := insideSpan_iff (inOrder_extentsFrom literal? 0 s) p
  simpa only [InLiteral, literalSpans, List.mem_toArray] using hsearch

theorem nth_shadedNames_iff (s : Text) (i : Nat) (x : Text) (inside : Bool) :
    Nth (shadedNames s) i (x, inside) ↔
      ∃ p, Nth (placedNames s) i (p, x) ∧ insideSpan (literalSpans s) p = inside := by
  simp only [Nth, shadedNames, List.getElem?_map, Option.map_eq_some_iff, Prod.exists,
    Prod.mk.injEq]
  constructor
  · rintro ⟨p, y, hp, rfl, hinside⟩
    exact ⟨p, hp, hinside⟩
  · rintro ⟨p, hp, hinside⟩
    exact ⟨p, x, hp, rfl, hinside⟩

theorem length_placedNames_rename {m : Renaming} (hm : m.GivesNames) (s : Text) :
    (placedNames (rename m s)).length = (placedNames s).length := by
  have hshades := congrArg List.length (shadedNames_rename hm s)
  simpa only [shadedNames, List.length_map] using hshades

/-- Where new names are names again, a renamed text has as many tokens as the text, each of them the
new name of the token with the same number, and each begins inside a literal exactly if that one
does. The tokens of both texts are numbered as they stand, from left to right. -/
theorem tokens_keep_sides {m : Renaming} (hm : m.GivesNames) (s : Text) :
    Lists (TokenAt s) (placedNames s) ∧ Lists (TokenAt (rename m s)) (placedNames (rename m s)) ∧
      (placedNames (rename m s)).length = (placedNames s).length ∧
      ∀ i p x, Nth (placedNames s) i (p, x) → ∃ q, Nth (placedNames (rename m s)) i (q, m.image x) ∧
        insideSpan (literalSpans (rename m s)) q = insideSpan (literalSpans s) p ∧
        (InLiteral (rename m s) q ↔ InLiteral s p) := by
  refine ⟨lists_placedNames s, lists_placedNames _, length_placedNames_rename hm s, ?_⟩
  intro i p x hx
  have hshade : Nth (shadedNames s) i (x, insideSpan (literalSpans s) p) :=
    (nth_shadedNames_iff ..).mpr ⟨p, hx, rfl⟩
  have hrenamed : Nth (shadedNames (rename m s)) i (m.image x, insideSpan (literalSpans s) p) := by
    rw [Nth] at hshade
    rw [Nth, shadedNames_rename hm, List.getElem?_map, hshade, Option.map_some]
  obtain ⟨q, hq, hinside⟩ := (nth_shadedNames_iff ..).mp hrenamed
  refine ⟨q, hq, hinside, ?_⟩
  rw [← insideSpan_iff_inLiteral, ← insideSpan_iff_inLiteral, hinside]

/-- A token that begins behind a backslash, one between quotes of the other kind, and two outside all
literals, the last of them behind a quote that is never closed. -/
theorem tokens_keep_sides_behind_backslash :
    let s : Text := "\"\\alpha 'beta\" alpha 'gamma"
    let m : Renaming := [("alpha", "b"), ("gamma", "gamma_ray")]
    let t := rename m s
    m.GivesNames ∧ t = ("\"\\b 'beta\" b 'gamma_ray" : Text) ∧
      (∃ q, Nth (placedNames t) 0 (q, "b") ∧ insideSpan (literalSpans t) q = true) ∧
      (∃ q, Nth (placedNames t) 2 (q, "b") ∧ insideSpan (literalSpans t) q = false) ∧
      ∃ q, Nth (placedNames t) 3 (q, "gamma_ray") ∧ insideSpan (literalSpans t) q = false := by
  intro s m t
  have hm : m.GivesNames := by
    rw [Renaming.GivesNames]
    decide
  obtain ⟨-, -, -, hsides⟩ := tokens_keep_sides hm s
  have hplaces : placedNames s =
      ([(2, "alpha"), (9, "beta"), (15, "alpha"), (22, "gamma")] : List (Nat × Text)) := by
    decide +kernel
  have hinside : insideSpan (literalSpans s) 2 = true ∧ insideSpan (literalSpans s) 15 = false ∧
      insideSpan (literalSpans s) 22 = false := by decide +kernel
  obtain ⟨q₀, hq₀, hside₀, -⟩ := hsides 0 2 "alpha" (by rw [Nth, hplaces]; rfl)
  obtain ⟨q₂, hq₂, hside₂, -⟩ := hsides 2 15 "alpha" (by rw [Nth, hplaces]; rfl)
  obtain ⟨q₃, hq₃, hside₃, -⟩ := hsides 3 22 "gamma" (by rw [Nth, hplaces]; rfl)
  refine ⟨hm, by decide +kernel, ⟨q₀, hq₀, ?_⟩, ⟨q₂, hq₂, ?_⟩, q₃, hq₃, ?_⟩
  · rw [hside₀, hinside.1]
  · rw [hside₂, hinside.2.1]
  · rw [hside₃, hinside.2.2]

end LuaTidy.Lua
