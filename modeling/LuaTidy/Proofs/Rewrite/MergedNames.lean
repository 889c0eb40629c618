import LuaTidy.Proofs.Rewrite.FunctionNumbering
import LuaTidy.Proofs.Rewrite.VariableNumbering

/-!
When two tokens of a text become one name: a renaming that keeps names apart merges two of them only
where the new name of one is that of the other, which keeps it.
-/
namespace LuaTidy.Lua.Renaming
open Functions (KeepsApart)

/-- The new name of `x` is `y`, a name that is not renamed. -/
def Captures (m : Renaming) (x y : Text) : Prop := m.get? x = some y ∧ m.get? y = none

theorem image_eq_image_iff {m : Renaming} (hm : KeepsApart m) (x y : Text) :
    m.image x = m.image y ↔ x = y ∨ m.Captures x y ∨ m.Captures y x := by
  constructor
  · intro h
    cases hx : m.get? x with
    | none =>
      cases hy : m.get? y with
      | none =>
        rw [image_of_get?_none hx, image_of_get?_none hy] at h
        exact Or.inl h
      | some w =>
        rw [image_of_get?_none hx, image_of_get? hy] at h
        exact Or.inr (Or.inr ⟨h ▸ hy, hx⟩)
    | some v =>
      cases hy : m.get? y with
      | none =>
        rw [image_of_get? hx, image_of_get?_none hy] at h
        exact Or.inr (Or.inl ⟨h ▸ hx, hy⟩)
      | some w =>
        rw [image_of_get? hx, image_of_get? hy] at h
        exact Or.inl (hm x y v hx (h ▸ hy))
  · rintro (rfl | ⟨hx, hy⟩ | ⟨hy, hx⟩)
    · rfl
    · rw [image_of_get? hx, image_of_get?_none hy]
    · rw [image_of_get?_none hx, image_of_get? hy]

end LuaTidy.Lua.Renaming

namespace LuaTidy.Variables
open Lua (names)

/-- Every token becomes its new name. Two tokens that differ become one name only where the short
name that one of them is given is the other one, and that one is not renamed; no two names are given
one short name. -/
theorem merged_only_by_capture (n : Int) {stem : Text} (hstem : Lua.isName stem = true) (s : Text) :
    let r := simplify n stem s
    (names r.text).length = (names s).length ∧
      (∀ (i : Nat) (x : Text), (names s)[i]? = some x →
        (names r.text)[i]? = some (r.given.image x)) ∧
      (∀ (i j : Nat) (x y : Text), (names s)[i]? = some x → (names s)[j]? = some y →
        ((names r.text)[i]? = (names r.text)[j]? ↔
          x = y ∨ r.given.Captures x y ∨ r.given.Captures y x)) ∧
      ∀ x y v, r.given.get? x = some v → r.given.get? y = some v → x = y := by
  intro r
  have hgiven : r.given = given n stem s := simplify_given n stem s
  have hapart : Functions.KeepsApart r.given := fun x y v hx hy =>
    given_injective (hgiven ▸ hx) (hgiven ▸ hy)
  have hnames : names r.text = (names s).map r.given.image := by
    rw [hgiven, simplify_text, Lua.names_rename (givesNames_given n hstem s)]
  have htoken : ∀ (i : Nat) (x : Text), (names s)[i]? = some x →
      (names r.text)[i]? = some (r.given.image x) := by
    intro i x hx
    rw [hnames, List.getElem?_map, hx, Option.map_some]
  refine ⟨by rw [hnames, List.length_map], htoken, fun i j x y hx hy => ?_, hapart⟩
  rw [htoken i x hx, htoken j y hy, Option.some.injEq]
  exact Lua.Renaming.image_eq_image_iff hapart x y

/-- The short name that the last token is given is the first token already. -/
theorem merged_only_by_capture_of_first_token :
    let s : Text := "v2 = name"
    let r := simplify 3 "v" s
    (Lua.isName "v" = true ∧ (names s)[0]? = some ("v2" : Text) ∧
      (names s)[1]? = some ("name" : Text)) ∧ (names r.text)[0]? = (names r.text)[1]? := by
  intro s r
  have hstem : Lua.isName "v" = true := by decide
  have hfirst : (names s)[0]? = some ("v2" : Text) := by decide +kernel
  have hlast : (names s)[1]? = some ("name" : Text) := by decide +kernel
  have hcaptures : r.given.Captures "name" "v2" :=
    ⟨(by decide +kernel : r.given.get? "name" = some ("v2" : Text)), by decide +kernel⟩
  exact ⟨⟨hstem, hfirst, hlast⟩, ((merged_only_by_capture 3 hstem s).2.2.1 0 1 _ _ hfirst hlast).mpr
    (Or.inr (Or.inr hcaptures))⟩

end LuaTidy.Variables
