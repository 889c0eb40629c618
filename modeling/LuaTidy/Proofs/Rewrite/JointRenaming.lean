import LuaTidy.Pipeline.Stage
import LuaTidy.Proofs.Rewrite.FunctionNumbering
import LuaTidy.Proofs.Rewrite.VariableNumbering

/-!
The variable stage and the function stage after it number differently and read different texts.
Unless a short variable name was in use before, the two rename like one renaming: a declared long
name gets its function name wherever it stands, and the variable stage decides on the other names.
-/
namespace LuaTidy.JointRenaming
open Functions
open Variables (given given_injective givesNames_given nodup_keys_given shortName)

/-- Both stages at once: where both rename a name, the function stage decides. -/
def joint (n : Int) (functionStem variableStem source s : Text) : Lua.Renaming :=
  numbering n functionStem (Lua.declarations source) ++ given n variableStem s

variable {n : Int} {functionStem variableStem source s : Text}

theorem joint_image_declared {i : Nat} {d : Text}
    (h : (longNames n (Lua.declarations source))[i]? = some d) :
    (joint n functionStem variableStem source s).image d = shortName functionStem (i + 1) := by
  apply Lua.Renaming.image_of_get?
  rw [joint, Entries.get?_append, (get?_numbering n functionStem _ d _).mpr ⟨i, h, rfl⟩,
    Option.some_or]

private theorem get?_numbering_of_not_mem {x : Text}
    (h : x ∉ longNames n (Lua.declarations source)) :
    (numbering n functionStem (Lua.declarations source)).get? x = none := by
  rwa [Entries.get?_eq_none_iff, keys_numbering]

theorem joint_image_other {x : Text} (h : x ∉ longNames n (Lua.declarations source)) :
    (joint n functionStem variableStem source s).image x = (given n variableStem s).image x := by
  rw [Lua.Renaming.image, joint, Entries.get?_append, get?_numbering_of_not_mem h, Option.none_or,
    Lua.Renaming.image]

/-- The names noted by the variable stage, where none were noted before it. -/
private theorem noted_get? (x : Text) :
    (((Stage.variableNames n variableStem).apply ⟨some source, some []⟩ s).notes.renamed.getD
      []).get? x = (given n variableStem s).get? x := by
  simp only [Stage.apply, Variables.simplify_given]
  split
  · next h => rw [List.isEmpty_iff.mp h, Option.getD_some]
  · rw [Option.getD_some, Entries.get?_update _ (nodup_keys_given n variableStem s),
      Option.getD_some, Entries.get?_nil, Option.or_none]

/-- What the function stage makes of the name that the variable stage left. -/
private theorem image_withAliases {earlier : Lua.Renaming}
    (he : ∀ x, earlier.get? x = (given n variableStem s).get? x)
    (fresh : ∀ e ∈ given n variableStem s,
      e.2 ∉ Lua.names s ∧ e.2 ∉ longNames n (Lua.declarations source))
    {x : Text} (hx : x ∈ Lua.names s) :
    (withAliases earlier (numbering n functionStem (Lua.declarations source))).image
        ((given n variableStem s).image x) =
      (joint n functionStem variableStem source s).image x := by
  have hapart : KeepsApart earlier := fun y z v hy hz =>
    given_injective ((he y).symm.trans hy) ((he z).symm.trans hz)
  have hnodup := nodup_keys_numbering n functionStem (Lua.declarations source)
  cases hv : (given n variableStem s).get? x with
  | some v =>
    rw [Lua.Renaming.image_of_get? hv]
    by_cases hd : x ∈ longNames n (Lua.declarations source)
    · obtain ⟨i, hi⟩ := List.getElem?_of_mem hd
      have hget := (get?_numbering n functionStem _ x _).mpr ⟨i, hi, rfl⟩
      rw [joint_image_declared hi]
      exact Lua.Renaming.image_of_get?
        (get?_withAliases_of_alias hapart hnodup ((he x).trans hv) hget)
    · have hfree := (fresh _ (Entries.mem_of_get? hv)).2
      have hother : ∀ d, earlier.get? d = some v →
          (numbering n functionStem (Lua.declarations source)).get? d = none := by
        intro d hdv
        rw [he d] at hdv
        rw [given_injective hdv hv]
        exact get?_numbering_of_not_mem hd
      rw [joint_image_other hd, Lua.Renaming.image_of_get? hv]
      apply Lua.Renaming.image_of_get?_none
      rw [get?_withAliases_of_not_alias hother]
      exact get?_numbering_of_not_mem hfree
  | none =>
    -- a token of the text is no short name, so that no alias is spelled like it
    have hother : ∀ d, earlier.get? d = some x →
        (numbering n functionStem (Lua.declarations source)).get? d = none := by
      intro d hdx
      rw [he d] at hdx
      exact absurd hx (fresh _ (Entries.mem_of_get? hdx)).1
    rw [Lua.Renaming.image_of_get?_none hv, Lua.Renaming.image,
      get?_withAliases_of_not_alias hother, Lua.Renaming.image, joint,
      Entries.get?_append, hv, Option.or_none]

/-- Two renaming stages are one simultaneous renaming, if no short variable name is a token of the
text or a declared long name. -/
theorem stages_rename_jointly (n : Int) (functionStem variableStem source s : Text)
    (hstem : Lua.isName variableStem = true)
    (fresh : ∀ e ∈ given n variableStem s,
      e.2 ∉ Lua.names s ∧ e.2 ∉ longNames n (Lua.declarations source)) :
    let first := (Stage.variableNames n variableStem).apply ⟨some source, some []⟩ s
    let second := (Stage.functionNames n functionStem).apply first.notes first.text
    let m := joint n functionStem variableStem source s
    second.text = Lua.rename m s ∧
      (∀ i d, (longNames n (Lua.declarations source))[i]? = some d →
        m.image d = functionStem ++ Text.decimal (i + 1)) ∧
      ∀ x, x ∉ longNames n (Lua.declarations source) →
        m.image x = (given n variableStem s).image x := by
  intro first second m
  refine ⟨?_, fun i d h => joint_image_declared h, fun x h => joint_image_other h⟩
  have hfirst : first.text = Lua.rename (given n variableStem s) s := by
    simp only [first, Stage.apply, Variables.simplify_text]
  have hsource : first.notes.source = some source := rfl
  simp only [second, Stage.apply, hsource, Option.getD_some, Functions.simplify_text, hfirst]
  exact Lua.rename_rename (givesNames_given n hstem s)
    (fun x hx => image_withAliases noted_get? fresh hx)

/-- One declared name has an alias, the other one stands in a literal only. -/
theorem stages_rename_jointly_alias_and_literal :
    let source : Text := "function decl() function lone ()"
    let s : Text := "decl = name .. 'lone'"
    let first := (Stage.variableNames 3 "v_").apply ⟨some source, some []⟩ s
    let second := (Stage.functionNames 3 "f_").apply first.notes first.text
    (∀ e ∈ given 3 "v_" s, e.2 ∉ Lua.names s ∧ e.2 ∉ longNames 3 (Lua.declarations source)) ∧
      second.text = ("f_1 = v_2 .. 'f_2'" : Text) := by
  intro source s first second
  have fresh : ∀ e ∈ given 3 "v_" s,
      e.2 ∉ Lua.names s ∧ e.2 ∉ longNames 3 (Lua.declarations source) := by decide +kernel
  refine ⟨fresh, ?_⟩
  rw [(stages_rename_jointly 3 "f_" "v_" source s (by decide) fresh).1]
  decide +kernel

end LuaTidy.JointRenaming
