import LuaTidy.Rewrite.Names
import LuaTidy.Proofs.Lua.TokenRenaming
import LuaTidy.Proofs.Text.Places
import Mathlib.Data.List.Induction
import Mathlib.Data.List.Nodup

/-!
Declared long names are numbered without gaps in the order of their first declarations. The names
that an earlier renaming gave them stand for them: when that renaming kept names apart, each one
leads to the function it was given for and to no other.
-/
namespace LuaTidy.Functions

open Variables (isLong shortName)
open Text (FirstBefore Nth)

/-- The long names among declared ones, each once, in the order of their first declarations. -/
def longNames (n : Int) (declared : List Text) : List Text := (declared.filter (isLong n)).eraseDups

theorem mem_longNames (n : Int) (ds : List Text) (d : Text) :
    d ∈ longNames n ds ↔ d ∈ ds ∧ isLong n d = true := by
  simp [longNames, List.mem_eraseDups, List.mem_filter]

private theorem eraseDups_concat (ds : List Text) (d : Text) :
    (ds ++ [d]).eraseDups = if d ∈ ds then ds.eraseDups else ds.eraseDups ++ [d] := by
  rw [List.eraseDups_append]
  by_cases hm : d ∈ ds
  · simp [List.removeAll, hm]
  · simp [List.removeAll, hm, List.eraseDups_cons]

theorem longNames_concat (n : Int) (ds : List Text) (d : Text) :
    longNames n (ds ++ [d]) =
      if isLong n d = true ∧ d ∉ longNames n ds then longNames n ds ++ [d] else longNames n ds := by
  have hm : d ∈ ds.filter (isLong n) ↔ d ∈ longNames n ds := List.mem_eraseDups.symm
  cases hd : isLong n d with
  | false => simp [longNames, hd]
  | true =>
    have hf : (ds ++ [d]).filter (isLong n) = ds.filter (isLong n) ++ [d] := by simp [hd]
    rw [longNames, hf, eraseDups_concat]
    by_cases h : d ∈ longNames n ds
    · simp [hm.mpr h, longNames]
    · simp [mt hm.mp h, longNames]

theorem nodup_longNames (n : Int) (ds : List Text) : (longNames n ds).Nodup :=
  Entries.nodup_eraseDups _

/-- The long names come in the order of their first declarations. -/
theorem pairwise_longNames (n : Int) (ds : List Text) :
    (longNames n ds).Pairwise (FirstBefore (Nth ds)) := by
  induction ds using List.reverseRecOn with
  | nil => exact List.Pairwise.nil
  | append_singleton ds d ih =>
    have hkept := ih.imp fun h => h.concat d
    rw [longNames_concat]
    split
    · next hd =>
      refine List.pairwise_append.mpr ⟨hkept, List.pairwise_singleton _ _, ?_⟩
      rintro x hx y hy
      obtain rfl := List.mem_singleton.mp hy
      have hnew : y ∉ ds := fun hy => hd.2 ((mem_longNames n ds y).mpr ⟨hy, hd.1⟩)
      exact Text.firstBefore_concat ((mem_longNames n ds x).mp hx).1 hnew
    · exact hkept

private theorem numbering_concat (n : Int) (stem : Text) (ds : List Text) (d : Text) :
    numbering n stem (ds ++ [d]) =
      if isLong n d = true ∧ d ∉ (numbering n stem ds).keys then
        numbering n stem ds ++ [(d, shortName stem ((numbering n stem ds).length + 1))]
      else numbering n stem ds := by
  simp only [numbering, List.foldl_append, List.foldl_cons, List.foldl_nil, Bool.and_eq_true,
    Option.isNone_iff_eq_none, Entries.get?_eq_none_iff]

theorem numbering_eq (n : Int) (stem : Text) (ds : List Text) :
    numbering n stem ds = ((longNames n ds).zipIdx 1).map fun e => (e.1, shortName stem e.2) := by
  induction ds using List.reverseRecOn with
  | nil => rfl
  | append_singleton ds d ih =>
    have hk : (numbering n stem ds).keys = longNames n ds := by
      rw [ih, Entries.keys, List.map_map]
      exact List.zipIdx_map_fst 1 _
    have hl : (numbering n stem ds).length = (longNames n ds).length := by simp [ih]
    rw [numbering_concat, longNames_concat, hk, hl]
    split
    · simp [ih, List.zipIdx_append, Nat.add_comm]
    · exact ih

theorem keys_numbering (n : Int) (stem : Text) (ds : List Text) :
    (numbering n stem ds).keys = longNames n ds := by
  rw [numbering_eq, Entries.keys, List.map_map]
  exact List.zipIdx_map_fst 1 _

theorem isEmpty_numbering (n : Int) (stem : Text) (ds : List Text) :
    (numbering n stem ds).isEmpty = true ↔ longNames n ds = [] := by
  rw [← keys_numbering n stem ds, Entries.keys, List.map_eq_nil_iff, List.isEmpty_iff]

theorem nodup_keys_numbering (n : Int) (stem : Text) (ds : List Text) :
    (numbering n stem ds).keys.Nodup := keys_numbering n stem ds ▸ nodup_longNames n ds

theorem get?_numbering (n : Int) (stem : Text) (ds : List Text) (d v : Text) :
    (numbering n stem ds).get? d = some v ↔
      ∃ i, (longNames n ds)[i]? = some d ∧ v = shortName stem (i + 1) := by
  rw [Entries.get?_eq_some_iff (nodup_keys_numbering n stem ds), numbering_eq, List.mem_map]
  constructor
  · rintro ⟨⟨x, k⟩, hx, he⟩
    obtain ⟨hk, hget⟩ := List.mk_mem_zipIdx_iff_le_and_getElem?_sub.mp hx
    cases he
    exact ⟨k - 1, hget, by rw [Nat.sub_add_cancel hk]⟩
  · rintro ⟨i, hi, rfl⟩
    exact ⟨(d, i + 1), List.mk_mem_zipIdx_iff_le_and_getElem?_sub.mpr ⟨by omega, by simpa using hi⟩,
      rfl⟩

/-- The names given by an earlier renaming to the old names of another one, with its new names. -/
def aliases (earlier m : Lua.Renaming) : Lua.Renaming :=
  m.filterMap fun e => (earlier.get? e.1).map fun other => (other, e.2)

theorem withAliases_eq_update (earlier m : Lua.Renaming) :
    withAliases earlier m = m.update (aliases earlier m) := by
  have hacc : ∀ acc : Lua.Renaming,
      m.foldl (fun acc e => (earlier.get? e.1).elim acc (Entries.insert acc · e.2)) acc =
        acc.update (aliases earlier m) := by
    induction m with
    | nil => intro acc; rfl
    | cons e m ih =>
      intro acc
      rw [List.foldl_cons, ih]
      cases h : earlier.get? e.1 with
      | none => simp [aliases, h]
      | some other => simp [aliases, h, Entries.update_cons]
  have hfold : withAliases earlier m =
      m.foldl (fun acc e => (earlier.get? e.1).elim acc (Entries.insert acc · e.2)) m := by
    rw [withAliases]
    congr
    funext acc e
    cases earlier.get? e.1 <;> rfl
  exact hfold.trans (hacc m)

/-- A renaming that keeps names apart: no new name is given twice. -/
def KeepsApart (m : Lua.Renaming) : Prop :=
  ∀ x y v, m.get? x = some v → m.get? y = some v → x = y

theorem mem_aliases (earlier m : Lua.Renaming) (k v : Text) :
    (k, v) ∈ aliases earlier m ↔ ∃ d, earlier.get? d = some k ∧ (d, v) ∈ m := by
  simp only [aliases, List.mem_filterMap, Option.map_eq_some_iff, Prod.mk.injEq]
  constructor
  · rintro ⟨⟨d, w⟩, hm, k', hk, rfl, rfl⟩
    exact ⟨d, hk, hm⟩
  · rintro ⟨d, hk, hm⟩
    exact ⟨(d, v), hm, k, hk, rfl, rfl⟩

/-- The aliases lead to the same new names. -/
theorem mem_withAliases {earlier m : Lua.Renaming} {k v : Text}
    (h : (k, v) ∈ withAliases earlier m) : ∃ d, (d, v) ∈ m := by
  rw [withAliases_eq_update] at h
  rcases Entries.mem_update h with h | h
  · exact ⟨k, h⟩
  · obtain ⟨d, -, hd⟩ := (mem_aliases earlier m k v).mp h
    exact ⟨d, hd⟩

theorem nodup_keys_aliases {earlier m : Lua.Renaming} (he : KeepsApart earlier)
    (hm : m.keys.Nodup) : (aliases earlier m).keys.Nodup := by
  induction m with
  | nil => exact List.nodup_nil
  | cons e m ih =>
    have hn := List.nodup_cons.mp hm
    cases h : earlier.get? e.1 with
    | none => simpa [aliases, h] using ih hn.2
    | some other =>
      have hout : other ∉ (aliases earlier m).keys := by
        intro hk
        obtain ⟨⟨k, v⟩, hmem, rfl⟩ := List.mem_map.mp hk
        obtain ⟨d, hd, hdm⟩ := (mem_aliases earlier m k v).mp hmem
        have hde : d = e.1 := he d e.1 k hd h
        exact hn.1 (hde ▸ List.mem_map.mpr ⟨(d, v), hdm, rfl⟩)
      simpa [aliases, h] using ⟨hout, ih hn.2⟩

theorem get?_aliases {earlier m : Lua.Renaming} (he : KeepsApart earlier) (hm : m.keys.Nodup)
    (k v : Text) :
    (aliases earlier m).get? k = some v ↔ ∃ d, earlier.get? d = some k ∧ m.get? d = some v := by
  rw [Entries.get?_eq_some_iff (nodup_keys_aliases he hm), mem_aliases]
  constructor
  · rintro ⟨d, hd, hmem⟩
    exact ⟨d, hd, Entries.get?_of_mem hm hmem⟩
  · rintro ⟨d, hd, hget⟩
    exact ⟨d, hd, Entries.mem_of_get? hget⟩

/-- The name given to a function earlier leads to its new name. -/
theorem get?_withAliases_of_alias {earlier m : Lua.Renaming} (he : KeepsApart earlier)
    (hm : m.keys.Nodup) {d k v : Text} (hd : earlier.get? d = some k) (hv : m.get? d = some v) :
    (withAliases earlier m).get? k = some v := by
  rw [withAliases_eq_update, Entries.get?_update m (nodup_keys_aliases he hm),
    (get?_aliases he hm k v).mpr ⟨d, hd, hv⟩, Option.some_or]

/-- A name that no function was given earlier keeps its own new name, if it has one. -/
theorem get?_withAliases_of_not_alias {earlier m : Lua.Renaming} {k : Text}
    (hk : ∀ d, earlier.get? d = some k → m.get? d = none) :
    (withAliases earlier m).get? k = m.get? k := by
  rw [withAliases_eq_update]
  refine Entries.get?_update_of_not_mem m fun hmem => ?_
  obtain ⟨⟨_, v⟩, he, rfl⟩ := List.mem_map.mp hmem
  obtain ⟨d, hd, hdv⟩ := (mem_aliases earlier m _ v).mp he
  exact (Entries.get?_eq_none_iff m d).mp (hk d hd) (List.mem_map_of_mem hdv)

/-- A name that was to be renamed is renamed, if not to its own new name. -/
theorem mem_keys_withAliases {m : Lua.Renaming} {d : Text} (hd : d ∈ m.keys)
    (earlier : Lua.Renaming) : d ∈ (withAliases earlier m).keys := by
  rw [withAliases_eq_update]
  exact Entries.mem_keys_update hd _

@[simp] theorem simplify_given (n : Int) (stem source : Text) (earlier : Lua.Renaming) (s : Text) :
    (simplify n stem source earlier s).given = numbering n stem (Lua.declarations source) := by
  simp only [simplify]
  split
  · next h => exact (List.isEmpty_iff.mp h).symm
  · rfl

theorem simplify_text (n : Int) (stem source : Text) (earlier : Lua.Renaming) (s : Text) :
    (simplify n stem source earlier s).text =
      Lua.rename (withAliases earlier (numbering n stem (Lua.declarations source))) s := by
  simp only [simplify]
  split
  · next h =>
    rw [List.isEmpty_iff.mp h]
    exact (Lua.rename_nil s).symm
  · rfl

end LuaTidy.Functions
