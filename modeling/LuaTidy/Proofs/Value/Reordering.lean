import LuaTidy.Proofs.Entries
import LuaTidy.Value.Basic
import Mathlib.Data.List.Perm.Basic

/-!
Values up to the order of their keys. A map without repeated keys says the same in any order of
its entries: what is found at a key does not depend on where the key stands. Items of lists keep
their places.
-/
namespace LuaTidy

namespace Entries

variable {κ α β : Type} [DecidableEq κ]

/-- The entry of one key, if it is there. -/
def only (m : Entries κ α) (k : κ) : Entries κ α :=
  match m.get? k with
  | some a => [(k, a)]
  | none => []

theorem get?_only (m : Entries κ α) (k l : κ) :
    (m.only k).get? l = if k = l then m.get? k else none := by
  rw [only]
  cases m.get? k <;> simp [get?_cons]

/-- A function that keeps some entries and turns their values into others acts on what is found. -/
theorem get?_filterMap {μ : Type*} (m : Entries κ α) (place : κ → Option μ) (f : μ → α → β) (k : κ) :
    get? (m.filterMap fun e => (place e.1).map fun x => (e.1, f x e.2)) k =
      (place k).bind fun x => (m.get? k).map (f x) := by
  induction m with
  | nil => cases place k <;> rfl
  | cons e m ih =>
    by_cases hk : e.1 = k
    · subst hk
      cases hx : place e.1 with
      | none => simp [hx, ih]
      | some x => simp [hx, get?_cons]
    · cases hx : place e.1 <;> simp [hx, get?_cons, hk, ih]

theorem get?_perm {es fs : Entries κ α} (h : es.Perm fs) (hn : es.keys.Nodup) (k : κ) :
    fs.get? k = es.get? k := by
  have hkeys : es.keys.Perm fs.keys := h.map Prod.fst
  cases hk : es.get? k with
  | none =>
    rw [get?_eq_none_iff] at hk ⊢
    exact fun hmem => hk (hkeys.mem_iff.mpr hmem)
  | some a => exact get?_of_mem (hkeys.nodup_iff.mp hn) (h.mem_iff.mp (mem_of_get? hk))

/-- The values in the order in which their keys came in. -/
def values (m : Entries κ α) : List α := m.map Prod.snd

theorem rel_get? {R : α → β → Prop} {es : Entries κ α} {fs : Entries κ β}
    (hkeys : es.keys = fs.keys) (hvalues : List.Forall₂ R es.values fs.values) (k : κ) :
    Option.Rel R (es.get? k) (fs.get? k) := by
  induction es generalizing fs with
  | nil =>
    obtain rfl := List.map_eq_nil_iff.mp hkeys.symm
    exact .none
  | cons e es ih =>
    cases fs with
    | nil => cases hkeys
    | cons f fs =>
      obtain ⟨hkey, hkeys⟩ := List.cons.inj hkeys
      cases hvalues with
      | cons hvalue hvalues =>
        rw [get?_cons, get?_cons, show e.1 = f.1 from hkey]
        split
        · exact .some hvalue
        · exact ih hkeys hvalues

end Entries

namespace Value

/-- No map in the value has a key twice. -/
inductive Distinct : Value → Prop where
  | scalar (s : Scalar) : Distinct (.scalar s)
  | list {vs : List Value} (hitems : ∀ v ∈ vs, Distinct v) : Distinct (.list vs)
  | map {es : Entries Scalar Value} (hkeys : es.keys.Nodup) (hvalues : ∀ e ∈ es, Distinct e.2) :
      Distinct (.map es)

/-- The second value has the entries of the first one, at every level in any order. -/
inductive Reordered : Value → Value → Prop where
  | scalar (s : Scalar) : Reordered (.scalar s) (.scalar s)
  | list {vs ws : List Value} (hitems : List.Forall₂ Reordered vs ws) :
      Reordered (.list vs) (.list ws)
  | map {es fs gs : Entries Scalar Value} (hperm : es.Perm fs) (hkeys : fs.keys = gs.keys)
      (hvalues : List.Forall₂ Reordered fs.values gs.values) : Reordered (.map es) (.map gs)

theorem Distinct.get? {es : Entries Scalar Value} (h : Distinct (.map es)) {k : Scalar} {v : Value}
    (hk : es.get? k = some v) : v.Distinct := by
  cases h with
  | map _ hvalues => exact hvalues _ (Entries.mem_of_get? hk)

/-- At every key of a map, a reordered map has the value reordered. -/
theorem Reordered.get? {es fs : Entries Scalar Value} (h : Reordered (.map es) (.map fs))
    (hdistinct : Distinct (.map es)) (k : Scalar) :
    Option.Rel Reordered (es.get? k) (fs.get? k) := by
  cases h with
  | map hperm hkeys hvalues =>
    cases hdistinct with
    | map hnodup _ =>
      rw [← Entries.get?_perm hperm hnodup]
      exact Entries.rel_get? hkeys hvalues k

end Value
end LuaTidy
