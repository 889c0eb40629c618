import LuaTidy.Proofs.Value.Reordering
import Mathlib.Data.List.Forall2

/-!
Values that differ in their texts only: the same maps with the same keys, keys that are texts
included, in the same order, lists of the same lengths, and the same leaves but for texts. What
rewrites the texts of a value and nothing else gives such values.
-/
namespace LuaTidy.Value

/-- Induction on the parts of a value. -/
theorem induction {motive : Value → Prop} (scalar : ∀ s, motive (.scalar s))
    (list : ∀ vs : List Value, (∀ v ∈ vs, motive v) → motive (.list vs))
    (map : ∀ es : Entries Scalar Value, (∀ e ∈ es, motive e.2) → motive (.map es)) (v : Value) :
    motive v :=
  @Value.rec motive (fun vs => ∀ v ∈ vs, motive v) (fun es => ∀ e ∈ es, motive e.2)
    (fun e => motive e.2) scalar list map (List.forall_mem_nil _)
    (fun _ _ hv hvs => List.forall_mem_cons.mpr ⟨hv, hvs⟩) (List.forall_mem_nil _)
    (fun _ _ he hes => List.forall_mem_cons.mpr ⟨he, hes⟩) (fun _ _ hv => hv) v

/-- The values have one shape, and their texts are related by `R`, place by place. -/
inductive SameShape (R : Text → Text → Prop) : Value → Value → Prop where
  | text {s t : Text} (h : R s t) : SameShape R (.text s) (.text t)
  | scalar {s : Scalar} (h : ∀ t, s ≠ .text t) : SameShape R (.scalar s) (.scalar s)
  | list {vs ws : List Value} (hitems : List.Forall₂ (SameShape R) vs ws) :
      SameShape R (.list vs) (.list ws)
  | map {es fs : Entries Scalar Value} (hkeys : es.keys = fs.keys)
      (hvalues : List.Forall₂ (SameShape R) es.values fs.values) :
      SameShape R (.map es) (.map fs)

/-- A function that rewrites the texts in a value by `t` and keeps all else. -/
structure LeafWise (f : Value → Value) (t : Text → Text) : Prop where
  text : ∀ s, f (.text s) = .text (t s)
  scalar : ∀ s, (∀ t, s ≠ .text t) → f (.scalar s) = .scalar s
  list : ∀ vs, f (.list vs) = .list (vs.map f)
  map : ∀ es, f (.map es) = .map (es.map fun e => (e.1, f e.2))

theorem leafWise_id : LeafWise id id where
  text := fun _ => rfl
  scalar := fun _ _ => rfl
  list := fun vs => by rw [List.map_id, id]
  map := fun es => congrArg Value.map (List.map_id es).symm

/-- Two rewritings of the texts in one value give values of one shape. -/
theorem LeafWise.sameShape {f g : Value → Value} {t u : Text → Text} {R : Text → Text → Prop}
    (hf : LeafWise f t) (hg : LeafWise g u) (hR : ∀ s, R (t s) (u s)) (v : Value) :
    SameShape R (f v) (g v) := by
  induction v using Value.induction with
  | scalar s =>
    by_cases hs : ∃ x, s = .text x
    · obtain ⟨x, rfl⟩ := hs
      have htext : SameShape R (.text (t x)) (.text (u x)) := .text (hR x)
      rwa [← hf.text, ← hg.text] at htext
    · have hother : ∀ x, s ≠ .text x := fun x hx => hs ⟨x, hx⟩
      rw [hf.scalar s hother, hg.scalar s hother]
      exact .scalar hother
  | list vs ih =>
    rw [hf.list, hg.list]
    apply SameShape.list
    rw [List.forall₂_map_left_iff, List.forall₂_map_right_iff, List.forall₂_same]
    exact ih
  | map es ih =>
    have hkeys : ∀ f : Value → Value, Entries.keys (es.map fun e => (e.1, f e.2)) = es.keys :=
      fun f => List.map_map
    have hvalues : ∀ f : Value → Value,
        Entries.values (es.map fun e => (e.1, f e.2)) = es.map fun e => f e.2 :=
      fun f => List.map_map
    rw [hf.map, hg.map]
    apply SameShape.map ((hkeys f).trans (hkeys g).symm)
    rw [hvalues, hvalues, List.forall₂_map_left_iff, List.forall₂_map_right_iff, List.forall₂_same]
    exact ih

end LuaTidy.Value
