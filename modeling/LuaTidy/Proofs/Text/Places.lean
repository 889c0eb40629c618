import LuaTidy.Proofs.Text.PieceScan

/-!
Things that stand at places of a text, such as tokens or declarations. A list of all of them from
left to right shows which of two comes first.
-/
namespace LuaTidy.Text

variable {α : Type}

/-- The first place of `x` comes before every place of `y`. -/
def FirstBefore (stands : Nat → α → Prop) (x y : α) : Prop :=
  ∃ p, stands p x ∧ ∀ q, stands q y → p < q

/-- What stands in a list behind so many others. -/
def Nth (xs : List α) (i : Nat) (x : α) : Prop := xs[i]? = some x

theorem Nth.lt_length {xs : List α} {i : Nat} {x : α} (h : Nth xs i x) : i < xs.length :=
  (List.getElem?_eq_some_iff.mp h).1

theorem nth_concat_iff {xs : List α} {i : Nat} (hi : i < xs.length) (x y : α) :
    Nth (xs ++ [y]) i x ↔ Nth xs i x := by
  rw [Nth, Nth, List.getElem?_append_left hi]

theorem FirstBefore.concat {xs : List α} {x y : α} (h : FirstBefore (Nth xs) x y) (z : α) :
    FirstBefore (Nth (xs ++ [z])) x y := by
  obtain ⟨i, hi, hbefore⟩ := h
  refine ⟨i, (nth_concat_iff hi.lt_length x z).mpr hi, fun j hj => ?_⟩
  rcases Nat.lt_or_ge j xs.length with hlt | hge
  · exact hbefore j ((nth_concat_iff hlt y z).mp hj)
  · exact Nat.lt_of_lt_of_le hi.lt_length hge

theorem firstBefore_concat {xs : List α} {x y : α} (hx : x ∈ xs) (hy : y ∉ xs) :
    FirstBefore (Nth (xs ++ [y])) x y := by
  obtain ⟨i, hi⟩ := List.getElem?_of_mem hx
  have hlt := Nth.lt_length hi
  refine ⟨i, (nth_concat_iff hlt x y).mpr hi, fun j hj => Nat.lt_of_lt_of_le hlt ?_⟩
  by_contra hj'
  exact hy (List.mem_of_getElem? ((nth_concat_iff (Nat.not_le.mp hj') y y).mp hj))

/-- All that stands somewhere, each with its place, from left to right. -/
structure Lists (stands : Nat → α → Prop) (places : List (Nat × α)) : Prop where
  increasing : places.Pairwise fun a b => a.1 < b.1
  mem_iff : ∀ p x, (p, x) ∈ places ↔ stands p x

/-- What comes first in the list of all things comes first by its places. -/
theorem Lists.firstBefore {stands : Nat → α → Prop} {places : List (Nat × α)}
    (h : Lists stands places) {x y : α} (hxy : FirstBefore (Nth (places.map Prod.snd)) x y) :
    FirstBefore stands x y := by
  obtain ⟨i, hi, hbefore⟩ := hxy
  rw [Nth, List.getElem?_map, Option.map_eq_some_iff] at hi
  obtain ⟨⟨p, z⟩, hp, rfl⟩ := hi
  refine ⟨p, (h.mem_iff p _).mp (List.mem_of_getElem? hp), fun q hq => ?_⟩
  obtain ⟨j, hj⟩ := List.getElem?_of_mem ((h.mem_iff q y).mpr hq)
  have hij : i < j := hbefore j (by simp [Nth, hj])
  obtain ⟨hi', hpi⟩ := List.getElem?_eq_some_iff.mp hp
  obtain ⟨hj', hqj⟩ := List.getElem?_eq_some_iff.mp hj
  have hlt := List.pairwise_iff_getElem.mp h.increasing i j hi' hj' hij
  rwa [hpi, hqj] at hlt

/-- What the recognised stretches stand for, each with the place where its stretch begins; the first
piece begins at place `p`. -/
def placedFrom : Nat → List (Piece α) → List (Nat × α)
  | _, [] => []
  | p, .kept _ :: ps => placedFrom (p + 1) ps
  | p, .found s a :: ps => (p, a) :: placedFrom (p + s.length) ps

theorem map_snd_placedFrom (p : Nat) (ps : List (Piece α)) :
    (placedFrom p ps).map Prod.snd = ps.filterMap Piece.value? := by
  induction ps generalizing p with
  | nil => rfl
  | cons q ps ih =>
    cases q with
    | kept c => exact ih (p + 1)
    | found s a =>
      rw [placedFrom, List.map_cons, ih]
      rfl

theorem le_of_mem_placedFrom {p : Nat} {ps : List (Piece α)} {e : Nat × α}
    (h : e ∈ placedFrom p ps) : p ≤ e.1 := by
  induction ps generalizing p with
  | nil => simp [placedFrom] at h
  | cons q ps ih =>
    cases q with
    | kept c => exact Nat.le_trans (Nat.le_succ p) (ih h)
    | found s a =>
      rcases List.mem_cons.mp h with rfl | h
      · exact Nat.le_refl _
      · exact Nat.le_trans (Nat.le_add_right p _) (ih h)

theorem increasing_placedFrom (r : Recogniser α) (p : Nat) (s : Text) :
    (placedFrom p (pieces r s)).Pairwise fun a b => a.1 < b.1 := by
  refine pieces_induction
    (motive := fun _ ps => ∀ p, (placedFrom p ps).Pairwise fun a b => a.1 < b.1) ?_ ?_ ?_ s p
  · exact fun _ => List.Pairwise.nil
  · exact fun _ _ _ ih p => ih (p + 1)
  · intro c cs n a _ ih p
    refine List.pairwise_cons.mpr ⟨fun e he => ?_, ih _⟩
    have hle := le_of_mem_placedFrom he
    rw [List.length_cons] at hle
    exact Nat.lt_of_lt_of_le (Nat.lt_add_of_pos_right (Nat.succ_pos _)) hle

end LuaTidy.Text
