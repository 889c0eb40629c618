import LuaTidy.Proofs.Files.Walks
import LuaTidy.Proofs.Text.Parts

/-!
The text of a path leads through its parts. A path that has been read from a text is read again from
its own text, and its last part can be told apart from a longer one in its place.
-/
namespace LuaTidy

namespace Disk

theorem steps_append (s t : Text) : steps (s ++ '/' :: t) = steps s ++ steps t := by
  rw [steps, Text.splitAt_append, List.filter_append, steps, steps]

theorem steps_slash (t : Text) : steps ('/' :: t) = steps t := steps_append [] t

theorem steps_of_not_mem {n : Text} (hn : n ≠ []) (hslash : '/' ∉ n) : steps n = [n] := by
  rw [steps, Text.splitAt_of_not_mem hslash, List.filter_cons_of_pos (by simpa using hn),
    List.filter_nil]

theorem steps_joinWith (ns : List Text) : steps (Text.joinWith ['/'] ns) = ns.flatMap steps := by
  induction ns with
  | nil => rfl
  | cons n ns ih =>
    cases ns with
    | nil => simp [Text.joinWith]
    | cons m ns =>
      rw [Text.joinWith_cons_cons, List.append_assoc, List.singleton_append, steps_append, ih]
      exact List.flatMap_cons.symm

theorem not_mem_of_mem_steps {s n : Text} (h : n ∈ steps s) : n ≠ [] ∧ '/' ∉ n := by
  rw [steps, List.mem_filter] at h
  exact ⟨by simpa using h.2, Text.not_mem_of_mem_splitAt h.1⟩

end Disk

namespace Path
open Disk (steps)

def IsRoot (root : Text) : Prop := root = [] ∨ root = ['/'] ∨ root = ['/', '/']

/-- A root, and parts that can be told apart from it and from one another. -/
structure Normal (p : Path) : Prop where
  root : IsRoot p.root
  parts : ∀ n ∈ p.parts, n ≠ [] ∧ n ≠ ['.'] ∧ '/' ∉ n

theorem partsOf_eq (s : Text) : partsOf s = (steps s).filter (· != ['.']) := by
  rw [partsOf, steps, List.filter_filter]
  exact List.filter_congr fun n _ => Bool.and_comm _ _

theorem partsOf_spec {s n : Text} (h : n ∈ partsOf s) : n ≠ [] ∧ n ≠ ['.'] ∧ '/' ∉ n := by
  rw [partsOf_eq, List.mem_filter] at h
  obtain ⟨hne, hslash⟩ := Disk.not_mem_of_mem_steps h.1
  exact ⟨hne, by simpa using h.2, hslash⟩

theorem isRoot_rootOf (s : Text) : IsRoot (rootOf s) := by
  rw [rootOf]
  split
  · exact Or.inl rfl
  · exact Or.inr (Or.inr rfl)
  · exact Or.inr (Or.inl rfl)

theorem normal_ofText (s : Text) : (ofText s).Normal :=
  ⟨isRoot_rootOf s, fun _ h => partsOf_spec h⟩

theorem Normal.join {p : Path} (h : p.Normal) (below : Text) : (p.join below).Normal := by
  rw [Path.join]
  split
  · refine ⟨h.root, fun n hn => ?_⟩
    rcases List.mem_append.mp hn with hn | hn
    · exact h.parts n hn
    · exact partsOf_spec hn
  · exact normal_ofText below

theorem text_eq {p : Path} (h : p.root ++ Text.joinWith ['/'] p.parts ≠ []) :
    p.text = p.root ++ Text.joinWith ['/'] p.parts := by
  rw [Path.text]
  split
  · next he => exact absurd he h
  · rfl

/-- The text begins with the first letter of the first part, unless there is a root. -/
theorem exists_joinWith_eq_cons {n : Text} (hn : n ≠ []) (hhead : n.head? ≠ some '/')
    (ns : List Text) : ∃ c t, Text.joinWith ['/'] (n :: ns) = c :: t ∧ c ≠ '/' := by
  obtain ⟨c, cs, rfl⟩ := List.exists_cons_of_ne_nil hn
  have hc : c ≠ '/' := fun he => hhead (by rw [he, List.head?_cons])
  cases ns with
  | nil => exact ⟨c, cs, rfl, hc⟩
  | cons m ns => exact ⟨c, _, rfl, hc⟩

theorem rootOf_append {root : Text} (hroot : IsRoot root) {t : Text} (ht : t.head? ≠ some '/') :
    rootOf (root ++ t) = root := by
  have hstop : t.takeWhile (· == '/') = [] := by
    cases t with
    | nil => rfl
    | cons c t =>
      rw [List.takeWhile_cons_of_neg]
      simpa using ht
  rcases hroot with rfl | rfl | rfl <;> simp [rootOf, hstop]

theorem steps_append_root {root : Text} (hroot : IsRoot root) (t : Text) :
    steps (root ++ t) = steps t := by
  rcases hroot with rfl | rfl | rfl
  · rfl
  · exact Disk.steps_slash t
  · exact (Disk.steps_slash _).trans (Disk.steps_slash t)

section
variable {p : Path} (hparts : ∀ n ∈ p.parts, n ≠ [] ∧ n.head? ≠ some '/') (hne : p.parts ≠ [])
include hparts hne

theorem exists_text_eq : ∃ c t, Text.joinWith ['/'] p.parts = c :: t ∧ c ≠ '/' ∧
    p.text = p.root ++ c :: t := by
  obtain ⟨n, ns, hns⟩ := List.exists_cons_of_ne_nil hne
  obtain ⟨hn, hhead⟩ := hparts n (hns ▸ List.mem_cons_self)
  obtain ⟨c, t, hjoin, hc⟩ := exists_joinWith_eq_cons hn hhead ns
  rw [← hns] at hjoin
  refine ⟨c, t, hjoin, hc, ?_⟩
  rw [← hjoin]
  exact text_eq (by simp [hjoin])

theorem rootOf_text (hroot : IsRoot p.root) : rootOf p.text = p.root := by
  obtain ⟨c, t, -, hc, htext⟩ := exists_text_eq hparts hne
  rw [htext]
  exact rootOf_append hroot (by simpa using hc)

theorem steps_text (hroot : IsRoot p.root) : steps p.text = p.parts.flatMap steps := by
  obtain ⟨c, t, hjoin, -, htext⟩ := exists_text_eq hparts hne
  rw [htext, steps_append_root hroot, ← hjoin, Disk.steps_joinWith]

theorem start_text (hroot : IsRoot p.root) (d : Disk) :
    d.start p.text = if p.root = [] then d.working else [] := by
  obtain ⟨c, t, -, hc, htext⟩ := exists_text_eq hparts hne
  rw [Disk.start, htext]
  rcases hroot with hr | hr | hr <;> simp [hr, hc]

end

namespace Normal

theorem head? {p : Path} (h : p.Normal) : ∀ n ∈ p.parts, n ≠ [] ∧ n.head? ≠ some '/' := by
  intro n hn
  obtain ⟨hne, -, hslash⟩ := h.parts n hn
  exact ⟨hne, fun hhead => hslash (List.mem_of_head? hhead)⟩

theorem flatMap_steps {p : Path} (h : p.Normal) : p.parts.flatMap steps = p.parts := by
  have hsingle : ∀ n ∈ p.parts, steps n = [n] := fun n hn =>
    Disk.steps_of_not_mem (h.parts n hn).1 (h.parts n hn).2.2
  rw [List.flatMap_congr hsingle, List.flatMap_singleton']

theorem ofText_text {p : Path} (h : p.Normal) : ofText p.text = p := by
  by_cases hne : p.parts = []
  · obtain ⟨root, parts⟩ := p
    obtain rfl : parts = [] := hne
    rcases h.root with hr | hr | hr
    all_goals
      obtain rfl : root = _ := hr
      decide
  have hparts : partsOf p.text = p.parts := by
    rw [partsOf_eq, steps_text h.head? hne h.root, h.flatMap_steps, List.filter_eq_self]
    intro n hn
    simpa using (h.parts n hn).2.1
  rw [ofText, hparts, rootOf_text h.head? hne h.root]

end Normal
end Path
end LuaTidy
