import LuaTidy.Proofs.Files.PathTexts

/-!
The directories on the way to what a path leads to. Every part of a path is looked up in a directory,
so that all paths above one that leads somewhere lead to directories; creating these again changes
nothing.
-/
namespace LuaTidy

namespace Text

theorem joinWith_prefix_append (sep : Text) (ps qs : List Text) :
    joinWith sep ps <+: joinWith sep (ps ++ qs) := by
  fun_induction joinWith sep ps with
  | case1 => exact List.nil_prefix
  | case2 p =>
    obtain ⟨t, ht⟩ := exists_joinWith_cons sep p qs
    rw [List.singleton_append, ht]
    exact List.prefix_append p t
  | case3 p ps hps ih =>
    obtain ⟨q, rest, rfl⟩ := List.exists_cons_of_ne_nil hps
    rw [List.cons_append, List.cons_append, joinWith_cons_cons]
    exact (List.prefix_append_right_inj _).mpr ih

end Text

namespace Disk

variable {d : Disk} {here p : Place} {path : Text}

theorem isDirectory?_iff (d : Disk) (path : Text) :
    d.isDirectory? path = .ok true ↔
      ∃ p, d.locate path = .ok p ∧ d.node? p = some .directory := by
  simp only [isDirectory?, ask, stat]
  cases hp : d.locate path with
  | error e =>
    cases e with
    | nul => simp
    | refused why path => cases why <;> simp
  | ok p =>
    cases hn : d.node? p with
    | none => simp [hn]
    | some n => cases n <;> simp [hn]

theorem KeepsDirectories.isDirectory? {d' : Disk} (hkeeps : KeepsDirectories d d')
    (h : d.isDirectory? path = .ok true) : d'.isDirectory? path = .ok true := by
  obtain ⟨p, hp, hdirectory⟩ := (isDirectory?_iff ..).mp h
  exact (isDirectory?_iff ..).mpr ⟨p, hkeeps.locate hp, hkeeps.directory p hdirectory⟩

theorem directory_of_walk_cons {n : Text} {ns : List Text} (h : d.walk here (n :: ns) = .ok p) :
    d.node? here = some .directory := by
  rw [walk] at h
  split at h
  · cases h
  · cases h
  · assumption

theorem Readable.of_prefix {s t : Text} (h : Readable t) (hinit : s <+: t) : Readable s := by
  obtain ⟨rest, rfl⟩ := hinit
  obtain ⟨hnul, hlength⟩ := h
  refine ⟨?_, ?_⟩
  · rw [List.contains_eq_mem, decide_eq_false_iff_not] at hnul ⊢
    exact fun hmem => hnul (List.mem_append_left rest hmem)
  · rw [Text.Utf8.encode, List.flatMap_append, List.length_append] at hlength
    exact Nat.lt_of_le_of_lt (Nat.le_add_right _ _) hlength

end Disk

namespace Path
open Disk (Readable)

variable {p a : Path} {d : Disk} {q : Place}

/-- The text of a path above another one is a dot, or begins the text of that one. -/
theorem text_prefix (hroot : a.root = p.root) (habove : a.parts <+: p.parts) :
    a.text = ['.'] ∨ a.text <+: p.text := by
  by_cases hne : a.root ++ Text.joinWith ['/'] a.parts = []
  · left
    rw [Path.text, hne]
  · right
    obtain ⟨rest, hrest⟩ := habove
    have hinit : a.root ++ Text.joinWith ['/'] a.parts <+:
        p.root ++ Text.joinWith ['/'] p.parts := by
      rw [hroot, ← hrest]
      exact (List.prefix_append_right_inj _).mpr (Text.joinWith_prefix_append ['/'] _ _)
    have hne' : p.root ++ Text.joinWith ['/'] p.parts ≠ [] := by
      intro he
      rw [he] at hinit
      exact hne (List.prefix_nil.mp hinit)
    rwa [text_eq hne, text_eq hne']

theorem readable_of_above (hroot : a.root = p.root) (habove : a.parts <+: p.parts)
    (h : Readable p.text) : Readable a.text := by
  rcases text_prefix hroot habove with hdot | hinit
  · rw [hdot]
    exact ⟨by decide, by decide⟩
  · exact h.of_prefix hinit

/-- A path leads through its parts to a directory. -/
theorem Normal.locate_of_walk (hp : p.Normal) (hread : Readable p.text)
    (hwalk : d.walk (if p.root = [] then d.working else []) p.parts = .ok q)
    (hdirectory : d.node? q = some .directory) : d.locate p.text = .ok q := by
  refine (Disk.locate_eq_ok_iff ..).mpr ⟨hread, ?_⟩
  by_cases hne : p.parts = []
  · obtain ⟨root, parts⟩ := p
    obtain rfl : parts = [] := hne
    rcases hp.root with hr | hr | hr
    · obtain rfl : root = [] := hr
      cases hwalk
      -- the text is a dot, which is looked up in the working directory
      have hdot : Disk.steps (text ⟨[], []⟩) = [['.']] := by decide
      have hstart : d.start (text ⟨[], []⟩) = d.working := rfl
      have hworking : d.node? d.working = some .directory := hdirectory
      rw [hdot, hstart, Disk.walk]
      simp only [hworking]
      rfl
    all_goals
      obtain rfl : root = _ := hr
      exact hwalk
  · rwa [start_text hp.head? hne hp.root, steps_text hp.head? hne hp.root, hp.flatMap_steps]

/-- The paths above one that leads somewhere lead to directories. -/
theorem Normal.isDirectory?_above (hp : p.Normal) (hne : p.parts ≠ [])
    (hlocate : d.locate p.text = .ok q) (hroot : a.root = p.root)
    (habove : a.parts <+: p.parts.dropLast) : d.isDirectory? a.text = .ok true := by
  have hinit : a.parts <+: p.parts := habove.trans (List.dropLast_prefix _)
  have ha : a.Normal := ⟨hroot ▸ hp.root, fun n hn => hp.parts n (hinit.subset hn)⟩
  obtain ⟨hread, hwalk⟩ := (Disk.locate_eq_ok_iff ..).mp hlocate
  rw [start_text hp.head? hne hp.root, steps_text hp.head? hne hp.root, hp.flatMap_steps] at hwalk
  obtain ⟨rest, hrest⟩ := habove
  -- at least the last part is looked up in the directory that the path above leads to
  have hsplit : a.parts ++ (rest ++ [p.parts.getLast hne]) = p.parts := by
    rw [← List.append_assoc, hrest, List.dropLast_concat_getLast]
  rw [← hsplit, ← hroot] at hwalk
  obtain ⟨here, hhere, htail⟩ := Disk.walk_append_eq_ok hwalk
  have hdirectory : d.node? here = some .directory := by
    cases rest with
    | nil => exact Disk.directory_of_walk_cons htail
    | cons n rest => exact Disk.directory_of_walk_cons htail
  exact (Disk.isDirectory?_iff ..).mpr
    ⟨here, ha.locate_of_walk (readable_of_above hroot hinit hread) hhere hdirectory, hdirectory⟩

end Path

namespace FileOp
open Disk

/-- Creating a directory that is there changes nothing. -/
theorem makeDirectories_of_isDirectory {p : Path} {d : Disk}
    (h : d.isDirectory? p.text = .ok true) : makeDirectories p d = (.ok (), d) := by
  obtain ⟨q, hq, hdirectory⟩ := (isDirectory?_iff ..).mp h
  have hmake : makeDirectory p.text d = (.error (.refused .alreadyThere p.text), d) := by
    simp only [makeDirectory, hq, hdirectory]
  have hthere : unlessThere p.text (.refused .alreadyThere p.text) d = (.ok (), d) := by
    simp only [unlessThere, h]
  obtain ⟨root, parts⟩ := p
  rw [makeDirectories]
  cases hparts : parts.reverse with
  | nil =>
    obtain rfl : parts = [] := List.reverse_eq_nil_iff.mp hparts
    simp only [makeDirectoriesFrom, hmake, hthere]
  | cons last above =>
    obtain rfl : parts = above.reverse ++ [last] := by
      rw [← List.reverse_reverse parts, hparts, List.reverse_cons]
    simp only [makeDirectoriesFrom, hmake, hthere]

end FileOp
end LuaTidy
