import LuaTidy.Proofs.Files.Walks

/-!
Which nodes an operation changes. It puts files where its own paths lead, and directories where the
paths above these lead and nothing has been. A directory stays a directory, a file stays a file, and
nothing is taken away.
-/
namespace LuaTidy

namespace Disk

/-- What has become of a place: nothing has changed; or there is a file that one of `files` leads
to, and there was no directory; or there is a directory that one of `directories` leads to, and
there was nothing. -/
inductive Changed (files directories : Path → Prop) (d d' : Disk) (q : Place) : Prop where
  | same (h : d'.node? q = d.node? q)
  | file {p : Path} {content : Text.Utf8.Bytes} (hp : files p) (hlocate : d'.locate p.text = .ok q)
      (hbefore : d.node? q ≠ some .directory) (hafter : d'.node? q = some (.file content))
  | directory {p : Path} (hp : directories p) (hlocate : d'.locate p.text = .ok q)
      (hbefore : d.node? q = none) (hafter : d'.node? q = some .directory)

/-- Nothing has changed but files that some paths lead to, and new directories that others do. -/
structure Changes (files directories : Path → Prop) (d d' : Disk) : Prop where
  working : d'.working = d.working
  node : ∀ q, Changed files directories d d' q

/-- No path at all. -/
abbrev NoPath (_ : Path) : Prop := False

namespace Changes

variable {F F' D D' : Path → Prop} {d d' d'' : Disk}

theorem refl (d : Disk) : Changes F D d d := ⟨rfl, fun _ => .same rfl⟩

theorem mono (h : Changes F D d d') (hF : ∀ p, F p → F' p) (hD : ∀ p, D p → D' p) :
    Changes F' D' d d' := by
  refine ⟨h.working, fun q => ?_⟩
  cases h.node q with
  | same h => exact .same h
  | file hp hlocate hbefore hafter => exact .file (hF _ hp) hlocate hbefore hafter
  | directory hp hlocate hbefore hafter => exact .directory (hD _ hp) hlocate hbefore hafter

/-- Whatever is there stays there, a file as a file and a directory as a directory. -/
theorem kept (h : Changes F D d d') {q : Place} {n : Node} (hn : d.node? q = some n) :
    ∃ n', d'.node? q = some n' ∧ (n' = .directory ↔ n = .directory) := by
  cases h.node q with
  | same hsame => exact ⟨n, hsame.trans hn, Iff.rfl⟩
  | file hp hlocate hbefore hafter =>
    rw [hn] at hbefore
    exact ⟨_, hafter, by simpa using hbefore⟩
  | directory hp hlocate hbefore hafter =>
    rw [hn] at hbefore
    cases hbefore

theorem keepsDirectories (h : Changes F D d d') : KeepsDirectories d d' := by
  refine ⟨h.working, fun q hq => ?_⟩
  obtain ⟨n', hn', hiff⟩ := h.kept hq
  rw [hn', hiff.mpr rfl]

theorem trans (h : Changes F D d d') (h' : Changes F D d' d'') : Changes F D d d'' := by
  refine ⟨h'.working.trans h.working, fun q => ?_⟩
  cases h.node q with
  | same hsame =>
    cases h'.node q with
    | same hsame' => exact .same (hsame'.trans hsame)
    | file hp hlocate hbefore hafter => exact .file hp hlocate (hsame ▸ hbefore) hafter
    | directory hp hlocate hbefore hafter => exact .directory hp hlocate (hsame ▸ hbefore) hafter
  | file hp hlocate hbefore hafter =>
    cases h'.node q with
    | same hsame' =>
      exact .file hp (h'.keepsDirectories.locate hlocate) hbefore (hsame'.trans hafter)
    | file hp' hlocate' _ hafter' => exact .file hp' hlocate' hbefore hafter'
    | directory _ _ hbefore' _ =>
      rw [hafter] at hbefore'
      cases hbefore'
  | directory hp hlocate hbefore hafter =>
    cases h'.node q with
    | same hsame' =>
      exact .directory hp (h'.keepsDirectories.locate hlocate) hbefore (hsame'.trans hafter)
    | file _ _ hbefore' _ => exact absurd hafter hbefore'
    | directory _ _ hbefore' _ =>
      rw [hafter] at hbefore'
      cases hbefore'

end Changes
end Disk

namespace FileOp
open Disk

theorem changes_makeDirectory {p : Path} {d d' : Disk} {r : Except FileError Unit}
    (h : makeDirectory p.text d = (r, d')) : Changes NoPath (· = p) d d' := by
  rw [makeDirectory] at h
  split at h
  · cases h
    exact .refl d
  · next q hq =>
    split at h
    · cases h
      exact .refl d
    · next hnone =>
      cases h
      have hroot : q ≠ [] := by
        rintro rfl
        cases hnone
      refine ⟨rfl, fun q' => ?_⟩
      by_cases hq' : q = q'
      · subst hq'
        exact .directory rfl ((grows_put hnone _).keepsDirectories.locate hq) hnone
          (node?_put_self hroot d _)
      · exact .same (node?_put_of_ne hq' d _)

/-- Whether they succeed or not, directories are created where nothing was, at the given path or
above it. -/
theorem changes_makeDirectoriesFrom (root : Text) (rest : List Text) (d : Disk) :
    Changes NoPath (fun a => a.root = root ∧ a.parts <+: rest.reverse) d
      (makeDirectoriesFrom root rest d).2 := by
  have hmake {parts : List Text} {ns : List Text} (hns : parts <+: ns) {d d' : Disk}
      {r : Except FileError Unit} (h : makeDirectory (Path.text ⟨root, parts⟩) d = (r, d')) :
      Changes NoPath (fun a => a.root = root ∧ a.parts <+: ns) d d' :=
    (changes_makeDirectory h).mono (fun _ => id) (by rintro _ rfl; exact ⟨rfl, hns⟩)
  induction rest generalizing d with
  | nil =>
    simp only [makeDirectoriesFrom]
    split
    · next he =>
      rw [unlessThere_disk]
      exact hmake List.prefix_rfl he
    · exact hmake List.prefix_rfl rfl
  | cons last above ih =>
    rw [List.reverse_cons]
    simp only [makeDirectoriesFrom]
    split
    · next he => exact hmake List.prefix_rfl he
    · next d' he =>
      have habove : Changes NoPath (fun a => a.root = root ∧ a.parts <+: above.reverse ++ [last]) d
          (makeDirectoriesFrom root above d').2 :=
        (hmake List.prefix_rfl he).trans ((ih d').mono (fun _ => id)
          fun a ha => ⟨ha.1, ha.2.trans (List.prefix_append _ _)⟩)
      split
      · next hab => rwa [hab] at habove
      · next hab =>
        rw [hab] at habove
        split
        · next hagain => exact habove.trans (hmake List.prefix_rfl hagain)
        · next hagain => exact habove.trans (hmake List.prefix_rfl hagain)
        · next hagain =>
          rw [unlessThere_disk]
          exact habove.trans (hmake List.prefix_rfl hagain)
    · next he =>
      rw [unlessThere_disk]
      exact hmake List.prefix_rfl he

theorem changes_write (p : Path) (content : Text.Utf8.Bytes) (d : Disk) :
    Changes (· = p) NoPath d (write p.text content d).2 := by
  rcases h : write p.text content d with ⟨r, d'⟩
  cases r with
  | error e =>
    rw [write_disk_of_error h]
    exact .refl d
  | ok u =>
    obtain ⟨q, hq, hdirectory, rfl⟩ := (write_eq_ok_iff ..).mp h
    have hroot : q ≠ [] := by
      rintro rfl
      exact hdirectory rfl
    refine ⟨rfl, fun q' => ?_⟩
    by_cases hq' : q = q'
    · subst hq'
      exact .file rfl ((keepsDirectories_put hdirectory _).locate hq) hdirectory
        (node?_put_self hroot d _)
    · exact .same (node?_put_of_ne hq' d _)

end FileOp

end LuaTidy
