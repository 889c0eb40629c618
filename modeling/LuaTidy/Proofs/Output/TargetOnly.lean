import LuaTidy.Proofs.Files.Ancestors
import LuaTidy.Proofs.Output.Refusals
import LuaTidy.Proofs.Output.Targets

/-!
What writing an output leaves behind. If it succeeds, the output is the one file that has changed,
all directories above it are there, and the destination stands for it from then on; if it fails, no
file has changed. Where the output would go is what a dry run says.
-/
namespace LuaTidy

namespace Disk.Changes

variable {D : Path → Prop} {d d' : Disk}

/-- Where only directories have been created, the files are the same. -/
theorem file_iff (h : Changes NoPath D d d') (q : Place) (content : Text.Utf8.Bytes) :
    d'.node? q = some (.file content) ↔ d.node? q = some (.file content) := by
  cases h.node q with
  | same hsame => rw [hsame]
  | file hp _ _ _ => exact hp.elim
  | directory _ _ hbefore hafter => simp [hbefore, hafter]

end Disk.Changes

namespace OutputSettings
open Disk (Changes NoPath)

variable {o : OutputSettings} {r : Outcome} {dest : Text} {d d' : Disk} {path : Path}
  {e : OutputError}

/-- A dry run finds the file that the destination stands for, and no more. -/
theorem write_dry (o : OutputSettings) (r : Outcome) (dest : Text) (d : Disk) :
    o.write true r dest d = o.resolve dest d := by
  rcases h : o.resolve dest d with ⟨a, d₁⟩
  cases a with
  | error e => rw [write, bind_of_error h]
  | ok p =>
    rw [write, bind_of_ok h]
    rfl

/-- A written output is the one file that has changed. -/
theorem changes_of_write_ok (h : o.write false r dest d = (.ok path, d')) :
    Changes (· = path) (·.IsAbove path) d d' := by
  obtain ⟨-, hplace⟩ := write_eq_ok h
  have hchanges := changes_place (F := (· = path)) (D := (·.IsAbove path)) rfl (fun _ ha => ha)
    r.text d
  rwa [hplace] at hchanges

/-- What cannot be put in its place changes no file. -/
theorem changes_of_place_error {s : Text} (h : place path s d = (.error e, d')) :
    Changes NoPath (·.IsAbove path) d d' := by
  have hchanges := changes_makeParents path d
  rcases hparents : (FileOp.makeDirectories path.parent).forOutput d with ⟨a, d₁⟩
  rw [hparents] at hchanges
  cases a with
  | error e' =>
    rw [place, bind_of_error hparents] at h
    cases h
    exact hchanges
  | ok u =>
    rw [place, bind_of_ok hparents, FileOp.forOutput] at h
    rcases hwrite : FileOp.write path.text (Text.Utf8.encode s) d₁ with ⟨a, d₂⟩
    rw [hwrite] at h
    cases a with
    | ok u => cases h
    | error e' =>
      cases h
      rwa [FileOp.write_disk_of_error hwrite]

/-- An output that cannot be written fails like a dry run and changes nothing, or a dry run says
where it would go and directories above that place are all that has been created. -/
theorem cases_of_write_error (h : o.write false r dest d = (.error e, d')) :
    (o.resolve dest d = (.error e, d) ∧ d' = d) ∨
      ∃ p, o.resolve dest d = (.ok p, d) ∧ Changes NoPath (·.IsAbove p) d d' := by
  have hdisk := resolve_disk o dest d
  rcases hresolve : o.resolve dest d with ⟨a, d₁⟩
  rw [hresolve] at hdisk
  obtain rfl : d₁ = d := hdisk
  cases a with
  | error e' =>
    rw [write, bind_of_error hresolve] at h
    cases h
    exact .inl ⟨rfl, rfl⟩
  | ok p =>
    rw [write, bind_of_ok hresolve] at h
    simp only [Bool.false_eq_true, if_false] at h
    rcases hplace : place p r.text d₁ with ⟨a, d₂⟩
    cases a with
    | ok u =>
      rw [bind_of_ok hplace] at h
      cases h
    | error e' =>
      rw [bind_of_error hplace] at h
      cases h
      exact .inr ⟨p, rfl, changes_of_place_error hplace⟩

/-- All paths above a written output lead to directories. -/
theorem isDirectory?_above_of_read {content : Text.Utf8.Bytes} (hpath : path.Normal)
    (h : d.read path.text = .ok content) {a : Path} (ha : a.IsAbove path) :
    d.isDirectory? a.text = .ok true := by
  obtain ⟨q, hq, -⟩ := (Disk.read_eq_ok_iff ..).mp h
  have hne : path.parts ≠ [] := List.ne_nil_of_mem (Path.name_mem_of_read hpath.root h)
  exact hpath.isDirectory?_above hne hq ha.1 ha.2

/-- Where a file is, any text can be put in its place, and no directory is missing. -/
theorem place_of_read {content : Text.Utf8.Bytes} (hpath : path.Normal)
    (h : d.read path.text = .ok content) (s : Text) :
    ∃ d', place path s d = (.ok (), d') ∧ Changes (· = path) NoPath d d' := by
  have hparent : d.isDirectory? path.parent.text = .ok true :=
    isDirectory?_above_of_read hpath h ⟨rfl, List.prefix_rfl⟩
  have hmake : (FileOp.makeDirectories path.parent).forOutput d = (.ok (), d) := by
    rw [FileOp.forOutput, FileOp.makeDirectories_of_isDirectory hparent]
    rfl
  obtain ⟨q, hq, hfile⟩ := (Disk.read_eq_ok_iff ..).mp h
  have hwrite : FileOp.write path.text (Text.Utf8.encode s) d =
      (.ok (), d.put q (.file (Text.Utf8.encode s))) :=
    (FileOp.write_eq_ok_iff ..).mpr ⟨q, hq, by simp [hfile], rfl⟩
  refine ⟨d.put q (.file (Text.Utf8.encode s)), ?_, ?_⟩
  · rw [place, bind_of_ok hmake, FileOp.forOutput, hwrite]
    rfl
  · have hchanges := FileOp.changes_write path (Text.Utf8.encode s) d
    rwa [hwrite] at hchanges

/-- The destination of a written output stands for it still. -/
theorem resolve_of_write (h : o.write false r dest d = (.ok path, d')) :
    o.resolve dest d' = (.ok path, d') := by
  obtain ⟨hresolve, -⟩ := write_eq_ok h
  have hkeeps := (changes_of_write_ok h).keepsDirectories
  rw [resolve_apply] at hresolve ⊢
  have hanswer := congrArg Prod.fst hresolve
  split at hanswer
  · next hthere =>
    rw [hkeeps.isDirectory? hthere]
    cases hanswer
    rfl
  · cases hanswer
    rw [Disk.isDirectory?_of_read (read_of_write h)]
  · cases hanswer

/-- Another output for the same destination takes the place of the one before. -/
theorem write_again (h : o.write false r dest d = (.ok path, d')) (r' : Outcome) :
    ∃ d'', o.write false r' dest d' = (.ok path, d'') ∧
      d''.read path.text = .ok (Text.Utf8.encode r'.text) ∧ Changes (· = path) NoPath d' d'' := by
  have hpath := normal_of_resolve (write_eq_ok h).1
  obtain ⟨d'', hplace, hchanges⟩ := place_of_read hpath (read_of_write h) r'.text
  have hwrite : o.write false r' dest d' = (.ok path, d'') := by
    rw [write, bind_of_ok (resolve_of_write h)]
    simp only [Bool.false_eq_true, if_false]
    rw [bind_of_ok hplace]
    rfl
  exact ⟨d'', hwrite, read_of_write hwrite, hchanges⟩

/-- A dry run changes nothing. If writing succeeds, the answer is that of a dry run: the file there
holds the text, everything above it is a directory, nothing has changed but this file and what was
missing above it, and a further output for the same destination is written to the same file, and
nowhere else. If writing fails, the files are what they were: either a dry run fails in the same way
and nothing has changed, or there may be new directories above the answer of a dry run. -/
theorem only_target_written (o : OutputSettings) (r : Outcome) (dest : Text) (d : Disk) :
    (o.write true r dest d).2 = d ∧
      match o.write false r dest d with
      | (.ok path, d') =>
        o.write true r dest d = (.ok path, d) ∧
          d'.read path.text = .ok (Text.Utf8.encode r.text) ∧
          (∀ a : Path, a.IsAbove path → d'.isDirectory? a.text = .ok true) ∧
          Changes (· = path) (·.IsAbove path) d d' ∧
          ∀ r' : Outcome, ∃ d'', o.write false r' dest d' = (.ok path, d'') ∧
            d''.read path.text = .ok (Text.Utf8.encode r'.text) ∧
            Changes (· = path) NoPath d' d''
      | (.error e, d') =>
        (∀ q content, d'.node? q = some (.file content) ↔ d.node? q = some (.file content)) ∧
          ((o.write true r dest d = (.error e, d) ∧ d' = d) ∨
            ∃ path, o.write true r dest d = (.ok path, d) ∧
              Changes NoPath (·.IsAbove path) d d') := by
  rw [write_dry]
  refine ⟨resolve_disk o dest d, ?_⟩
  rcases hwrite : o.write false r dest d with ⟨a, d'⟩
  cases a with
  | ok path =>
    have hresolve := (write_eq_ok hwrite).1
    have hread := read_of_write hwrite
    refine ⟨hresolve, hread, fun a ha => ?_, changes_of_write_ok hwrite, write_again hwrite⟩
    exact isDirectory?_above_of_read (normal_of_resolve hresolve) hread ha
  | error e =>
    rcases cases_of_write_error hwrite with ⟨hdry, rfl⟩ | ⟨path, hdry, hchanges⟩
    · exact ⟨fun _ _ => Iff.rfl, .inl ⟨hdry, rfl⟩⟩
    · exact ⟨hchanges.file_iff, .inr ⟨path, hdry, hchanges⟩⟩

/-- Directories may be left by a write that fails: here one on the way to a directory. -/
example :
    let o : OutputSettings := {}
    let d : Disk := { nodes := [], working := [] }
    let x := o.write false ⟨"x = 1", []⟩ "new/.." d
    x.1 = .error (.file (.refused .isDirectory "new/..")) ∧ x.2 = d.put ["new"] .directory := by
  decide

end OutputSettings
end LuaTidy
