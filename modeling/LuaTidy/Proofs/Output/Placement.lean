import LuaTidy.Output.Writer
import LuaTidy.Proofs.Effects
import LuaTidy.Proofs.Files.PathTexts

/-!
Outputs on the disk. What has been written is read back from the path that was answered, and a
report under a longer name goes to another place, so that it leaves the output as it is.
-/
namespace LuaTidy.OutputSettings
open Disk (Grows KeepsDirectories)

/-- Whether a text can be put in its place does not depend on the text. -/
theorem place_answer (path : Path) (s s' : Text) (d : Disk) :
    (place path s d).1 = (place path s' d).1 := by
  rcases h : (FileOp.makeDirectories path.parent).forOutput d with ⟨r, d'⟩
  cases r with
  | error e => rw [place, place, bind_of_error h, bind_of_error h]
  | ok u =>
    rw [place, place, bind_of_ok h, bind_of_ok h]
    exact congrArg (Except.mapError OutputError.file) (FileOp.write_answer ..)

theorem grows_makeParents {path : Path} {d d' : Disk} {r : Except OutputError Unit}
    (h : (FileOp.makeDirectories path.parent).forOutput d = (r, d')) : Grows d d' := by
  have hgrows := FileOp.grows_makeDirectories path.parent d
  have hdisk : (FileOp.makeDirectories path.parent d).2 = d' := congrArg Prod.snd h
  rwa [hdisk] at hgrows

theorem write_of_forOutput {path : Path} {s : Text} {d d' : Disk}
    (h : (FileOp.write path.text (Text.Utf8.encode s)).forOutput d = (.ok (), d')) :
    FileOp.write path.text (Text.Utf8.encode s) d = (.ok (), d') := by
  rcases hw : FileOp.write path.text (Text.Utf8.encode s) d with ⟨r, d''⟩
  rw [FileOp.forOutput, hw] at h
  cases r with
  | ok u => cases h; rfl
  | error e => cases h

theorem read_of_place {path : Path} {s : Text} {d d' : Disk} (h : place path s d = (.ok (), d')) :
    d'.read path.text = .ok (Text.Utf8.encode s) := by
  obtain ⟨u, d₁, -, hw⟩ := (bind_eq_ok_iff ..).mp h
  exact FileOp.read_of_write (write_of_forOutput hw)

/-- Putting a text in its place leaves a file that is elsewhere as it was. -/
theorem read_place_of_apart {path : Path} {d : Disk} {t : Text} {q : Place}
    {content : Text.Utf8.Bytes} (hq : d.locate t = .ok q) (hfile : d.node? q = some (.file content))
    (hapart : ∀ d', Grows d d' → d'.locate path.text ≠ .ok q) (s : Text) :
    (place path s d).2.read t = .ok content := by
  rcases h : (FileOp.makeDirectories path.parent).forOutput d with ⟨r, d₁⟩
  have hgrows := grows_makeParents h
  have hq₁ := hgrows.keepsDirectories.locate hq
  have hfile₁ := hgrows.node q _ hfile
  have hread := (Disk.read_eq_ok_iff d₁ t content).mpr ⟨q, hq₁, hfile₁⟩
  cases r with
  | error e => rwa [place, bind_of_error h]
  | ok u =>
    rw [place, bind_of_ok h]
    rcases hw : FileOp.write path.text (Text.Utf8.encode s) d₁ with ⟨r, d₂⟩
    have hdisk : ((FileOp.write path.text (Text.Utf8.encode s)).forOutput d₁).2 = d₂ :=
      congrArg Prod.snd hw
    rw [hdisk]
    cases r with
    | error e => rwa [FileOp.write_disk_of_error hw]
    | ok u =>
      obtain ⟨p, hp, hdir, rfl⟩ := (FileOp.write_eq_ok_iff ..).mp hw
      have hne : p ≠ q := fun he => hapart d₁ hgrows (he ▸ hp)
      refine (Disk.read_eq_ok_iff _ t content).mpr ⟨q, ?_, ?_⟩
      · exact (Disk.keepsDirectories_put hdir _).locate hq₁
      · rwa [Disk.node?_put_of_ne hne]

theorem resolve_apply (o : OutputSettings) (dest : Text) (d : Disk) :
    o.resolve dest d =
      (match d.isDirectory? (Path.ofText dest).text with
        | .ok true => .ok ((Path.ofText dest).join o.filename)
        | .ok false => .ok (Path.ofText dest)
        | .error e => .error (.file e), d) := by
  cases h : d.isDirectory? (Path.ofText dest).text with
  | error e =>
    have hlook : (FileOp.look (·.isDirectory? (Path.ofText dest).text)).forOutput d =
        (.error (.file e), d) := by
      rw [FileOp.forOutput, FileOp.look, h]
      rfl
    rw [resolve, bind_of_error hlook]
  | ok there =>
    have hlook : (FileOp.look (·.isDirectory? (Path.ofText dest).text)).forOutput d =
        (.ok there, d) := by
      rw [FileOp.forOutput, FileOp.look, h]
      rfl
    rw [resolve, bind_of_ok hlook]
    cases there <;> rfl

theorem resolve_disk (o : OutputSettings) (dest : Text) (d : Disk) : (o.resolve dest d).2 = d := by
  rw [resolve_apply]

theorem normal_of_resolve {o : OutputSettings} {dest : Text} {d d' : Disk} {path : Path}
    (h : o.resolve dest d = (.ok path, d')) : path.Normal := by
  rw [resolve_apply] at h
  have hanswer := congrArg Prod.fst h
  split at hanswer
  · cases hanswer
    exact (Path.normal_ofText dest).join _
  · cases hanswer
    exact Path.normal_ofText dest
  · cases hanswer

/-- A destination that is a file stands for itself. -/
theorem resolve_of_read {o : OutputSettings} {path : Path} (hpath : path.Normal) {d : Disk}
    {content : Text.Utf8.Bytes} (h : d.read path.text = .ok content) :
    o.resolve path.text d = (.ok path, d) := by
  rw [resolve_apply, hpath.ofText_text, Disk.isDirectory?_of_read h]

theorem write_eq_ok {o : OutputSettings} {r : Outcome} {dest : Text} {d d' : Disk} {path : Path}
    (h : o.write false r dest d = (.ok path, d')) :
    o.resolve dest d = (.ok path, d) ∧ place path r.text d = (.ok (), d') := by
  obtain ⟨path', d₁, hresolve, hrest⟩ := (bind_eq_ok_iff ..).mp h
  have hdisk : d₁ = d := by
    rw [← resolve_disk o dest d, hresolve]
  subst hdisk
  obtain ⟨u, d₂, hplace, hreturn⟩ := (bind_eq_ok_iff ..).mp hrest
  cases hreturn
  exact ⟨hresolve, hplace⟩

/-- The written text is read back from the path that is answered. -/
theorem read_of_write {o : OutputSettings} {r : Outcome} {dest : Text} {d d' : Disk} {path : Path}
    (h : o.write false r dest d = (.ok path, d')) :
    d'.read path.text = .ok (Text.Utf8.encode r.text) :=
  read_of_place (write_eq_ok h).2

end LuaTidy.OutputSettings
