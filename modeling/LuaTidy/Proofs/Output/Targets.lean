import LuaTidy.Proofs.Files.Changes
import LuaTidy.Proofs.Output.ReportPlace

/-!
What writing an output and its report changes: the file that the destination stands for, the file
next to it that is named for the report, and directories above them that were not there.
-/
namespace LuaTidy

/-- A path is the parent of another one, or above its parent. -/
def Path.IsAbove (a p : Path) : Prop := a.root = p.root ∧ a.parts <+: p.parent.parts

namespace OutputSettings
open Disk (Changes NoPath)

variable {o : OutputSettings} {F D : Path → Prop} {d : Disk}

/-- Creating the directories above a file changes nothing but what was missing of them. -/
theorem changes_makeParents (p : Path) (d : Disk) :
    Changes NoPath (·.IsAbove p) d ((FileOp.makeDirectories p.parent).forOutput d).2 := by
  have hparents := FileOp.changes_makeDirectoriesFrom p.root p.parent.parts.reverse d
  rwa [List.reverse_reverse] at hparents

theorem changes_place {p : Path} (hF : F p) (hD : ∀ a : Path, a.IsAbove p → D a) (s : Text)
    (d : Disk) : Changes F D d (place p s d).2 := by
  rw [place]
  refine bind_state (R := Changes F D) Changes.trans (fun d => ?_) (fun _ d => ?_) d
  · exact (changes_makeParents p d).mono (fun _ => False.elim) hD
  · exact (FileOp.changes_write p _ d).mono (by rintro _ rfl; exact hF) fun _ => False.elim

/-- Writing an output changes the file that the destination stands for. -/
theorem changes_write {dest : Text} (hF : ∀ p, o.resolve dest d = (.ok p, d) → F p)
    (hD : ∀ p a, o.resolve dest d = (.ok p, d) → Path.IsAbove a p → D a) (r : Outcome) :
    Changes F D d (o.write false r dest d).2 := by
  rcases hresolve : o.resolve dest d with ⟨a, d₁⟩
  obtain rfl : d₁ = d := by rw [← resolve_disk o dest d, hresolve]
  cases a with
  | error e =>
    rw [write, bind_of_error hresolve]
    exact .refl d₁
  | ok p =>
    have hplace := changes_place (hF p hresolve) (fun a => hD p a hresolve) r.text
    rw [write, bind_of_ok hresolve]
    simp only [Bool.false_eq_true, if_false]
    exact bind_state (R := Changes F D) Changes.trans hplace (fun _ d => .refl d) d₁

/-- Writing the report on an output that is there changes the file named for the report. -/
theorem changes_writeReport {p : Path} (hp : p.Normal) {content : Text.Utf8.Bytes}
    (hread : d.read p.text = .ok content)
    (hF : ∀ q, p.withName (p.name ++ o.reportSuffix) = .ok q → F q)
    (hD : ∀ q a, p.withName (p.name ++ o.reportSuffix) = .ok q → Path.IsAbove a q → D a)
    (report : Report) : Changes F D d (o.writeReport report p.text d).2 := by
  have hpath := reportPath_of_read o hp hread
  cases hname : p.withName (p.name ++ o.reportSuffix) with
  | error e =>
    rw [hname] at hpath
    rw [writeReport, bind_of_error hpath]
    exact .refl d
  | ok q =>
    rw [hname] at hpath
    have hplace := changes_place (hF q hname) (fun a => hD q a hname) report.document
    rw [writeReport, bind_of_ok hpath]
    exact bind_state (R := Changes F D) Changes.trans hplace (fun _ d => .refl d) d

end OutputSettings
end LuaTidy
