import LuaTidy.Proofs.Output.ReportPlace

/-!
Where a report goes. It lies in the directory of the output, under the output's name with the suffix,
and both can be read there, unless the suffix is empty: then the report takes the output's place.
-/
namespace LuaTidy

namespace Disk

/-- A text with one step and no slash at either end is that step. -/
theorem eq_of_steps_eq_singleton {m n : Text} (hhead : m.head? ≠ some '/')
    (hlast : m.getLast? ≠ some '/') (h : steps m = [n]) : m = n := by
  by_cases hmem : '/' ∈ m
  · exfalso
    obtain ⟨s, t, rfl, hs⟩ := List.eq_append_cons_of_mem hmem
    have hne : s ≠ [] := by
      rintro rfl
      exact hhead rfl
    rw [steps_append, steps_of_not_mem hne hs, List.singleton_append, List.cons.injEq,
      steps_eq_nil_iff] at h
    rw [List.getLast?_append, Path.getLast?_slashes h.2] at hlast
    exact hlast rfl
  · have hne : m ≠ [] := by
      rintro rfl
      cases h
    rw [steps_of_not_mem hne hmem, List.cons.injEq] at h
    exact h.1

end Disk

namespace Path
open Disk (steps)

/-- A longer name that leads to a file has no slashes: what would follow on them needs a directory
where the file is. -/
theorem slash_not_mem_of_read {p q : Path} (hp : p.Normal) {suffix : Text}
    (h : p.withName (p.name ++ suffix) = .ok q) {d : Disk} {content : Text.Utf8.Bytes}
    (hread : d.read q.text = .ok content) : '/' ∉ suffix := by
  by_cases hsuffix : suffix = []
  · rw [hsuffix]
    exact List.not_mem_nil
  obtain ⟨hparts, hname, rfl⟩ := withName_eq_ok h
  have hmem : p.name ∈ p.parts := hparts ▸ List.mem_append_right _ List.mem_cons_self
  obtain ⟨hne, hdot, hslash⟩ := hp.parts _ hmem
  have hhead : (p.name ++ suffix).head? ≠ some '/' := by
    rw [List.head?_append_of_ne_nil _ hne]
    exact (hp.head? _ hmem).2
  have hlast : (p.name ++ suffix).getLast? ≠ some '/' := by
    simp only [isName, Bool.and_eq_true, bne_iff_ne] at hname
    exact hname.2
  obtain ⟨x, dots, hsteps, hdots, -⟩ := steps_name_append hne hdot hslash hname hsuffix
  obtain ⟨place, hplace, hfile⟩ := (Disk.read_eq_ok_iff ..).mp hread
  obtain ⟨-, hpath⟩ := hp.steps_longer (by simp [hne]) hhead d
  rw [Disk.locate_eq_ok_iff, hpath, hsteps] at hplace
  obtain ⟨here, -, hrest⟩ := Disk.walk_append_eq_ok hplace.2
  rw [← List.singleton_append] at hrest
  obtain ⟨there, -, hend⟩ := Disk.walk_append_eq_ok hrest
  obtain ⟨rfl, hdirectory⟩ := Disk.walk_dots hdots hend
  have hnodots : dots = [] := by
    by_contra hdots
    rw [hdirectory hdots] at hfile
    cases hfile
  rw [hnodots] at hsteps
  have hfree : '/' ∉ p.name ++ suffix := by
    rw [Disk.eq_of_steps_eq_singleton hhead hlast hsteps]
    exact (Disk.not_mem_of_mem_steps (hsteps ▸ List.mem_cons_self)).2
  exact fun hmem => hfree (List.mem_append_right _ hmem)

end Path

namespace OutputSettings

variable {o : OutputSettings} {r : Outcome} {report : Report} {dest : Text} {d d₁ d₂ : Disk}
  {p q : Path}

/-- A report on a file is put under the file's name with the suffix. -/
theorem writeReport_eq_ok (hp : p.Normal) {content : Text.Utf8.Bytes}
    (hread : d.read p.text = .ok content) (h : o.writeReport report p.text d = (.ok q, d₁)) :
    p.withName (p.name ++ o.reportSuffix) = .ok q ∧ place q report.document d = (.ok (), d₁) := by
  have hpath := reportPath_of_read o hp hread
  obtain ⟨q', d', hreport, hrest⟩ := (bind_eq_ok_iff ..).mp h
  obtain ⟨u, d'', hplace, hreturn⟩ := (bind_eq_ok_iff ..).mp hrest
  cases hreturn
  rw [hpath] at hreport
  cases hname : p.withName (p.name ++ o.reportSuffix) with
  | error e =>
    rw [hname] at hreport
    cases hreport
  | ok q' =>
    rw [hname] at hreport
    cases hreport
    exact ⟨rfl, hplace⟩

/-- The report lies next to the output, under the name of the output and the suffix, which is a name
without slashes. Both hold what was written, unless the suffix is empty: that is when the report is
written over the output. -/
theorem report_beside_output (hwrite : o.write false r dest d = (.ok p, d₁))
    (hreport : o.writeReport report p.text d₁ = (.ok q, d₂)) :
    q.parent = p.parent ∧ q.name = p.name ++ o.reportSuffix ∧ '/' ∉ o.reportSuffix ∧
      (q = p ↔ o.reportSuffix = []) ∧
      d₂.read q.text = .ok (Text.Utf8.encode report.document) ∧
      (o.reportSuffix ≠ [] → d₂.read p.text = .ok (Text.Utf8.encode r.text)) := by
  have hnormal := normal_of_resolve (write_eq_ok hwrite).1
  have hread := read_of_write hwrite
  obtain ⟨hname, hplace⟩ := writeReport_eq_ok hnormal hread hreport
  have hbeside := read_of_place hplace
  obtain ⟨hparts, -, rfl⟩ := Path.withName_eq_ok hname
  refine ⟨?_, ?_, Path.slash_not_mem_of_read hnormal hname hbeside, ?_, hbeside, fun hsuffix => ?_⟩
  · simp [Path.parent]
  · simp [Path.name]
  · constructor
    · intro he
      have hlast := congrArg Path.name he
      simpa [Path.name] using hlast
    · intro hsuffix
      rw [hsuffix, List.append_nil, ← hparts]
  · have hkeep := read_of_writeReport hsuffix hnormal hread report
    rwa [hreport] at hkeep

/-- A report in a directory, next to an output that a directory stands for. -/
theorem report_beside_output_in_directory :
    let o : OutputSettings := {}
    let r : Outcome := ⟨"x = 'é'", []⟩
    let report : Report := { source := none, outcome := r, time := "noon" }
    let d : Disk := { nodes := [(["out"], .directory)], working := [] }
    let p := Path.ofText "out/deobfuscated.lua"
    let q := Path.ofText "out/deobfuscated.lua.techniques.yaml"
    let d₁ := (o.write false r "out" d).2
    let d₂ := (o.writeReport report p.text d₁).2
    o.write false r "out" d = (.ok p, d₁) ∧ o.writeReport report p.text d₁ = (.ok q, d₂) ∧
      o.reportSuffix ≠ [] ∧ q ≠ p ∧ q.parent = p.parent ∧
      d₂.read p.text = .ok (Text.Utf8.encode r.text) := by
  intro o r report d p q d₁ d₂
  have hpath : (o.write false r "out" d).1 = .ok p := by decide
  have hreportPath : (o.writeReport report p.text d₁).1 = .ok q := by decide
  have hanswer : ∀ {x : Except OutputError Path × Disk} {a}, x.1 = a → x = (a, x.2) := by
    rintro ⟨_, _⟩ _ rfl
    rfl
  have hwrite : o.write false r "out" d = (.ok p, d₁) := hanswer hpath
  have hreport : o.writeReport report p.text d₁ = (.ok q, d₂) := hanswer hreportPath
  have hsuffix : o.reportSuffix ≠ [] := by decide
  obtain ⟨hparent, -, -, hsame, -, hkeep⟩ := report_beside_output hwrite hreport
  exact ⟨hwrite, hreport, hsuffix, fun he => hsuffix (hsame.mp he), hparent, hkeep hsuffix⟩

/-- A report without a suffix takes the place of the output. -/
theorem report_replaces_output :
    let o : OutputSettings := { reportSuffix := [] }
    let r : Outcome := ⟨"x = 1", []⟩
    let report : Report := { source := none, outcome := r, time := "noon" }
    let d : Disk := { nodes := [], working := [] }
    let p := Path.ofText "out.lua"
    let d₁ := (o.write false r "out.lua" d).2
    let d₂ := (o.writeReport report p.text d₁).2
    (o.write false r "out.lua" d).1 = .ok p ∧ (o.writeReport report p.text d₁).1 = .ok p ∧
      d₁.read p.text = .ok (Text.Utf8.encode r.text) ∧
      d₂.read p.text = .ok (Text.Utf8.encode report.document) ∧
      d₂.read p.text ≠ .ok (Text.Utf8.encode r.text) := by
  decide

end OutputSettings
end LuaTidy
