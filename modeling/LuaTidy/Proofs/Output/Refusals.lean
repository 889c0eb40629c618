import LuaTidy.Proofs.Output.ReportPlace

/-!
Why outputs cannot be written. Where no name holds a NUL, and the suffix for reports no slash either,
an output or a report that cannot be written has been refused by the system.
-/
namespace LuaTidy

namespace Path

/-- A path without NUL characters. -/
def NulFree (p : Path) : Prop := ∀ n ∈ p.parts, '\x00' ∉ n

theorem nulFree_ofText {s : Text} (h : '\x00' ∉ s) : (ofText s).NulFree := fun _ hn hmem =>
  h (Text.mem_of_mem_splitAt (List.mem_filter.mp hn).1 hmem)

namespace NulFree

variable {p : Path}

theorem join (h : p.NulFree) {below : Text} (hbelow : '\x00' ∉ below) : (p.join below).NulFree := by
  rw [Path.join]
  split
  · intro n hn
    rcases List.mem_append.mp hn with hn | hn
    · exact h n hn
    · exact nulFree_ofText hbelow n hn
  · exact nulFree_ofText hbelow

theorem parent (h : p.NulFree) : p.parent.NulFree := fun n hn => h n (List.dropLast_subset _ hn)

theorem dropLast_append (h : p.NulFree) {n : Text} (hn : '\x00' ∉ n) :
    NulFree { p with parts := p.parts.dropLast ++ [n] } := by
  intro m hm
  rcases List.mem_append.mp hm with hm | hm
  · exact h.parent m hm
  · rwa [List.mem_singleton.mp hm]

theorem not_mem_text (h : p.NulFree) (hroot : IsRoot p.root) : '\x00' ∉ p.text := by
  rw [Path.text]
  split
  · decide
  · intro hmem
    rcases List.mem_append.mp hmem with hmem | hmem
    · rcases hroot with hr | hr | hr
      all_goals
        rw [hr] at hmem
        revert hmem
        decide
    · rcases Text.mem_joinWith hmem with hmem | ⟨n, hn, hmem⟩
      · revert hmem
        decide
      · exact h n hn hmem

end NulFree

/-- A name without slashes that begins like the last part of a path is a name. -/
theorem isName_append {n suffix : Text} (hn : n ≠ []) (hdot : n ≠ ['.']) (hslash : '/' ∉ n)
    (hsuffix : '/' ∉ suffix) : isName (n ++ suffix) = true := by
  have hfree : '/' ∉ n ++ suffix := by
    rw [List.mem_append]
    exact fun h => h.elim hslash hsuffix
  have hfirst : n ++ suffix ≠ ['.'] := by
    intro he
    rcases List.append_eq_singleton_iff.mp he with ⟨h, -⟩ | ⟨h, -⟩
    · exact hn h
    · exact hdot h
  have hroot : rootOf (n ++ suffix) = [] :=
    rootOf_append (.inl rfl) fun h => hfree (List.mem_of_head? h)
  have hparts : partsOf (n ++ suffix) = [n ++ suffix] := by
    rw [partsOf_eq, Disk.steps_of_not_mem (by simp [hn]) hfree]
    simp [hfirst]
  have hlast : ((n ++ suffix).getLast? != some '/') = true :=
    bne_iff_ne.mpr fun h => hfree (List.mem_of_getLast? h)
  rw [isName, hroot, hparts, hlast]
  rfl

/-- A suffix without NUL and slash gives a path another name, which has none either. -/
theorem exists_withName {p : Path} (hp : p.Normal) (hfree : p.NulFree) (hmem : p.name ∈ p.parts)
    {suffix : Text} (hnul : '\x00' ∉ suffix) (hslash : '/' ∉ suffix) :
    ∃ q, p.withName (p.name ++ suffix) = .ok q ∧ IsRoot q.root ∧ q.NulFree := by
  obtain ⟨hne, hdot, hname⟩ := hp.parts _ hmem
  have hclear : '\x00' ∉ p.name ++ suffix := by
    rw [List.mem_append]
    exact fun h => h.elim (hfree _ hmem) hnul
  refine ⟨{ p with parts := p.parts.dropLast ++ [p.name ++ suffix] }, ?_, hp.root,
    hfree.dropLast_append hclear⟩
  rw [withName, if_neg (by simpa using hne), if_pos (isName_append hne hdot hname hslash)]

/-- What leads to a file has a last part. -/
theorem name_mem_of_read {p : Path} (hroot : IsRoot p.root) {d : Disk} {content : Text.Utf8.Bytes}
    (h : d.read p.text = .ok content) : p.name ∈ p.parts := by
  cases hlast : p.parts.getLast? with
  | some n => exact List.mem_of_getLast? (by rw [Path.name, hlast, Option.getD_some])
  | none =>
    -- a path without parts leads to a directory
    exfalso
    obtain ⟨root, parts⟩ := p
    obtain rfl : parts = [] := List.getLast?_eq_none_iff.mp hlast
    obtain ⟨q, hq, hfile⟩ := (Disk.read_eq_ok_iff ..).mp h
    obtain ⟨-, hwalk⟩ := (Disk.locate_eq_ok_iff ..).mp hq
    have hdirectory : d.node? q = some .directory := by
      rcases hroot with hr | hr | hr
      · obtain rfl : root = _ := hr
        have hdots : ∀ m ∈ Disk.steps (Path.text ⟨[], []⟩), m = ['.'] := by decide
        obtain ⟨rfl, hdirectory⟩ := Disk.walk_dots hdots hwalk
        exact hdirectory (by decide)
      all_goals
        obtain rfl : root = _ := hr
        cases hwalk
        rfl
    rw [hfile] at hdirectory
    cases hdirectory

end Path

namespace Disk

variable {d : Disk} {path : Text}

theorem locate_ne_nul (h : '\x00' ∉ path) (d : Disk) : d.locate path ≠ .error .nul := by
  rw [locate, if_neg (by simpa using h)]
  split
  · simp
  · simp only
    split <;> simp

theorem read_ne_nul (h : '\x00' ∉ path) (d : Disk) : d.read path ≠ .error .nul := by
  rw [read, stat]
  cases hplace : d.locate path with
  | error e =>
    rintro ⟨⟩
    exact locate_ne_nul h d hplace
  | ok p =>
    cases hnode : d.node? p with
    | none => simp [hnode]
    | some n => cases n <;> simp [hnode]

theorem isDirectory?_ne_nul (d : Disk) (path : Text) : d.isDirectory? path ≠ .error .nul := by
  rw [isDirectory?, ask]
  split <;> simp

end Disk

namespace FileOp
open Disk

variable {path : Text}

theorem makeDirectory_ne_nul (h : '\x00' ∉ path) (d : Disk) :
    (makeDirectory path d).1 ≠ .error .nul := by
  rw [makeDirectory]
  split
  · next e he =>
    rintro ⟨⟩
    exact locate_ne_nul h d he
  · split <;> simp

theorem unlessThere_ne_nul {e : FileError} (he : e ≠ .nul) (path : Text) (d : Disk) :
    (unlessThere path e d).1 ≠ .error .nul := by
  cases e with
  | nul => exact absurd rfl he
  | refused why p =>
    cases h : d.isDirectory? path with
    | ok there => cases there <;> simp [unlessThere, h]
    | error e' =>
      have he' : e' ≠ .nul := fun hnul => isDirectory?_ne_nul d path (hnul ▸ h)
      simpa [unlessThere, h] using he'

theorem makeDirectoriesFrom_ne_nul {root : Text} (hroot : Path.IsRoot root) {rest : List Text}
    (h : ∀ n ∈ rest, '\x00' ∉ n) (d : Disk) :
    (makeDirectoriesFrom root rest d).1 ≠ .error .nul := by
  have hmake : ∀ {parts : List Text} {d d' : Disk} {e : FileError}, (∀ n ∈ parts, '\x00' ∉ n) →
      makeDirectory (Path.text ⟨root, parts⟩) d = (.error e, d') → e ≠ .nul := by
    rintro parts d d' _ hparts he rfl
    exact makeDirectory_ne_nul (Path.NulFree.not_mem_text (p := ⟨root, parts⟩) hparts hroot) d
      (congrArg Prod.fst he)
  induction rest generalizing d with
  | nil =>
    simp only [makeDirectoriesFrom]
    split
    · next he => exact unlessThere_ne_nul (hmake (by simp) he) _ _
    · exact makeDirectory_ne_nul (Path.NulFree.not_mem_text (by simp [Path.NulFree]) hroot) d
  | cons last above ih =>
    have hparts : ∀ n ∈ above.reverse ++ [last], '\x00' ∉ n := by
      simpa [or_imp, forall_and, and_comm] using h
    simp only [makeDirectoriesFrom]
    split
    · simp
    · next d' he =>
      have habove := ih (fun n hn => h n (List.mem_cons_of_mem _ hn)) d'
      split
      · next hab => rwa [hab] at habove
      · split
        · simp
        · simp
        · next hagain => exact unlessThere_ne_nul (hmake hparts hagain) _ _
    · next he => exact unlessThere_ne_nul (hmake hparts he) _ _

theorem write_ne_nul (h : '\x00' ∉ path) (content : Text.Utf8.Bytes) (d : Disk) :
    (write path content d).1 ≠ .error .nul := by
  rw [write]
  split
  · next e he =>
    rintro ⟨⟩
    exact locate_ne_nul h d he
  · split <;> simp

end FileOp

/-- A refusal by the system. -/
def OutputError.IsRefusal (e : OutputError) : Prop := ∃ why path, e = .file (.refused why path)

namespace OutputSettings

variable {o : OutputSettings} {p : Path} {d d' : Disk} {e : OutputError}

theorem isRefusal_of_forOutput {α : Type} {op : FileOp α} (hop : (op d).1 ≠ .error .nul)
    (h : op.forOutput d = (.error e, d')) : e.IsRefusal := by
  rcases ha : op d with ⟨a, d₁⟩
  rw [FileOp.forOutput, ha] at h
  rw [ha] at hop
  cases a with
  | ok a => cases h
  | error e' =>
    cases h
    cases e' with
    | nul => exact absurd rfl hop
    | refused why path => exact ⟨why, path, rfl⟩

theorem isRefusal_of_place (hroot : Path.IsRoot p.root) (hfree : p.NulFree) {s : Text}
    (h : (place p s d).1 = .error e) : e.IsRefusal := by
  have habove : ∀ n ∈ p.parent.parts.reverse, '\x00' ∉ n := fun n hn =>
    hfree.parent n (List.mem_reverse.mp hn)
  have hmake := FileOp.makeDirectoriesFrom_ne_nul hroot habove d
  rcases hparents : (FileOp.makeDirectories p.parent).forOutput d with ⟨a, d₁⟩
  cases a with
  | error e' =>
    rw [place, bind_of_error hparents] at h
    cases h
    exact isRefusal_of_forOutput hmake hparents
  | ok u =>
    rw [place, bind_of_ok hparents] at h
    exact isRefusal_of_forOutput (FileOp.write_ne_nul (hfree.not_mem_text hroot) _ d₁)
      (Prod.ext h rfl)

theorem nulFree_of_resolve {dest : Text} (hdest : '\x00' ∉ dest) (hname : '\x00' ∉ o.filename)
    (h : o.resolve dest d = (.ok p, d')) : p.NulFree := by
  rw [resolve_apply] at h
  have hanswer := congrArg Prod.fst h
  split at hanswer
  · cases hanswer
    exact (Path.nulFree_ofText hdest).join hname
  · cases hanswer
    exact Path.nulFree_ofText hdest
  · cases hanswer

/-- An output that cannot be written is refused by the system, if its name has no NUL. -/
theorem isRefusal_of_write {r : Outcome} {dest : Text} (hdest : '\x00' ∉ dest)
    (hname : '\x00' ∉ o.filename) (h : (o.write false r dest d).1 = .error e) : e.IsRefusal := by
  rcases hresolve : o.resolve dest d with ⟨a, d₁⟩
  cases a with
  | error e' =>
    rw [write, bind_of_error hresolve] at h
    cases h
    rw [resolve_apply] at hresolve
    have hanswer := congrArg Prod.fst hresolve
    split at hanswer
    · cases hanswer
    · cases hanswer
    · next e' he =>
      cases hanswer
      cases e' with
      | nul => exact absurd he (Disk.isDirectory?_ne_nul d _)
      | refused why path => exact ⟨why, path, rfl⟩
  | ok path =>
    rw [write, bind_of_ok hresolve] at h
    rcases hplace : place path r.text d₁ with ⟨a, d₂⟩
    have hrefused := isRefusal_of_place (normal_of_resolve hresolve).root
      (nulFree_of_resolve hdest hname hresolve) (s := r.text) (d := d₁) (e := e)
    simp only [Bool.false_eq_true, if_false] at h
    cases a with
    | error e' =>
      rw [bind_of_error hplace] at h
      cases h
      exact hrefused (congrArg Prod.fst hplace)
    | ok u =>
      rw [bind_of_ok hplace] at h
      cases h

/-- A report on a file that cannot be written is refused by the system, if neither the name of the
file nor the suffix has a NUL, and the suffix no slash. -/
theorem isRefusal_of_writeReport (hp : p.Normal) (hfree : p.NulFree) {content : Text.Utf8.Bytes}
    (hread : d.read p.text = .ok content) (hnul : '\x00' ∉ o.reportSuffix)
    (hslash : '/' ∉ o.reportSuffix) {report : Report}
    (h : (o.writeReport report p.text d).1 = .error e) : e.IsRefusal := by
  obtain ⟨q, hname, hroot, hclear⟩ :=
    Path.exists_withName hp hfree (Path.name_mem_of_read hp.root hread) hnul hslash
  have hpath := reportPath_of_read o hp hread
  rw [hname] at hpath
  rw [writeReport, bind_of_ok hpath] at h
  rcases hplace : place q report.document d with ⟨a, d₁⟩
  cases a with
  | error e' =>
    rw [bind_of_error hplace] at h
    cases h
    exact isRefusal_of_place hroot hclear (congrArg Prod.fst hplace)
  | ok u =>
    rw [bind_of_ok hplace] at h
    cases h

end OutputSettings
end LuaTidy
