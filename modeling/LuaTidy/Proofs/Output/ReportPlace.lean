import LuaTidy.Proofs.Output.Placement

/-!
A report goes next to the output, under the output's name and a suffix. If the suffix is not empty,
the report has a place of its own: a longer name is another name, and a suffix of slashes and single
dots would need a directory where the output is.
-/
namespace LuaTidy

namespace Disk

theorem steps_eq_nil_iff (s : Text) : steps s = [] ↔ ∀ c ∈ s, c = '/' := by
  induction s with
  | nil => simp [steps, Text.splitAt]
  | cons c s ih =>
    by_cases hc : c = '/'
    · rw [hc, steps_slash, ih, List.forall_mem_cons]
      simp
    · obtain ⟨p, ps, hp⟩ := Text.exists_splitAt_eq_cons '/' s
      simp [steps, Text.splitAt_cons_of_ne hc hp, hc]

/-- Where a walk through single dots leads, and what it needs to be there. -/
theorem walk_dots {d : Disk} {p q : Place} {dots : List Text} (hdots : ∀ m ∈ dots, m = ['.'])
    (h : d.walk p dots = .ok q) : q = p ∧ (dots ≠ [] → d.node? p = some .directory) := by
  induction dots with
  | nil =>
    cases h
    exact ⟨rfl, fun hne => absurd rfl hne⟩
  | cons m dots ih =>
    obtain rfl := hdots m List.mem_cons_self
    rw [walk] at h
    split at h
    · cases h
    · cases h
    · next hdir =>
      rw [if_neg (by decide), if_pos (by decide)] at h
      exact ⟨(ih (fun n hn => hdots n (List.mem_cons_of_mem _ hn)) h).1, fun _ => hdir⟩

/-- Where one name leads. -/
theorem walk_name {d : Disk} {here p : Place} {n : Text} (hn : n ≠ ['.'])
    (h : d.walk here [n] = .ok p) : p = if n = ['.', '.'] then here.dropLast else here ++ [n] := by
  have hdouble : (".." : Text) = ['.', '.'] := by decide
  have hsingle : ("." : Text) = ['.'] := by decide
  rw [walk, hdouble, hsingle] at h
  split at h
  · cases h
  · cases h
  · split at h
    · next hup =>
      cases h
      rw [if_pos hup]
    · next hup =>
      split at h
      · cases h
      · cases h
        rw [if_neg hup]

/-- A name that is longer than another one is no row of dots. -/
theorem longer_ne_dots {n x : Text} (hn : n ≠ []) (hdot : n ≠ ['.']) (hx : x ≠ []) :
    n ++ x ≠ ['.'] ∧ n ++ x ≠ ['.', '.'] := by
  have hnpos := List.length_pos_iff.mpr hn
  have hxpos := List.length_pos_iff.mpr hx
  refine ⟨fun he => ?_, fun he => ?_⟩
  · have hlength := congrArg List.length he
    rw [List.length_append, List.length_singleton] at hlength
    omega
  · rcases List.append_eq_cons_iff.mp he with ⟨rfl, -⟩ | ⟨m, rfl, hm⟩
    · exact hn rfl
    · cases m with
      | nil => exact hdot rfl
      | cons c m =>
        rw [List.cons_append, List.cons.injEq] at hm
        exact hx (List.append_eq_nil_iff.mp hm.2.symm).2

/-- A longer name leads to no file to which the name leads, nor do single dots behind it. -/
theorem walk_longer_ne {d : Disk} {here p : Place} {n x : Text} {dots : List Text} (hn : n ≠ [])
    (hdot : n ≠ ['.']) (hdots : ∀ m ∈ dots, m = ['.']) (hx : x = [] → dots ≠ [])
    (h : d.walk here [n] = .ok p) {content : Text.Utf8.Bytes}
    (hfile : d.node? p = some (.file content)) : d.walk here ((n ++ x) :: dots) ≠ .ok p := by
  intro h'
  rw [← List.singleton_append] at h'
  obtain ⟨q, hq, htail⟩ := walk_append_eq_ok h'
  obtain ⟨rfl, hdirectory⟩ := walk_dots hdots htail
  by_cases hx' : x = []
  · have hdir := hdirectory (hx hx')
    rw [hfile] at hdir
    cases hdir
  · obtain ⟨hsingle, hdouble⟩ := longer_ne_dots hn hdot hx'
    have hplace := walk_name hsingle hq
    rw [if_neg hdouble, walk_name hdot h] at hplace
    split at hplace
    · have hlength := congrArg List.length hplace
      rw [List.length_dropLast, List.length_append, List.length_singleton] at hlength
      omega
    · exact hx' (by simpa using hplace)

end Disk

namespace Path
open Disk (steps)

theorem getLast?_slashes {s : Text} (h : ∀ c ∈ s, c = '/') : ('/' :: s).getLast? = some '/' := by
  rw [List.getLast?_cons]
  cases hs : s.getLast? with
  | none => rfl
  | some c => rw [h c (List.mem_of_getLast? hs), Option.getD_some]

/-- The names that a name with a suffix leads through: a name that begins like it, and single dots;
there are some if the first name is the old one. -/
theorem steps_name_append {n suffix : Text} (hn : n ≠ []) (hdot : n ≠ ['.']) (hslash : '/' ∉ n)
    (hname : isName (n ++ suffix) = true) (hsuffix : suffix ≠ []) :
    ∃ x dots, steps (n ++ suffix) = (n ++ x) :: dots ∧ (∀ m ∈ dots, m = ['.']) ∧
      (x = [] → dots ≠ []) := by
  by_cases hmem : '/' ∈ suffix
  · obtain ⟨x, y, rfl, hx⟩ := List.eq_append_cons_of_mem hmem
    have hfirst : n ++ x ≠ ['.'] := by
      intro he
      rcases List.append_eq_singleton_iff.mp he with ⟨h, -⟩ | ⟨h, -⟩
      · exact hn h
      · exact hdot h
    have hsteps : steps (n ++ (x ++ '/' :: y)) = (n ++ x) :: steps y := by
      have hfree : '/' ∉ n ++ x := by
        rw [List.mem_append]
        exact fun h => h.elim hslash hx
      rw [← List.append_assoc, Disk.steps_append, Disk.steps_of_not_mem (by simp [hn]) hfree]
      rfl
    simp only [isName, Bool.and_eq_true, decide_eq_true_eq] at hname
    obtain ⟨⟨-, hlength⟩, hlast⟩ := hname
    refine ⟨x, steps y, hsteps, ?_, fun hx => ?_⟩
    · rw [partsOf_eq, hsteps, List.filter_cons_of_pos (by simpa using hfirst), List.length_cons,
        Nat.add_eq_right, List.length_eq_zero_iff, List.filter_eq_nil_iff] at hlength
      intro m hm
      simpa using hlength m hm
    · -- otherwise the name would end in a slash
      rw [Ne, Disk.steps_eq_nil_iff]
      intro hall
      subst hx
      rw [List.nil_append, List.getLast?_append, getLast?_slashes hall] at hlast
      simp at hlast
  · refine ⟨suffix, [], Disk.steps_of_not_mem (by simp [hn]) ?_, by simp, fun h => absurd h hsuffix⟩
    rw [List.mem_append]
    exact fun h => h.elim hslash hmem

theorem withName_eq_ok {p q : Path} {name : Text} (h : p.withName name = .ok q) :
    p.parts = p.parts.dropLast ++ [p.name] ∧ isName name = true ∧
      q = { p with parts := p.parts.dropLast ++ [name] } := by
  rw [withName] at h
  split at h
  · cases h
  · next hname =>
    split at h
    · next hok =>
      cases h
      refine ⟨?_, hok, rfl⟩
      rw [Path.name] at hname ⊢
      cases hlast : p.parts.getLast? with
      | none =>
        rw [hlast] at hname
        exact absurd rfl hname
      | some n => exact (List.dropLast_append_getLast? n hlast).symm
    · cases h

/-- The path with a longer name in place of its last part leads through the other parts first. -/
theorem Normal.steps_longer {p : Path} (hp : p.Normal) {n : Text} (hn : n ≠ [])
    (hhead : n.head? ≠ some '/') (d : Disk) :
    let q : Path := { p with parts := p.parts.dropLast ++ [n] }
    d.start q.text = (if p.root = [] then d.working else []) ∧
      steps q.text = p.parts.dropLast ++ steps n := by
  intro q
  have hparts : ∀ m ∈ q.parts, m ≠ [] ∧ m.head? ≠ some '/' := by
    intro m hm
    rcases List.mem_append.mp hm with hm | hm
    · exact hp.head? m (List.dropLast_subset _ hm)
    · rw [List.mem_singleton.mp hm]
      exact ⟨hn, hhead⟩
  have hne : q.parts ≠ [] := List.append_ne_nil_of_right_ne_nil _ (List.cons_ne_nil _ _)
  have hinit : Normal { p with parts := p.parts.dropLast } :=
    ⟨hp.root, fun m hm => hp.parts m (List.dropLast_subset _ hm)⟩
  refine ⟨start_text hparts hne hp.root d, ?_⟩
  rw [steps_text hparts hne hp.root, List.flatMap_append, hinit.flatMap_steps,
    List.flatMap_singleton]

/-- A longer name leads to another place, where it leads anywhere, if the name leads to a file. -/
theorem locate_withName_ne {p q : Path} (hp : p.Normal) {suffix : Text} (hsuffix : suffix ≠ [])
    (h : p.withName (p.name ++ suffix) = .ok q) {d : Disk} {place : Place}
    {content : Text.Utf8.Bytes} (hplace : d.locate p.text = .ok place)
    (hfile : d.node? place = some (.file content)) : d.locate q.text ≠ .ok place := by
  obtain ⟨hparts, hname, rfl⟩ := withName_eq_ok h
  have hmem : p.name ∈ p.parts := hparts ▸ List.mem_append_right _ List.mem_cons_self
  obtain ⟨hne, hdot, hslash⟩ := hp.parts _ hmem
  have hhead := (hp.head? _ hmem).2
  obtain ⟨x, dots, hsteps, hdots, hx⟩ := steps_name_append hne hdot hslash hname hsuffix
  intro hsame
  -- both paths lead to the same place first
  have hself : p = { p with parts := p.parts.dropLast ++ [p.name] } := by rw [← hparts]
  obtain ⟨hstart, hpath⟩ := hp.steps_longer hne hhead d
  rw [← hself, Disk.steps_of_not_mem hne hslash] at hpath
  rw [← hself] at hstart
  obtain ⟨hstart', hpath'⟩ := hp.steps_longer (n := p.name ++ suffix) (by simp [hne])
    (by rwa [List.head?_append_of_ne_nil _ hne]) d
  rw [Disk.locate_eq_ok_iff, hstart, hpath] at hplace
  rw [Disk.locate_eq_ok_iff, hstart', hpath', hsteps] at hsame
  obtain ⟨here, hhere, hlast⟩ := Disk.walk_append_eq_ok hplace.2
  obtain ⟨here', hhere', hlast'⟩ := Disk.walk_append_eq_ok hsame.2
  obtain rfl : here' = here := Except.ok.inj (hhere'.symm.trans hhere)
  exact Disk.walk_longer_ne hne hdot hdots hx hlast hfile hlast'

end Path

namespace OutputSettings
open Disk (Grows)

theorem reportPath_of_read (o : OutputSettings) {path : Path} (hpath : path.Normal) {d : Disk}
    {content : Text.Utf8.Bytes} (h : d.read path.text = .ok content) :
    o.reportPath path.text d =
      ((path.withName (path.name ++ o.reportSuffix)).mapError .name, d) := by
  rw [reportPath, bind_of_ok (resolve_of_read hpath h)]
  cases path.withName (path.name ++ o.reportSuffix) <;> rfl

/-- A report with a suffix leaves the output as it is, whether it can be written or not. -/
theorem read_of_writeReport {o : OutputSettings} (hsuffix : o.reportSuffix ≠ []) {path : Path}
    (hpath : path.Normal) {d : Disk} {content : Text.Utf8.Bytes}
    (h : d.read path.text = .ok content) (r : Report) :
    (o.writeReport r path.text d).2.read path.text = .ok content := by
  have hreport := reportPath_of_read o hpath h
  cases hname : path.withName (path.name ++ o.reportSuffix) with
  | error e =>
    rw [hname] at hreport
    rwa [writeReport, bind_of_error hreport]
  | ok q =>
    rw [hname] at hreport
    rw [writeReport, bind_of_ok hreport]
    obtain ⟨p, hp, hfile⟩ := (Disk.read_eq_ok_iff ..).mp h
    have hapart : ∀ d', Grows d d' → d'.locate q.text ≠ .ok p := fun d' hgrows =>
      Path.locate_withName_ne hpath hsuffix hname (hgrows.keepsDirectories.locate hp)
        (hgrows.node p _ hfile)
    have hkeep := read_place_of_apart hp hfile hapart r.document
    rcases hplace : place q r.document d with ⟨a, d'⟩
    rw [hplace] at hkeep
    cases a with
    | error e => rwa [bind_of_error hplace]
    | ok u => rwa [bind_of_ok hplace]

/-- Whether a report can be written, and where, does not depend on what it tells. -/
theorem writeReport_answer (o : OutputSettings) (r r' : Report) (dest : Text) (d : Disk) :
    (o.writeReport r dest d).1 = (o.writeReport r' dest d).1 := by
  rcases h : o.reportPath dest d with ⟨a, d'⟩
  cases a with
  | error e => rw [writeReport, writeReport, bind_of_error h, bind_of_error h]
  | ok q =>
    rw [writeReport, writeReport, bind_of_ok h, bind_of_ok h]
    have hsame := place_answer q r.document r'.document d'
    rcases hplace : place q r.document d' with ⟨a, d₁⟩
    rcases hplace' : place q r'.document d' with ⟨a', d₂⟩
    rw [hplace, hplace'] at hsame
    obtain rfl : a = a' := hsame
    cases a with
    | error e => rw [bind_of_error hplace, bind_of_error hplace']
    | ok u => rw [bind_of_ok hplace, bind_of_ok hplace']; rfl

end OutputSettings
end LuaTidy
