import LuaTidy.Proofs.Command.Channels
import LuaTidy.Proofs.Text.LineEnds

/-!
The two sources of a clean-up. A file is cleaned up like the same bytes on standard input once
their line ends are unified: the command ends alike, prints alike, and writes alike. Reports tell
the name of the file and are left out of the comparison.
-/
namespace LuaTidy.Command

variable {α β : Type}

/-- Two ends of a command that are alike but for the disk. -/
structure Alike (x y : Except EarlyEnd α × Session) : Prop where
  answer : x.1 = y.1
  out : x.2.out = y.2.out
  err : x.2.err = y.2.err

theorem Alike.refl (x : Except EarlyEnd α × Session) : Alike x x := ⟨rfl, rfl, rfl⟩

theorem OnlyMessages.alike {c : Command α} (h : OnlyMessages c) (s : Session) (d : Disk) :
    Alike (c s) (c { s with disk := d }) := by
  rw [h.of_disk s d]
  exact ⟨rfl, rfl, rfl⟩

theorem Alike.bind {x y : Command α} {f : α → Command β} {s t : Session} (h : Alike (x s) (y t))
    (hf : ∀ a, OnlyMessages (f a)) : Alike ((x >>= f) s) ((y >>= f) t) := by
  rcases hx : x s with ⟨r, s'⟩
  rcases hy : y t with ⟨r', t'⟩
  rw [hx, hy] at h
  obtain ⟨hanswer, hout, herr⟩ := h
  obtain rfl : r = r' := hanswer
  have ht : t' = { s' with disk := t'.disk } := by
    cases s'; cases t'; cases hout; cases herr; rfl
  cases r with
  | ok a =>
    rw [bind_of_ok hx, bind_of_ok hy, ht]
    exact (hf a).alike s' _
  | error e =>
    rw [bind_of_error hx, bind_of_error hy]
    exact ⟨rfl, hout, herr⟩

/-- Two ends of a clean-up that are alike, with the same bytes in the output file. -/
structure Agree (cfg : Config) (output? : Option Text) (d : Disk)
    (x y : Except EarlyEnd Unit × Session) : Prop extends Alike x y where
  output : ∀ dest path, output? = some dest → cfg.output.resolve dest d = (.ok path, d) →
    x.2.disk.read path.text = y.2.disk.read path.text

theorem Agree.of_eq {cfg : Config} {output? : Option Text} {d : Disk}
    {x y : Except EarlyEnd Unit × Session} (h : x = y) : Agree cfg output? d x y := by
  subst h
  exact ⟨.refl x, fun _ _ _ _ => rfl⟩

section
variable (cfg : Config) (around : Surroundings) (o : RunOptions) (r : Outcome) (dest : Text)
  (g : Option Text) (input : Text.Utf8.Bytes)

theorem alike_deliver (s : Session) :
    Alike (deliver cfg around o r dest s)
      (deliver cfg { around with input } { o with file := g } r dest s) := by
  rcases h : cfg.output.write false r dest s.disk with ⟨a, d⟩
  cases a with
  | error e =>
    rw [deliver_of_error h, deliver_of_error h]
    exact .refl _
  | ok path =>
    cases hreport : o.report || cfg.output.report with
    | false =>
      rw [deliver_of_no_report h hreport, deliver_of_no_report (o := { o with file := g }) h hreport]
      exact .refl _
    | true =>
      rw [deliver_of_report h hreport, deliver_of_report (o := { o with file := g }) h hreport,
        OutputSettings.writeReport_answer _ (reported around o r)
          (reported { around with input } { o with file := g } r)]
      exact (onlyMessages_afterReport cfg around dest path _).alike _ _

/-- The output file has the same bytes whether the source has a name or not. -/
theorem read_deliver (s : Session) {path : Path}
    (hpath : cfg.output.resolve dest s.disk = (.ok path, s.disk))
    (hsuffix : (o.report || cfg.output.report) = true → cfg.output.reportSuffix ≠ []) :
    (deliver cfg around o r dest s).2.disk.read path.text =
      (deliver cfg { around with input } { o with file := g } r dest s).2.disk.read path.text := by
  rcases h : cfg.output.write false r dest s.disk with ⟨a, d⟩
  cases a with
  | error e => rw [deliver_of_error h, deliver_of_error h]
  | ok path' =>
    have hsame : path' = path := by
      have hresolve := (OutputSettings.write_eq_ok h).1.symm.trans hpath
      cases hresolve
      exact rfl
    subst hsame
    rw [read_of_deliver h hsuffix, read_of_deliver (o := { o with file := g }) h hsuffix]

theorem alike_toDestination (s : Session) :
    Alike (toDestination cfg around o r s)
      (toDestination cfg { around with input } { o with file := g } r s) := by
  rw [toDestination, toDestination]
  cases o.output with
  | none => exact .refl _
  | some dest => exact alike_deliver ..

theorem agree_deliverAll (s : Session)
    (hsuffix : (o.report || cfg.output.report) = true → cfg.output.reportSuffix ≠ []) :
    Agree cfg o.output s.disk (deliverAll cfg around o r s)
      (deliverAll cfg { around with input } { o with file := g } r s) where
  toAlike := by
    rw [deliverAll_eq, deliverAll_eq]
    exact (alike_toDestination cfg around o r g input _).bind fun _ => onlyMessages_details around o r
  output := fun dest path houtput hpath => by
    rw [disk_deliverAll houtput, disk_deliverAll (o := { o with file := g }) houtput]
    exact read_deliver cfg around o r dest g input _ hpath hsuffix

/-- Once the sources are the same, only a report can tell where they come from. -/
theorem agree_cleanSource (source : Text) (s : Session)
    (hsuffix : (o.report || cfg.output.report) = true → cfg.output.reportSuffix ≠ []) :
    Agree cfg o.output s.disk (cleanSource cfg around o source s)
      (cleanSource cfg { around with input } { o with file := g } source s) := by
  by_cases hsource : Text.strip source = []
  · exact .of_eq (by rw [cleanSource_of_blank hsource, cleanSource_of_blank hsource])
  · cases hrun : cfg.run o.skip source with
    | error e =>
      refine .of_eq ?_
      rw [cleanSource_of_no_run hsource hrun,
        cleanSource_of_no_run (o := { o with file := g }) hsource hrun]
    | ok p =>
      rw [cleanSource_of_run hsource hrun,
        cleanSource_of_run (o := { o with file := g }) hsource hrun]
      exact agree_deliverAll cfg around o p.outcome g input (announced cfg around o p s) hsuffix

end

/-- A file is cleaned up like its bytes on standard input once their line ends are unified, which
leaves alone those bytes exactly that have no carriage return among them. -/
theorem file_like_unified_input (cfg : Config) (around : Surroundings) (o : RunOptions)
    (s : Session) {f : Text} (hf : f ≠ ['-']) {b : Text.Utf8.Bytes}
    (hread : s.disk.read (Path.ofText f).text = .ok b) (hreport : o.report = false)
    (hsuffix : cfg.output.report = true → cfg.output.reportSuffix ≠ []) :
    Agree cfg o.output s.disk (perform cfg around (.run { o with file := some f }) s)
        (perform cfg { around with input := Text.Utf8.unifyLineEnds b }
          (.run { o with file := some ['-'] }) s) ∧
      (Text.Utf8.unifyLineEnds b = b ↔ 0x0D ∉ b) := by
  refine ⟨?_, Text.unifyEnds_eq_self_iff (by decide) b⟩
  have hfile : readSource around (some f) s = _ := readSource_of_read hf hread
  rw [Text.Utf8.unifyLineEnds_decodeLenient] at hfile
  rw [perform, perform, clean_of_read (o := { o with file := some f }) hfile,
    clean_of_read (o := { o with file := some ['-'] }) readSource_dash]
  exact agree_cleanSource cfg around { o with file := some f } (some ['-']) _ _ s
    (by rwa [hreport, Bool.false_or])

/-- A file with a line end of two bytes, and the same with one on standard input. -/
theorem file_like_unified_input_two_byte_end :
    let b := Text.Utf8.encode "x = 1\r\n\r\ny = 2\r\n"
    let d : Disk := { nodes := [(["in.lua"], .file b)], working := [] }
    let around : Surroundings := { environment := [], input := [], time := "noon" }
    let o : RunOptions := { output := some "out.lua" }
    ("in.lua" : Text) ≠ ['-'] ∧ d.read (Path.ofText "in.lua").text = .ok b ∧ o.report = false ∧
      (({} : Config).output.report = true → ({} : Config).output.reportSuffix ≠ []) ∧
      Text.Utf8.unifyLineEnds b = Text.Utf8.encode "x = 1\n\ny = 2\n" ∧
      Agree {} o.output d (perform {} around (.run { o with file := some "in.lua" }) { disk := d })
        (perform {} { around with input := Text.Utf8.unifyLineEnds b }
          (.run { o with file := some ['-'] }) { disk := d }) := by
  intro b d around o
  have hname : ("in.lua" : Text) ≠ ['-'] := by decide
  have hread : d.read (Path.ofText "in.lua").text = .ok b := by decide
  exact ⟨hname, hread, rfl, fun _ => by decide, by decide,
    (file_like_unified_input {} around o { disk := d } hname hread rfl fun _ => by decide).1⟩

/-- Line ends of two bytes count as blanks where they are not unified. -/
theorem file_unlike_input_two_byte_end :
    let b := Text.Utf8.encode "x = 1\r\n\r\ny = 2\r\n"
    let d : Disk := { nodes := [(["in.lua"], .file b)], working := [] }
    let around : Surroundings := { environment := [("HOME", "home")], input := b, time := "noon" }
    execute d around ["run", "in.lua"] = (.done, { disk := d, out := "x = 1\n\ny = 2\n\n" }) ∧
      execute d around ["run", "-"] = (.done, { disk := d, out := "x = 1 y = 2\n" }) := by
  decide +kernel

end LuaTidy.Command
