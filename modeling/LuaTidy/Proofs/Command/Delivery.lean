import LuaTidy.Proofs.Command.Frames
import LuaTidy.Proofs.Console.Controls
import LuaTidy.Proofs.Json.Documents
import LuaTidy.Proofs.Output.ReportPlace

/-!
Delivering a result. What is printed is decided before anything is written, the written output is
the text of the result, and neither progress, details nor a report with a suffix changes that.
-/
namespace LuaTidy.Command

variable (cfg : Config) (around : Surroundings) (o : RunOptions) (r : Outcome) (dest : Text)

/-- What follows on an output at `path`, once its report has been written or has failed. -/
def afterReport (path : Path) : Except OutputError Path → Command Unit
  | .error e => do
    outputFailed (α := Unit) around.host dest e
    tell around.host ("Written to " ++ path.text)
  | .ok report => do
    log cfg around [.wroteReport report]
    tell around.host ("Report: " ++ report.text)
    tell around.host ("Written to " ++ path.text)

theorem onlyMessages_afterReport (path : Path) (a : Except OutputError Path) :
    OnlyMessages (afterReport cfg around dest path a) := by
  cases a with
  | error e => exact (OnlyMessages.outputFailed _ dest e).bind fun _ => .tell _ _
  | ok report =>
    exact (OnlyMessages.log cfg around _).bind fun _ => (OnlyMessages.tell _ _).bind fun _ => .tell _ _

/-- The session after an output at `path` has been written, with the message about that. -/
def written (path : Path) (d : Disk) (s : Session) : Session :=
  { s with disk := d, err := s.err ++ LogMessage.writeAll cfg around.time [.wrote path r.text] }

def reported : Report := { source := o.file, outcome := r, time := around.time }

/-- What is printed of a result. -/
def printed : Text :=
  if o.json then Console.echo (r.json ++ ['\n'])
  else if o.output.isNone then Console.echo (r.text ++ ['\n'])
  else []

/-- Deliver a result to its destination, if it has one. -/
def toDestination : Command Unit :=
  match o.output with
  | some dest => deliver cfg around o r dest
  | none =>
    if o.report then tell around.host "--report needs --output; no report written." else pure ()

def details : Command Unit := if o.verbose then showTechniques around.host r else pure ()

theorem onlyMessages_details : OnlyMessages (details around o r) := by
  rw [details]
  split
  · exact .showTechniques _ r
  · exact .pure ()

variable {cfg around o r dest} {s : Session} {d : Disk} {path : Path}

theorem deliver_of_error {e : OutputError}
    (h : cfg.output.write false r dest s.disk = (.error e, d)) :
    deliver cfg around o r dest s = outputFailed around.host dest e { s with disk := d } := by
  rw [deliver, bind_of_ok (attempt_apply _ s), h]

theorem deliver_of_no_report (h : cfg.output.write false r dest s.disk = (.ok path, d))
    (hreport : (o.report || cfg.output.report) = false) :
    deliver cfg around o r dest s =
      tell around.host ("Written to " ++ path.text) (written cfg around r path d s) := by
  rw [deliver, bind_of_ok (attempt_apply _ s), h]
  simp only [hreport, Bool.false_eq_true, if_false]
  rfl

theorem deliver_of_report (h : cfg.output.write false r dest s.disk = (.ok path, d))
    (hreport : (o.report || cfg.output.report) = true) :
    deliver cfg around o r dest s =
      afterReport cfg around dest path
        (cfg.output.writeReport (reported around o r) path.text d).1
        { written cfg around r path d s with
          disk := (cfg.output.writeReport (reported around o r) path.text d).2 } := by
  rw [deliver, bind_of_ok (attempt_apply _ s), h]
  simp only [hreport, if_true]
  have hlog : log cfg around [.wrote path r.text] { s with disk := d } =
      (.ok (), written cfg around r path d s) := rfl
  rw [bind_of_ok hlog, bind_of_ok (attempt_apply _ _)]
  rw [afterReport.eq_def]
  rfl

theorem keepsOut_deliver : KeepsOut (deliver cfg around o r dest) := by
  intro s
  rcases h : cfg.output.write false r dest s.disk with ⟨a, d⟩
  cases a with
  | error e =>
    rw [deliver_of_error h]
    exact (OnlyMessages.outputFailed _ dest e).keepsOut _
  | ok path =>
    cases hreport : o.report || cfg.output.report with
    | false =>
      rw [deliver_of_no_report h hreport]
      exact (OnlyMessages.tell _ _).keepsOut _
    | true =>
      rw [deliver_of_report h hreport]
      exact (onlyMessages_afterReport cfg around dest path _).keepsOut _

/-- The output is read back from where it was written, behind all that follows. -/
theorem read_of_deliver (h : cfg.output.write false r dest s.disk = (.ok path, d))
    (hsuffix : (o.report || cfg.output.report) = true → cfg.output.reportSuffix ≠ []) :
    (deliver cfg around o r dest s).2.disk.read path.text = .ok (Text.Utf8.encode r.text) := by
  have hread := OutputSettings.read_of_write h
  cases hreport : o.report || cfg.output.report with
  | false =>
    rw [deliver_of_no_report h hreport, ((OnlyMessages.tell _ _).keeps _).1]
    exact hread
  | true =>
    have hnormal := OutputSettings.normal_of_resolve (OutputSettings.write_eq_ok h).1
    rw [deliver_of_report h hreport, ((onlyMessages_afterReport cfg around dest path _).keeps _).1]
    exact OutputSettings.read_of_writeReport (hsuffix hreport) hnormal hread _

theorem keepsOut_toDestination : KeepsOut (toDestination cfg around o r) := by
  rw [toDestination]
  split
  · exact keepsOut_deliver
  · split
    · exact (OnlyMessages.tell _ _).keepsOut
    · exact (OnlyMessages.pure ()).keepsOut

/-- First the result is printed, then it is written. -/
theorem deliverAll_eq : deliverAll cfg around o r s =
    (toDestination cfg around o r >>= fun _ => details around o r)
      { s with out := s.out ++ printed o r } := by
  rw [deliverAll, printed, toDestination]
  cases o.json with
  | true => cases o.output <;> cases o.report <;> rfl
  | false =>
    cases o.output with
    | none => cases o.report <;> rfl
    | some dest =>
      simp only [Option.isNone_some, Bool.false_eq_true, if_false, List.append_nil]
      rfl

theorem out_deliverAll : (deliverAll cfg around o r s).2.out = s.out ++ printed o r := by
  rw [deliverAll_eq]
  exact keepsOut_toDestination.bind (fun _ => (onlyMessages_details around o r).keepsOut) _

theorem disk_deliverAll (houtput : o.output = some dest) :
    (deliverAll cfg around o r s).2.disk =
      (deliver cfg around o r dest { s with out := s.out ++ printed o r }).2.disk := by
  rw [deliverAll_eq, disk_bind fun _ => onlyMessages_details around o r, toDestination, houtput]

end LuaTidy.Command
