import LuaTidy.Proofs.Command.Calls
import LuaTidy.Proofs.Config.StartedFile

/-!
Starting the file of settings afresh. The settings are loaded before any command begins, and the
file that is to be overwritten is one of those that they are loaded from. So it is overwritten if it
could have been used as it was, or if a given file is used in its place; if it is at fault itself,
the command ends with that fault, and the file stays.
-/
namespace LuaTidy.Command
open Disk (Changes NoPath)

variable {around : Surroundings} {d : Disk} {args : List Text} {op : Opening}

theorem tellOut_of_shown {host : Host} {message shown : Text}
    (h : Console.show? host.tags message = .ok shown) (s : Session) :
    tellOut host message s = (.ok (), { s with out := s.out ++ shown }) := by
  rw [tellOut, h]
  rfl

theorem show_created (rules : Console.TagRules) :
    Console.show? rules ("Created " ++ Config.projectFile.text) = .ok "Created luadeob.yaml\n" := by
  rw [Console.show?_of_unmarked (by decide +kernel) (by decide +kernel)]
  decide +kernel

/-- A file that is there is overwritten if that is asked for, and nothing else is changed. -/
theorem startProject_of_read (host : Host) {bytes : Text.Utf8.Bytes}
    (hread : d.read Config.projectFile.text = .ok bytes) :
    ∃ d', startProject host true { disk := d } =
        (.ok (), { disk := d', out := "Created luadeob.yaml\n" }) ∧
      Changes (· = Config.projectFile) NoPath d d' ∧
      d'.read Config.projectFile.text = .ok (Text.Utf8.encode Config.template) := by
  obtain ⟨q, hq, hfile⟩ := (Disk.read_eq_ok_iff ..).mp hread
  have hwrite : FileOp.write Config.projectFile.text (Text.Utf8.encode Config.template) d =
      (.ok (), d.put q (.file (Text.Utf8.encode Config.template))) :=
    (FileOp.write_eq_ok_iff ..).mpr ⟨q, hq, by rw [hfile]; simp, rfl⟩
  refine ⟨_, ?_, ?_, FileOp.read_of_write hwrite⟩
  · have hexists : d.exists? Config.projectFile.text = .ok true := Disk.exists?_of_read hread
    rw [startProject_of_may host hexists rfl, hwrite]
    exact tellOut_of_shown (show_created host.tags) _
  · have hchanges := FileOp.changes_write Config.projectFile (Text.Utf8.encode Config.template) d
    rwa [hwrite] at hchanges

/-- Without settings no command begins, whichever it is. -/
theorem execute_of_load_error {e : LoadError} (hopening : opening? args = some op)
    (hload : around.load d op.config = .error e) :
    (execute d around args).1.exitCode = 1 ∧ (execute d around args).2.out = [] ∧
      (execute d around args).2.disk = d := by
  have hfails : FailsBy around.host (.settings e) (loadSettings around op.config { disk := d }) :=
    failsBy_loadSettings hload
  obtain ⟨e', t, hcode, hout, hdisk, hends⟩ := hfails.ends onlyReads_loadSettings
  rw [execute, dispatch, hopening]
  simp only [hends]
  exact ⟨hcode, hout, hdisk⟩

/-- An existing file of settings is overwritten exactly if the settings can be loaded before. Then
the file holds the defaults, nothing else is changed, and the defaults are what is loaded afterwards
wherever there is a home directory; otherwise the command fails and the file stays. Without a given
file, the settings are what the old file itself says, errors included. -/
theorem overwritten_if_loadable {bytes : Text.Utf8.Bytes} (hopening : opening? args = some op)
    (haction : action? op.name op.arguments = some (.configInit true))
    (hread : d.read Config.projectFile.text = .ok bytes) (around : Surroundings) :
    let load := around.load d op.config
    let x := execute d around args
    (∀ cfg, load = .ok cfg → ∃ d',
      x = (.done, { disk := d', out := "Created luadeob.yaml\n" }) ∧
      Changes (· = Config.projectFile) NoPath d d' ∧
      d'.read Config.projectFile.text = .ok (Text.Utf8.encode Config.template) ∧
      ∀ (host : Host) (env : Environment), Config.UsualHost host →
        Config.load host d' env none = (Config.homeDirectory host env).map fun _ => {}) ∧
    (∀ e, load = .error e → x.1.exitCode = 1 ∧ x.2.out = [] ∧ x.2.disk = d) ∧
    (op.config.getD [] = [] →
      ∀ home, Config.homeDirectory around.host around.environment = .ok home →
        (∀ r, Config.Says around.host d around.environment Config.projectFile r → load = r) ∧
        (Config.PassedOver around.host d Config.projectFile → load =
          Config.firstOf around.host d around.environment
            [{ home with parts := home.parts ++ Config.userFileParts }])) := by
  refine ⟨fun cfg hload => ?_, fun e hload => execute_of_load_error hopening hload,
    fun hgiven home hhome => Config.load_of_projectFile hgiven hhome⟩
  obtain ⟨d', hstart, hchanges, hwritten⟩ := startProject_of_read around.host hread
  have hsettings : loadSettings around op.config { disk := d } = (.ok cfg, { disk := d }) :=
    loadSettings_of_ok hload
  refine ⟨d', ?_, hchanges, hwritten, fun host env hhost => Config.load_started hhost rfl hwritten⟩
  rw [execute, dispatch_of_action hopening haction, bind_of_ok hsettings, perform, hstart]

/-- A file with other settings is overwritten, and the defaults hold from then on. -/
theorem overwritten_if_loadable_other_settings :
    let d : Disk :=
      { nodes := [(["luadeob.yaml"], .file (Text.Utf8.encode "log_level: info\n"))], working := [] }
    let around : Surroundings := { environment := [("HOME", "home")], input := [], time := "noon" }
    let args : List Text := ["config", "init", "--force"]
    let op : Opening := { config := none, name := .config, arguments := ["init", "--force"] }
    opening? args = some op ∧ action? op.name op.arguments = some (.configInit true) ∧
      around.load d none = .ok { logLevel := .info } ∧
      ∃ d', execute d around args = (.done, { disk := d', out := "Created luadeob.yaml\n" }) ∧
        d'.read "luadeob.yaml" = .ok (Text.Utf8.encode Config.template) ∧
        around.load d' none = .ok {} := by
  intro d around args op
  have hopening : opening? args = some op := by decide +kernel
  have haction : action? op.name op.arguments = some (.configInit true) := by decide +kernel
  have hread : d.read Config.projectFile.text = .ok (Text.Utf8.encode "log_level: info\n") := by
    decide +kernel
  have hload : around.load d none = .ok { logLevel := .info } := by
    decide +kernel
  obtain ⟨hovers, -, -⟩ := overwritten_if_loadable hopening haction hread around
  obtain ⟨d', hx, -, hwritten, hdefaults⟩ := hovers _ hload
  exact ⟨hopening, haction, hload, d', hx, hwritten,
    hdefaults around.host around.environment ⟨rfl, rfl, rfl⟩⟩

/-- A file that is no map is not overwritten. -/
theorem faulty_settings_not_overwritten :
    let d : Disk :=
      { nodes := [(["luadeob.yaml"], .file (Text.Utf8.encode "log_level info\n"))], working := [] }
    let around : Surroundings := { environment := [("HOME", "home")], input := [], time := "noon" }
    execute d around ["config", "init", "--force"] = (.early .failed, { disk := d, err :=
      "Error: Invalid config in luadeob.yaml: expected a mapping at top level\n" }) := by
  decide +kernel

end LuaTidy.Command
