import LuaTidy.Proofs.Command.Failures
import LuaTidy.Proofs.Pipeline.Views

/-!
Rejected runs. Four checks come before the stages and before anything is printed or written: the
settings can be loaded, the source can be read, it has more than blanks, and the stages to skip
exist. A run that fails one of them, or whose stages cannot be built, leaves everything as it was.
-/
namespace LuaTidy

namespace Text

theorem dropWhileEnd_eq_nil_iff {p : Char → Bool} {s : Text} :
    dropWhileEnd p s = [] ↔ ∀ c ∈ s, p c = true := by
  simp [dropWhileEnd]

theorem strip_eq_nil_iff (s : Text) : strip s = [] ↔ ∀ c ∈ s, isBlank c = true := by
  rw [strip, trim, dropWhileEnd_eq_nil_iff]
  constructor
  · intro h c hc
    rw [← List.takeWhile_append_dropWhile (p := isBlank) (l := s), List.mem_append] at hc
    exact hc.elim List.mem_takeWhile_imp (h c)
  · exact fun h c hc => h c ((List.dropWhile_sublist _).subset hc)

end Text

namespace Command

variable {α : Type}

/-- What a run works with once it has been admitted. -/
structure Admitted where
  settings : Config
  stages : List Stage
  source : Text

section
variable (around : Surroundings) (explicit file : Option Text) (skip : List Text)

/-- The last check of a run: the stages to skip exist, and the others can be built. -/
def checkStages (settings : Config) (source : Text) : Command Admitted :=
  match settings.selectStages skip with
  | .error e => stagesFailed around.host e
  | .ok stages => return { settings, stages, source }

/-- The checks of a run, in their order. -/
def checks : Command Admitted := do
  let settings ← loadSettings around explicit
  let source ← readSource around file
  if (Text.strip source).isEmpty then
    fail around.host "Please enter some Lua code to deobfuscate"
  checkStages around skip settings source

/-- A run fails one of its checks, or has settings with a margin that is too wide for any run. -/
inductive Rejected (d : Disk) : Prop where
  | settings {e : LoadError} (hload : around.load d explicit = .error e)
  | source {f : Text} {e : FileError} (hfile : file = some f) (hname : f ≠ ['-'])
      (hread : d.read (Path.ofText f).text = .error e)
  | blank {source : Text} (hsource : sourceText around d file = .ok source)
      (hblank : ∀ c ∈ source, Text.isBlank c = true)
  | stage {n : Text} (hn : n ∈ skip) (hunknown : n ∉ StageKind.all.map StageKind.name)
  | margin {cfg : Config} (hload : around.load d explicit = .ok cfg)
      (hmargin : Indentation.fits cfg.formatting.indentWidth = false)

/-- A run passes all its checks, with these settings, stages and source. -/
structure Passes (d : Disk) (a : Admitted) : Prop where
  settings : around.load d explicit = .ok a.settings
  source : sourceText around d file = .ok a.source
  blank : ∃ c ∈ a.source, Text.isBlank c = false
  stages : a.settings.selectStages skip = .ok a.stages

end

/-- What a run does once it has been admitted: run the stages, and deliver the result. -/
def proceed (around : Surroundings) (o : RunOptions) (a : Admitted) : Command Unit := do
  let p := runStages a.stages a.source
  log a.settings around (p.trace.flatMap LogMessage.ofStage)
  if o.progress then putErr ['\n']
  deliverAll a.settings around o p.outcome

theorem load_then_clean (around : Surroundings) (o : RunOptions) (explicit : Option Text) :
    (loadSettings around explicit >>= fun cfg => clean cfg around o) =
      checks around explicit o.file o.skip >>= proceed around o := by
  simp only [checks, bind_assoc]
  congr 1
  funext cfg
  rw [clean_eq]
  congr 1
  funext source
  rw [cleanSource]
  split
  · funext s
    rw [fail_bind, bind_assoc, fail_bind]
  · simp only [checkStages]
    cases cfg.selectStages o.skip with
    | error e =>
      funext s
      cases e with
      | unknown names => exact (fail_bind ..).symm
      | tooWide width => rfl
    | ok stages => rfl

variable {around : Surroundings} {explicit file : Option Text} {skip : List Text}

theorem onlyReads_loadSettings : OnlyReads (loadSettings around explicit) := by
  refine (OnlyReads.look _).bind fun r => OnlyMessages.onlyReads ?_
  split
  · exact .pure _
  · split
    · exact .fail _ _
    · exact .throw _

theorem onlyReads_readSource : OnlyReads (readSource around file) := by
  rw [readSource.eq_def]
  split
  · exact (OnlyMessages.pure _).onlyReads
  · split
    · exact (OnlyMessages.pure _).onlyReads
    · refine (OnlyReads.look _).bind fun r => OnlyMessages.onlyReads ?_
      split
      · exact .pure _
      · exact .throw _
      · exact .fail _ _

theorem onlyMessages_checkStages (cfg : Config) (source : Text) :
    OnlyMessages (checkStages around skip cfg source) := by
  rw [checkStages]
  split
  · exact .stagesFailed _ _
  · exact .pure _

/-- The checks look at the disk and tell what is wrong, and do nothing else. -/
theorem onlyReads_checks : OnlyReads (checks around explicit file skip) := by
  refine onlyReads_loadSettings.bind fun cfg => onlyReads_readSource.bind fun source =>
    OnlyMessages.onlyReads ?_
  split
  · exact (OnlyMessages.fail _ _).bind fun _ => onlyMessages_checkStages cfg source
  · exact onlyMessages_checkStages cfg source

theorem not_rejected_of_passes {d : Disk} {a : Admitted} (h : Passes around explicit file skip d a) :
    ¬ Rejected around explicit file skip d := by
  intro hrejected
  cases hrejected with
  | settings hload =>
    rw [h.settings] at hload
    cases hload
  | source hfile hname hread =>
    have hsource := h.source
    rw [hfile, sourceText, if_neg hname, hread] at hsource
    cases hsource
  | blank hsource hblank =>
    obtain rfl := Except.ok.inj (h.source.symm.trans hsource)
    obtain ⟨c, hc, hvisible⟩ := h.blank
    rw [hblank c hc] at hvisible
    cases hvisible
  | stage hn hunknown =>
    have hstages := h.stages
    rw [Config.selectStages_of_unknown _ skip hn hunknown] at hstages
    cases hstages
  | margin hload hmargin =>
    obtain rfl := Except.ok.inj (h.settings.symm.trans hload)
    rw [Config.fits_of_selectStages h.stages] at hmargin
    cases hmargin

theorem rejected_of_sourceText {d : Disk} {f : Failure} (h : sourceText around d file = .error f) :
    Rejected around explicit file skip d := by
  cases hfile : file with
  | none =>
    rw [hfile] at h
    cases h
  | some name =>
    rw [hfile, sourceText] at h
    split at h
    · cases h
    · next hname =>
      cases hread : d.read (Path.ofText name).text with
      | ok b =>
        rw [hread] at h
        cases h
      | error e => exact .source rfl hname hread

theorem rejected_of_selectStages {cfg : Config} {e : StagesError} {d : Disk}
    (hload : around.load d explicit = .ok cfg) (h : cfg.selectStages skip = .error e) :
    Rejected around explicit file skip d := by
  rcases Config.selectStages_eq_error h with ⟨⟨n, hn, hunknown⟩, -⟩ | ⟨hmargin, -⟩
  · exact .stage hn hunknown
  · exact .margin hload hmargin

/-- A run passes its checks and goes on as it began, or it is rejected and fails. -/
theorem passes_or_rejected (around : Surroundings) (explicit file : Option Text) (skip : List Text)
    (s : Session) :
    (∃ a, Passes around explicit file skip s.disk a ∧
        checks around explicit file skip s = (.ok a, s)) ∨
      Rejected around explicit file skip s.disk ∧
        ∃ f, FailsBy around.host f (checks around explicit file skip s) := by
  rw [checks]
  cases hload : around.load s.disk explicit with
  | error e => exact .inr ⟨.settings hload, _, (failsBy_loadSettings hload).bind _⟩
  | ok cfg =>
    rw [bind_of_ok (loadSettings_of_ok hload)]
    cases hsource : sourceText around s.disk file with
    | error f => exact .inr ⟨rejected_of_sourceText hsource, f, (failsBy_readSource hsource).bind _⟩
    | ok source =>
      rw [bind_of_ok (readSource_of_sourceText hsource)]
      by_cases hblank : Text.strip source = []
      · refine .inr ⟨.blank hsource ((Text.strip_eq_nil_iff source).mp hblank), .blank, ?_⟩
        rw [if_pos (by rw [hblank]; rfl)]
        exact (failsBy_fail (f := .blank) rfl s).bind _
      · rw [if_neg (by simpa using hblank), checkStages]
        cases hselect : cfg.selectStages skip with
        | error e =>
          exact .inr ⟨rejected_of_selectStages hload hselect, _, failsBy_stagesFailed e s⟩
        | ok stages =>
          refine .inl ⟨⟨cfg, stages, source⟩, ⟨hload, hsource, ?_, hselect⟩, rfl⟩
          simpa using mt (Text.strip_eq_nil_iff source).mpr hblank

theorem Failure.exitCode_ending (host : Host) (f : Failure) (s : Session) :
    (Ending.early (f.ending host s).1).exitCode = 1 := by
  rw [Failure.ending]
  split
  · rfl
  · split <;> rfl

/-- A part that only reads and fails ends the whole, which has printed and changed nothing. -/
theorem FailsBy.ends {host : Host} {c : Command α} {f : Failure} {s : Session}
    (h : FailsBy host f (c s))
    (hreads : OnlyReads c) :
    ∃ e t, (Ending.early e).exitCode = 1 ∧ t.out = s.out ∧ t.disk = s.disk ∧
      ∀ next : α → Command Unit, (c >>= next) s = (.error e, t) := by
  obtain ⟨t, ht⟩ := h
  have hout := hreads.out s
  have hdisk := hreads.disk s
  rw [ht] at hout hdisk
  exact ⟨_, _, f.exitCode_ending host t, hout, hdisk, bind_of_error ht⟩

theorem dispatch_of_action {args : List Text} {op : Opening} {a : Action}
    (hopening : opening? args = some op) (haction : action? op.name op.arguments = some a)
    (around : Surroundings) : dispatch around args =
      loadSettings around op.config >>= fun cfg => perform cfg around a := by
  rw [dispatch, hopening]
  simp only [haction]

/-- The checks of a run come before its stages and before all that it prints and writes. If one of
them fails, the run ends with the exit code for errors, nothing is printed, and the disk is as it
was, whatever would have followed; if all of them pass, the rest begins where the run began. -/
theorem rejected_runs_leave_no_trace {args : List Text} {op : Opening} {o : RunOptions}
    (hopening : opening? args = some op) (haction : action? op.name op.arguments = some (.run o))
    (around : Surroundings) (d : Disk) :
    let admission := checks around op.config o.file o.skip
    dispatch around args = admission >>= proceed around o ∧
    (Rejected around op.config o.file o.skip d →
      ∃ e t, execute d around args = (.early e, t) ∧ (Ending.early e).exitCode = 1 ∧ t.out = [] ∧
        t.disk = d ∧ ∀ next : Admitted → Command Unit,
          (admission >>= next) { disk := d } = (.error e, t)) ∧
    (¬ Rejected around op.config o.file o.skip d →
      ∃ a, Passes around op.config o.file o.skip d a ∧ ∀ next : Admitted → Command Unit,
        (admission >>= next) { disk := d } = next a { disk := d }) := by
  intro admission
  have hdispatch : dispatch around args = admission >>= proceed around o := by
    rw [dispatch_of_action hopening haction]
    exact load_then_clean around o op.config
  have hcases := passes_or_rejected around op.config o.file o.skip { disk := d }
  refine ⟨hdispatch, fun hrejected => ?_, fun hpasses => ?_⟩
  · rcases hcases with ⟨a, ha, -⟩ | ⟨-, f, hfails⟩
    · exact absurd hrejected (not_rejected_of_passes ha)
    obtain ⟨e, t, hcode, hout, hdisk, hends⟩ := hfails.ends onlyReads_checks
    refine ⟨e, t, ?_, hcode, hout, hdisk, hends⟩
    rw [execute, hdispatch, hends]
  · rcases hcases with ⟨a, ha, hchecks⟩ | ⟨hrejected, -⟩
    · exact ⟨a, ha, fun next => bind_of_ok hchecks next⟩
    · exact absurd hrejected hpasses

/-- A stage to skip that does not exist, with everything else asked for. -/
theorem rejected_runs_leave_no_trace_unknown_stage :
    let d : Disk := { nodes := [(["in.lua"], .file (Text.Utf8.encode "x = 1"))], working := [] }
    let around : Surroundings := { environment := [("HOME", "home")], input := [], time := "noon" }
    let asked : List Text := ["in.lua", "--output", "new/out.lua", "--report", "--json",
      "--progress", "--verbose", "--skip", "hex", "--skip", "hexes"]
    let args : List Text := "run".toList :: asked
    let op : Opening := { config := none, name := .run, arguments := asked }
    let o : RunOptions :=
      { file := some "in.lua", output := some "new/out.lua", verbose := true, json := true,
        report := true, progress := true, skip := ["hex", "hexes"] }
    let x := execute d around args
    opening? args = some op ∧ action? op.name op.arguments = some (.run o) ∧
      Rejected around op.config o.file o.skip d ∧
      x.1.exitCode = 1 ∧ x.2.out = [] ∧ x.2.disk = d := by
  intro d around asked args op o x
  have hopening : opening? args = some op := by decide +kernel
  have haction : action? op.name op.arguments = some (.run o) := by decide +kernel
  have hrejected : Rejected around op.config o.file o.skip d :=
    .stage (n := "hexes") (by decide) (by decide)
  obtain ⟨-, hrejects, -⟩ := rejected_runs_leave_no_trace hopening haction around d
  obtain ⟨e, t, hx, hcode, hout, hdisk, -⟩ := hrejects hrejected
  have hend : x = (.early e, t) := hx
  rw [hend]
  exact ⟨hopening, haction, hrejected, hcode, hout, hdisk⟩

end Command
end LuaTidy
