import LuaTidy.Proofs.Command.Rejections
import LuaTidy.Proofs.Output.Targets

/-!
Calls in a row on one disk. A call changes nothing but the output that its run asks for, the report
on that output, directories above these that were not there, and the file of settings that it is
told to start; so nothing is ever taken away, however many calls there are and however they end.
-/
namespace LuaTidy.Command
open Disk (Changes)

/-- The files that a run may write: the output that it asks for, and the report on it. -/
inductive Outputs (cfg : Config) (o : RunOptions) (d : Disk) : Path → Prop where
  | output {dest : Text} {p : Path} (houtput : o.output = some dest)
      (hresolve : cfg.output.resolve dest d = (.ok p, d)) : Outputs cfg o d p
  | report {dest : Text} {p q : Path} (houtput : o.output = some dest)
      (hresolve : cfg.output.resolve dest d = (.ok p, d))
      (hreport : (o.report || cfg.output.report) = true)
      (hname : p.withName (p.name ++ cfg.output.reportSuffix) = .ok q) : Outputs cfg o d q

namespace Action

/-- The files that an action may write. The file of settings is left alone where it is there,
unless it is to be overwritten. -/
inductive Target (cfg : Config) (d : Disk) : Action → Path → Prop where
  | output {o : RunOptions} {p : Path} (hp : Outputs cfg o d p) : Target cfg d (.run o) p
  | settings {force : Bool}
      (h : force = true ∨ d.exists? Config.projectFile.text = .ok false) :
      Target cfg d (.configInit force) Config.projectFile

/-- The directories that an action may create. -/
inductive Directory (cfg : Config) (d : Disk) : Action → Path → Prop where
  | above {o : RunOptions} {p a : Path} (hp : Outputs cfg o d p) (ha : a.IsAbove p) :
      Directory cfg d (.run o) a

/-- Whether an action may write anything. -/
def mayWrite : Action → Bool
  | .run o => o.output.isSome
  | .configInit _ => true
  | _ => false

end Action

variable {cfg : Config} {around : Surroundings} {o : RunOptions} {r : Outcome} {s : Session}

theorem changes_deliver {dest : Text} (houtput : o.output = some dest) :
    Changes (Action.Target cfg s.disk (.run o)) (Action.Directory cfg s.disk (.run o)) s.disk
      (deliver cfg around o r dest s).2.disk := by
  have hwrite : Changes (Action.Target cfg s.disk (.run o)) (Action.Directory cfg s.disk (.run o))
      s.disk (cfg.output.write false r dest s.disk).2 :=
    OutputSettings.changes_write (fun p hp => .output (.output houtput hp))
      (fun p a hp ha => .above (.output houtput hp) ha) r
  rcases h : cfg.output.write false r dest s.disk with ⟨a, d⟩
  rw [h] at hwrite
  cases a with
  | error e =>
    rw [deliver_of_error h, ((OnlyMessages.outputFailed _ dest e).keeps _).1]
    exact hwrite
  | ok path =>
    cases hreport : o.report || cfg.output.report with
    | false =>
      rw [deliver_of_no_report h hreport, ((OnlyMessages.tell _ _).keeps _).1]
      exact hwrite
    | true =>
      rw [deliver_of_report h hreport, ((onlyMessages_afterReport cfg around dest path _).keeps _).1]
      have hresolve := (OutputSettings.write_eq_ok h).1
      exact hwrite.trans (OutputSettings.changes_writeReport
        (OutputSettings.normal_of_resolve hresolve) (OutputSettings.read_of_write h)
        (fun q hq => .output (.report houtput hresolve hreport hq))
        (fun q a hq ha => .above (.report houtput hresolve hreport hq) ha) _)

theorem disk_deliverAll_of_none (houtput : o.output = none) :
    (deliverAll cfg around o r s).2.disk = s.disk := by
  rw [deliverAll_eq, disk_bind fun _ => onlyMessages_details around o r, toDestination, houtput]
  split
  · exact ((OnlyMessages.tell _ _).keeps _).1
  · rfl

/-- A clean-up leaves the disk alone until it delivers a result. -/
theorem disk_clean (cfg : Config) (around : Surroundings) (o : RunOptions) (s : Session) :
    (clean cfg around o s).2.disk = s.disk ∨ ∃ r t, t.disk = s.disk ∧
      (clean cfg around o s).2.disk = (deliverAll cfg around o r t).2.disk := by
  cases hsource : sourceText around s.disk o.file with
  | error f =>
    left
    obtain ⟨e, t, -, -, hdisk, hends⟩ := (failsBy_readSource hsource).ends onlyReads_readSource
    rw [clean_eq, hends]
    exact hdisk
  | ok source =>
    rw [clean_of_read (readSource_of_sourceText hsource)]
    by_cases hblank : Text.strip source = []
    · rw [cleanSource_of_blank hblank]
      exact .inl ((OnlyMessages.fail _ _).keeps s).1
    · cases hrun : cfg.run o.skip source with
      | error e =>
        rw [cleanSource_of_no_run hblank hrun]
        exact .inl ((OnlyMessages.stagesFailed _ _).keeps s).1
      | ok p =>
        rw [cleanSource_of_run hblank hrun]
        exact .inr ⟨p.outcome, announced cfg around o p s, rfl, rfl⟩

theorem keepsDisk_tellOut (host : Host) (message : Text) : KeepsDisk (tellOut host message) := by
  rw [tellOut]
  split <;> exact fun _ => rfl

theorem keepsDisk_showStages (cfg : Config) : KeepsDisk (showStages cfg) := by
  rw [showStages]
  split <;> exact fun _ => rfl

/-- The settings of a project are started by writing their file, if that may be done. -/
theorem startProject_of_may (host : Host) {force there : Bool}
    (hexists : s.disk.exists? Config.projectFile.text = .ok there)
    (hmay : (there && !force) = false) :
    startProject host force s =
      match FileOp.write Config.projectFile.text (Text.Utf8.encode Config.template) s.disk with
      | (.error e, d) => (.error (.aborted (.file e)), { s with disk := d })
      | (.ok (), d) =>
        tellOut host ("Created " ++ Config.projectFile.text) { s with disk := d } := by
  rw [startProject, bind_of_ok (look_apply _ s), hexists]
  simp only [hmay, Bool.false_eq_true, if_false]
  rw [bind_of_ok (attempt_apply _ _), FileOp.forOutput]
  rcases FileOp.write Config.projectFile.text (Text.Utf8.encode Config.template) s.disk with ⟨a, d⟩
  cases a <;> rfl

/-- The file of settings is written if it is not there, or is to be overwritten. -/
theorem disk_startProject (host : Host) (force : Bool) (s : Session) :
    (startProject host force s).2.disk = s.disk ∨
      (force = true ∨ s.disk.exists? Config.projectFile.text = .ok false) ∧
        (startProject host force s).2.disk = (FileOp.write Config.projectFile.text
          (Text.Utf8.encode Config.template) s.disk).2 := by
  cases hexists : s.disk.exists? Config.projectFile.text with
  | error e =>
    left
    rw [startProject, bind_of_ok (look_apply _ s), hexists]
    rfl
  | ok there =>
    cases hmay : there && !force with
    | true =>
      left
      rw [startProject, bind_of_ok (look_apply _ s), hexists]
      simp only [hmay, if_true]
      exact (keepsDisk_tellOut host _).bind (fun _ _ => rfl) s
    | false =>
      right
      rw [startProject_of_may host hexists hmay]
      refine ⟨?_, ?_⟩
      · cases force with
        | true => exact .inl rfl
        | false => exact .inr (by simpa using hmay)
      rcases FileOp.write Config.projectFile.text (Text.Utf8.encode Config.template) s.disk with
        ⟨a, d⟩
      cases a with
      | error e => rfl
      | ok u => exact keepsDisk_tellOut host _ _

/-- What an action changes, whether it succeeds or not. -/
theorem changes_perform (cfg : Config) (around : Surroundings) (a : Action) (s : Session) :
    Changes (a.Target cfg s.disk) (a.Directory cfg s.disk) s.disk
      (perform cfg around a s).2.disk := by
  cases a with
  | run o =>
    rcases disk_clean cfg around o s with hsame | ⟨r, t, ht, hdeliver⟩
    · rw [perform, hsame]
      exact .refl _
    · rw [perform, hdeliver, ← ht]
      cases houtput : o.output with
      | none =>
        rw [disk_deliverAll_of_none houtput]
        exact .refl _
      | some dest =>
        rw [disk_deliverAll houtput]
        exact changes_deliver (s := { t with out := t.out ++ printed o r }) houtput
  | configInit force =>
    rcases disk_startProject around.host force s with hsame | ⟨hmay, hwrite⟩
    · rw [perform, hsame]
      exact .refl _
    · rw [perform, hwrite]
      refine (FileOp.changes_write Config.projectFile _ s.disk).mono ?_ fun _ => False.elim
      rintro _ rfl
      exact .settings hmay
  | techniques =>
    rw [perform, keepsDisk_showStages cfg s]
    exact .refl _
  | sample => exact .refl _
  | configShow => exact .refl _

theorem disk_perform_of_reading {a : Action} (ha : a.mayWrite = false) (cfg : Config)
    (around : Surroundings) (s : Session) : (perform cfg around a s).2.disk = s.disk := by
  cases a with
  | run o =>
    have houtput : o.output = none := by simpa [Action.mayWrite] using ha
    rcases disk_clean cfg around o s with hsame | ⟨r, t, ht, hdeliver⟩
    · exact hsame
    · rw [perform, hdeliver, disk_deliverAll_of_none houtput, ht]
  | configInit force => cases ha
  | techniques => exact keepsDisk_showStages cfg s
  | sample => rfl
  | configShow => rfl

/-- A row of arguments, and what it is run in. -/
structure Call where
  around : Surroundings
  args : List Text

namespace Call

def diskAfter (c : Call) (d : Disk) : Disk := (execute d c.around c.args).2.disk

/-- A call can be understood, its settings can be loaded, and it comes to perform an action. -/
def Performs (c : Call) (d : Disk) (cfg : Config) (a : Action) : Prop :=
  ∃ op, opening? c.args = some op ∧ action? op.name op.arguments = some a ∧
    c.around.load d op.config = .ok cfg

/-- The files that a call may write. -/
def Target (c : Call) (d : Disk) (p : Path) : Prop :=
  ∃ cfg a, c.Performs d cfg a ∧ a.Target cfg d p

def Directory (c : Call) (d : Disk) (p : Path) : Prop :=
  ∃ cfg a, c.Performs d cfg a ∧ a.Directory cfg d p

theorem diskAfter_eq (c : Call) (d : Disk) :
    c.diskAfter d = (dispatch c.around c.args { disk := d }).2.disk := by
  rw [diskAfter, execute]
  split
  · next h => rw [h]
  · next h => rw [h]

/-- A call leaves the disk as it is unless it comes to perform an action. -/
theorem idle_or_performs (c : Call) (d : Disk) :
    c.diskAfter d = d ∨ ∃ cfg a, c.Performs d cfg a ∧
      c.diskAfter d = (perform cfg c.around a { disk := d }).2.disk := by
  rw [diskAfter_eq, dispatch]
  cases hopening : opening? c.args with
  | none => exact .inl rfl
  | some op =>
    cases hload : c.around.load d op.config with
    | error e =>
      left
      have hfails : FailsBy c.around.host (.settings e)
          (loadSettings c.around op.config { disk := d }) := failsBy_loadSettings hload
      obtain ⟨e', t, -, -, hdisk, hends⟩ := hfails.ends onlyReads_loadSettings
      simp only
      rw [hends]
      exact hdisk
    | ok cfg =>
      have hsettings : loadSettings c.around op.config { disk := d } = (.ok cfg, { disk := d }) :=
        loadSettings_of_ok hload
      simp only
      rw [bind_of_ok hsettings]
      cases haction : action? op.name op.arguments with
      | none => exact .inl rfl
      | some a => exact .inr ⟨cfg, a, ⟨op, hopening, haction, hload⟩, rfl⟩

/-- What one call changes. -/
theorem changes (c : Call) (d : Disk) : Changes (c.Target d) (c.Directory d) d (c.diskAfter d) := by
  rcases c.idle_or_performs d with hsame | ⟨cfg, a, hperforms, hdisk⟩
  · rw [hsame]
    exact .refl d
  · rw [hdisk]
    exact (changes_perform cfg c.around a { disk := d }).mono
      (fun _ hp => ⟨cfg, a, hperforms, hp⟩) fun _ hp => ⟨cfg, a, hperforms, hp⟩

/-- A call that performs nothing that may write leaves the disk as it is. -/
theorem diskAfter_of_reading {c : Call} {d : Disk}
    (h : ∀ cfg a, c.Performs d cfg a → a.mayWrite = false) : c.diskAfter d = d := by
  rcases c.idle_or_performs d with hsame | ⟨cfg, a, hperforms, hdisk⟩
  · exact hsame
  · rw [hdisk, disk_perform_of_reading (h cfg a hperforms)]

end Call

/-- The disk after calls in a row. -/
def diskAfter (d : Disk) (calls : List Call) : Disk := calls.foldl (fun d c => c.diskAfter d) d

theorem diskAfter_append (d : Disk) (calls more : List Call) :
    diskAfter d (calls ++ more) = diskAfter (diskAfter d calls) more := List.foldl_append

theorem diskAfter_concat (d : Disk) (calls : List Call) (c : Call) :
    diskAfter d (calls ++ [c]) = c.diskAfter (diskAfter d calls) := diskAfter_append d calls [c]

/-- However many calls there are, what is there stays there. -/
theorem kept_diskAfter (d : Disk) (calls : List Call) {q : Place} {n : Node}
    (h : d.node? q = some n) :
    ∃ n', (diskAfter d calls).node? q = some n' ∧ (n' = .directory ↔ n = .directory) := by
  induction calls generalizing d n with
  | nil => exact ⟨n, h, Iff.rfl⟩
  | cons c calls ih =>
    obtain ⟨n₁, hn₁, hiff₁⟩ := (c.changes d).kept h
    obtain ⟨n₂, hn₂, hiff₂⟩ := ih (c.diskAfter d) hn₁
    exact ⟨n₂, hn₂, hiff₂.trans hiff₁⟩

/-- What is different after calls in a row has been put there by one of them. -/
theorem exists_call_of_changed {d : Disk} {calls : List Call} {q : Place}
    (h : (diskAfter d calls).node? q ≠ d.node? q) :
    ∃ before c later, calls = before ++ c :: later ∧
      (diskAfter d (before ++ [c])).node? q ≠ (diskAfter d before).node? q ∧
      (diskAfter d calls).node? q = (diskAfter d (before ++ [c])).node? q := by
  induction calls using List.reverseRecOn with
  | nil => exact absurd rfl h
  | append_singleton calls c ih =>
    by_cases hlast : (diskAfter d (calls ++ [c])).node? q = (diskAfter d calls).node? q
    · rw [hlast] at h ⊢
      obtain ⟨before, c', later, rfl, hchanged, hsame⟩ := ih h
      exact ⟨before, c', later ++ [c], by simp, hchanged, hsame⟩
    · exact ⟨calls, c, [], rfl, hlast, rfl⟩

/-- After any calls, what was there is there still, a file as a file and a directory as a directory.
Every call on the way changes its own files and creates its own directories, and nothing else: those
of a run with an output, or the file of settings of the project; a call with no such action changes
nothing. What is different at the end was put there by one of the calls. -/
theorem only_targets_change (d : Disk) (calls : List Call) :
    (∀ q n, d.node? q = some n →
      ∃ n', (diskAfter d calls).node? q = some n' ∧ (n' = .directory ↔ n = .directory)) ∧
    (∀ before c later, calls = before ++ c :: later →
      let d₁ := diskAfter d before
      let d₂ := diskAfter d (before ++ [c])
      Changes (c.Target d₁) (c.Directory d₁) d₁ d₂ ∧
        ((∀ cfg a, c.Performs d₁ cfg a → a.mayWrite = false) → d₂ = d₁)) ∧
    (∀ q, (diskAfter d calls).node? q ≠ d.node? q →
      ∃ before c later, calls = before ++ c :: later ∧
        (diskAfter d (before ++ [c])).node? q ≠ (diskAfter d before).node? q ∧
        (diskAfter d calls).node? q = (diskAfter d (before ++ [c])).node? q) := by
  refine ⟨fun q n h => kept_diskAfter d calls h, fun before c later _ => ?_,
    fun q h => exists_call_of_changed h⟩
  simp only [diskAfter_concat]
  exact ⟨c.changes _, Call.diskAfter_of_reading⟩

end LuaTidy.Command
