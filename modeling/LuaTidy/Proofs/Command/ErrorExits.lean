import LuaTidy.Proofs.Command.Failures
import LuaTidy.Proofs.Config.Precedence
import LuaTidy.Proofs.Console.ClosingTags
import LuaTidy.Proofs.Output.Refusals
import LuaTidy.Proofs.Pipeline.Views

/-!
Error exits. A run that fails reports it in a message with the heading for errors, unless it ends in
an error that is not handled: for want of a home directory, over a scalar or the depth of a document,
over too wide a margin, a NUL or a slash in a name, or a closing tag in a message.
-/
namespace LuaTidy.Command

/-- The messages about what a run has found: its failure, or the files that it has written. -/
def messages : Except Failure (Option Files) → List Text
  | .error f => ["Error: " ++ f.message]
  | .ok w => notices w

/-- What can make a run end in an error that is not handled. -/
inductive Trap (around : Surroundings) (o : RunOptions) (d : Disk) (explicit : Option Text) : Prop
  /-- No home directory is known, or it is written as someone's home directory. -/
  | home (hexplicit : explicit.getD [] = [])
      (hhome : ∀ home, (around.environment.get? "HOME").or around.host.account = some home →
        home.head? = some '~')
  /-- A file of settings has a scalar that is not of the type that it is declared to have, or that
  is out of range, or it is nested too deeply to be read. -/
  | value {ps : List Path} {p : Path} {bytes : Text.Utf8.Bytes} {s : Text} {e : Yaml.Error}
      (hsearched : Config.searched around.host around.environment explicit = .ok ps) (hp : p ∈ ps)
      (hread : d.read p.text = .ok bytes) (hdecode : Text.Utf8.decode bytes = .ok s)
      (hreader : around.host.reader (Text.unifyLineEnds s) = .error e) (hmalformed : e ≠ .malformed)
      (hvalue : ∀ words, e ≠ .badValue words)
  /-- The value of a file of settings is nested too deeply for its references to be replaced. -/
  | depth {ps : List Path} {p : Path} {bytes : Text.Utf8.Bytes} {s : Text}
      {es : List (Scalar × Value)}
      (hsearched : Config.searched around.host around.environment explicit = .ok ps) (hp : p ∈ ps)
      (hread : d.read p.text = .ok bytes) (hdecode : Text.Utf8.decode bytes = .ok s)
      (hreader : around.host.reader (Text.unifyLineEnds s) = .ok (.map es))
      (hdeep : around.host.overflows (.map es) = true)
  /-- The name of the source has a NUL. -/
  | source {file : Text} (hfile : o.file = some file) (hnul : '\x00' ∈ file)
  /-- The settings ask for a margin that is too wide. -/
  | margin {cfg : Config} (hload : around.load d explicit = .ok cfg)
      (hmargin : Indentation.fits cfg.formatting.indentWidth = false)
  /-- The name of the output has a NUL. -/
  | output {cfg : Config} {dest : Text} (hload : around.load d explicit = .ok cfg)
      (houtput : o.output = some dest)
      (hnul : '\x00' ∈ dest ∨ '\x00' ∈ cfg.output.filename)
  /-- The suffix for reports has a NUL or a slash. -/
  | report {cfg : Config} {dest : Text} (hload : around.load d explicit = .ok cfg)
      (houtput : o.output = some dest)
      (hreport : (o.report || cfg.output.report) = true)
      (hsuffix : '\x00' ∈ cfg.output.reportSuffix ∨ '/' ∈ cfg.output.reportSuffix)
  /-- A message has a tag that closes something. -/
  | tag {m tag : Text} (hm : m ∈ messages (trial around o d explicit))
      (hslash : tag.head? = some '/') (htag : '[' :: (tag ++ [']']) <:+: m)

variable {around : Surroundings} {o : RunOptions} {d : Disk} {explicit : Option Text} {f : Failure}

theorem trap_of_settings {e : LoadError} (h : around.load d explicit = .error e)
    (hf : (Failure.settings e).unhandled? ≠ none) : Trap around o d explicit := by
  rcases Config.load_eq_error h with rfl | hsearched | ⟨ps, p, hsearched, hp, hsays⟩
  · exact absurd rfl hf
  · obtain ⟨-, hexplicit, hhome⟩ : around.load d explicit = .error e ∧ _ :=
      Config.load_of_searched_error hsearched
    exact .home hexplicit ((Config.homeDirectory_eq_error_iff _ _ e).mp hhome).2
  · cases hsays with
    | noValue hread hdecode hreader he =>
      refine .value hsearched hp hread hdecode hreader he ?_
      rintro words rfl
      exact hf rfl
    | tooDeep hread hdecode hreader hdeep => exact .depth hsearched hp hread hdecode hreader hdeep
    | _ => exact absurd rfl hf

theorem trap_of_source (h : sourceText around d o.file = .error f) (hf : f.unhandled? ≠ none) :
    Trap around o d explicit := by
  cases hfile : o.file with
  | none =>
    rw [hfile] at h
    cases h
  | some file =>
    rw [hfile, sourceText] at h
    split at h
    · cases h
    · cases hread : d.read (Path.ofText file).text with
      | ok b =>
        rw [hread] at h
        cases h
      | error e =>
        rw [hread] at h
        cases h
        cases e with
        | refused why path => exact absurd rfl hf
        | nul =>
          refine .source hfile ?_
          by_contra hnul
          exact Disk.read_ne_nul ((Path.nulFree_ofText hnul).not_mem_text (Path.isRoot_rootOf file))
            d hread

theorem unhandled?_of_isRefusal {dest : Text} {e : OutputError} (h : e.IsRefusal) :
    (Failure.output dest e).unhandled? = none := by
  obtain ⟨why, path, rfl⟩ := h
  rfl

theorem trap_of_filesWritten {cfg : Config} {r : Outcome} {dest : Text}
    (hload : around.load d explicit = .ok cfg) (houtput : o.output = some dest)
    (h : filesWritten cfg around o r d dest = .error f) (hf : f.unhandled? ≠ none) :
    Trap around o d explicit := by
  by_cases hnul : '\x00' ∈ dest ∨ '\x00' ∈ cfg.output.filename
  · exact .output hload houtput hnul
  rw [not_or] at hnul
  rcases hwrite : cfg.output.write false r dest d with ⟨a, d₁⟩
  simp only [filesWritten, hwrite] at h
  cases a with
  | error e =>
    cases h
    exact absurd (unhandled?_of_isRefusal (OutputSettings.isRefusal_of_write hnul.1 hnul.2
      (congrArg Prod.fst hwrite))) hf
  | ok path =>
    cases hreport : o.report || cfg.output.report with
    | false =>
      rw [hreport] at h
      cases h
    | true =>
      refine .report hload houtput hreport ?_
      by_contra hsuffix
      rw [not_or] at hsuffix
      rw [hreport] at h
      simp only [if_true] at h
      cases hanswer : (cfg.output.writeReport (reported around o r) path.text d₁).1 with
      | ok q =>
        rw [hanswer] at h
        cases h
      | error e =>
        rw [hanswer] at h
        cases h
        have hresolve := (OutputSettings.write_eq_ok hwrite).1
        exact hf (unhandled?_of_isRefusal (OutputSettings.isRefusal_of_writeReport
          (OutputSettings.normal_of_resolve hresolve)
          (OutputSettings.nulFree_of_resolve hnul.1 hnul.2 hresolve)
          (OutputSettings.read_of_write hwrite) hsuffix.1 hsuffix.2 hanswer))

theorem trap_of_filesAsked {cfg : Config} {r : Outcome}
    (hload : around.load d explicit = .ok cfg)
    (h : filesAsked cfg around o r d = .error f) (hf : f.unhandled? ≠ none) :
    Trap around o d explicit := by
  rw [filesAsked] at h
  cases houtput : o.output with
  | none =>
    rw [houtput] at h
    cases h
  | some dest =>
    rw [houtput] at h
    cases hfiles : filesWritten cfg around o r d dest with
    | ok w =>
      simp only [hfiles] at h
      cases h
    | error f' =>
      simp only [hfiles] at h
      cases h
      exact trap_of_filesWritten hload houtput hfiles hf

theorem trap_of_run {cfg : Config} {e : StagesError} {source : Text}
    (hload : around.load d explicit = .ok cfg) (h : cfg.run o.skip source = .error e)
    (hf : (Failure.stages e).unhandled? ≠ none) : Trap around o d explicit := by
  rcases Config.selectStages_eq_error (Config.selectStages_of_run_eq_error h) with
    ⟨-, rfl⟩ | ⟨hmargin, -⟩
  · exact absurd rfl hf
  · exact .margin hload hmargin

/-- A failure that is not handled has one of the causes. -/
theorem trap_of_trial (h : trial around o d explicit = .error f) (hf : f.unhandled? ≠ none) :
    Trap around o d explicit := by
  rw [trial] at h
  cases hload : around.load d explicit with
  | error e =>
    rw [hload] at h
    cases h
    exact trap_of_settings hload hf
  | ok cfg =>
    simp only [hload] at h
    cases hsource : sourceText around d o.file with
    | error f' =>
      rw [hsource] at h
      cases h
      exact trap_of_source hsource hf
    | ok source =>
      simp only [hsource] at h
      split at h
      · cases h
        exact absurd rfl hf
      · cases hrun : cfg.run o.skip source with
        | error e =>
          rw [hrun] at h
          cases h
          exact trap_of_run hload hrun hf
        | ok p =>
          simp only [hrun] at h
          exact trap_of_filesAsked hload h hf

theorem heading_error : Console.Heading "Error:" := by decide

/-- A failure ends a run in an error that is not handled, or in its message. -/
theorem Failure.ending_cases (host : Host) (f : Failure) (s : Session) :
    ((∃ why, (f.ending host s).1 = .aborted why) ∧
      (f.unhandled? ≠ none ∨ ∃ e, Console.show? host.tags ("Error: " ++ f.message) = .error e)) ∨
    ((f.ending host s).1 = .failed ∧ f.unhandled? = none ∧
      ∃ shown, Console.show? host.tags ("Error: " ++ f.message) = .ok shown ∧
        shown <:+ (f.ending host s).2.err ∧ ("Error:" : Text) <+: shown) := by
  rw [Failure.ending]
  cases hunhandled : f.unhandled? with
  | some why => exact .inl ⟨⟨why, rfl⟩, .inl (by simp)⟩
  | none =>
    cases hshow : Console.show? host.tags ("Error: " ++ f.message) with
    | error e => exact .inl ⟨⟨_, rfl⟩, .inr ⟨e, rfl⟩⟩
    | ok shown =>
      exact .inr ⟨rfl, rfl, shown, rfl, List.suffix_append ..,
        Console.heading_of_show? heading_error hshow⟩

theorem follows_dispatch {args : List Text} {op : Opening} (hopening : opening? args = some op)
    (haction : action? op.name op.arguments = some (.run o)) (around : Surroundings) (s : Session) :
    Follows around.host (trial around o s.disk op.config) (dispatch around args s) := by
  have hdispatch : dispatch around args =
      loadSettings around op.config >>= fun cfg => clean cfg around o := by
    rw [dispatch, hopening]
    simp only [haction]
    rfl
  rw [hdispatch]
  exact follows_run around o op.config s

/-- Either all messages can be shown, or the end is an error that is not handled. -/
theorem Shows.done_or_broken {host : Host} {ms : List Text} {x : Except EarlyEnd Unit × Session}
    (h : Shows host ms x) :
    (x.1 = .ok () ∧ ∀ m ∈ ms, ∃ shown, Console.show? host.tags m = .ok shown) ∨
      ((∃ why, x.1 = .error (.aborted why)) ∧
        ∃ m ∈ ms, ∃ e, Console.show? host.tags m = .error e) := by
  by_cases hall : ∀ m ∈ ms, ∃ shown, Console.show? host.tags m = .ok shown
  · exact .inl ⟨h.done hall, hall⟩
  · push Not at hall
    obtain ⟨m, hm, hshown⟩ := hall
    cases hshow : Console.show? host.tags m with
    | ok shown => exact absurd hshow (hshown shown)
    | error e =>
      obtain ⟨e', he'⟩ := h.broken m hm e hshow
      exact .inr ⟨⟨_, he'⟩, m, hm, e, hshow⟩

section
variable {args : List Text} {op : Opening} (hopening : opening? args = some op)
  (haction : action? op.name op.arguments = some (.run o))
include hopening haction

theorem execute_of_failure (h : trial around o d op.config = .error f) :
    let x := execute d around args
    ((∃ why, x.1 = .early (.aborted why)) ∧
      (f.unhandled? ≠ none ∨
        ∃ e, Console.show? around.host.tags ("Error: " ++ f.message) = .error e)) ∨
    (x.1 = .early .failed ∧ f.unhandled? = none ∧
      ∃ shown, Console.show? around.host.tags ("Error: " ++ f.message) = .ok shown ∧
        shown <:+ x.2.err ∧ ("Error:" : Text) <+: shown) := by
  intro x
  have hfollows := follows_dispatch hopening haction around { disk := d }
  rw [h] at hfollows
  obtain ⟨s, hs⟩ := hfollows
  have hx : x = (.early (f.ending around.host s).1, (f.ending around.host s).2) := by
    simp only [x, execute, hs]
  rw [hx]
  rcases f.ending_cases around.host s with ⟨⟨why, hwhy⟩, hcause⟩ | ⟨hfailed, hshown⟩
  · exact .inl ⟨⟨why, congrArg Ending.early hwhy⟩, hcause⟩
  · exact .inr ⟨congrArg Ending.early hfailed, hshown⟩

theorem execute_of_success {w : Option Files} (h : trial around o d op.config = .ok w) :
    let x := execute d around args
    (x.1 = .done ∧ ∀ m ∈ notices w, ∃ shown, Console.show? around.host.tags m = .ok shown) ∨
      ((∃ why, x.1 = .early (.aborted why)) ∧
        ∃ m ∈ notices w, ∃ e, Console.show? around.host.tags m = .error e) := by
  intro x
  have hfollows := follows_dispatch hopening haction around { disk := d }
  rw [h] at hfollows
  rcases hend : dispatch around args { disk := d } with ⟨a, s⟩
  rw [hend] at hfollows
  rcases hfollows.done_or_broken with ⟨hok, hall⟩ | ⟨⟨why, hwhy⟩, hbroken⟩
  · obtain rfl : a = .ok () := hok
    exact .inl ⟨by simp only [x, execute, hend], hall⟩
  · obtain rfl : a = .error (.aborted why) := hwhy
    exact .inr ⟨⟨why, by simp only [x, execute, hend]⟩, hbroken⟩

theorem done_iff : (execute d around args).1 = .done ↔ ∃ w, trial around o d op.config = .ok w ∧
    ∀ m ∈ notices w, ∃ shown, Console.show? around.host.tags m = .ok shown := by
  constructor
  · intro hend
    cases hfound : trial around o d op.config with
    | error f =>
      rcases execute_of_failure hopening haction hfound with ⟨⟨why, hwhy⟩, -⟩ | ⟨hfailed, -⟩
      · rw [hwhy] at hend
        cases hend
      · rw [hfailed] at hend
        cases hend
    | ok w =>
      rcases execute_of_success hopening haction hfound with ⟨-, hall⟩ | ⟨⟨why, hwhy⟩, -⟩
      · exact ⟨w, rfl, hall⟩
      · rw [hwhy] at hend
        cases hend
  · rintro ⟨w, hfound, hall⟩
    rcases execute_of_success hopening haction hfound with ⟨hdone, -⟩ | ⟨-, m, hm, e, he⟩
    · exact hdone
    · obtain ⟨shown, hshow⟩ := hall m hm
      rw [he] at hshow
      cases hshow

theorem aborted_iff : (∃ why, (execute d around args).1 = .early (.aborted why)) ↔
    (∃ f, trial around o d op.config = .error f ∧ f.unhandled? ≠ none) ∨
      ∃ m ∈ messages (trial around o d op.config),
        ∃ e, Console.show? around.host.tags m = .error e := by
  constructor
  · rintro ⟨why, hwhy⟩
    cases hfound : trial around o d op.config with
    | error f =>
      rcases execute_of_failure hopening haction hfound with ⟨-, hf | hshow⟩ | ⟨hfailed, -⟩
      · exact .inl ⟨f, rfl, hf⟩
      · exact .inr ⟨_, List.mem_singleton_self _, hshow⟩
      · rw [hfailed] at hwhy
        cases hwhy
    | ok w =>
      rcases execute_of_success hopening haction hfound with ⟨hdone, -⟩ | ⟨-, hbroken⟩
      · rw [hdone] at hwhy
        cases hwhy
      · exact .inr hbroken
  · rintro (⟨f, hfound, hf⟩ | ⟨m, hm, e, he⟩)
    · rcases execute_of_failure hopening haction hfound with ⟨hwhy, -⟩ | ⟨-, hnone, -⟩
      · exact hwhy
      · exact absurd hnone hf
    · cases hfound : trial around o d op.config with
      | error f =>
        rw [hfound] at hm
        obtain rfl := List.mem_singleton.mp hm
        rcases execute_of_failure hopening haction hfound with ⟨hwhy, -⟩ | ⟨-, -, shown, hshow, -⟩
        · exact hwhy
        · rw [he] at hshow
          cases hshow
      | ok w =>
        rw [hfound] at hm
        rcases execute_of_success hopening haction hfound with ⟨-, hall⟩ | ⟨hwhy, -⟩
        · obtain ⟨shown, hshow⟩ := hall m hm
          rw [he] at hshow
          cases hshow
        · exact hwhy

end

end LuaTidy.Command
