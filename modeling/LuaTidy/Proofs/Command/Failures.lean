import LuaTidy.Proofs.Command.Channels
import LuaTidy.Proofs.Console.Headings

/-!
How runs fail. The operations of a run are tried in order, and the first one that fails ends it.
Most failures are reported in a message; some are not handled, and where a message is not well
formed, showing it is an error of its own.
-/
namespace LuaTidy.Command

inductive Failure where
  /-- The settings cannot be loaded. -/
  | settings (e : LoadError)
  /-- The source cannot be read from its file. -/
  | source (file : Text) (e : FileError)
  /-- The source has nothing but blanks. -/
  | blank
  /-- There are no stages to run. -/
  | stages (e : StagesError)
  /-- The output or its report cannot be written. -/
  | output (dest : Text) (e : OutputError)
  deriving DecidableEq, Repr

namespace Failure

def message : Failure → Text
  | .settings e => e.message
  | .source f e => "Could not read '" ++ f ++ "': " ++ e.message
  | .blank => "Please enter some Lua code to deobfuscate"
  | .stages e => e.message
  | .output dest e => "Could not write '" ++ dest ++ "': " ++ e.message

/-- The error as which a failure leaves the program, if it is not handled. -/
def unhandled? : Failure → Option Abort
  | .settings e => if e.isReported then none else some (.load e)
  | .source _ .nul => some (.file .nul)
  | .stages (.tooWide width) => some (.stages (.tooWide width))
  | .output _ (.file .nul) => some (.file .nul)
  | .output _ (.name e) => some (.name e)
  | _ => none

/-- How a failure ends a run. -/
def ending (host : Host) (f : Failure) (s : Session) : EarlyEnd × Session :=
  match f.unhandled? with
  | some why => (.aborted why, s)
  | none =>
    match Console.show? host.tags ("Error: " ++ f.message) with
    | .ok shown => (.failed, { s with err := s.err ++ shown })
    | .error e => (.aborted (.markup e), s)

end Failure

/-- The files that a run has written: the output and, if there is one, its report. -/
structure Files where
  output : Path
  report : Option Path := none
  deriving DecidableEq, Repr

/-- The messages about the files that a run has written, in order. -/
def notices : Option Files → List Text
  | none => []
  | some { output, report := none } => ["Written to " ++ output.text]
  | some { output, report := some report } =>
    ["Report: " ++ report.text, "Written to " ++ output.text]

section
variable (cfg : Config) (around : Surroundings) (o : RunOptions) (r : Outcome)

/-- The text of the source that a run is given. -/
def sourceText (d : Disk) : Option Text → Except Failure Text
  | none => .ok (Text.Utf8.decodeLenient around.input)
  | some f =>
    if f = ['-'] then .ok (Text.Utf8.decodeLenient around.input)
    else
      match d.read (Path.ofText f).text with
      | .ok b => .ok (Text.unifyLineEnds (Text.Utf8.decodeLenient b))
      | .error e => .error (.source f e)

/-- The files written to a destination: the output, and then its report where one is asked for. -/
def filesWritten (d : Disk) (dest : Text) : Except Failure Files :=
  match cfg.output.write false r dest d with
  | (.error e, _) => .error (.output dest e)
  | (.ok path, d) =>
    if o.report || cfg.output.report then
      match (cfg.output.writeReport (reported around o r) path.text d).1 with
      | .error e => .error (.output dest e)
      | .ok q => .ok { output := path, report := some q }
    else .ok { output := path }

def filesAsked (d : Disk) : Except Failure (Option Files) :=
  match o.output with
  | none => .ok none
  | some dest => (filesWritten cfg around o r d dest).map some

/-- The operations of a run, one after the other: what is written at the end, or what goes wrong. -/
def trial (d : Disk) (explicit : Option Text) : Except Failure (Option Files) :=
  match around.load d explicit with
  | .error e => .error (.settings e)
  | .ok cfg =>
    match sourceText around d o.file with
    | .error f => .error f
    | .ok source =>
      if Text.strip source = [] then .error .blank
      else
        match cfg.run o.skip source with
        | .error e => .error (.stages e)
        | .ok p => filesAsked cfg around o p.outcome d

end

variable {host : Host} {cfg : Config} {around : Surroundings} {o : RunOptions} {r : Outcome}
  {s : Session} {f : Failure} {α β : Type}

theorem tell_of_shown {m shown : Text} (h : Console.show? host.tags m = .ok shown) (s : Session) :
    tell host m s = (.ok (), { s with err := s.err ++ shown }) := by
  rw [tell, h]
  rfl

theorem tell_of_markup_error {m : Text} {e : Console.MarkupError}
    (h : Console.show? host.tags m = .error e) (s : Session) :
    tell host m s = (.error (.aborted (.markup e)), s) := by
  rw [tell, h]
  rfl

/-- An early end of a command by a failure. -/
def FailsBy (host : Host) (f : Failure) (x : Except EarlyEnd α × Session) : Prop :=
  ∃ t, x = (.error (f.ending host t).1, (f.ending host t).2)

theorem FailsBy.bind {x : Command α} (h : FailsBy host f (x s)) (g : α → Command β) :
    FailsBy host f ((x >>= g) s) := by
  obtain ⟨t, ht⟩ := h
  exact ⟨t, bind_of_error ht g⟩

theorem failsBy_fail (h : f.unhandled? = none) (s : Session) :
    FailsBy host f ((fail host f.message : Command α) s) := by
  refine ⟨s, ?_⟩
  rw [fail, Failure.ending, h]
  cases hshow : Console.show? host.tags ("Error: " ++ f.message) with
  | ok shown => rw [bind_of_ok (tell_of_shown hshow s)]; rfl
  | error e => rw [bind_of_error (tell_of_markup_error hshow s)]

theorem failsBy_abort {why : Abort} (h : f.unhandled? = some why) (s : Session) :
    FailsBy host f ((abort why : Command α) s) := by
  refine ⟨s, ?_⟩
  rw [Failure.ending, h]
  rfl

theorem failsBy_loadSettings {explicit : Option Text} {e : LoadError}
    (h : around.load s.disk explicit = .error e) :
    FailsBy around.host (.settings e) (loadSettings around explicit s) := by
  rw [loadSettings, bind_of_ok (look_apply _ s), h]
  cases hreported : e.isReported with
  | true =>
    simp only [hreported, if_true]
    exact failsBy_fail (f := .settings e) (if_pos hreported) s
  | false =>
    simp only [hreported, Bool.false_eq_true, if_false]
    exact failsBy_abort (by rw [Failure.unhandled?, hreported]; rfl) s

theorem loadSettings_of_ok {explicit : Option Text}
    (h : around.load s.disk explicit = .ok cfg) :
    loadSettings around explicit s = (.ok cfg, s) := by
  rw [loadSettings, bind_of_ok (look_apply _ s), h]
  rfl

theorem failsBy_readSource {file : Option Text} (h : sourceText around s.disk file = .error f) :
    FailsBy around.host f (readSource around file s) := by
  cases file with
  | none => cases h
  | some name =>
    rw [sourceText] at h
    split at h
    · cases h
    · next hname =>
      cases hread : s.disk.read (Path.ofText name).text with
      | ok b =>
        rw [hread] at h
        cases h
      | error e =>
        rw [hread] at h
        cases h
        simp only [readSource, if_neg hname]
        rw [bind_of_ok (look_apply _ s), hread]
        cases e with
        | nul => exact failsBy_abort rfl s
        | refused why path => exact failsBy_fail rfl s

theorem readSource_of_sourceText {file : Option Text} {source : Text}
    (h : sourceText around s.disk file = .ok source) :
    readSource around file s = (.ok source, s) := by
  cases file with
  | none =>
    cases h
    rfl
  | some name =>
    rw [sourceText] at h
    split at h
    · next hname =>
      cases h
      rw [hname, readSource_dash]
    · next hname =>
      cases hread : s.disk.read (Path.ofText name).text with
      | ok b =>
        rw [hread] at h
        cases h
        exact readSource_of_read hname hread
      | error e =>
        rw [hread] at h
        cases h

theorem failsBy_outputFailed (dest : Text) (e : OutputError) (s : Session) :
    FailsBy host (.output dest e) ((outputFailed host dest e : Command α) s) := by
  cases e with
  | name e => exact failsBy_abort rfl s
  | file e =>
    cases e with
    | nul => exact failsBy_abort rfl s
    | refused why path => exact failsBy_fail rfl s

theorem failsBy_stagesFailed (e : StagesError) (s : Session) :
    FailsBy host (.stages e) ((stagesFailed host e : Command α) s) := by
  cases e with
  | unknown names => exact failsBy_fail (f := .stages (.unknown names)) rfl s
  | tooWide width => exact failsBy_abort rfl s

/-- An end of a command that only shows messages: all of them, or up to one with broken markup. -/
structure Shows (host : Host) (ms : List Text) (x : Except EarlyEnd Unit × Session) : Prop where
  done : (∀ m ∈ ms, ∃ shown, Console.show? host.tags m = .ok shown) → x.1 = .ok ()
  broken : ∀ m ∈ ms, ∀ e, Console.show? host.tags m = .error e →
    ∃ e', x.1 = .error (.aborted (.markup e'))

theorem Shows.of_done {x : Except EarlyEnd Unit × Session} (h : x.1 = .ok ()) : Shows host [] x :=
  ⟨fun _ => h, fun _ hm => absurd hm List.not_mem_nil⟩

theorem shows_tell_bind {m : Text} {ms : List Text} {x : Command Unit}
    (h : ∀ t, Shows host ms (x t)) (s : Session) :
    Shows host (m :: ms) ((tell host m >>= fun _ => x) s) := by
  cases hshow : Console.show? host.tags m with
  | ok shown =>
    rw [bind_of_ok (tell_of_shown hshow s)]
    refine ⟨fun hall => (h _).done fun m' hm' => hall m' (List.mem_cons_of_mem _ hm'), ?_⟩
    intro m' hm' e he
    rcases List.mem_cons.mp hm' with rfl | hm'
    · rw [hshow] at he
      cases he
    · exact (h _).broken m' hm' e he
  | error e =>
    rw [bind_of_error (tell_of_markup_error hshow s)]
    refine ⟨fun hall => ?_, fun _ _ _ _ => ⟨e, rfl⟩⟩
    obtain ⟨shown, hm⟩ := hall m List.mem_cons_self
    rw [hshow] at hm
    cases hm

theorem shows_tell (m : Text) (s : Session) : Shows host [m] (tell host m s) := by
  have h : Shows host [m] ((tell host m >>= fun _ => pure ()) s) :=
    shows_tell_bind (fun _ => .of_done rfl) s
  rwa [bind_pure_unit] at h

/-- What never fails after the messages changes nothing about how they end. -/
theorem Shows.bind {ms : List Text} {x : Command Unit} (h : Shows host ms (x s)) {g : Command Unit}
    (hg : ∀ t, (g t).1 = .ok ()) : Shows host ms ((x >>= fun _ => g) s) := by
  rcases hx : x s with ⟨a, t⟩
  rw [hx] at h
  cases a with
  | ok u =>
    rw [bind_of_ok hx]
    refine ⟨fun _ => hg t, fun m hm e he => ?_⟩
    obtain ⟨e', he'⟩ := h.broken m hm e he
    cases he'
  | error e =>
    rw [bind_of_error hx]
    refine ⟨fun hall => ?_, fun m hm e he => ?_⟩
    · cases h.done hall
    · obtain ⟨e', he'⟩ := h.broken m hm e he
      cases he'
      exact ⟨e', rfl⟩

/-- An end of a command by the failure, or with the messages, that a trial has found. -/
def Follows (host : Host) (found : Except Failure (Option Files))
    (x : Except EarlyEnd Unit × Session) : Prop :=
  match found with
  | .error f => FailsBy host f x
  | .ok w => Shows host (notices w) x

theorem follows_deliver (cfg : Config) (around : Surroundings) (o : RunOptions) (r : Outcome)
    (dest : Text) (s : Session) :
    Follows around.host ((filesWritten cfg around o r s.disk dest).map some)
      (deliver cfg around o r dest s) := by
  rcases hwrite : cfg.output.write false r dest s.disk with ⟨a, d⟩
  simp only [filesWritten, hwrite]
  cases a with
  | error e =>
    rw [deliver_of_error hwrite]
    exact failsBy_outputFailed dest e _
  | ok path =>
    cases hreport : o.report || cfg.output.report with
    | false =>
      rw [deliver_of_no_report hwrite hreport]
      exact shows_tell _ _
    | true =>
      rw [deliver_of_report hwrite hreport]
      simp only [if_true]
      cases (cfg.output.writeReport (reported around o r) path.text d).1 with
      | error e => exact (failsBy_outputFailed dest e _).bind _
      | ok q => exact shows_tell_bind (fun t => shows_tell _ t) _

/-- What never fails after a delivery changes nothing about how it ends. -/
theorem Follows.bind {found : Except Failure (Option Files)} {x g : Command Unit}
    (h : Follows host found (x s)) (hg : ∀ t, (g t).1 = .ok ()) :
    Follows host found ((x >>= fun _ => g) s) := by
  cases found with
  | error f => exact FailsBy.bind h _
  | ok w => exact Shows.bind h hg

theorem done_details (around : Surroundings) (o : RunOptions) (r : Outcome) (s : Session) :
    (details around o r s).1 = .ok () := by
  have hshow : Console.show? around.host.tags "No techniques applied." =
      .ok "No techniques applied.\n" :=
    (Console.show?_of_unmarked (by decide) (by decide)).trans (by decide)
  rw [details, showTechniques]
  split
  · split
    · rfl
    · rw [tell_of_shown hshow]
  · rfl

theorem follows_toDestination (cfg : Config) (around : Surroundings) (o : RunOptions) (r : Outcome)
    (s : Session) :
    Follows around.host (filesAsked cfg around o r s.disk) (toDestination cfg around o r s) := by
  have hshow : Console.show? around.host.tags "--report needs --output; no report written." =
      .ok "--report needs --output; no report written.\n" :=
    (Console.show?_of_unmarked (by decide) (by decide)).trans (by decide)
  rw [filesAsked, toDestination]
  cases o.output with
  | some dest => exact follows_deliver cfg around o r dest s
  | none =>
    cases o.report with
    | true => exact Shows.of_done (congrArg Prod.fst (tell_of_shown hshow s))
    | false => exact Shows.of_done rfl

theorem follows_deliverAll (cfg : Config) (around : Surroundings) (o : RunOptions) (r : Outcome)
    (s : Session) :
    Follows around.host (filesAsked cfg around o r s.disk) (deliverAll cfg around o r s) := by
  rw [deliverAll_eq]
  exact (follows_toDestination cfg around o r { s with out := s.out ++ printed o r }).bind
    (done_details around o r)

/-- A run ends as its trial says. -/
theorem follows_run (around : Surroundings) (o : RunOptions) (explicit : Option Text)
    (s : Session) :
    Follows around.host (trial around o s.disk explicit)
      ((loadSettings around explicit >>= fun cfg => clean cfg around o) s) := by
  rw [trial]
  cases hload : around.load s.disk explicit with
  | error e => exact FailsBy.bind (failsBy_loadSettings hload) _
  | ok cfg =>
    rw [bind_of_ok (loadSettings_of_ok hload)]
    cases hsource : sourceText around s.disk o.file with
    | error f => exact FailsBy.bind (failsBy_readSource hsource) _
    | ok source =>
      rw [clean_of_read (readSource_of_sourceText hsource)]
      by_cases hblank : Text.strip source = []
      · simp only [if_pos hblank]
        rw [cleanSource_of_blank hblank]
        exact failsBy_fail (f := .blank) rfl _
      · simp only [if_neg hblank]
        cases hrun : cfg.run o.skip source with
        | error e =>
          rw [cleanSource_of_no_run hblank hrun]
          exact failsBy_stagesFailed e _
        | ok p =>
          rw [cleanSource_of_run hblank hrun]
          exact follows_deliverAll cfg around o p.outcome (announced cfg around o p s)

end LuaTidy.Command
