import LuaTidy.Command.Perform
import LuaTidy.Proofs.Command.Delivery

/-!
The channels of a clean-up. Once the source is read, the result of the stages goes to each channel
that is asked for: printed as it is or as a document, or written to a file.
-/
namespace LuaTidy.Command

section
variable (cfg : Config) (around : Surroundings) (o : RunOptions)

/-- What a clean-up does once it has read its source. -/
def cleanSource (source : Text) : Command Unit := do
  if (Text.strip source).isEmpty then
    fail around.host "Please enter some Lua code to deobfuscate"
  match cfg.selectStages o.skip with
  | .error e => stagesFailed around.host e
  | .ok stages =>
    let p := runStages stages source
    log cfg around (p.trace.flatMap LogMessage.ofStage)
    if o.progress then putErr ['\n']
    deliverAll cfg around o p.outcome

theorem clean_eq : clean cfg around o = readSource around o.file >>= cleanSource cfg around o := rfl

/-- The session after a run of the stages, with the messages about that. -/
def announced (p : Progress) (s : Session) : Session :=
  { s with err := s.err ++
      LogMessage.writeAll cfg around.time (p.trace.flatMap LogMessage.ofStage) ++
      if o.progress then ['\n'] else [] }

end

variable {cfg : Config} {around : Surroundings} {o : RunOptions} {s : Session} {source : Text}
  {p : Progress}

theorem readSource_none :
    readSource around none s = (.ok (Text.Utf8.decodeLenient around.input), s) := rfl

theorem readSource_dash :
    readSource around (some ['-']) s = (.ok (Text.Utf8.decodeLenient around.input), s) := rfl

theorem readSource_of_read {f : Text} (hf : f ≠ ['-']) {b : Text.Utf8.Bytes}
    (h : s.disk.read (Path.ofText f).text = .ok b) :
    readSource around (some f) s =
      (.ok (Text.unifyLineEnds (Text.Utf8.decodeLenient b)), s) := by
  simp only [readSource, if_neg hf]
  rw [bind_of_ok (look_apply _ s), h]
  rfl

theorem clean_of_read (hread : readSource around o.file s = (.ok source, s)) :
    clean cfg around o s = cleanSource cfg around o source s := by
  rw [clean_eq, bind_of_ok hread]

theorem fail_bind {α β : Type} (host : Host) (message : Text) (f : α → Command β) (s : Session) :
    (fail host message >>= f) s = (fail host message : Command β) s := by
  rw [fail, fail]
  rcases h : tell host ("Error: " ++ message) s with ⟨r, t⟩
  cases r with
  | ok u =>
    have hend : (tell host ("Error: " ++ message) >>= fun _ => throw .failed : Command α) s =
        (.error .failed, t) := bind_of_ok h _
    rw [bind_of_error hend, bind_of_ok h]
    rfl
  | error e =>
    have hend : (tell host ("Error: " ++ message) >>= fun _ => throw .failed : Command α) s =
        (.error e, t) := bind_of_error h _
    rw [bind_of_error hend, bind_of_error h]

theorem cleanSource_of_blank (hsource : Text.strip source = []) :
    cleanSource cfg around o source s =
      fail around.host "Please enter some Lua code to deobfuscate" s := by
  rw [cleanSource, if_pos (by rw [hsource]; rfl), fail_bind]

theorem cleanSource_of_no_run {e : StagesError} (hsource : Text.strip source ≠ [])
    (hrun : cfg.run o.skip source = .error e) :
    cleanSource cfg around o source s = stagesFailed around.host e s := by
  rw [Config.run] at hrun
  rw [cleanSource, if_neg (by simpa using hsource)]
  cases hstages : cfg.selectStages o.skip with
  | error e' =>
    rw [hstages] at hrun
    cases hrun
    rfl
  | ok stages =>
    rw [hstages] at hrun
    cases hrun

theorem cleanSource_of_run (hsource : Text.strip source ≠ [])
    (hrun : cfg.run o.skip source = .ok p) :
    cleanSource cfg around o source s =
      deliverAll cfg around o p.outcome (announced cfg around o p s) := by
  rw [Config.run] at hrun
  rw [cleanSource, if_neg (by simpa using hsource), announced]
  cases hstages : cfg.selectStages o.skip with
  | error e =>
    rw [hstages] at hrun
    cases hrun
  | ok stages =>
    rw [hstages] at hrun
    cases hrun
    cases o.progress with
    | true => rfl
    | false =>
      rw [if_neg Bool.false_ne_true, List.append_nil]
      rfl

/-- On a source that is accepted, the text of the result is printed as it is exactly if no control
sequence occurs in it; the document is read back as the text and the techniques; the output file
holds the text. Progress, details and reports make no difference to that. -/
theorem every_channel_delivers (hread : readSource around o.file s = (.ok source, s))
    (hsource : Text.strip source ≠ []) (hrun : cfg.run o.skip source = .ok p) :
    let t := (clean cfg around o s).2
    (o.json = false → o.output = none →
      t.out = s.out ++ Console.echo (p.text ++ ['\n']) ∧
        (t.out = s.out ++ (p.text ++ ['\n']) ↔ ∀ u, Console.IsControl u → ¬ u <:+: p.text)) ∧
    (o.json = true →
      t.out = s.out ++ (p.outcome.json ++ ['\n']) ∧
        Json.read? (p.outcome.json ++ ['\n']) = some (.map [(.text "text", .text p.text),
          (.text "techniques", .list (p.techniques.map Value.text))])) ∧
    (∀ dest path, o.output = some dest →
      (cfg.output.write false p.outcome dest s.disk).1 = .ok path →
      ((o.report || cfg.output.report) = true → cfg.output.reportSuffix ≠ []) →
      cfg.output.resolve dest s.disk = (.ok path, s.disk) ∧
        t.disk.read path.text = .ok (Text.Utf8.encode p.text)) := by
  intro t
  have ht : t = (deliverAll cfg around o p.outcome (announced cfg around o p s)).2 := by
    rw [← cleanSource_of_run hsource hrun, ← clean_of_read hread]
  have hout : t.out = s.out ++ printed o p.outcome := by
    rw [ht, out_deliverAll]
    rfl
  refine ⟨fun hjson houtput => ?_, fun hjson => ?_, fun dest path houtput hwrite hsuffix => ?_⟩
  · have hline : t.out = s.out ++ Console.echo (p.text ++ ['\n']) := by
      rw [hout, printed, hjson, houtput]
      rfl
    refine ⟨hline, ?_⟩
    rw [hline, List.append_right_inj]
    exact Console.echo_line_eq_self_iff p.text
  · have hclear : '\x1b' ∉ p.outcome.json ++ ['\n'] := fun hmem =>
      absurd (Json.clear_json p.outcome _ hmem) (by decide)
    have hprinted : printed o p.outcome = p.outcome.json ++ ['\n'] := by
      rw [printed, hjson, if_pos rfl, Console.echo_of_not_mem hclear]
    rw [hout, hprinted]
    exact ⟨rfl, Json.read?_json p.outcome⟩
  · rcases hanswer : cfg.output.write false p.outcome dest s.disk with ⟨a, d⟩
    rw [hanswer] at hwrite
    obtain rfl : a = .ok path := hwrite
    rw [ht, disk_deliverAll houtput]
    exact ⟨(OutputSettings.write_eq_ok hanswer).1, read_of_deliver hanswer hsuffix⟩

/-- A document with a quote that was written as an escape, a file in a directory, and a report. -/
theorem every_channel_delivers_document_and_file :
    let cfg : Config := {}
    let source : Text := "print('\\x22')\n"
    let label : Text := "Hex string decoding"
    let around : Surroundings :=
      { environment := [], input := Text.Utf8.encode source, time := "noon" }
    let o : RunOptions :=
      { output := some "out", json := true, report := true, progress := true, verbose := true }
    let s : Session := { disk := { nodes := [(["out"], .directory)], working := [] } }
    let t := (clean cfg around o s).2
    readSource around o.file s = (.ok source, s) ∧ Text.strip source ≠ [] ∧
      ∃ p, cfg.run o.skip source = .ok p ∧ p.text = "print('\"')\n" ∧ p.techniques = [label] ∧
        t.out = p.outcome.json ++ ['\n'] ∧
        Json.read? t.out = some (.map [(.text "text", .text p.text),
          (.text "techniques", .list [.text label])]) ∧
        t.disk.read "out/deobfuscated.lua" = .ok (Text.Utf8.encode p.text) := by
  intro cfg source label around o s t
  have hread : readSource around o.file s = (.ok source, s) := by
    have hdecode : Text.Utf8.decodeLenient around.input = source := by decide +kernel
    rw [readSource_none, hdecode]
  have hsource : Text.strip source ≠ [] := by decide +kernel
  have hrun : cfg.run o.skip source = .ok (runStages cfg.allStages source) := by decide +kernel
  have htechniques : (runStages cfg.allStages source).techniques = [label] := by decide +kernel
  have hwrite : (cfg.output.write false (runStages cfg.allStages source).outcome "out" s.disk).1 =
      .ok (Path.ofText "out/deobfuscated.lua") := by decide +kernel
  obtain ⟨-, hdocument, hfile⟩ := every_channel_delivers hread hsource hrun
  obtain ⟨hout, hjson⟩ := hdocument rfl
  obtain ⟨-, hcontent⟩ := hfile "out" _ rfl hwrite fun _ => by decide
  rw [htechniques] at hjson
  refine ⟨hread, hsource, _, hrun, by decide +kernel, htechniques, hout, ?_, hcontent⟩
  rw [hout]
  exact hjson

/-- Colours in a literal are not printed, although the result has them. -/
theorem control_sequences_not_printed :
    let source : Text := "print('\x1b[31mred\x1b[0m')"
    let d : Disk := { nodes := [], working := [] }
    let around : Surroundings :=
      { environment := [("HOME", "home")], input := Text.Utf8.encode source, time := "noon" }
    (Config.run {} [] source).map Progress.text = .ok source ∧
      execute d around ["run"] = (.done, { disk := d, out := "print('red')\n" }) := by
  decide +kernel

end LuaTidy.Command
