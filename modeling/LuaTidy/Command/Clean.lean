import LuaTidy.Command.Arguments
import LuaTidy.Command.Session
import LuaTidy.Console.Wrap
import LuaTidy.Output.Writer
/-!
The command that cleans up a source: read it, run the stages, and deliver the result on the stream
of results, in a file, or both.
-/
namespace LuaTidy.Command

/-- The source as text. A file has its line ends unified, standard input does not. -/
def readSource (around : Surroundings) (file : Option Text) : Command Text :=
  let standard : Command Text := return Text.Utf8.decodeLenient around.input
  match file with
  | none => standard
  | some f =>
    if f = ['-'] then standard
    else do
      match ← look (·.read (Path.ofText f).text) with
      | .ok bytes => return Text.unifyLineEnds (Text.Utf8.decodeLenient bytes)
      | .error .nul => abort (.file .nul)
      | .error e => fail around.host ("Could not read '" ++ f ++ "': " ++ e.message)

def techniqueCounts (r : Outcome) : Console.Table :=
  let rows := r.counts.map fun (label, n) => [label, Text.decimal n]
  let widest (head : Text) (cells : List Text) : Nat :=
    cells.foldl (fun n s => max n (Console.width s)) (Console.width head)
  { title := "Techniques Applied"
    columns := [
      { head := "Technique", width := widest "Technique" (r.counts.map (·.1)) },
      { head := "Count", width := widest "Count" (r.counts.map fun e => Text.decimal e.2),
        align := .right }]
    rows }

def showTechniques (host : Host) (r : Outcome) : Command Unit :=
  if r.fired then putErr (techniqueCounts r).render else tell host "No techniques applied."

/-- End on an output that cannot be written; only refusals by the system are reported. -/
def outputFailed {α : Type} (host : Host) (dest : Text) (e : OutputError) : Command α :=
  match e with
  | .file .nul => abort (.file .nul)
  | .file e => fail host ("Could not write '" ++ dest ++ "': " ++ e.message)
  | .name e => abort (.name e)

/-- Write the result to its destination, and a report next to it where one is asked for. -/
def deliver (cfg : Config) (around : Surroundings) (o : RunOptions) (r : Outcome) (dest : Text) :
    Command Unit := do
  match ← attempt (cfg.output.write false r dest) with
  | .error e => outputFailed around.host dest e
  | .ok path =>
    log cfg around [.wrote path r.text]
    if o.report || cfg.output.report then
      let report : Report := { source := o.file, outcome := r, time := around.time }
      match ← attempt (cfg.output.writeReport report path.text) with
      | .error e => outputFailed around.host dest e
      | .ok path =>
        log cfg around [.wroteReport path]
        tell around.host ("Report: " ++ path.text)
    tell around.host ("Written to " ++ path.text)

def deliverAll (cfg : Config) (around : Surroundings) (o : RunOptions) (r : Outcome) :
    Command Unit := do
  if o.json then printLine r.json
  else if o.output.isNone then printLine r.text
  match o.output with
  | some dest => deliver cfg around o r dest
  | none => if o.report then tell around.host "--report needs --output; no report written."
  if o.verbose then showTechniques around.host r

/-- End on stages that cannot be had; only unknown names are reported. -/
def stagesFailed {α : Type} (host : Host) (e : StagesError) : Command α :=
  match e with
  | .unknown _ => fail host e.message
  | .tooWide _ => abort (.stages e)

def clean (cfg : Config) (around : Surroundings) (o : RunOptions) : Command Unit := do
  let source ← readSource around o.file
  if (Text.strip source).isEmpty then
    fail around.host "Please enter some Lua code to deobfuscate"
  match cfg.selectStages o.skip with
  | .error e => stagesFailed around.host e
  | .ok stages =>
    let p := runStages stages source
    log cfg around (p.trace.flatMap LogMessage.ofStage)
    if o.progress then putErr ['\n']
    deliverAll cfg around o p.outcome

end LuaTidy.Command
