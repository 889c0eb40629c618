import LuaTidy.Command.Clean
import LuaTidy.Config.Document
/-! All commands, and what becomes of a row of arguments. -/
namespace LuaTidy.Command

/-- A source to try the stages on. -/
def sample : Text :=
  let a : Text := List.replicate 20 'a'
  let b : Text := List.replicate 15 'b'
  "-- Example obfuscated Lua code\n" ++
    "local " ++ a ++ " = \"SGVsbG8gV29ybGQ=\"\n" ++
    "local " ++ b ++ " = function(x) return x..x end\n" ++
    "print(" ++ a ++ ".." ++ b ++ "(\"test\"))\n"

/-- The table of stages, which are those of the settings. -/
def stageTable (cfg : Config) (stages : List Stage) : Console.Table :=
  { title := "Supported Techniques"
    columns := [
      { head := "#", width := 1, align := .right },
      { head := "Stage", width := 10 },
      { head := "Label", width := 23 },
      { head := "Description", width := 23 },
      { head := "Enabled", width := 7, align := .centre }]
    rows := (stages.zipIdx 1).map fun (stage, i) =>
      let k := stage.kind
      [Text.decimal i, k.name, k.label?.getD ['-'], k.description,
        if cfg.stages.enabled k then "yes" else "no"] }

def showStages (cfg : Config) : Command Unit :=
  match cfg.buildStages with
  | .ok stages => putOut (stageTable cfg stages).render
  | .error e => abort (.stages e)

/-- The settings as they are shown: lines that fill the console, and an empty one. -/
def settingsPage (cfg : Config) : Text :=
  (Text.lines cfg.document).flatMap fun l =>
    Console.Align.left.pad Console.columns (Console.crop Console.columns l) ++ ['\n']

/-- Show a message with markup on the stream of results. -/
def tellOut (host : Host) (message : Text) : Command Unit :=
  match Console.show? host.tags message with
  | .ok s => putOut s
  | .error e => abort (.markup e)

/-- Write the file of settings of the project, unless it is there already. -/
def startProject (host : Host) (force : Bool) : Command Unit := do
  let target := Config.projectFile.text
  match ← look (·.exists? target) with
  | .error e => abort (.file e)
  | .ok there =>
    if there && !force then
      tellOut host (target ++ " already exists. Use --force to overwrite.")
      throw .failed
    match ← attempt (FileOp.write target (Text.Utf8.encode Config.template)).forOutput with
    | .error (.file e) => abort (.file e)
    | .error (.name e) => abort (.name e)
    | .ok () => tellOut host ("Created " ++ target)

def perform (cfg : Config) (around : Surroundings) : Action → Command Unit
  | .run o => clean cfg around o
  | .techniques => showStages cfg
  | .sample => putOut (Console.echo sample)
  | .configShow => putOut (settingsPage cfg)
  | .configInit force => startProject around.host force

/-- Load the settings. Errors about files and values are reported. -/
def loadSettings (around : Surroundings) (explicit : Option Text) : Command Config := do
  match ← look (around.load · explicit) with
  | .ok cfg => return cfg
  | .error e => if e.isReported then fail around.host e.message else abort (.load e)

/-- What a row of arguments asks for. The settings are loaded before the command reads its own. -/
def dispatch (around : Surroundings) (args : List Text) : Command Unit := do
  match opening? args with
  | none => throw .misused
  | some o =>
    let cfg ← loadSettings around o.config
    match action? o.name o.arguments with
    | none => throw .misused
    | some action => perform cfg around action

inductive Ending where
  | done
  | early (e : EarlyEnd)
  deriving DecidableEq, Repr

def Ending.exitCode : Ending → Nat
  | .done => 0
  | .early .misused => 2
  | .early _ => 1

/-- Run a row of arguments on a disk. -/
def execute (d : Disk) (around : Surroundings) (args : List Text) : Ending × Session :=
  match dispatch around args { disk := d } with
  | (.ok (), s) => (.done, s)
  | (.error e, s) => (.early e, s)

end LuaTidy.Command
