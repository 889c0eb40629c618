import LuaTidy.Command.Perform
import Std.Time.Format
/-!
The program. The part of the file system that a row of arguments can touch becomes a disk; the row
runs on it; and the texts and changes are carried out. All that is decided is decided by
`Command.execute`.
-/
namespace LuaTidy.Program

/-- The path of a place from the root. -/
def absolute (p : Place) : String := String.ofList ('/' :: Text.joinWith ['/'] p)

/-- The node at a place of the file system; nothing if it cannot be read. -/
def nodeAt (p : Place) : IO (Option Node) := do
  match ← (IO.FS.readBinFile (absolute p)).toBaseIO with
  | .ok content => return some (.file content.toList)
  | .error (.inappropriateType ..) => return some .directory
  | .error _ => return none

/-- The places on the way from a place through names. -/
def placesThrough (here : Place) : List Text → List Place
  | [] => []
  | n :: ns =>
    let next := if n = ".." then here.dropLast else here ++ [n]
    next :: placesThrough next ns

/-- Copy the nodes on the way to a path from the file system to a disk. -/
def mount (d : Disk) (path : Path) : IO Disk := do
  let start := if path.root.isEmpty then d.working else []
  (placesThrough start path.parts).foldlM (fun d p => do
    if (d.node? p).isSome then return d
    match ← nodeAt p with
    | some n => return d.put p n
    | none => return d) d

def actionOf? (args : List Text) : Option Command.Action := do
  let o ← Command.opening? args
  Command.action? o.name o.arguments

def inputs (args : List Text) : List Path :=
  let explicit := match Command.opening? args with
    | some o => o.config.toList
    | none => []
  let source := match actionOf? args with
    | some (.run o) => o.file.toList
    | _ => []
  (explicit ++ source).map Path.ofText

/-- The paths in a row of arguments that may be written, with the reports next to them. -/
def outputs (o : OutputSettings) (args : List Text) : List Path :=
  match actionOf? args with
  | some (.run { output := some dest, .. }) =>
    let path := Path.ofText dest
    let files := [path, path.join o.filename]
    files ++ files.filterMap fun p => (p.withName (p.name ++ o.reportSuffix)).toOption
  | _ => []

def readsStandardInput (args : List Text) : Bool :=
  match actionOf? args with
  | some (.run o) => o.file.all (· == ['-'])
  | _ => false

/-- The number of the user in the system's account of a process. -/
def userOf? (status : Text) : Option Text :=
  let lead : Text := "Uid:\t"
  ((Text.lines status).find? lead.isPrefixOf).map fun l =>
    (l.drop lead.length).takeWhile Text.isDigit

/-- The home directory of a user in the system's list of users. -/
def accountOf? (user users : Text) : Option Text :=
  (Text.lines users).findSome? fun l =>
    match Text.splitAt ':' l with
    | _ :: _ :: id :: _ :: _ :: home :: _ => if id = user then some home else none
    | _ => none

/-- The text of a file of the system; nothing if it cannot be read. -/
def readSystemFile (path : String) : IO Text := do
  match ← (IO.FS.readBinFile path).toBaseIO with
  | .ok bytes => return Text.Utf8.decodeLenient bytes.toList
  | .error _ => return []

/-- The host of the process, with the home directory that the system has on record for its user. -/
def readHost : IO Host := do
  let users ← readSystemFile "/etc/passwd"
  return { account := (userOf? (← readSystemFile "/proc/self/status")).bind (accountOf? · users) }

def readEnvironment : IO Environment := do
  let listed := Text.splitAt '\x00' (← readSystemFile "/proc/self/environ")
  let home := (← IO.getEnv "HOME").map fun v => ("HOME".toList, v.toList)
  return Entries.ofList (home.toList ++ listed.filterMap fun e =>
    let name := e.takeWhile (· != '=')
    if name.length < e.length then some (name, e.drop (name.length + 1)) else none)

/-- The present time in universal time. -/
def readClock : IO Text := do
  return ((← Std.Time.DateTime.now).format "uuuu-MM-dd'T'HH:mm:ss.SSSSSSxxx").toList

/-- Carry the new and changed nodes of a disk over to the file system. -/
def carryOut (before after : Disk) : IO Unit :=
  after.nodes.forM fun (p, n) => do
    if before.node? p != some n then
      match n with
      | .directory => IO.FS.createDir (absolute p)
      | .file content => IO.FS.writeBinFile (absolute p) ⟨content.toArray⟩

def mountAll (host : Host) (env : Environment) (args : List Text) : IO Disk := do
  let working := Path.ofText (← IO.currentDir).toString.toList
  let empty : Disk := { nodes := [], working := working.parts }
  let own := (Config.candidates host empty env none).toOption.getD []
  let d ← (working :: own ++ inputs args).foldlM mount empty
  let explicit := (Command.opening? args).bind (·.config)
  match Config.load host d env explicit with
  | .ok cfg => (outputs cfg.output args).foldlM mount d
  | .error _ => return d

def usage : String :=
  "Usage: luadeob [--config PATH] run [FILE] [OPTIONS]\n" ++
  "       luadeob [--config PATH] techniques | example | config show | config init [--force]\n" ++
  "Options of run: --output PATH, --verbose, --json, --report, --progress, --skip STAGE\n"

/-- What is said about an early end in addition to the messages of the command. -/
def lastWords : Command.Ending → String
  | .early .misused => usage
  | .early (.aborted why) => String.ofList (why.message ++ ['\n'])
  | _ => ""

/-- Run a row of arguments; the answer is the exit code. -/
def run (args : List Text) : IO UInt32 := do
  let host ← readHost
  let environment ← readEnvironment
  let d ← mountAll host environment args
  let input ←
    if readsStandardInput args then (← IO.getStdin).readBinToEnd else pure ByteArray.empty
  let around : Surroundings := { environment, input := input.toList, time := ← readClock, host }
  let (ending, after) := Command.execute d around args
  carryOut d after.disk
  (← IO.getStdout).putStr (String.ofList after.out)
  (← IO.getStderr).putStr (String.ofList after.err ++ lastWords ending)
  return ending.exitCode.toUInt32

end LuaTidy.Program

def main (args : List String) : IO UInt32 := LuaTidy.Program.run (args.map String.toList)
