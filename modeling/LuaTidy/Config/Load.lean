import LuaTidy.Config.Expand
import LuaTidy.Config.Validate
import LuaTidy.Console.Markup
import LuaTidy.Files.Disk
import LuaTidy.Yaml.Reader
/-!
Loading settings. An explicit file is the only candidate; without one there are a file in the
working directory and one below the home directory. The first candidate that is there and not
empty decides, for better or worse; without any, the defaults hold.
-/
namespace LuaTidy

/-!
## Hosts

The host of a program: what the system knows about its user, and the libraries that read documents,
check values and show messages. What they do is a matter of the host, so that all that holds of
commands holds for every host. The defaults are the usual libraries, as far as they can be told
without their limits: a host may also run out of stack, and may word its complaints at more length.
-/

abbrev DocumentReader := Text → Except Yaml.Error Value

structure Host where
  /-- The home directory of the user, if the system has one on record. -/
  account : Option Text := none
  reader : DocumentReader := Yaml.read
  /-- What is said about a text that is no document, which quotes it at least in part. -/
  complaint : Text → Text := id
  /-- Whether a value is nested too deeply for the references in it to be replaced. -/
  overflows : Value → Bool := fun _ => false
  validator : Value → Checked Config := Config.ofValue
  /-- What is said about a value that does not describe settings. -/
  report : Value → List Problem → Text := Problem.report "DeobConfig"
  tags : Console.TagRules := {}

/-! ## Files of settings -/

inductive LoadError where
  | notFound (path : Text)
  /-- There is no home directory, or it is written as someone's home directory again. -/
  | noHome
  /-- Looking for a file fails. -/
  | lookup (e : FileError)
  | unreadable (path : Text) (e : FileError)
  /-- A file is not encoded as it should be. -/
  | badEncoding (path : Text) (m : Text.Utf8.Malformation)
  /-- A file is no document; `words` say why. -/
  | notDocument (path words : Text)
  /-- A file is a document that has no value. -/
  | noValue (e : Yaml.Error)
  | notMap (path : Text)
  | tooDeep
  /-- A document does not describe settings; `words` report the problems. -/
  | invalid (path : Text) (problems : List Problem) (words : Text)
  deriving DecidableEq, Repr

namespace LoadError

def message : LoadError → Text
  | .notFound path => "Config file not found: " ++ path
  | .noHome => "Could not determine home directory."
  | .lookup e => e.message
  | .unreadable path e => "Could not read config " ++ path ++ ": " ++ e.message
  | .badEncoding path m => "Could not read config " ++ path ++ ": " ++ m.message
  | .notDocument path words => "Invalid YAML in " ++ path ++ ": " ++ words
  | .noValue e => e.message
  | .notMap path => "Invalid config in " ++ path ++ ": expected a mapping at top level"
  | .tooDeep => "maximum recursion depth exceeded"
  | .invalid path _ words => "Invalid config in " ++ path ++ ": " ++ words

/-- Whether an error is one about files and values, as commands expect it and report it. -/
def isReported : LoadError → Bool
  | .noHome => false
  | .tooDeep => false
  | .noValue (.badValue _) => true
  | .noValue _ => false
  | _ => true

end LoadError

namespace Config

def projectFile : Path := Path.ofText "luadeob.yaml"

/-- The parts of the file of settings below the home directory. -/
def userFileParts : List Text := [".luadeob", "config.yaml"]

/-- The home directory, without slashes at the end: that of the environment, if it has one. -/
def homeDirectory (host : Host) (env : Environment) : Except LoadError Path :=
  match (env.get? "HOME").or host.account with
  | none => .error .noHome
  | some home =>
    let home := Text.dropWhileEnd (· == '/') home
    let home : Text := if home.isEmpty then ['/'] else home
    if home.head? = some '~' then .error .noHome else .ok (Path.ofText home)

/-- The files of settings in the order in which they are tried. -/
def candidates (host : Host) (d : Disk) (env : Environment) (explicit : Option Text) :
    Except LoadError (List Path) :=
  let given := explicit.getD []
  if given.isEmpty then do
    let home ← homeDirectory host env
    .ok [projectFile, { home with parts := home.parts ++ userFileParts }]
  else
    let path := Path.ofText given
    match d.exists? path.text with
    | .error e => .error (.lookup e)
    | .ok false => .error (.notFound given)
    | .ok true => .ok [path]

/-- What one candidate says: nothing if it is absent or empty. -/
def consult (host : Host) (d : Disk) (env : Environment) (path : Path) :
    Except LoadError (Option Config) := do
  match d.exists? path.text with
  | .error e => .error (.lookup e)
  | .ok false => .ok none
  | .ok true =>
    let bytes ← (d.read path.text).mapError (.unreadable path.text)
    let s ← (Text.Utf8.decode bytes).mapError (.badEncoding path.text)
    let s := Text.unifyLineEnds s
    match host.reader s with
    | .error .malformed => .error (.notDocument path.text (host.complaint s))
    | .error e => .error (.noValue e)
    | .ok (.scalar .null) => .ok none
    | .ok (.map es) =>
      if host.overflows (.map es) then .error .tooDeep
      else
        let v := env.expand (.map es)
        match host.validator v with
        | .ok cfg => .ok (some cfg)
        | .error ps => .error (.invalid path.text ps (host.report v ps))
    | .ok _ => .error (.notMap path.text)

/-- The settings of the first candidate that has any; the defaults if none has. -/
def firstOf (host : Host) (d : Disk) (env : Environment) : List Path → Except LoadError Config
  | [] => .ok {}
  | p :: ps => do
    match ← consult host d env p with
    | some cfg => .ok cfg
    | none => firstOf host d env ps

def load (host : Host) (d : Disk) (env : Environment) (explicit : Option Text) :
    Except LoadError Config := do
  firstOf host d env (← candidates host d env explicit)

end Config
end LuaTidy
