import LuaTidy.Config.Load
import LuaTidy.Console.Markup
import LuaTidy.Console.Wrap
import LuaTidy.Log
import LuaTidy.Output.Writer
/-!
Sessions: a command reads its surroundings, changes the disk, and writes to two streams. It ends
early with an error that it reports, or with one that it does not handle.
-/
namespace LuaTidy

/-- What a command finds around it. -/
structure Surroundings where
  environment : Environment
  input : Text.Utf8.Bytes
  /-- The time at which the command runs. -/
  time : Text
  host : Host := {}

def Surroundings.load (around : Surroundings) (d : Disk) (explicit : Option Text) :
    Except LoadError Config := Config.load around.host d around.environment explicit

/-- What a command changes. -/
structure Session where
  disk : Disk
  out : Text := []
  err : Text := []
  deriving DecidableEq, Repr

inductive Abort where
  | load (e : LoadError)
  | stages (e : StagesError)
  | file (e : FileError)
  | name (e : Path.NameError)
  | markup (e : Console.MarkupError)
  deriving DecidableEq, Repr

def Abort.message : Abort → Text
  | .load e => e.message
  | .stages e => e.message
  | .file e => e.message
  | .name e => OutputError.message (.name e)
  | .markup e => "Nothing that the tag [" ++ e.tag ++ "] could close is open and has a meaning"

/-- How a command can end before its end. -/
inductive EarlyEnd where
  /-- After a message about an error. -/
  | failed
  /-- On arguments that cannot be understood. -/
  | misused
  /-- With an error that is not handled. -/
  | aborted (why : Abort)
  deriving DecidableEq, Repr

/-- A command or a part of it; what it wrote before an early end stays. -/
abbrev Command (α : Type) := ExceptT EarlyEnd (StateM Session) α

namespace Command

def printLine (s : Text) : Command Unit :=
  modify fun t => { t with out := t.out ++ Console.echo (s ++ ['\n']) }

def putOut (s : Text) : Command Unit := modify fun t => { t with out := t.out ++ s }

def putErr (s : Text) : Command Unit := modify fun t => { t with err := t.err ++ s }

def abort {α : Type} (why : Abort) : Command α := throw (.aborted why)

def tell (host : Host) (message : Text) : Command Unit :=
  match Console.show? host.tags message with
  | .ok s => putErr s
  | .error e => abort (.markup e)

def fail {α : Type} (host : Host) (message : Text) : Command α := do
  tell host ("Error: " ++ message)
  throw .failed

def look {α : Type} (f : Disk → α) : Command α := do return f (← get).disk

/-- Do something to the disk; what it changed stays if it fails. -/
def attempt {α : Type} (op : OutputOp α) : Command (Except OutputError α) := fun s =>
  let (r, d) := op s.disk
  (.ok r, { s with disk := d })

def log (cfg : Config) (around : Surroundings) (ms : List LogMessage) : Command Unit :=
  putErr (LogMessage.writeAll cfg around.time ms)

end Command
end LuaTidy
