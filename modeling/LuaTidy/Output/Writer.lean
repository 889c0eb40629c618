import LuaTidy.Config.Basic
import LuaTidy.Files.Disk
import LuaTidy.Json.Quoted
import LuaTidy.Pipeline.Stage
import LuaTidy.Text.Basic
import LuaTidy.Yaml.Writer
/-! Outcomes on their way out: as documents, as reports, and as files. -/
namespace LuaTidy

/-!
## JSON documents

Two spaces of indentation, an empty list on one line.
-/

def Outcome.json (o : Outcome) : Text :=
  let techniques : Text :=
    if o.techniques.isEmpty then "[]"
    else
      "[\n" ++ Text.joinWith ",\n" (o.techniques.map fun t => "    " ++ Json.quote t) ++ "\n  ]"
  "\x7b\n  \"text\": " ++ Json.quote o.text ++ ",\n  \"techniques\": " ++ techniques ++ "\n\x7d"

/-!
## Reports

The techniques of an outcome with their counts, the source and the time.
-/

structure Report where
  source : Option Text
  outcome : Outcome
  /-- The time at which the report was made. -/
  time : Text
  deriving DecidableEq, Repr

def Report.document (r : Report) : Text :=
  Yaml.write [
    ("source_file", .atom (match r.source with | some s => .text s | none => .null)),
    ("techniques", .list (r.outcome.techniques.map .text)),
    ("counts", .map (r.outcome.counts.map fun (label, n) => (label, .atom (.int n)))),
    ("timestamp", .atom (.text r.time))]

/-!
## Files

A destination that is a directory stands for a file in it; missing parents are created. A report
goes next to the output, under a longer name.
-/

inductive OutputError where
  | file (e : FileError)
  | name (e : Path.NameError)
  deriving DecidableEq, Repr

namespace OutputError

def message : OutputError → Text
  | .file e => e.message
  | .name (.noName p) => "PosixPath(" ++ Text.display p.text ++ ") has an empty name"
  | .name (.invalidName n) => "Invalid name " ++ Text.display n

end OutputError

/-- An operation on a disk that writes an output; the changes made before a failure stay. -/
abbrev OutputOp (α : Type) := ExceptT OutputError (StateM Disk) α

/-- A file operation as part of writing an output. -/
def FileOp.forOutput {α : Type} (op : FileOp α) : OutputOp α := fun d =>
  let (r, d) := op d
  (r.mapError .file, d)

namespace OutputSettings

/-- The file that a destination stands for. -/
def resolve (o : OutputSettings) (dest : Text) : OutputOp Path := do
  let path := Path.ofText dest
  if ← (FileOp.look (·.isDirectory? path.text)).forOutput then return path.join o.filename
  else return path

/-- Write a text to a file whose parents need not be there. -/
def place (path : Path) (s : Text) : OutputOp Unit := do
  (FileOp.makeDirectories path.parent).forOutput
  (FileOp.write path.text (Text.Utf8.encode s)).forOutput

/--
Write the text of an outcome to a destination; the answer is the file written. A dry run only says
which file that would be.
-/
def write (o : OutputSettings) (dry : Bool) (outcome : Outcome) (dest : Text) : OutputOp Path := do
  let path ← o.resolve dest
  unless dry do place path outcome.text
  return path

/-- The file for the report on the output at a destination. -/
def reportPath (o : OutputSettings) (dest : Text) : OutputOp Path := do
  let path ← o.resolve dest
  match path.withName (path.name ++ o.reportSuffix) with
  | .ok p => return p
  | .error e => throw (.name e)

/-- Write a report next to the output at a destination; the answer is the file written. -/
def writeReport (o : OutputSettings) (r : Report) (dest : Text) : OutputOp Path := do
  let path ← o.reportPath dest
  place path r.document
  return path

end OutputSettings
end LuaTidy
