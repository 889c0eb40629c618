import LuaTidy.Config.Basic
import LuaTidy.Text.Basic
import LuaTidy.Value.Basic
import LuaTidy.Yaml.Writer
/-!
Settings as a value, as a document with the keys in order at every level, and as the file that is
written for a project.
-/
namespace LuaTidy.Config

/-- The value that describes settings, with the fields in the order of their declaration. -/
def dump (c : Config) : Value :=
  let flag (k : StageKind) : Scalar × Value := (.text k.name, .scalar (.bool (c.stages.enabled k)))
  .map [
    (.text "stages", .map (StageKind.all.map flag)),
    (.text "rename", .map [
      (.text "min_length", .scalar (.int c.rename.minLength)),
      (.text "variable_prefix", .text c.rename.variableStem),
      (.text "function_prefix", .text c.rename.functionStem)]),
    (.text "formatting", .map [
      (.text "indent_width", .scalar (.int c.formatting.indentWidth))]),
    (.text "output", .map [
      (.text "filename", .text c.output.filename),
      (.text "report", .scalar (.bool c.output.report)),
      (.text "report_suffix", .text c.output.reportSuffix)]),
    (.text "log_level", .text c.logLevel.name),
    (.text "log_format", .text c.logFormat.name)]

def entries (c : Config) : List (Text × Yaml.Block) :=
  let flag (k : StageKind) : Text × Yaml.Block := (k.name, .atom (.bool (c.stages.enabled k)))
  [("formatting", .map [("indent_width", .atom (.int c.formatting.indentWidth))]),
    ("log_format", .atom (.text c.logFormat.name)),
    ("log_level", .atom (.text c.logLevel.name)),
    ("output", .map [
      ("filename", .atom (.text c.output.filename)),
      ("report", .atom (.bool c.output.report)),
      ("report_suffix", .atom (.text c.output.reportSuffix))]),
    ("rename", .map [
      ("function_prefix", .atom (.text c.rename.functionStem)),
      ("min_length", .atom (.int c.rename.minLength)),
      ("variable_prefix", .atom (.text c.rename.variableStem))]),
    ("stages", .map [flag .base64, flag .concat, flag .escapes, flag .formatting,
      flag .functionNames, flag .hex, flag .variableNames, flag .whitespace])]

def document (c : Config) : Text := Yaml.write c.entries

/-! ## The file for a project -/

/-- The lines of a file of settings that spells out the defaults; the last one is empty. -/
def templateLines : List String := [
  "# luadeob.yaml",
  "",
  "# Pipeline stages (run in this order; set false to skip)",
  "stages:",
  "  whitespace: true",
  "  concat: true",
  "  variables: true",
  "  functions: true",
  "  base64: true",
  "  hex: true",
  "  escapes: true",
  "  formatting: true",
  "",
  "# Identifier renaming",
  "rename:",
  "  min_length: 10               # names longer than this are renamed",
  "  variable_prefix: \"var_\"",
  "  function_prefix: \"func_\"",
  "",
  "# Re-indentation",
  "formatting:",
  "  indent_width: 2",
  "",
  "# Output",
  "output:",
  "  filename: \"deobfuscated.lua\" # used when --output points at a directory",
  "  report: false                # write a techniques report next to the output",
  "  report_suffix: \".techniques.yaml\"",
  "",
  "# Logging",
  "log_level: \"warn\"              # debug | info | warn | error",
  "log_format: \"text\"             # text | json",
  ""]

def template : Text := Text.unlines (templateLines.map String.toList)

end LuaTidy.Config
