import LuaTidy.Pipeline.Stage
/-! Settings and their defaults. -/
namespace LuaTidy

structure StageFlags where
  whitespace : Bool := true
  concat : Bool := true
  variableNames : Bool := true
  functionNames : Bool := true
  base64 : Bool := true
  hex : Bool := true
  escapes : Bool := true
  formatting : Bool := true
  deriving DecidableEq, Repr

def StageFlags.enabled (f : StageFlags) : StageKind → Bool
  | .whitespace => f.whitespace
  | .concat => f.concat
  | .variableNames => f.variableNames
  | .functionNames => f.functionNames
  | .base64 => f.base64
  | .hex => f.hex
  | .escapes => f.escapes
  | .formatting => f.formatting

/-- Names longer than `minLength` are renamed to numbered names with these stems. -/
structure RenameSettings where
  minLength : Int := 10
  variableStem : Text := "var_"
  functionStem : Text := "func_"
  deriving DecidableEq, Repr

/-- Lines are indented by `indentWidth` spaces at each level. -/
structure FormatSettings where
  indentWidth : Int := 2
  deriving DecidableEq, Repr

structure OutputSettings where
  /-- The file name used when the destination is a directory. -/
  filename : Text := "deobfuscated.lua"
  /-- Whether a report is written next to every output. -/
  report : Bool := false
  /-- What is added to the output's name to get the report's name. -/
  reportSuffix : Text := ".techniques.yaml"
  deriving DecidableEq, Repr

/-- Thresholds for log messages, from the most to the least talkative. -/
inductive LogLevel where
  | debug | info | warn | error
  deriving DecidableEq, Repr

inductive LogFormat where
  | text | json
  deriving DecidableEq, Repr

structure Config where
  stages : StageFlags := {}
  rename : RenameSettings := {}
  formatting : FormatSettings := {}
  output : OutputSettings := {}
  logLevel : LogLevel := .warn
  logFormat : LogFormat := .text
  deriving DecidableEq, Repr

def LogLevel.name : LogLevel → Text
  | .debug => "debug"
  | .info => "info"
  | .warn => "warn"
  | .error => "error"

def LogFormat.name : LogFormat → Text
  | .text => "text"
  | .json => "json"

end LuaTidy
