import LuaTidy.Config.Basic
import LuaTidy.Config.Check
import LuaTidy.Pipeline.Stage
/-!
Settings and outcomes from document values. Fields are checked in the order in which they are
declared; unknown fields are ignored; an absent field has its default.
-/
namespace LuaTidy

/-- Checks a record after its entries have been found to be entries at all. -/
def Value.asRecord {α : Type} (recordName : Text) (check : Entries Scalar Value → Checked α)
    (v : Value) : Checked α :=
  match v.checkRecord recordName with
  | .ok es => check es
  | .error ps => .error ps

namespace StageFlags

/-- The switches among the entries of a record. -/
def check (es : Entries Scalar Value) : Checked StageFlags :=
  let flag (kind : StageKind) := Value.checkField es kind.name true Value.checkBool
  (Checked.apply · (flag .formatting)) <|
  (Checked.apply · (flag .escapes)) <|
  (Checked.apply · (flag .hex)) <|
  (Checked.apply · (flag .base64)) <|
  (Checked.apply · (flag .functionNames)) <|
  (Checked.apply · (flag .variableNames)) <|
  (Checked.apply · (flag .concat)) <|
  (flag .whitespace).map StageFlags.mk

def ofValue : Value → Checked StageFlags := Value.asRecord "StagesConfig" check

end StageFlags

namespace RenameSettings

def check (es : Entries Scalar Value) : Checked RenameSettings :=
  let d : RenameSettings := {}
  (Checked.apply · (Value.checkField es "function_prefix" d.functionStem Value.checkText)) <|
  (Checked.apply · (Value.checkField es "variable_prefix" d.variableStem Value.checkText)) <|
  (Value.checkField es "min_length" d.minLength Value.checkCount).map RenameSettings.mk

def ofValue : Value → Checked RenameSettings := Value.asRecord "RenameConfig" check

end RenameSettings

namespace FormatSettings

def check (es : Entries Scalar Value) : Checked FormatSettings :=
  let d : FormatSettings := {}
  (Value.checkField es "indent_width" d.indentWidth Value.checkCount).map FormatSettings.mk

def ofValue : Value → Checked FormatSettings := Value.asRecord "FormattingConfig" check

end FormatSettings

namespace OutputSettings

def check (es : Entries Scalar Value) : Checked OutputSettings :=
  let d : OutputSettings := {}
  (Checked.apply · (Value.checkField es "report_suffix" d.reportSuffix Value.checkText)) <|
  (Checked.apply · (Value.checkField es "report" d.report Value.checkBool)) <|
  (Value.checkField es "filename" d.filename Value.checkText).map OutputSettings.mk

def ofValue : Value → Checked OutputSettings := Value.asRecord "OutputConfig" check

end OutputSettings

def LogLevel.ofValue : Value → Checked LogLevel :=
  Value.checkWord [("debug", .debug), ("info", .info), ("warn", .warn)] ("error", .error)

def LogFormat.ofValue : Value → Checked LogFormat :=
  Value.checkWord [("text", .text)] ("json", .json)

namespace Config

def check (es : Entries Scalar Value) : Checked Config :=
  let d : Config := {}
  (Checked.apply · (Value.checkField es "log_format" d.logFormat LogFormat.ofValue)) <|
  (Checked.apply · (Value.checkField es "log_level" d.logLevel LogLevel.ofValue)) <|
  (Checked.apply · (Value.checkField es "output" d.output OutputSettings.ofValue)) <|
  (Checked.apply · (Value.checkField es "formatting" d.formatting FormatSettings.ofValue)) <|
  (Checked.apply · (Value.checkField es "rename" d.rename RenameSettings.ofValue)) <|
  (Value.checkField es "stages" d.stages StageFlags.ofValue).map Config.mk

def ofValue : Value → Checked Config := Value.asRecord "DeobConfig" check

end Config

namespace Outcome

def check (es : Entries Scalar Value) : Checked Outcome :=
  (Checked.apply · (Value.checkField es "techniques" [] (Value.checkList Value.checkText))) <|
  (Value.checkRequired es "text" Value.checkText).map Outcome.mk

def ofValue : Value → Checked Outcome := Value.asRecord "TransformResult" check

end Outcome
end LuaTidy
