import LuaTidy.Config.Basic
import LuaTidy.Files.Path
import LuaTidy.Json.Quoted
import LuaTidy.Pipeline.Run
/-! Log messages: what a run tells about its stages and files, and how that is written. -/
namespace LuaTidy

structure LogMessage where
  level : LogLevel
  source : Text
  words : Text
  deriving DecidableEq, Repr

def LogLevel.rank : LogLevel → Nat
  | .debug => 0
  | .info => 1
  | .warn => 2
  | .error => 3

/-- The name of a level at the beginning of a line. -/
def LogLevel.heading : LogLevel → Text
  | .debug => "DEBUG"
  | .info => "INFO"
  | .warn => "WARNING"
  | .error => "ERROR"

namespace LogMessage

def textLine (m : LogMessage) : Text :=
  m.level.heading ++ ' ' :: m.source ++ ": " ++ m.words ++ ['\n']

/-- A message as a document on one line, with the time at which it was written. -/
def jsonLine (time : Text) (m : LogMessage) : Text :=
  let member (name value : Text) : Text := Json.asciiQuote name ++ ": " ++ Json.asciiQuote value
  '\x7b' :: Text.joinWith ", " [member "event" m.words, member "timestamp" time,
    member "level" m.level.name, member "logger" m.source] ++ ['\x7d', '\n']

/-- The lines of the messages that reach the threshold of the settings. -/
def writeAll (cfg : Config) (time : Text) (ms : List LogMessage) : Text :=
  (ms.filter fun m => cfg.logLevel.rank ≤ m.level.rank).flatMap fun m =>
    match cfg.logFormat with
    | .text => m.textLine
    | .json => m.jsonLine time

def ofStage (o : Observed) : List LogMessage :=
  let named (noun : Text) : List LogMessage :=
    if o.hits = 0 then []
    else
      [⟨.debug, "luadeob.stages.renaming",
        "renamed " ++ Text.decimal o.namesGiven ++ ' ' :: noun ++ "(s)"⟩]
  let own : List LogMessage :=
    match o.stage.kind with
    | .variableNames => named "variable"
    | .functionNames => named "function"
    | .base64 =>
      if o.hits = 0 then []
      else
        [⟨.debug, "luadeob.stages.decoding",
          "decoded " ++ Text.decimal o.hits ++ " base64 literal(s)"⟩]
    | _ => []
  own ++ [⟨.debug, "luadeob.stages.pipeline",
    "stage " ++ o.stage.kind.name ++ ": " ++ Text.decimal o.hits ++ " hit(s)"⟩]

def wrote (path : Path) (s : Text) : LogMessage :=
  ⟨.info, "luadeob.output.writer",
    "wrote " ++ path.text ++ " (" ++ Text.decimal s.length ++ " chars)"⟩

def wroteReport (path : Path) : LogMessage :=
  ⟨.info, "luadeob.output.writer", "wrote report " ++ path.text⟩

end LogMessage
end LuaTidy
