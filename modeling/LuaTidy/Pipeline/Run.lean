import LuaTidy.Config.Basic
import LuaTidy.Pipeline.Stage
import LuaTidy.Text.Basic
/-! Selecting the stages of a run and running them one after the other. -/
namespace LuaTidy

/-- All stages in their fixed order, with the parameters that the settings give them. -/
def Config.allStages (cfg : Config) : List Stage :=
  [.whitespace, .concat,
    .variableNames cfg.rename.minLength cfg.rename.variableStem,
    .functionNames cfg.rename.minLength cfg.rename.functionStem,
    .base64, .hex, .escapes, .formatting cfg.formatting.indentWidth]

inductive StagesError where
  /-- Names to skip belong to no stage: each once, in order of code points. -/
  | unknown (names : List Text)
  /-- There is no margin of so many spaces. -/
  | tooWide (indentWidth : Int)
  deriving DecidableEq, Repr

namespace StagesError

def message : StagesError → Text
  | .unknown names => "Unknown stage(s): " ++ Text.joinWith ", " names ++ ". Known stages: " ++
      Text.joinWith ", " (StageKind.all.map StageKind.name)
  | .tooWide _ => "cannot fit 'int' into an index-sized integer"

end StagesError

/-- All stages, if they can be built. The margin is built even if no stage is to indent. -/
def Config.buildStages (cfg : Config) : Except StagesError (List Stage) :=
  let width := cfg.formatting.indentWidth
  if Indentation.fits width then .ok cfg.allStages else .error (.tooWide width)

/-- The names that belong to no stage, each once, in order of code points. -/
def unknownNames (skip : List Text) : List Text :=
  (skip.filter fun n => !(StageKind.all.map StageKind.name).contains n).eraseDups.mergeSort
    Text.atMost

/-- The stages that are switched on and not skipped, if all names to skip are stage names. -/
def Config.selectStages (cfg : Config) (skip : List Text) : Except StagesError (List Stage) :=
  let unknown := unknownNames skip
  if unknown.isEmpty then
    cfg.buildStages.map (·.filter fun s => cfg.stages.enabled s.kind && !skip.contains s.kind.name)
  else .error (.unknown unknown)

/-- What was observed of one stage in a run. -/
structure Observed where
  stage : Stage
  hits : Nat
  namesGiven : Nat
  deriving DecidableEq, Repr

/-- A run between two stages. -/
structure Progress where
  text : Text
  notes : Notes
  techniques : List Text
  trace : List Observed
  deriving DecidableEq, Repr

namespace Progress

/-- The state before the first stage: the source is noted, and no names have been given. -/
def start (s : Text) : Progress :=
  { text := s, notes := ⟨some s, some []⟩, techniques := [], trace := [] }

/-- Run one more stage. Its label is recorded once for every hit. -/
def step (p : Progress) (stage : Stage) : Progress :=
  let a := stage.apply p.notes p.text
  let labels :=
    match stage.kind.label? with
    | some l => List.replicate a.hits l
    | none => []
  { text := a.text
    notes := a.notes
    techniques := p.techniques ++ labels
    trace := p.trace ++ [⟨stage, a.hits, a.namesGiven⟩] }

def outcome (p : Progress) : Outcome := ⟨p.text, p.techniques⟩

end Progress

def runStages (stages : List Stage) (s : Text) : Progress := stages.foldl Progress.step (.start s)

/-- Run the stages that the settings select, without those to skip. -/
def Config.run (cfg : Config) (skip : List Text) (s : Text) : Except StagesError Progress :=
  (cfg.selectStages skip).map fun stages => runStages stages s

end LuaTidy
