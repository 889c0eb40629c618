import LuaTidy.Entries
import LuaTidy.Rewrite.Layout
import LuaTidy.Rewrite.Literals
import LuaTidy.Rewrite.Names
import LuaTidy.Text.Basic
/-!
The eight stages: their names, labels and parameters, and what applying one does to a text and to
the notes that stages share.
-/
namespace LuaTidy

inductive StageKind where
  | whitespace | concat | variableNames | functionNames | base64 | hex | escapes | formatting
  deriving DecidableEq, Repr

namespace StageKind

def all : List StageKind :=
  [.whitespace, .concat, .variableNames, .functionNames, .base64, .hex, .escapes, .formatting]

/-- The name by which a stage is switched on and off. -/
def name : StageKind → Text
  | .whitespace => "whitespace"
  | .concat => "concat"
  | .variableNames => "variables"
  | .functionNames => "functions"
  | .base64 => "base64"
  | .hex => "hex"
  | .escapes => "escapes"
  | .formatting => "formatting"

/-- The technique that a stage reports when it applies; one stage reports nothing. -/
def label? : StageKind → Option Text
  | .whitespace => some "Whitespace normalization"
  | .concat => some "String concatenation simplification"
  | .variableNames => some "Variable name simplification"
  | .functionNames => some "Function name simplification"
  | .base64 => some "Base64 decoding"
  | .hex => some "Hex string decoding"
  | .escapes => none
  | .formatting => some "Code formatting"

def description : StageKind → Text
  | .whitespace => "Collapse whitespace runs to one space and trim the ends"
  | .concat => "Merge adjacent same-quote string literals joined by '..'"
  | .variableNames => "Rename identifiers longer than the threshold to var_<N>"
  | .functionNames => "Rename declared functions with long names to func_<k>"
  | .base64 => "Replace quoted base64 literals that decode to printable text"
  | .hex => "Turn printable \\xHH escapes into their characters"
  | .escapes => "Unescape \\n, \\t, \\r, \\\" and \\' (never reported)"
  | .formatting => "Re-indent lines by counting block keywords and braces"

end StageKind

inductive Stage where
  | whitespace
  | concat
  | variableNames (minLength : Int) (stem : Text)
  | functionNames (minLength : Int) (stem : Text)
  | base64
  | hex
  | escapes
  | formatting (indentWidth : Int)
  deriving DecidableEq, Repr

/-- What stages tell one another: the untouched input and the names given so far. -/
structure Notes where
  source : Option Text
  renamed : Option Lua.Renaming
  deriving DecidableEq, Repr

structure Applied extends Rewritten where
  /-- How many names were given. -/
  namesGiven : Nat
  notes : Notes
  deriving DecidableEq, Repr

namespace Stage

def kind : Stage → StageKind
  | .whitespace => .whitespace
  | .concat => .concat
  | .variableNames .. => .variableNames
  | .functionNames .. => .functionNames
  | .base64 => .base64
  | .hex => .hex
  | .escapes => .escapes
  | .formatting _ => .formatting

/-- The result of a rewrite that neither reads nor writes notes. -/
def plain (notes : Notes) (r : Rewritten) : Applied :=
  { text := r.text, hits := r.hits, namesGiven := 0, notes }

/--
Apply a stage to a text. The variable stage notes the names it gives, if any; the function stage
reads declarations from the noted source, and from the text itself where no source is noted.
-/
def apply (stage : Stage) (notes : Notes) (s : Text) : Applied :=
  match stage with
  | .whitespace => plain notes (Blanks.normalize s)
  | .concat => plain notes (Joins.merge s)
  | .variableNames minLength stem =>
    let r := Variables.simplify minLength stem s
    let renamed :=
      if r.given.isEmpty then notes.renamed else some ((notes.renamed.getD []).update r.given)
    { text := r.text, hits := r.hits, namesGiven := r.given.length,
      notes := { notes with renamed } }
  | .functionNames minLength stem =>
    let r := Functions.simplify minLength stem (notes.source.getD s) (notes.renamed.getD []) s
    { text := r.text, hits := r.hits, namesGiven := r.given.length, notes }
  | .base64 => plain notes (Payloads.decode s)
  | .hex => plain notes (HexEscapes.decode s)
  | .escapes => plain notes (Backslashes.resolve s)
  | .formatting width => plain notes (Indentation.reindent width s)

end Stage

/-!
## Outcomes

What a run yields: the rewritten text and the techniques that were applied.
-/

/-- A rewritten text with the technique labels recorded on the way, repetitions included. -/
structure Outcome where
  text : Text
  techniques : List Text := []
  deriving DecidableEq, Repr

namespace Outcome

def fired (o : Outcome) : Bool := !o.techniques.isEmpty

/-- Count one more occurrence of a label. -/
def tally (m : Entries Text Nat) (label : Text) : Entries Text Nat :=
  m.insert label ((m.get? label).getD 0 + 1)

/-- How often each technique was applied, in the order of first application. -/
def counts (o : Outcome) : Entries Text Nat := o.techniques.foldl tally []

end Outcome
end LuaTidy
