import LuaTidy.Text.Basic
/-! Rewrites of the layout of a text: its blanks, and the indentation of its lines. -/
namespace LuaTidy

/-!
## Blanks

A text with three blanks in a row somewhere has every run of blanks made one space and its ends
trimmed; other texts stay as they are.
-/

/-- A rewritten text, and how many times the rewrite counts as applied. -/
structure Rewritten where
  text : Text
  hits : Nat
  deriving DecidableEq, Repr

namespace Blanks

/-- Whether three blanks follow one another somewhere. -/
def hasLongRun : Text → Bool
  | a :: b :: c :: cs =>
    (Text.isBlank a && Text.isBlank b && Text.isBlank c) || hasLongRun (b :: c :: cs)
  | _ => false

/-- Make every run of blanks one space. `inRun` tells that the run before is not over. -/
def squeeze (inRun : Bool) : Text → Text
  | [] => []
  | c :: cs =>
    if Text.isBlank c then (if inRun then squeeze true cs else ' ' :: squeeze true cs)
    else c :: squeeze false cs

/-- One space for every run of blanks, none at the ends, if some run is long. -/
def normalize (s : Text) : Rewritten :=
  if hasLongRun s then ⟨Text.strip (squeeze false s), 1⟩ else ⟨s, 0⟩

end Blanks

/-!
## Indentation

Every line is trimmed and indented by a level that goes down, but not below zero, before a line
with a closing word and up after a line with an opening one. The words count wherever they occur
in a line.
-/

namespace Indentation

def closers : List Text := ["end", "\x7d"]

def openers : List Text := ["function", "if", "for", "while", "do", "\x7b"]

def mentions (words : List Text) (line : Text) : Bool := words.any (Text.occursIn · line)

/-- The level of a trimmed line that comes after lines at level `level`. -/
def levelAt (level : Nat) (line : Text) : Nat := if mentions closers line then level - 1 else level

/-- The level after a trimmed line that is itself at level `level`. -/
def levelAfter (level : Nat) (line : Text) : Nat :=
  if mentions openers line then level + 1 else level

/-- Whether `width` is within 64 bits, so that a margin of that many spaces can be asked for. -/
def fits (width : Int) : Bool := -0x8000000000000000 ≤ width && width < 0x8000000000000000

/-- As many spaces as `width` at each level; none if `width` is negative. -/
def margin (width : Int) (level : Nat) : Text :=
  (List.replicate level (List.replicate width.toNat ' ')).flatten

/-- Indent trimmed lines, of which the first one comes after lines at level `level`. -/
def indentFrom (width : Int) : Nat → List Text → List Text
  | _, [] => []
  | level, line :: rest =>
    let here := levelAt level line
    (margin width here ++ line) :: indentFrom width (levelAfter here line) rest

/-- Indent every line of a text. A text that changes counts as one application. -/
def reindent (width : Int) (s : Text) : Rewritten :=
  let t := Text.unlines (indentFrom width 0 ((Text.lines s).map Text.strip))
  ⟨t, if t = s then 0 else 1⟩

end Indentation
end LuaTidy
