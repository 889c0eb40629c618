import LuaTidy.Text.Pieces
/-!
Quoted literals on one line and their extents. Positions strictly between the quotes of a literal
are inside it; the extents are kept in order, so that the only literal that can hold a position is
the last one that opens at or before it.
-/
namespace LuaTidy.Lua

def isQuote (c : Char) : Bool := c == '"' || c == '\''

/--
How many characters after an opening quote `q` complete the literal, the closing quote included. A
backslash takes the character after it along; neither it nor the literal runs over a line end.
-/
def closing? (q : Char) : Text → Option Nat
  | [] => none
  | c :: cs =>
    if c = q then some 1
    else if c = '\\' then
      match cs with
      | [] => none
      | d :: ds => if d = '\n' then none else (closing? q ds).map (· + 2)
    else if c = '\n' then none
    else (closing? q cs).map (· + 1)

def literal? : Text.Recogniser Unit := fun c cs =>
  if isQuote c then (closing? c cs).map (·, ()) else none

/-- The extents of the recognised pieces, where the first piece begins at position `p`. -/
def extentsFrom {α : Type} : Nat → List (Text.Piece α) → List (Nat × Nat)
  | _, [] => []
  | p, .kept _ :: rest => extentsFrom (p + 1) rest
  | p, .found s _ :: rest => (p, p + s.length) :: extentsFrom (p + s.length) rest

/-- The extents of the literals of a text, in order: first position, and the one after the last. -/
def literalSpans (s : Text) : Array (Nat × Nat) :=
  (extentsFrom 0 (Text.pieces literal? s)).toArray

/--
How many of the spans `lo, …, hi - 1` and all before them open at or before `pos`, by halving the
range: the ones before `lo` do, the ones from `hi` on do not.
-/
def openedBy (spans : Array (Nat × Nat)) (pos : Int) (lo hi : Nat) : Nat :=
  if h : lo < hi then
    let mid := (lo + hi) / 2
    if pos < (spans.getD mid (0, 0)).1 then openedBy spans pos lo mid
    else openedBy spans pos (mid + 1) hi
  else lo
termination_by hi - lo
decreasing_by all_goals omega

/-- Whether a position lies strictly inside a span, asked of the last span that opens by then. -/
def encloses (spans : Array (Nat × Nat)) (pos : Int) : Bool :=
  match openedBy spans pos 0 spans.size with
  | 0 => false
  | i + 1 => let (first, after) := spans.getD i (0, 0); first < pos && pos < after

def insideSpan (spans : Array (Nat × Nat)) (pos : Nat) : Bool := encloses spans pos

end LuaTidy.Lua
