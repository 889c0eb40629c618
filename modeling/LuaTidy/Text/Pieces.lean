import LuaTidy.Text.Basic
/-!
Leftmost recognition: a text is read from the left, and wherever a recogniser answers at a
character the stretch it claims becomes one piece; other characters are kept one by one. Joining
the pieces' sources gives back the text.
-/
namespace LuaTidy.Text

/-- One character, or a recognised stretch with what it stands for. -/
inductive Piece (α : Type) where
  | kept (c : Char)
  | found (source : Text) (value : α)
  deriving DecidableEq, Repr

def Piece.source {α : Type} : Piece α → Text
  | .kept c => [c]
  | .found s _ => s

def Piece.value? {α : Type} : Piece α → Option α
  | .kept _ => none
  | .found _ a => some a

/--
A recogniser looks at a character and at what follows, and answers how many of the following
characters belong to the stretch.
-/
abbrev Recogniser (α : Type) := Char → Text → Option (Nat × α)

/-- The pieces after the next `n` characters, which an earlier piece has claimed. -/
def piecesAfter {α : Type} (r : Recogniser α) : Nat → Text → List (Piece α)
  | _, [] => []
  | n + 1, _ :: cs => piecesAfter r n cs
  | 0, c :: cs =>
    match r c cs with
    | none => .kept c :: piecesAfter r 0 cs
    | some (n, a) => .found (c :: cs.take n) a :: piecesAfter r n cs

def pieces {α : Type} (r : Recogniser α) (s : Text) : List (Piece α) := piecesAfter r 0 s

/-- What the recognised stretches stand for, from left to right. -/
def findAll {α : Type} (r : Recogniser α) (s : Text) : List α :=
  (pieces r s).filterMap Piece.value?

theorem piecesAfter_eq {α : Type} (r : Recogniser α) (n : Nat) (s : Text) :
    piecesAfter r n s = pieces r (s.drop n) := by
  induction s generalizing n with
  | nil => cases n <;> rfl
  | cons c cs ih =>
    cases n with
    | zero => rfl
    | succ n => exact ih n

theorem flatMap_source_piecesAfter {α : Type} (r : Recogniser α) (n : Nat) (s : Text) :
    (piecesAfter r n s).flatMap Piece.source = s.drop n := by
  induction s generalizing n with
  | nil => simp [piecesAfter]
  | cons c cs ih =>
    cases n with
    | succ n => simpa [piecesAfter] using ih n
    | zero =>
      simp only [piecesAfter]
      split
      · simp [Piece.source, ih]
      · simp [Piece.source, ih]

/-- Nothing of the text is lost. -/
theorem flatMap_source_pieces {α : Type} (r : Recogniser α) (s : Text) :
    (pieces r s).flatMap Piece.source = s :=
  flatMap_source_piecesAfter r 0 s

end LuaTidy.Text
