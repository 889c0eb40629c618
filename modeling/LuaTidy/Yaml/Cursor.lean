import LuaTidy.Text.Basic
import LuaTidy.Text.Visible
/-! What can be wrong with a document, and a place in one. -/
namespace LuaTidy.Yaml

inductive Error where
  /-- The text breaks the rules of the format. -/
  | malformed
  /-- A scalar has the form of a number or date, or an escape that of a character, without one. -/
  | badValue (words : Text)
  /-- A scalar was declared a truth value and is none. -/
  | unknownWord (word : Text)
  /-- A scalar was declared a number and is empty. -/
  | emptyNumber
  /-- A scalar was declared a date and is none. -/
  | notDate
  /-- A number is out of the range of what it is used for. -/
  | outOfRange (words : Text)
  | tooDeep
  deriving DecidableEq, Repr

def Error.message : Error → Text
  | .malformed => "malformed document"
  | .badValue words => words
  | .unknownWord word => Text.display word
  | .emptyNumber => "string index out of range"
  | .notDate => "'NoneType' object has no attribute 'groupdict'"
  | .outOfRange words => words
  | .tooDeep => "maximum recursion depth exceeded"

/-! ## Places -/

structure Cursor where
  rest : Text
  line : Nat := 0
  column : Nat := 0
  index : Nat := 0
  deriving Repr

def isBreak (c : Char) : Bool :=
  c == '\n' || c == '\r' || c == '\u0085' || c == '\u2028' || c == '\u2029'

def isSpaceOrTab (c : Char) : Bool := c == ' ' || c == '\t'

def byteOrderMark : Char := '\uFEFF'

/-- Whether what is seen is a space or the end of a line or of the document. -/
def endsWord (seen : Option Char) : Bool := seen.all fun c => c == ' ' || isBreak c

/-- Whether what is seen is a space, a tab or the end of a line or of the document. -/
def endsToken (seen : Option Char) : Bool := seen.all fun c => isSpaceOrTab c || isBreak c

namespace Cursor

def peek (c : Cursor) : Option Char := c.rest.head?

def peekAt (c : Cursor) (n : Nat) : Option Char := (c.rest.drop n).head?

def next (c : Cursor) : Cursor :=
  match c.rest with
  | [] => c
  | d :: rest =>
    if isBreak d && !(d == '\r' && rest.head? == some '\n') then
      { rest, line := c.line + 1, column := 0, index := c.index + 1 }
    else
      { rest, line := c.line, index := c.index + 1
        column := if d == byteOrderMark then c.column else c.column + 1 }

def advance (c : Cursor) : Nat → Cursor
  | 0 => c
  | n + 1 => c.next.advance n

/-- The characters that satisfy `p`, and the place after them. -/
def span (c : Cursor) (p : Char → Bool) : Text × Cursor :=
  let s := c.rest.takeWhile p
  (s, c.advance s.length)

def skip (c : Cursor) (p : Char → Bool) : Cursor := (c.span p).2

/-- The place after the comment that begins here, if one does. -/
def skipComment (c : Cursor) : Cursor :=
  if c.peek = some '#' then c.skip (!isBreak ·) else c

/-- The line break at this place as it counts in a text, and the place after it. -/
def lineBreak? (c : Cursor) : Option (Char × Cursor) :=
  match c.rest with
  | '\r' :: '\n' :: _ => some ('\n', c.advance 2)
  | d :: _ =>
    if d == '\u2028' || d == '\u2029' then some (d, c.next)
    else if isBreak d then some ('\n', c.next)
    else none
  | [] => none

/-- Whether three equal marks, `---` or `...`, with nothing attached begin here. -/
def atMarks (mark : Char) (c : Cursor) : Bool :=
  match c.rest with
  | a :: b :: d :: rest => a == mark && b == mark && d == mark && endsToken rest.head?
  | _ => false

/-- Whether a mark between documents begins here, as far as the next characters tell. -/
def atDocumentMark (c : Cursor) : Bool := c.atMarks '-' || c.atMarks '.'

end Cursor
end LuaTidy.Yaml
