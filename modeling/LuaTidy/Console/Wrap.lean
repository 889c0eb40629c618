import LuaTidy.Console.Markup
import LuaTidy.Console.Width
/-!
Lines on a console of limited width. A line breaks between words; a word that is wider than the
console is cut. Blanks at a break stay as far as there is room for them.
-/
namespace LuaTidy.Console

def columns : Nat := 80

def tabStops : Nat := 8

/-- Spaces in the place of tabs, from the column `column` on. -/
def expandTabs (column : Nat) : Text → Text
  | [] => []
  | c :: rest =>
    if c = '\t' then
      let n := tabStops - column % tabStops
      List.replicate n ' ' ++ expandTabs (column + n) rest
    else c :: expandTabs (column + charWidth c) rest

/-- The words of a line, each with the blanks after it; the first one also with those before it. -/
def wordsFrom : Text → List Text
  | [] => []
  | c :: rest =>
    match wordsFrom rest with
    | [] => [[c]]
    | w :: ws =>
      if Text.isBlank c && w.head?.any (!Text.isBlank ·) then [c] :: w :: ws
      else (c :: w) :: ws

/-- Blanks before the first word belong to it. -/
def words (s : Text) : List Text :=
  match wordsFrom s with
  | w :: v :: ws => if w.all Text.isBlank then (w ++ v) :: ws else w :: v :: ws
  | ws => ws

/-- Cut a word into parts of at most `limit` columns. -/
def cut (limit used : Nat) : Text → List Text
  | [] => [[]]
  | c :: rest =>
    if limit < used + charWidth c then
      match cut limit (charWidth c) rest with
      | [] => [[], [c]]
      | p :: ps => [] :: (c :: p) :: ps
    else
      match cut limit (used + charWidth c) rest with
      | [] => [[c]]
      | p :: ps => (c :: p) :: ps

/-- Place words on lines of `limit` columns; `line` is the line so far and `used` its width. -/
def fillFrom (limit : Nat) (line : Text) (used : Nat) : List Text → List Text
  | [] => [line]
  | w :: ws =>
    let room := width (Text.dropWhileEnd Text.isBlank w)
    if used + room ≤ limit then fillFrom limit (line ++ w) (used + width w) ws
    else if limit < room then
      let parts := cut limit 0 w
      let last := parts.getLast?.getD []
      let more := fillFrom limit last (width last) ws
      if line.isEmpty then parts.dropLast ++ more else line :: parts.dropLast ++ more
    else if used = 0 || line.isEmpty then fillFrom limit (line ++ w) used ws
    else line :: fillFrom limit w (width w) ws

def crop (limit : Nat) (s : Text) : Text := (cut limit 0 s).head?.getD []

/-- A line without the blanks at its end that have no room, and cut down. -/
def fit (limit : Nat) (s : Text) : Text :=
  let blanks := (s.reverse.takeWhile Text.isBlank).length
  crop limit (s.take (s.length - min blanks (s.length - limit)))

def wrap (limit : Nat) (s : Text) : List Text :=
  (Text.lines s).flatMap fun l => (fillFrom limit [] 0 (words (expandTabs 0 l))).map (fit limit)

/-- A message as it is shown: without markup, wrapped, and ended. -/
def show? (rules : TagRules) (s : Text) : Except MarkupError Text :=
  (plain rules s).map fun t => Text.unlines (wrap columns t) ++ ['\n']

/-!
## Tables

They have a title, a heavy frame around the heads of columns and a light one below.
-/

inductive Align where
  | left | right | centre
  deriving DecidableEq, Repr

structure Column where
  head : Text
  width : Nat
  align : Align := .left
  deriving DecidableEq, Repr

/-- A text with spaces around it to fill a width. An odd space goes to the right of the centre. -/
def Align.pad (a : Align) (limit : Nat) (s : Text) : Text :=
  let room := limit - width s
  let spaces (n : Nat) : Text := List.replicate n ' '
  match a with
  | .left => s ++ spaces room
  | .right => spaces room ++ s
  | .centre => spaces (room / 2) ++ s ++ spaces (room - room / 2)

structure Table where
  title : Text
  columns : List Column
  rows : List (List Text)
  deriving DecidableEq, Repr

namespace Table

/-- A horizontal rule: its left end, the stroke, what crosses between columns, its right end. -/
def rule (t : Table) (left stroke cross right : Char) : Text :=
  left :: Text.joinWith [cross] (t.columns.map fun c => List.replicate (c.width + 2) stroke) ++
    [right, '\n']

/-- One line of cells between vertical bars. -/
def line (t : Table) (bar : Char) (cells : List Text) : Text :=
  bar :: Text.joinWith [bar] ((t.columns.zip cells).map fun (c, s) =>
    ' ' :: c.align.pad c.width s ++ [' ']) ++ [bar, '\n']

/-- A row: as many lines as its longest cell has. -/
def row (t : Table) (bar : Char) (cells : List Text) : Text :=
  let wrapped := (t.columns.zip cells).map fun (c, s) => wrap c.width s
  let height := wrapped.foldl (fun n ls => max n ls.length) 0
  (List.range height).flatMap fun i => t.line bar (wrapped.map fun ls => ls[i]?.getD [])

def frameWidth (t : Table) : Nat := t.columns.foldl (fun n c => n + c.width + 3) 1

def render (t : Table) : Text :=
  Align.centre.pad t.frameWidth t.title ++ ['\n'] ++
    t.rule '┏' '━' '┳' '┓' ++ t.row '┃' (t.columns.map (·.head)) ++ t.rule '┡' '━' '╇' '┩' ++
    t.rows.flatMap (t.row '│') ++ t.rule '└' '─' '┴' '┘'

end Table
end LuaTidy.Console
