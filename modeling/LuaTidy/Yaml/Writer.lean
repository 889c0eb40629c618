import LuaTidy.Yaml.Cursor
import LuaTidy.Yaml.Tag
/-!
Written scalars. A text is written plain where it reads back as the same text, between single
quotes where that needs no escapes, and else between double quotes with everything outside
printable ASCII escaped. Long scalars go on in further lines at a space.
-/
namespace LuaTidy.Yaml

/-- The column after which a scalar goes on in a further line. -/
def lineWidth : Nat := 80

/-- Whether a character is left as it is without double quotes. -/
def isOrdinary (c : Char) : Bool := c == '\n' || (' ' ≤ c && c ≤ '~')

/-- Whether a character directly before another one occurs in a text. -/
def hasPair (a b : Char) (s : Text) : Bool := Text.occursIn [a, b] s

/-- Whether an indicator inside a text would be taken for one; `before` stands before the text. -/
def hasIndicator (before : Option Char) : Text → Bool
  | [] => false
  | c :: rest =>
    (c == ':' && endsToken rest.head?) || (c == '#' && endsToken before) ||
      hasIndicator (some c) rest

/-- Whether the beginning of a text would be taken for an indicator or a mark. -/
def beginsWithIndicator (s : Text) : Bool :=
  ("---" : Text).isPrefixOf s || ("..." : Text).isPrefixOf s ||
    match s with
    | [] => false
    | c :: rest =>
      ("#,[]\x7b\x7d&*!|>'\"%@`" : Text).contains c ||
        ((c == '?' || c == '-') && endsToken rest.head?)

def canBePlain (s : Text) : Bool :=
  Tag.ofForm s = .text && s.head? != some ' ' && s.getLast? != some ' ' &&
    s.all (fun c => isOrdinary c && c != '\n') && !beginsWithIndicator s && !hasIndicator none s

def canBeSingle (s : Text) : Bool := s.all isOrdinary && !hasPair ' ' '\n' s && !hasPair '\n' ' ' s

structure Layout where
  /-- Where further lines begin. -/
  indent : Nat
  /-- Whether there may be further lines at a space. -/
  mayFold : Bool

/-- The break before a further line. -/
def Layout.newLine (l : Layout) : Text := '\n' :: List.replicate l.indent ' '

/--
A text without escapes from the column `column` on. A space with no other one beside it, past the
line width, becomes the beginning of a further line; line breaks are doubled once in a row.
-/
def writeFolded (l : Layout) (column : Nat) (before : Option Char) : Text → Text
  | [] => []
  | c :: rest =>
    if c = ' ' then
      if l.mayFold && lineWidth < column && before.isSome && before != some ' ' &&
          rest.head?.any (· != ' ') then
        l.newLine ++ writeFolded l l.indent (some c) rest
      else ' ' :: writeFolded l (column + 1) (some c) rest
    else if c = '\n' then
      let first : Text := if before = some '\n' then [] else ['\n']
      let margin : Text := if rest.head? = some '\n' then [] else List.replicate l.indent ' '
      first ++ '\n' :: margin ++ writeFolded l l.indent (some c) rest
    else if c = '\'' then
      '\'' :: '\'' :: writeFolded l (column + 2) (some c) rest
    else c :: writeFolded l (column + 1) (some c) rest

def writePlain (l : Layout) (column : Nat) (before : Option Char) : Text → Text
  | [] => []
  | c :: rest =>
    if c = ' ' && l.mayFold && lineWidth < column && before != some ' ' &&
        rest.head?.any (· != ' ') then
      l.newLine ++ writePlain l l.indent (some c) rest
    else c :: writePlain l (column + 1) (some c) rest

/-- The letters that stand for some characters after a backslash. -/
def doubleEscapes : List (Char × Char) :=
  [('\x00', '0'), ('\x07', 'a'), ('\x08', 'b'), ('\t', 't'), ('\n', 'n'), ('\x0b', 'v'),
    ('\x0c', 'f'), ('\r', 'r'), ('\x1b', 'e'), ('"', '"'), ('\\', '\\'), ('\u0085', 'N'),
    ('\u00a0', '_'), ('\u2028', 'L'), ('\u2029', 'P')]

/-- The escape of a character between double quotes, if it needs one. -/
def doubleEscape? (c : Char) : Option Text :=
  if ' ' ≤ c ∧ c ≤ '~' ∧ c ≠ '"' ∧ c ≠ '\\' then none
  else
    match doubleEscapes.lookup c with
    | some e => some ['\\', e]
    | none =>
      let n := c.toNat
      some (if n < 0x100 then '\\' :: 'x' :: Text.upperHex 2 n
        else if n < 0x10000 then '\\' :: 'u' :: Text.upperHex 4 n
        else '\\' :: 'U' :: Text.upperHex 8 n)

/--
A text between double quotes from the column `column` on. Past the line width the text goes on in a
further line before a space or next to an escape; a space there is escaped, so that it counts.
-/
def writeDouble (l : Layout) (column : Nat) (first afterEscape : Bool) : Text → Text
  | [] => []
  | c :: rest =>
    let inside := l.mayFold && !first && !rest.isEmpty
    match doubleEscape? c with
    | some e =>
      let column := column + e.length
      if inside && lineWidth + 1 < column then
        let mark : Text := if rest.head? = some ' ' then ['\\'] else []
        e ++ '\\' :: l.newLine ++ mark ++
          writeDouble l (l.indent + mark.length) false true rest
      else e ++ writeDouble l column false true rest
    | none =>
      if inside && (c = ' ' || afterEscape) && lineWidth < column then
        let mark : Text := if c = ' ' then ['\\'] else []
        '\\' :: l.newLine ++ mark ++ c ::
          writeDouble l (l.indent + mark.length + 1) false false rest
      else c :: writeDouble l (column + 1) false false rest

def writeText (l : Layout) (column : Nat) (s : Text) : Text :=
  if canBePlain s then writePlain l column none s
  else if canBeSingle s then '\'' :: writeFolded l (column + 1) none s ++ ['\'']
  else '"' :: writeDouble l (column + 1) true true s ++ ['"']

/-!
## Documents in block style

One entry a line, two columns of indentation, the items of a list at the column of their key. A key
that is empty, long or of several lines is written after a question mark.
-/

inductive Atom where
  | null
  | bool (b : Bool)
  | int (n : Int)
  | text (s : Text)
  deriving DecidableEq, Repr

inductive Block where
  | atom (a : Atom)
  | list (items : List Atom)
  | map (entries : List (Text × Block))
  deriving Repr

/-- A scalar that begins at the column `column`. -/
def Atom.write (l : Layout) (column : Nat) : Atom → Text
  | .null => "null"
  | .bool b => if b then "true" else "false"
  | .int n => Text.signedDecimal n
  | .text s => writeText l column s

/-- The greatest length of a key that stands before its colon on one line. -/
def keyLimit : Nat := 122

def isSimpleKey (s : Text) : Bool :=
  !s.isEmpty && s.length ≤ keyLimit && !s.any fun c => isBreak c && c != '\r'

def levelWidth : Nat := 2

/-- A key with its colon in a map at the column `indent`, and the column after it. -/
def writeKey (indent : Nat) (k : Text) : Text × Nat :=
  let margin : Text := List.replicate indent ' '
  if isSimpleKey k then
    let written := writeText ⟨indent, false⟩ indent k
    (margin ++ written ++ [':'], indent + written.length + 1)
  else
    let written := writeText ⟨indent + levelWidth, true⟩ (indent + 2) k
    (margin ++ '?' :: ' ' :: written ++ '\n' :: margin ++ [':'], indent + 1)

/-- The items of a list whose dashes stand at the column `indent`. -/
def writeItems (indent : Nat) (items : List Atom) : Text :=
  items.flatMap fun a =>
    List.replicate indent ' ' ++ '-' :: ' ' ::
      a.write ⟨indent + levelWidth, true⟩ (indent + 2) ++ ['\n']

mutual

/-- The value of a key in a map at the column `indent`, after the column `column`. -/
def writeValue (indent column : Nat) : Block → Text
  | .atom a => ' ' :: a.write ⟨indent + levelWidth, true⟩ (column + 1) ++ ['\n']
  | .list [] => " []\n"
  | .list items => '\n' :: writeItems indent items
  | .map [] => " \x7b\x7d\n"
  | .map (e :: es) => '\n' :: writeEntries (indent + levelWidth) (e :: es)

def writeEntries (indent : Nat) : List (Text × Block) → Text
  | [] => []
  | (k, b) :: es =>
    let (key, column) := writeKey indent k
    key ++ writeValue indent column b ++ writeEntries indent es

end

def write (entries : List (Text × Block)) : Text := writeEntries 0 entries

end LuaTidy.Yaml
