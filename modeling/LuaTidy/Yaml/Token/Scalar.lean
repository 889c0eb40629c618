import LuaTidy.Yaml.Token.Basic
/-! Scalars: plain, quoted, and in blocks. -/
namespace LuaTidy.Yaml

/-- The text that a line break stands for between two lines: one space if nothing else breaks. -/
def foldedBreak (first : Char) (more : Text) : Text :=
  if first != '\n' then first :: more
  else if more.isEmpty then [' ']
  else more

/-! ## Quoted scalars -/

/-- The characters that some letters stand for after a backslash. -/
def escapeMeanings : List (Char × Char) :=
  [('0', '\x00'), ('a', '\x07'), ('b', '\x08'), ('t', '\t'), ('\t', '\t'), ('n', '\n'),
    ('v', '\x0b'), ('f', '\x0c'), ('r', '\r'), ('e', '\x1b'), (' ', ' '), ('"', '"'),
    ('\\', '\\'), ('/', '/'), ('N', '\u0085'), ('_', '\u00a0'), ('L', '\u2028'), ('P', '\u2029')]

/-- How many hexadecimal digits follow some letters after a backslash. -/
def escapeWidths : List (Char × Nat) := [('x', 2), ('u', 4), ('U', 8)]

/-- Empty lines inside a quoted scalar; a mark between documents is an error there. -/
def scanQuotedBreaks : Nat → Cursor → Except Error (Text × Cursor)
  | 0, c => .ok ([], c)
  | fuel + 1, c =>
    if c.atDocumentMark then malformed
    else
      let c := c.skip isSpaceOrTab
      match c.lineBreak? with
      | some (b, c) => do
        let (more, c) ← scanQuotedBreaks fuel c
        .ok (b :: more, c)
      | none => .ok ([], c)

/-- The character with the code that hexadecimal digits write. -/
def charOfHex (digits : Text) : Except Error Char :=
  match Text.readBase? 16 digits with
  | some n =>
    if 0x80000000 ≤ n then .error (.outOfRange "int too large to convert to C int")
    else if 0x110000 ≤ n then .error (.badValue "chr() arg not in range(0x110000)")
    else .ok (Char.ofNat n)
  | none => malformed

/-- What a backslash begins in a double-quoted scalar; the cursor stands after the backslash. -/
def scanEscape (c : Cursor) : Except Error (Text × Cursor) :=
  match c.peek with
  | none => malformed
  | some d =>
    match escapeMeanings.lookup d, escapeWidths.lookup d with
    | some m, _ => .ok ([m], c.next)
    | none, some w =>
      let digits := (c.rest.drop 1).take w
      if digits.length = w && digits.all Text.isHexDigit then do
        let m ← charOfHex digits
        .ok ([m], c.advance (w + 1))
      else malformed
    | none, none =>
      match c.lineBreak? with
      | some (_, c) => scanQuotedBreaks (c.rest.length + 1) c
      | none => malformed

/-- The inside of a quoted scalar from here to the place after its closing quote. -/
def scanQuotedFrom (double : Bool) : Nat → Cursor → Except Error (Text × Cursor)
  | 0, _ => malformed
  | fuel + 1, c =>
    match c.peek with
    | none => malformed
    | some d =>
      if !double && d == '\'' then
        if c.peekAt 1 = some '\'' then do
          let (more, c) ← scanQuotedFrom double fuel (c.advance 2)
          .ok ('\'' :: more, c)
        else .ok ([], c.next)
      else if double && d == '"' then .ok ([], c.next)
      else if double && d == '\\' then do
        let (s, c) ← scanEscape c.next
        let (more, c) ← scanQuotedFrom double fuel c
        .ok (s ++ more, c)
      else if isSpaceOrTab d || isBreak d then
        let (blanks, c) := c.span isSpaceOrTab
        match c.lineBreak? with
        | some (b, c) => do
          let (breaks, c) ← scanQuotedBreaks (c.rest.length + 1) c
          let (more, c) ← scanQuotedFrom double fuel c
          .ok (foldedBreak b breaks ++ more, c)
        | none => do
          let (more, c) ← scanQuotedFrom double fuel c
          .ok (blanks ++ more, c)
      else do
        let (more, c) ← scanQuotedFrom double fuel c.next
        .ok (d :: more, c)

def scanQuoted (double : Bool) (c : Cursor) : Except Error (Token × Cursor) := do
  let (s, c) ← scanQuotedFrom double (c.rest.length + 1) c.next
  .ok (.scalar false s, c)

/-! ## Plain scalars -/

/-- Whether a plain scalar stops before a character that `after` follows. -/
def stopsPlain (flow : Bool) (d : Char) (after : Option Char) : Bool :=
  isSpaceOrTab d || isBreak d ||
    (d == ':' && (endsToken after || (flow && after.any (",[]\x7b\x7d" : Text).contains))) ||
    (flow && (",?[]\x7b\x7d" : Text).contains d)

/-- The characters of a plain scalar up to the next blank or indicator. -/
def plainWord (flow : Bool) : Text → Text
  | [] => []
  | d :: rest => if stopsPlain flow d rest.head? then [] else d :: plainWord flow rest

/-- Empty lines inside a plain scalar; `none` if a mark between documents comes up. -/
def scanPlainBreaks : Nat → Cursor → Option Text × Cursor
  | 0, c => (some [], c)
  | fuel + 1, c =>
    let c := c.skip (· == ' ')
    match c.lineBreak? with
    | none => (some [], c)
    | some (b, c) =>
      if c.atDocumentMark then (none, c)
      else
        let (more, c) := scanPlainBreaks fuel c
        (more.map (b :: ·), c)

structure PlainGap where
  /-- The text between this word and the next one; empty if the scalar is over. -/
  between : Text
  broken : Bool

def scanPlainGap (c : Cursor) : PlainGap × Cursor :=
  let (blanks, c) := c.span (· == ' ')
  match c.lineBreak? with
  | none => (⟨blanks, false⟩, c)
  | some (b, c) =>
    if c.atDocumentMark then (⟨[], true⟩, c)
    else
      match scanPlainBreaks (c.rest.length + 1) c with
      | (none, c) => (⟨[], true⟩, c)
      | (some breaks, c) => (⟨foldedBreak b breaks, true⟩, c)

/-- A plain scalar as read so far. -/
structure PlainText where
  text : Text
  /-- Whether the scan stopped at the beginning of a line. -/
  atLineStart : Bool
  cursor : Cursor

/--
The words of a plain scalar from here on, after the text `gap`. In block context the lines after
the first one must not begin left of `margin`.
-/
def scanPlainFrom (flow : Bool) (margin : Int) (gap : Text) (broken : Bool) :
    Nat → Cursor → PlainText
  | 0, c => ⟨[], broken, c⟩
  | fuel + 1, c =>
    if c.peek = some '#' then ⟨[], broken, c⟩
    else
      let word := plainWord flow c.rest
      if word.isEmpty then ⟨[], broken, c⟩
      else
        let (g, c) := scanPlainGap (c.advance word.length)
        if g.between.isEmpty || c.peek = some '#' || (!flow && (c.column : Int) < margin) then
          ⟨gap ++ word, g.broken, c⟩
        else
          let more := scanPlainFrom flow margin g.between g.broken fuel c
          { more with text := gap ++ word ++ more.text }

def scanPlain (flow : Bool) (margin : Int) (c : Cursor) : PlainText :=
  scanPlainFrom flow margin [] false (c.rest.length + 1) c

/-! ## Block scalars -/

/-- What to do with the line breaks at the end of a block scalar. -/
inductive Chomping where
  | clip | strip | keep
  deriving DecidableEq, Repr

def chomping? (seen : Option Char) : Option Chomping :=
  match seen with
  | some '+' => some .keep
  | some '-' => some .strip
  | _ => none

/-- The indicators after `|` or `>`: chomping and the number of columns of indentation. -/
def scanBlockIndicators (c : Cursor) : Except Error ((Chomping × Option Nat) × Cursor) :=
  let width? (c : Cursor) : Except Error (Option Nat × Cursor) :=
    match c.peek with
    | some d =>
      if Text.isDigit d then
        if d = '0' then malformed else .ok (some (d.toNat - '0'.toNat), c.next)
      else .ok (none, c)
    | none => .ok (none, c)
  match chomping? c.peek with
  | some ch => do
    let (w, c) ← width? c.next
    if endsWord c.peek then .ok ((ch, w), c) else malformed
  | none => do
    let (w, c) ← width? c
    let (ch, c) :=
      match w, chomping? c.peek with
      | some _, some ch => (ch, c.next)
      | _, _ => (.clip, c)
    if endsWord c.peek then .ok ((ch, w), c) else malformed

/-- The empty lines before a block scalar, and the greatest column that their spaces reach. -/
def scanBlockIndent (widest : Nat) : Nat → Cursor → (Text × Nat) × Cursor
  | 0, c => (([], widest), c)
  | fuel + 1, c =>
    let c := c.skip (· == ' ')
    let widest := max widest c.column
    match c.lineBreak? with
    | none => (([], widest), c)
    | some (b, c) =>
      let ((bs, widest), c) := scanBlockIndent widest fuel c
      ((b :: bs, widest), c)

/-- The place after at most as many spaces as lead to the column `margin`. -/
def skipIndent (margin : Nat) (c : Cursor) : Cursor :=
  c.advance (min (margin - c.column) (c.rest.takeWhile (· == ' ')).length)

/-- The empty lines before the next line of a block scalar. -/
def scanBlockBreaks (margin : Nat) : Nat → Cursor → Text × Cursor
  | 0, c => ([], c)
  | fuel + 1, c =>
    let c := skipIndent margin c
    match c.lineBreak? with
    | none => ([], c)
    | some (b, c) =>
      let (bs, c) := scanBlockBreaks margin fuel c
      (b :: bs, c)

/-- The lines of a block scalar, with the last line break and the empty lines after it. -/
def scanBlockLines (folded : Bool) (margin : Nat) :
    Nat → Text → Cursor → (Text × Text × Text) × Cursor
  | 0, breaks, c => (([], [], breaks), c)
  | fuel + 1, breaks, c =>
    if c.column = margin && c.peek.isSome then
      let indented := c.peek.any isSpaceOrTab
      let (line, c) := c.span (!isBreak ·)
      let (ending, c) : Text × Cursor :=
        match c.lineBreak? with
        | some (b, c) => ([b], c)
        | none => ([], c)
      let (more, c) := scanBlockBreaks margin (c.rest.length + 1) c
      if c.column = margin && c.peek.isSome then
        let between : Text :=
          if folded && ending = ['\n'] && !indented && !c.peek.any isSpaceOrTab then
            if more.isEmpty then [' '] else []
          else ending
        let ((text, tail), c) := scanBlockLines folded margin fuel more c
        ((breaks ++ line ++ between ++ text, tail), c)
      else ((breaks ++ line, ending, more), c)
    else (([], [], breaks), c)

/-- A block scalar at its indicator, inside a block at the column `indent`. -/
def scanBlock (folded : Bool) (indent : Int) (c : Cursor) : Except Error (Token × Cursor) := do
  let ((chomp, width), c) ← scanBlockIndicators c.next
  let c ← scanLineRest c
  let least := (max (indent + 1) 1).toNat
  let fuel := c.rest.length + 1
  let (margin, breaks, c) :=
    match width with
    | some w =>
      let margin := least + w - 1
      let (breaks, c) := scanBlockBreaks margin fuel c
      (margin, breaks, c)
    | none =>
      let ((breaks, widest), c) := scanBlockIndent 0 fuel c
      (max least widest, breaks, c)
  let ((text, ending, more), c) := scanBlockLines folded margin fuel breaks c
  let tail : Text :=
    match chomp with
    | .strip => []
    | .clip => ending
    | .keep => ending ++ more
  .ok (.scalar false (text ++ tail), c)

end LuaTidy.Yaml
