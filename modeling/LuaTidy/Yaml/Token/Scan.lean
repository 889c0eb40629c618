import LuaTidy.Yaml.Token.Scalar
/-!
Tokens from text. Blocks are found by indentation: columns that open a block are kept on a stack.
A colon can turn what was read before it, on the same line and within 1024 characters, into a key;
the places where such a key may begin are remembered for every depth of brackets.
-/
namespace LuaTidy.Yaml

structure KeyStart where
  /-- How many tokens came before. -/
  tokens : Nat
  /-- Whether the document is malformed unless a key begins here. -/
  required : Bool
  index : Nat
  line : Nat
  column : Nat
  deriving Repr

structure ScanState where
  cursor : Cursor
  tokens : List Token := []
  /-- How many brackets and braces are open. -/
  depth : Nat := 0
  /-- The column of the innermost block; none is open at -1. -/
  indent : Int := -1
  /-- The columns of the blocks around it. -/
  outer : List Int := []
  /-- Whether a key may begin here. -/
  keyAllowed : Bool := true
  /-- The possible beginnings of keys, by depth. -/
  keyStarts : List (Nat × KeyStart) := []
  deriving Repr

namespace ScanState

/-- The most characters between the beginning of a key and its colon. -/
def keyLimit : Nat := 1024

def inFlow (s : ScanState) : Bool := s.depth != 0

def push (s : ScanState) (t : Token) : ScanState := { s with tokens := s.tokens ++ [t] }

def insertAt (s : ScanState) (n : Nat) (t : Token) : ScanState :=
  { s with tokens := s.tokens.take n ++ t :: s.tokens.drop n }

def moveTo (s : ScanState) (c : Cursor) : ScanState := { s with cursor := c }

/-- The place after blanks, comments and line breaks; a new line in a block allows a key. -/
def toNextToken : Nat → ScanState → ScanState
  | 0, s => s
  | fuel + 1, s =>
    let c := (s.cursor.skip (· == ' ')).skipComment
    match c.lineBreak? with
    | some (_, c) =>
      toNextToken fuel { s with cursor := c, keyAllowed := s.keyAllowed || !s.inFlow }
    | none => s.moveTo c

/-- Forget the possible keys that are on an earlier line or too far back. -/
def dropStale (s : ScanState) : Except Error ScanState :=
  let stale (k : KeyStart) : Bool :=
    k.line != s.cursor.line || keyLimit < s.cursor.index - k.index
  if s.keyStarts.any fun (_, k) => stale k && k.required then malformed
  else .ok { s with keyStarts := s.keyStarts.filter fun (_, k) => !stale k }

def dropKey (s : ScanState) : Except Error ScanState :=
  match s.keyStarts.lookup s.depth with
  | some k =>
    if k.required then malformed
    else .ok { s with keyStarts := s.keyStarts.filter (·.1 != s.depth) }
  | none => .ok s

def noteKey (s : ScanState) : Except Error ScanState :=
  if s.keyAllowed then do
    let s ← s.dropKey
    let k : KeyStart :=
      { tokens := s.tokens.length
        required := !s.inFlow && s.indent == s.cursor.column
        index := s.cursor.index
        line := s.cursor.line
        column := s.cursor.column }
    .ok { s with keyStarts := (s.depth, k) :: s.keyStarts }
  else .ok s

/-- Close the blocks that are indented further than `column`. -/
def closeBlocks (column : Int) : List Int → ScanState → ScanState
  | [], s => s
  | i :: outer, s =>
    if column < s.indent then
      closeBlocks column outer { s.push .blockEnd with indent := i, outer := outer }
    else s

/-- Close the blocks that the column of the next token ends; none inside brackets. -/
def unwind (s : ScanState) (column : Int) : ScanState :=
  if s.inFlow then s else closeBlocks column s.outer s

/-- Open a block at a column that lies deeper than the innermost one; `none` if it does not. -/
def openBlock? (s : ScanState) (column : Int) : Option ScanState :=
  if s.indent < column then some { s with indent := column, outer := s.indent :: s.outer }
  else none

/-- Close all blocks at a mark that no block survives. -/
def endBlocks (s : ScanState) : Except Error ScanState := do
  let s ← (s.unwind (-1)).dropKey
  .ok { s with keyAllowed := false }

def openFlow (s : ScanState) (t : Token) : Except Error ScanState := do
  let s ← s.noteKey
  .ok { s.push t with depth := s.depth + 1, keyAllowed := true, cursor := s.cursor.next }

def closeFlow (s : ScanState) (t : Token) : Except Error ScanState := do
  let s ← s.dropKey
  .ok { s.push t with depth := s.depth - 1, keyAllowed := false, cursor := s.cursor.next }

def flowEntry (s : ScanState) : Except Error ScanState := do
  let s ← { s with keyAllowed := true }.dropKey
  .ok ((s.push .flowEntry).moveTo s.cursor.next)

/-- An indicator that begins an entry of the block that `opening` opens if there is none yet. -/
def blockIndicator (s : ScanState) (opening indicator : Token) (keyAfter : Bool) :
    Except Error ScanState := do
  let s ←
    if s.inFlow then .ok s
    else if !s.keyAllowed then malformed
    else
      match s.openBlock? s.cursor.column with
      | some s => .ok (s.push opening)
      | none => .ok s
  let s ← { s with keyAllowed := keyAfter }.dropKey
  .ok ((s.push indicator).moveTo s.cursor.next)

/-- A colon: what was read since the possible key becomes one, or an explicit key gets its value. -/
def valueIndicator (s : ScanState) : Except Error ScanState :=
  match s.keyStarts.lookup s.depth with
  | some k =>
    let s := { s with keyStarts := s.keyStarts.filter (·.1 != s.depth) }
    let s := s.insertAt k.tokens .key
    let s :=
      if s.inFlow then s
      else
        match s.openBlock? k.column with
        | some s => s.insertAt k.tokens .blockMappingStart
        | none => s
    .ok { s.push .value with keyAllowed := false, cursor := s.cursor.next }
  | none => s.blockIndicator .blockMappingStart .value (!s.inFlow)

/-- A token that may be the beginning of a key, and that no key follows. -/
def keyToken (s : ScanState) (scan : Cursor → Except Error (Token × Cursor)) :
    Except Error ScanState := do
  let s ← s.noteKey
  let (t, c) ← scan s.cursor
  .ok { s.push t with keyAllowed := false, cursor := c }

def plain (s : ScanState) : Except Error ScanState := do
  let s ← s.noteKey
  let p := scanPlain s.inFlow (s.indent + 1) s.cursor
  .ok { s.push (.scalar true p.text) with keyAllowed := p.atLineStart, cursor := p.cursor }

def block (s : ScanState) (folded : Bool) : Except Error ScanState := do
  let s ← { s with keyAllowed := true }.dropKey
  let (t, c) ← scanBlock folded s.indent s.cursor
  .ok ((s.push t).moveTo c)

/-- Whether a plain scalar may begin with a character that `after` follows. -/
def beginsPlain (flow : Bool) (d : Char) (after : Option Char) : Bool :=
  if d == '-' then !endsToken after
  else if d == '?' || d == ':' then !flow && !endsToken after
  else !(isSpaceOrTab d || isBreak d || (",[]\x7b\x7d#&*!|>'\"%@`" : Text).contains d)

def fetch (s : ScanState) (d : Char) : Except Error ScanState :=
  let c := s.cursor
  let after := c.peekAt 1
  let lone := endsToken after
  if d == '%' && c.column == 0 then do
    let s ← s.endBlocks
    let (t, c) ← scanDirective s.cursor
    .ok ((s.push t).moveTo c)
  else if c.column == 0 && c.atMarks '-' then do
    let s ← s.endBlocks
    .ok ((s.push .documentStart).moveTo (s.cursor.advance 3))
  else if c.column == 0 && c.atMarks '.' then do
    let s ← s.endBlocks
    .ok ((s.push .documentEnd).moveTo (s.cursor.advance 3))
  else if d == '[' then s.openFlow .flowSequenceStart
  else if d == '\x7b' then s.openFlow .flowMappingStart
  else if d == ']' then s.closeFlow .flowSequenceEnd
  else if d == '\x7d' then s.closeFlow .flowMappingEnd
  else if d == ',' then s.flowEntry
  else if d == '-' && lone then s.blockIndicator .blockSequenceStart .blockEntry true
  else if d == '?' && (s.inFlow || lone) then
    s.blockIndicator .blockMappingStart .key (!s.inFlow)
  else if d == ':' && (s.inFlow || lone) then s.valueIndicator
  else if d == '*' then
    s.keyToken fun c => (scanAnchorName c).map fun (n, c) => (.alias n, c)
  else if d == '&' then
    s.keyToken fun c => (scanAnchorName c).map fun (n, c) => (.anchor n, c)
  else if d == '!' then s.keyToken scanTag
  else if d == '|' && !s.inFlow then s.block false
  else if d == '>' && !s.inFlow then s.block true
  else if d == '\'' then s.keyToken (scanQuoted false)
  else if d == '"' then s.keyToken (scanQuoted true)
  else if beginsPlain s.inFlow d after then s.plain
  else malformed

/-- Read the next tokens; `none` at the end of the document. -/
def step (s : ScanState) : Except Error (Bool × ScanState) := do
  let s ← (s.toNextToken (s.cursor.rest.length + 1)).dropStale
  let s := s.unwind s.cursor.column
  match s.cursor.peek with
  | none => do
    let s ← (s.unwind (-1)).dropKey
    .ok (false, s)
  | some d => do
    let s ← s.fetch d
    .ok (true, s)

/-- The tokens up to the end, or up to where the scan breaks off and why. -/
def run : Nat → ScanState → List Token × Option Error
  | 0, s => (s.tokens, some .malformed)
  | fuel + 1, s =>
    match s.step with
    | .error e => (s.tokens, some e)
    | .ok (false, s) => (s.tokens, none)
    | .ok (true, s) => run fuel s

end ScanState

def isDocumentChar (c : Char) : Bool :=
  let n := c.toNat
  n == 0x09 || n == 0x0A || n == 0x0D || (0x20 ≤ n && n ≤ 0x7E) || n == 0x85 ||
    (0xA0 ≤ n && n ≤ 0xD7FF) || (0xE000 ≤ n && n ≤ 0xFFFD) || 0x10000 ≤ n

/--
The tokens of a document. A document with a character that must not be there has none; one that
goes wrong further on has the tokens before that place. A byte order mark at the very beginning
is passed over.
-/
def tokens (s : Text) : List Token × Option Error :=
  if s.all isDocumentChar then
    let c : Cursor := { rest := s }
    ScanState.run (s.length + 2)
      { cursor := if c.peek = some byteOrderMark then c.next else c }
  else ([], some .malformed)

end LuaTidy.Yaml
