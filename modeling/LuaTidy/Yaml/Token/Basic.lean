import LuaTidy.Text.Basic
import LuaTidy.Text.Utf8
import LuaTidy.Yaml.Cursor
/-! The tokens of a document, and the readers of tags, anchors and directives. -/
namespace LuaTidy.Yaml

inductive Token where
  | versionDirective (major : Nat)
  | tagDirective (handle stem : Text)
  | otherDirective
  | documentStart
  | documentEnd
  | blockSequenceStart
  | blockMappingStart
  | blockEnd
  | flowSequenceStart
  | flowSequenceEnd
  | flowMappingStart
  | flowMappingEnd
  | blockEntry
  | flowEntry
  | key
  | value
  | alias (name : Text)
  | anchor (name : Text)
  | tag (handle : Option Text) (suffix : Text)
  | scalar (plain : Bool) (text : Text)
  deriving DecidableEq, Repr

def malformed {α : Type} : Except Error α := .error .malformed

def isNameChar (c : Char) : Bool :=
  ('0' ≤ c && c ≤ '9') || ('A' ≤ c && c ≤ 'Z') || ('a' ≤ c && c ≤ 'z') || c == '-' || c == '_'

/-- The characters of a tag's suffix, escapes apart. -/
def isUriChar (c : Char) : Bool := isNameChar c || (";/?:@&=+$,.!~*'()[]" : Text).contains c

/-- Bytes written as escapes `%HH`, as many as follow one another. -/
def scanUriBytes : Nat → Cursor → Except Error (Text.Utf8.Bytes × Cursor)
  | 0, c => .ok ([], c)
  | fuel + 1, c =>
    match c.rest with
    | '%' :: h :: l :: _ => do
      match Text.hexValue? h, Text.hexValue? l with
      | some hi, some lo =>
        let (bs, c) ← scanUriBytes fuel (c.advance 3)
        .ok (UInt8.ofNat (hi * 16 + lo) :: bs, c)
      | _, _ => malformed
    | '%' :: _ => malformed
    | _ => .ok ([], c)

/-- The suffix of a tag, as far as it goes. -/
def scanUriFrom : Nat → Cursor → Except Error (Text × Cursor)
  | 0, c => .ok ([], c)
  | fuel + 1, c =>
    match c.peek with
    | some '%' => do
      let (bs, c) ← scanUriBytes (c.rest.length + 1) c
      match Text.Utf8.decode bs with
      | .error _ => malformed
      | .ok s =>
        let (more, c) ← scanUriFrom fuel c
        .ok (s ++ more, c)
    | some d =>
      if isUriChar d then do
        let (s, c) := c.span isUriChar
        let (more, c) ← scanUriFrom fuel c
        .ok (s ++ more, c)
      else .ok ([], c)
    | none => .ok ([], c)

/-- The suffix of a tag, which must not be empty. -/
def scanUri (c : Cursor) : Except Error (Text × Cursor) := do
  match c.peek with
  | some d => if isUriChar d || d == '%' then scanUriFrom (c.rest.length + 1) c else malformed
  | none => malformed

/-- The handle of a tag: one exclamation mark, or a name between two. -/
def scanTagHandle (c : Cursor) : Except Error (Text × Cursor) :=
  if c.peek ≠ some '!' then malformed
  else if c.peekAt 1 = some ' ' then .ok (['!'], c.next)
  else
    let name := (c.rest.drop 1).takeWhile isNameChar
    if c.peekAt (name.length + 1) = some '!' then
      .ok ('!' :: name ++ ['!'], c.advance (name.length + 2))
    else malformed

def scanTag (c : Cursor) : Except Error (Token × Cursor) := do
  let seen := c.peekAt 1
  let (t, c) ←
    if seen = some '<' then do
      let (suffix, c) ← scanUri (c.advance 2)
      if c.peek = some '>' then .ok (Token.tag none suffix, c.next) else malformed
    else if endsToken seen then .ok (Token.tag none ['!'], c.next)
    else
      let word := (c.rest.drop 1).takeWhile fun d => !(endsWord (some d)) && d != '!'
      if c.peekAt (word.length + 1) = some '!' then do
        let (handle, c) ← scanTagHandle c
        let (suffix, c) ← scanUri c
        .ok (Token.tag (some handle) suffix, c)
      else do
        let (suffix, c) ← scanUri c.next
        .ok (Token.tag (some ['!']) suffix, c)
  if endsWord c.peek then .ok (t, c) else malformed

def scanAnchorName (c : Cursor) : Except Error (Text × Cursor) :=
  let (name, c) := c.next.span isNameChar
  let stop (d : Char) : Bool := isSpaceOrTab d || isBreak d || ("?:,]\x7d%@`" : Text).contains d
  if !name.isEmpty && c.peek.all stop then .ok (name, c) else malformed

/-- The place after the rest of a line that holds at most a comment. -/
def scanLineRest (c : Cursor) : Except Error Cursor :=
  let c := (c.skip (· == ' ')).skipComment
  match c.lineBreak? with
  | some (_, c) => .ok c
  | none => if c.peek.isNone then .ok c else malformed

def scanVersionNumber (c : Cursor) : Except Error (Nat × Cursor) :=
  let (ds, c) := c.span Text.isDigit
  match Text.readDecimal? ds with
  | some n => .ok (n, c)
  | none => malformed

/-- A directive at its percent sign, with its line. -/
def scanDirective (c : Cursor) : Except Error (Token × Cursor) := do
  let (name, c) := c.next.span isNameChar
  if name.isEmpty || !endsWord c.peek then malformed
  else
    let (t, c) ←
      if name = "YAML" then do
        let (major, c) ← scanVersionNumber (c.skip (· == ' '))
        if c.peek ≠ some '.' then malformed
        else do
          let (_, c) ← scanVersionNumber c.next
          if endsWord c.peek then .ok (Token.versionDirective major, c) else malformed
      else if name = "TAG" then do
        let (handle, c) ← scanTagHandle (c.skip (· == ' '))
        if c.peek ≠ some ' ' then malformed
        else do
          let (stem, c) ← scanUri (c.skip (· == ' '))
          if endsWord c.peek then .ok (Token.tagDirective handle stem, c) else malformed
      else .ok (Token.otherDirective, c.skip (!isBreak ·))
    let c ← scanLineRest c
    .ok (t, c)

end LuaTidy.Yaml
