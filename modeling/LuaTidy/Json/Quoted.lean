import LuaTidy.Text.Basic
/-!
JSON strings: writing a text between quotes, with only the necessary escapes or with everything
outside printable ASCII escaped, and reading the rest of a string after its opening quote.
-/
namespace LuaTidy.Json

/-- The two-character escapes, by the character that stands after the backslash. -/
def shortEscape? (c : Char) : Option Char :=
  match c.toNat with
  | 0x22 => some '"'
  | 0x5C => some '\\'
  | 0x08 => some 'b'
  | 0x09 => some 't'
  | 0x0A => some 'n'
  | 0x0C => some 'f'
  | 0x0D => some 'r'
  | _ => none

def unitEscape (n : Nat) : Text := '\\' :: 'u' :: Text.hex 4 n

/-- A character in a string: only quotes, backslashes and control characters are escaped. -/
def escape (c : Char) : Text :=
  match shortEscape? c with
  | some e => ['\\', e]
  | none => if c.toNat < 0x20 then unitEscape c.toNat else [c]

/-- A text as a string with the necessary escapes only. -/
def quote (s : Text) : Text := '"' :: s.flatMap escape ++ ['"']

/-- A character in a string of ASCII characters; those above U+FFFF take two code units. -/
def asciiEscape (c : Char) : Text :=
  if c.toNat < 0x20 ∨ 0x7E < c.toNat ∨ c = '"' ∨ c = '\\' then
    match shortEscape? c with
    | some e => ['\\', e]
    | none =>
      if c.toNat = 0x7F then [c]
      else if c.toNat < 0x10000 then unitEscape c.toNat
      else
        let n := c.toNat - 0x10000
        unitEscape (0xD800 + n / 0x400) ++ unitEscape (0xDC00 + n % 0x400)
  else [c]

def asciiQuote (s : Text) : Text := '"' :: s.flatMap asciiEscape ++ ['"']

def shortMeaning? (c : Char) : Option Char :=
  match c with
  | '"' => some '"'
  | '\\' => some '\\'
  | '/' => some '/'
  | 'b' => some (Char.ofNat 0x08)
  | 't' => some '\t'
  | 'n' => some '\n'
  | 'f' => some (Char.ofNat 0x0C)
  | 'r' => some '\r'
  | _ => none

def codeUnit? (a b c d : Char) : Option Nat := do
  let a ← Text.hexValue? a
  let b ← Text.hexValue? b
  let c ← Text.hexValue? c
  let d ← Text.hexValue? d
  some (((a * 16 + b) * 16 + c) * 16 + d)

/--
The rest of a string after its opening quote, and the text after its closing quote. `high` is a
code unit that still needs its other half.
-/
def unquoteAfter? (high : Option Nat) : Text → Option (Text × Text)
  | [] => none
  | '\\' :: 'u' :: a :: b :: c :: d :: rest => do
    let u ← codeUnit? a b c d
    match high with
    | some h =>
      if 0xDC00 ≤ u ∧ u < 0xE000 then do
        let (s, tail) ← unquoteAfter? none rest
        some (Char.ofNat (0x10000 + (h - 0xD800) * 0x400 + (u - 0xDC00)) :: s, tail)
      else none
    | none =>
      if 0xD800 ≤ u ∧ u < 0xDC00 then unquoteAfter? (some u) rest
      else if 0xDC00 ≤ u ∧ u < 0xE000 then none
      else do
        let (s, tail) ← unquoteAfter? none rest
        some (Char.ofNat u :: s, tail)
  | '\\' :: e :: rest => do
    let c ← shortMeaning? e
    let (s, tail) ← unquoteAfter? none rest
    if high.isSome then none else some (c :: s, tail)
  | c :: rest =>
    if high.isSome then none
    else if c = '"' then some ([], rest)
    else if c = '\\' ∨ c.toNat < 0x20 then none
    else do
      let (s, tail) ← unquoteAfter? none rest
      some (c :: s, tail)

/-- The rest of a string after its opening quote, and the text after its closing quote. -/
def unquote? (s : Text) : Option (Text × Text) := unquoteAfter? none s

end LuaTidy.Json
