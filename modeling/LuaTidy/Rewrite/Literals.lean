import LuaTidy.Lua.Literal
import LuaTidy.Rewrite.Layout
import LuaTidy.Text.Base64
import LuaTidy.Text.Basic
import LuaTidy.Text.Pieces
/-! Rewrites of literals: joins of two, encoded payloads, and the two kinds of escapes. -/
namespace LuaTidy

/-!
## Joins

Two literals with the same quote character and the operator `..` between them become one literal.
A literal here begins at any quote and its text runs to the nearest place, on the same line, where
a join with a closing quote after it can be read.
-/

namespace Joins

/-- The text before the first `q`, where there is one before the line ends. -/
def before? (q : Char) : Text → Option Text
  | [] => none
  | c :: cs =>
    if c = q then some []
    else if c = '\n' then none
    else (before? q cs).map (c :: ·)

/-- A closing `q`, the operator with blanks around it, and an opening `q`, at the very beginning. -/
def join? (q : Char) : Text → Option Text
  | [] => none
  | c :: cs =>
    if c = q then
      match cs.dropWhile Text.isBlank with
      | '.' :: '.' :: ds =>
        match ds.dropWhile Text.isBlank with
        | [] => none
        | e :: _ =>
          if e = q then
            some (q :: cs.takeWhile Text.isBlank ++ ['.', '.'] ++ ds.takeWhile Text.isBlank ++ [q])
          else none
      | _ => none
    else none

/-- Two joined literals without their outer quotes. -/
structure Joined where
  left : Text
  join : Text
  right : Text
  deriving DecidableEq, Repr

/-- The joined literals whose outer opening quote `q` stands just before the text. -/
def joined? (q : Char) : Text → Option Joined
  | [] => none
  | c :: cs =>
    match (do
      let join ← join? q (c :: cs)
      let right ← before? q ((c :: cs).drop join.length)
      some (⟨[], join, right⟩ : Joined)) with
    | some j => some j
    | none => if c = '\n' then none else (joined? q cs).map fun j => { j with left := c :: j.left }

/-- Recognises two joined literals at the opening quote; they stand for one literal. -/
def joinedAt? : Text.Recogniser Text := fun c cs =>
  if Lua.isQuote c then
    (joined? c cs).map fun j =>
      (j.left.length + j.join.length + j.right.length + 1, c :: j.left ++ j.right ++ [c])
  else none

/-- Merge joined literals, in one pass. Any `..` in the text counts as one application. -/
def merge (s : Text) : Rewritten :=
  if Text.occursIn ['.', '.'] s then
    ⟨(Text.pieces joinedAt? s).flatMap fun p => p.value?.getD p.source, 1⟩
  else ⟨s, 0⟩

end Joins

/-!
## Payloads

A quoted stretch of base64 that decodes to printable text is replaced by that text in double
quotes. The quotes need not be equal, and a stretch that does not decode is passed over as a whole.
-/

namespace Payloads

/-- The printable text that a base64 code writes, one character for each byte. -/
def decode? (code : Text) : Option Text := do
  let bytes ← Text.Base64.decode? code
  let decoded := bytes.map Char.ofNat
  if decoded.isEmpty || !Text.allPrintable decoded then none else some decoded

/-- The equal signs that complete `n` characters of data to a multiple of four. -/
def padding? (n : Nat) : Option Text :=
  match n % 4 with
  | 0 => some []
  | 2 => some ['=', '=']
  | 3 => some ['=']
  | _ => none

/-- The code that stands at the very beginning of a text with a quote right after it. -/
def code? (s : Text) : Option Text := do
  let data := s.takeWhile Text.Base64.isSextet
  let pad ← padding? data.length
  let rest := s.dropWhile Text.Base64.isSextet
  match rest.drop pad.length with
  | q :: _ => if pad.isPrefixOf rest && Lua.isQuote q then some (data ++ pad) else none
  | [] => none

/-- Recognises a quoted code at its opening quote; it stands for its decoded text, if any. -/
def payload? : Text.Recogniser (Option Text) := fun c cs =>
  if Lua.isQuote c then (code? cs).map fun code => (code.length + 1, decode? code) else none

def written (p : Text.Piece (Option Text)) : Text :=
  match p.value?.join with
  | some decoded => '"' :: decoded ++ ['"']
  | none => p.source

/-- Decode the quoted payloads of a text; each one decoded counts. -/
def decode (s : Text) : Rewritten :=
  let ps := Text.pieces payload? s
  ⟨ps.flatMap written, ps.countP fun p => p.value?.join.isSome⟩

end Payloads

/-!
## Hexadecimal escapes

`\xHH` becomes the character with that code where it is printable.
-/

namespace HexEscapes

/-- Recognises an escape at its backslash; it stands for its character, if that is printable. -/
def escape? : Text.Recogniser (Option Char) := fun c cs =>
  match c, cs with
  | '\\', 'x' :: h :: l :: _ => do
    let hi ← Text.hexValue? h
    let lo ← Text.hexValue? l
    let d := Char.ofNat (hi * 16 + lo)
    some (3, if Text.isPrintable d then some d else none)
  | _, _ => none

def written (p : Text.Piece (Option Char)) : Text :=
  match p.value?.join with
  | some d => [d]
  | none => p.source

/-- Decode the printable escapes of a text; each one decoded counts. -/
def decode (s : Text) : Rewritten :=
  let ps := Text.pieces escape? s
  ⟨ps.flatMap written, ps.countP fun p => p.value?.join.isSome⟩

end HexEscapes

/-!
## Backslash escapes

Those for line feed, tab, carriage return and the two quotes are replaced one kind after the other
over the whole text. The replacement is never counted as applied.
-/

namespace Backslashes

/-- The letters that a backslash may precede, with what the two stand for, in order of use. -/
def escapes : List (Char × Char) :=
  [('n', '\n'), ('t', '\t'), ('r', '\r'), ('"', '"'), ('\'', '\'')]

/-- Replace every backslash with `letter` after it by `meaning`. -/
def replace (letter meaning : Char) : Text → Text
  | [] => []
  | [c] => [c]
  | c :: d :: cs =>
    if c = '\\' ∧ d = letter then meaning :: replace letter meaning cs
    else c :: replace letter meaning (d :: cs)

/-- Replace the escapes of all kinds, one kind after the other. -/
def resolve (s : Text) : Rewritten :=
  ⟨escapes.foldl (fun t e => replace e.1 e.2 t) s, 0⟩

end Backslashes
end LuaTidy
