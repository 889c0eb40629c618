import LuaTidy.Text.Basic
/-!
UTF-8. Bytes are read as symbols from the left: a symbol is a well-formed sequence, or the longest
beginning of one that goes no further. A malformed symbol makes strict reading fail, and becomes one
replacement character in lenient reading.
-/
namespace LuaTidy.Text.Utf8

abbrev Bytes := List UInt8

inductive Fault where
  | invalidStart
  | invalidContinuation
  | unexpectedEnd
  deriving DecidableEq, Repr

def Fault.message : Fault → Text
  | .invalidStart => "invalid start byte"
  | .invalidContinuation => "invalid continuation byte"
  | .unexpectedEnd => "unexpected end of data"

/-- What the first byte of a sequence announces. -/
structure Lead where
  /-- How many bytes follow. -/
  more : Nat
  /-- The least and the greatest value of the byte that follows first. -/
  low : Nat
  high : Nat
  /-- The bits that the first byte contributes. -/
  bits : Nat
  deriving DecidableEq, Repr

/-- What a first byte announces; `none` for a byte that begins no sequence. -/
def lead? (b : Nat) : Option Lead :=
  if b < 0x80 then some ⟨0, 0x80, 0xBF, b⟩
  else if b < 0xC2 then none
  else if b < 0xE0 then some ⟨1, 0x80, 0xBF, b - 0xC0⟩
  else if b = 0xE0 then some ⟨2, 0xA0, 0xBF, 0⟩
  else if b = 0xED then some ⟨2, 0x80, 0x9F, 0xD⟩
  else if b < 0xF0 then some ⟨2, 0x80, 0xBF, b - 0xE0⟩
  else if b = 0xF0 then some ⟨3, 0x90, 0xBF, 0⟩
  else if b < 0xF4 then some ⟨3, 0x80, 0xBF, b - 0xF0⟩
  else if b = 0xF4 then some ⟨3, 0x80, 0x8F, 4⟩
  else none

/-- The continuation bytes at the head of a row, at most `n`; the first one from `low` to `high`. -/
def continuations (n low high : Nat) : Bytes → List Nat
  | [] => []
  | b :: bs =>
    match n with
    | 0 => []
    | n + 1 =>
      if low ≤ b.toNat ∧ b.toNat ≤ high then b.toNat :: continuations n 0x80 0xBF bs else []

inductive Symbol where
  | char (c : Char)
  | malformed (bytes : Bytes) (fault : Fault)
  deriving DecidableEq, Repr

/-- The symbol at the head of a row of bytes, and how many bytes after the first belong to it. -/
def symbol (b : UInt8) (bs : Bytes) : Symbol × Nat :=
  match lead? b.toNat with
  | none => (.malformed [b] .invalidStart, 0)
  | some l =>
    let follow := continuations l.more l.low l.high bs
    let n := follow.length
    if n = l.more then
      (.char (Char.ofNat (follow.foldl (fun acc d => acc * 64 + d % 64) l.bits)), n)
    else
      let fault := if n = bs.length then Fault.unexpectedEnd else Fault.invalidContinuation
      (.malformed (b :: bs.take n) fault, n)

/-- The symbols after the next `n` bytes, which an earlier symbol has claimed. -/
def symbolsAfter : Nat → Bytes → List Symbol
  | _, [] => []
  | n + 1, _ :: bs => symbolsAfter n bs
  | 0, b :: bs => (symbol b bs).1 :: symbolsAfter (symbol b bs).2 bs

def symbols (bs : Bytes) : List Symbol := symbolsAfter 0 bs

def replacement : Char := Char.ofNat 0xFFFD

def Symbol.lenient : Symbol → Char
  | .char c => c
  | .malformed .. => replacement

/-- The text that bytes encode, with one replacement character for every malformed symbol. -/
def decodeLenient (bs : Bytes) : Text := (symbols bs).map Symbol.lenient

def encode (s : Text) : Bytes := s.flatMap String.utf8EncodeChar

structure Malformation where
  position : Nat
  bytes : Bytes
  fault : Fault
  deriving DecidableEq, Repr

def Malformation.message (m : Malformation) : Text :=
  let place : Text :=
    match m.bytes with
    | [b] => "byte 0x" ++ Text.hex 2 b.toNat ++ " in position " ++ Text.decimal m.position
    | bs =>
      "bytes in position " ++ Text.decimal m.position ++ "-" ++
        Text.decimal (m.position + bs.length - 1)
  "'utf-8' codec can't decode " ++ place ++ ": " ++ m.fault.message

/-- The characters of symbols, of which the first one begins at byte `p`, if none is malformed. -/
def strictFrom (p : Nat) : List Symbol → Except Malformation Text
  | [] => .ok []
  | .malformed bs fault :: _ => .error ⟨p, bs, fault⟩
  | .char c :: us => (strictFrom (p + (String.utf8EncodeChar c).length) us).map (c :: ·)

/-- The text that bytes encode, or the first malformation. -/
def decode (bs : Bytes) : Except Malformation Text := strictFrom 0 (symbols bs)

end LuaTidy.Text.Utf8
