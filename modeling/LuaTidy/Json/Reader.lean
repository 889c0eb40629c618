import LuaTidy.Json.Quoted
import LuaTidy.Value.Basic
/-!
Reading JSON documents. Whole numbers and numbers with a fraction or an exponent are kept apart;
of two members with one key the later one counts, in the place of the first.
-/
namespace LuaTidy.Json

/-- The four characters that may stand between tokens. -/
def isSpace (c : Char) : Bool := c == ' ' || c == '\t' || c == '\n' || c == '\r'

def skip (s : Text) : Text := s.dropWhile isSpace

/-- A non-empty row of digits at the beginning of a text, and the rest. -/
def digits? (s : Text) : Option (Text × Text) :=
  let ds := s.takeWhile Text.isDigit
  if ds.isEmpty then none else some (ds, s.dropWhile Text.isDigit)

/-- The digits of a whole part: no zero in front of others. -/
def whole? (s : Text) : Option (Text × Text) :=
  match s with
  | '0' :: rest => some (['0'], rest)
  | _ => digits? s

def fraction? (s : Text) : Option (Text × Text) :=
  match s with
  | '.' :: rest => digits? rest
  | _ => some ([], s)

def exponent? (s : Text) : Option (Option Int × Text) :=
  let unsigned (s : Text) : Option (Nat × Text) := do
    let (ds, rest) ← digits? s
    some (← Text.readDecimal? ds, rest)
  match s with
  | c :: rest =>
    if c = 'e' ∨ c = 'E' then
      match rest with
      | '-' :: rest => (unsigned rest).map fun (n, tail) => (some (-(n : Int)), tail)
      | '+' :: rest => (unsigned rest).map fun (n, tail) => (some (n : Int), tail)
      | _ => (unsigned rest).map fun (n, tail) => (some (n : Int), tail)
    else some (none, s)
  | [] => some (none, s)

def number? (s : Text) : Option (Scalar × Text) := do
  let (negative, s) := match s with
    | '-' :: rest => (true, rest)
    | _ => (false, s)
  let (whole, s) ← whole? s
  let (fraction, s') ← fraction? s
  let (exponent, tail) ← exponent? s'
  let n ← Text.readDecimal? (whole ++ fraction)
  let n : Int := if negative then -(n : Int) else n
  if fraction.isEmpty && exponent.isNone then some (.int n, tail)
  else some (.real (.decimal n (exponent.getD 0 - fraction.length)), tail)

def afterWord? (word s : Text) : Option Text :=
  if word.isPrefixOf s then some (s.drop word.length) else none

mutual

/-- A value at the next token, and the rest; `fuel` bounds the nesting. -/
def value? (fuel : Nat) (s : Text) : Option (Value × Text) :=
  match fuel with
  | 0 => none
  | fuel + 1 =>
    match skip s with
    | '"' :: rest => (unquote? rest).map fun (t, tail) => (.text t, tail)
    | '[' :: rest =>
      match skip rest with
      | ']' :: tail => some (.list [], tail)
      | _ => (items? fuel rest).map fun (vs, tail) => (.list vs, tail)
    | '\x7b' :: rest =>
      match skip rest with
      | '\x7d' :: tail => some (.map [], tail)
      | _ => (members? fuel rest).map fun (es, tail) => (.map (Entries.ofList es), tail)
    | 't' :: rest => (afterWord? "rue" rest).map fun tail => (.scalar (.bool true), tail)
    | 'f' :: rest => (afterWord? "alse" rest).map fun tail => (.scalar (.bool false), tail)
    | 'n' :: rest => (afterWord? "ull" rest).map fun tail => (.null, tail)
    | s => (number? s).map fun (n, tail) => (.scalar n, tail)

/-- The items of a list, up to the closing bracket. -/
def items? (fuel : Nat) (s : Text) : Option (List Value × Text) :=
  match fuel with
  | 0 => none
  | fuel + 1 => do
    let (v, rest) ← value? fuel s
    match skip rest with
    | ',' :: rest => (items? fuel rest).map fun (vs, tail) => (v :: vs, tail)
    | ']' :: tail => some ([v], tail)
    | _ => none

/-- The members of a map, up to the closing brace. -/
def members? (fuel : Nat) (s : Text) : Option (List (Scalar × Value) × Text) :=
  match fuel with
  | 0 => none
  | fuel + 1 =>
    match skip s with
    | '"' :: rest => do
      let (k, rest) ← unquote? rest
      match skip rest with
      | ':' :: rest =>
        let (v, rest) ← value? fuel rest
        match skip rest with
        | ',' :: rest => (members? fuel rest).map fun (es, tail) => ((.text k, v) :: es, tail)
        | '\x7d' :: tail => some ([(.text k, v)], tail)
        | _ => none
      | _ => none
    | _ => none

end

def read? (s : Text) : Option Value := do
  let (v, rest) ← value? (s.length + 1) s
  if (skip rest).isEmpty then some v else none

end LuaTidy.Json
