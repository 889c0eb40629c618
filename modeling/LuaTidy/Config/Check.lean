import LuaTidy.Text.Basic
import LuaTidy.Value.Basic
/-!
Checking document values against what settings expect. A check either yields a value or the list
of all problems found, each with the place and the cause.
-/
namespace LuaTidy

/-- A step from a value to one of its parts. -/
inductive PlaceStep where
  | field (name : Text)
  | index (i : Nat)
  deriving DecidableEq, Repr

inductive Cause where
  | missing
  | notRecord (recordName : Text)
  | notBool
  | badBool
  | notInt
  | badInt
  | fractional
  | notFinite
  | negative
  | notText
  | notList
  | notAmong (first : List Text) (last : Text)
  deriving DecidableEq, Repr

namespace Cause

def code : Cause → Text
  | .missing => "missing"
  | .notRecord _ => "model_type"
  | .notBool => "bool_type"
  | .badBool => "bool_parsing"
  | .notInt => "int_type"
  | .badInt => "int_parsing"
  | .fractional => "int_from_float"
  | .notFinite => "finite_number"
  | .negative => "greater_than_equal"
  | .notText => "string_type"
  | .notList => "list_type"
  | .notAmong .. => "literal_error"

def message : Cause → Text
  | .missing => "Field required"
  | .notRecord name => "Input should be a valid dictionary or instance of " ++ name
  | .notBool => "Input should be a valid boolean"
  | .badBool => "Input should be a valid boolean, unable to interpret input"
  | .notInt => "Input should be a valid integer"
  | .badInt => "Input should be a valid integer, unable to parse string as an integer"
  | .fractional => "Input should be a valid integer, got a number with a fractional part"
  | .notFinite => "Input should be a finite number"
  | .negative => "Input should be greater than or equal to 0"
  | .notText => "Input should be a valid string"
  | .notList => "Input should be a valid list"
  | .notAmong first last =>
    let quoted (t : Text) : Text := '\'' :: t ++ ['\'']
    "Input should be " ++ Text.joinWith ", " (first.map quoted) ++ " or " ++ quoted last

end Cause

/-- A refused value: where it stands, and why it is refused. -/
structure Problem where
  place : List PlaceStep
  cause : Cause
  deriving DecidableEq, Repr

/-! ## Reports on problems -/

def PlaceStep.words : PlaceStep → Text
  | .field name => name
  | .index i => Text.decimal i

def Value.part? (v : Value) : PlaceStep → Option Value
  | .field name =>
    match v with
    | .map es => Entries.get? es (.text name)
    | _ => none
  | .index i =>
    match v with
    | .list vs => vs[i]?
    | _ => none

/-- The part of a value at a place; where it is missing, the part that it is missing from. -/
def Value.nearest (v : Value) : List PlaceStep → Value
  | [] => v
  | p :: ps =>
    match v.part? p with
    | some w => w.nearest ps
    | none => v

namespace Problem

/-- The lines about a problem: its place in the refused value, its cause, and what stands there. -/
def lines (v : Value) (p : Problem) : Text :=
  let place : Text :=
    if p.place.isEmpty then [] else Text.joinWith "." (p.place.map PlaceStep.words) ++ ['\n']
  let found := v.nearest p.place
  place ++ "  " ++ p.cause.message ++ " [type=" ++ p.cause.code ++ ", input_value=" ++
    found.display ++ ", input_type=" ++ found.typeName ++ [']']

/-- The report on all problems of a value that was to describe a record. -/
def report (recordName : Text) (v : Value) (ps : List Problem) : Text :=
  let errors : Text := if ps.length = 1 then " validation error for " else " validation errors for "
  Text.decimal ps.length ++ errors ++ recordName ++ '\n' ::
    Text.joinWith ['\n'] (ps.map (lines v))

end Problem

/-! ## Checks -/

/-- A checked value, or everything that is wrong with it. -/
abbrev Checked (α : Type) := Except (List Problem) α

namespace Checked

variable {α β : Type}

/-- Refuse the value at hand. -/
def refuse (cause : Cause) : Checked α := .error [⟨[], cause⟩]

/-- Combine two checks: the problems of both are collected, those of the first one first. -/
def apply (f : Checked (α → β)) (x : Checked α) : Checked β :=
  match f, x with
  | .ok g, .ok a => .ok (g a)
  | .ok _, .error ps => .error ps
  | .error ps, .ok _ => .error ps
  | .error ps, .error qs => .error (ps ++ qs)

/-- Report problems of a part of the value at hand. -/
def under (step : PlaceStep) : Checked α → Checked α
  | .ok a => .ok a
  | .error ps => .error (ps.map fun p => { p with place := step :: p.place })

/-- Check all items of a list, from the index `i` on. -/
def items (check : Value → Checked α) (i : Nat) : List Value → Checked (List α)
  | [] => .ok []
  | v :: vs => apply ((under (.index i) (check v)).map List.cons) (items check (i + 1) vs)

end Checked

namespace Value

def boolWords : List (Text × Bool) :=
  [("true", true), ("t", true), ("yes", true), ("y", true), ("on", true), ("1", true),
    ("false", false), ("f", false), ("no", false), ("n", false), ("off", false), ("0", false)]

/-- A truth value; zero and one and the usual words will do. -/
def checkBool : Value → Checked Bool
  | .scalar (.bool b) => .ok b
  | .scalar (.int n) =>
    if n = 0 then .ok false
    else if n = 1 then .ok true
    else if -0x8000000000000000 ≤ n ∧ n < 0x8000000000000000 then Checked.refuse .badBool
    else Checked.refuse .notBool
  | .scalar (.real r) =>
    match r.round with
    | .whole 0 => .ok false
    | .whole 1 => .ok true
    | _ => Checked.refuse .notBool
  | .scalar (.text s) =>
    match boolWords.lookup (s.map Char.toLower) with
    | some b => .ok b
    | none => Checked.refuse .badBool
  | _ => Checked.refuse .notBool

/-- Digits with single underscores between them, without the underscores. -/
def digitGroups? (s : Text) : Option Text :=
  let groups := Text.splitAt '_' s
  if groups.all fun g => !g.isEmpty && g.all Text.isDigit then some groups.flatten else none

/--
The whole number that a text writes: white space around it, one sign, underscores between digits
and a fraction of zeros are allowed.
-/
def wholeNumber? (s : Text) : Option Int := do
  let s := Text.trim Text.isWhiteSpace s
  let (negative, s) := match s with
    | '-' :: r => (true, r)
    | '+' :: r => (false, r)
    | r => (false, r)
  let fraction := s.dropWhile (· != '.')
  let zeros := fraction.drop 1
  if fraction.isEmpty || (!zeros.isEmpty && zeros.all (· == '0')) then
    let digits ← digitGroups? (s.takeWhile (· != '.'))
    let n ← Text.readDecimal? digits
    some (if negative then -(n : Int) else n)
  else none

/-- A whole number; truth values, real numbers without fraction and texts of digits will do. -/
def checkInt : Value → Checked Int
  | .scalar (.int n) => .ok n
  | .scalar (.bool b) => .ok (if b then 1 else 0)
  | .scalar (.real r) =>
    match r.round with
    | .whole n => .ok n
    | .fractional => Checked.refuse .fractional
    | .notFinite => Checked.refuse .notFinite
  | .scalar (.text s) =>
    match wholeNumber? s with
    | some n => .ok n
    | none => Checked.refuse .badInt
  | _ => Checked.refuse .notInt

/-- A whole number that is not negative. -/
def checkCount (v : Value) : Checked Int :=
  match checkInt v with
  | .ok n => if n < 0 then Checked.refuse .negative else .ok n
  | .error ps => .error ps

def checkText : Value → Checked Text
  | .scalar (.text s) => .ok s
  | _ => Checked.refuse .notText

def checkList {α : Type} (check : Value → Checked α) : Value → Checked (List α)
  | .list vs => Checked.items check 0 vs
  | _ => Checked.refuse .notList

/-- One of a few words, exactly as spelled. -/
def checkWord {α : Type} (first : List (Text × α)) (last : Text × α) : Value → Checked α
  | .scalar (.text s) =>
    match (first ++ [last]).lookup s with
    | some a => .ok a
    | none => Checked.refuse (.notAmong (first.map Prod.fst) last.1)
  | _ => Checked.refuse (.notAmong (first.map Prod.fst) last.1)

def checkRecord (recordName : Text) : Value → Checked (Entries Scalar Value)
  | .map es => .ok es
  | _ => Checked.refuse (.notRecord recordName)

/-- A field of a record, or a default where it is absent. -/
def checkField {α : Type} (es : Entries Scalar Value) (name : Text) (default : α)
    (check : Value → Checked α) : Checked α :=
  match es.get? (.text name) with
  | some v => Checked.under (.field name) (check v)
  | none => .ok default

def checkRequired {α : Type} (es : Entries Scalar Value) (name : Text)
    (check : Value → Checked α) : Checked α :=
  Checked.under (.field name) <|
    match es.get? (.text name) with
    | some v => check v
    | none => Checked.refuse .missing

end Value
end LuaTidy
