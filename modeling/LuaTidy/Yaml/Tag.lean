import LuaTidy.Text.Basic
/-!
Tags, and the tag that the form of a plain scalar implies: truth values, numbers in several bases,
numbers in groups of sixty, dates, and the signs for null and for merging.
-/
namespace LuaTidy.Yaml

/-- What a node stands for. -/
inductive Tag where
  | null | bool | int | real | date | text | merge | default
  | sequence | mapping | set | pairs | unknown
  deriving DecidableEq, Repr

def Tag.ofName (name : Text) : Tag :=
  let known : List (Text × Tag) :=
    [("null", .null), ("bool", .bool), ("int", .int), ("float", .real), ("timestamp", .date),
      ("str", .text), ("merge", .merge), ("value", .default), ("seq", .sequence),
      ("map", .mapping), ("set", .set), ("omap", .pairs), ("pairs", .pairs)]
  let stem : Text := "tag:yaml.org,2002:"
  if stem.isPrefixOf name then (known.lookup (name.drop stem.length)).getD .unknown else .unknown

/-! ## Forms -/

def boolWords : List (Text × Bool) :=
  [("yes", true), ("no", false), ("true", true), ("false", false), ("on", true), ("off", false)]

/-- A word in lower case, in upper case, or with a capital letter. -/
def spellings (w : Text) : List Text :=
  [w, w.map Char.toUpper, (w.take 1).map Char.toUpper ++ w.drop 1]

def isBoolForm (s : Text) : Bool := boolWords.any fun (w, _) => (spellings w).contains s

def isNullForm (s : Text) : Bool := s.isEmpty || s == ['~'] || (spellings "null").contains s

/-- A text without its sign. -/
def unsigned (s : Text) : Text :=
  match s with
  | '-' :: r => r
  | '+' :: r => r
  | r => r

/-- Digits, or underscores between them. -/
def isSpacedDigit (c : Char) : Bool := Text.isDigit c || c == '_'

/-- Digits with underscores, the first one a digit. -/
def isSpacedDigits (s : Text) : Bool := s.head?.any Text.isDigit && s.all isSpacedDigit

/-- A number below sixty in one or two digits. -/
def isSixtieth (s : Text) : Bool :=
  match s with
  | [d] => Text.isDigit d
  | [t, d] => '0' ≤ t && t ≤ '5' && Text.isDigit d
  | _ => false

/-- Whether a text is a whole number: binary, octal, decimal, hexadecimal, or in groups of sixty. -/
def isIntForm (s : Text) : Bool :=
  match unsigned s with
  | '0' :: 'b' :: ds => !ds.isEmpty && ds.all fun c => c == '0' || c == '1' || c == '_'
  | '0' :: 'x' :: ds => !ds.isEmpty && ds.all fun c => Text.isHexDigit c || c == '_'
  | '0' :: ds => ds.all fun c => ('0' ≤ c && c ≤ '7') || c == '_'
  | s =>
    match Text.splitAt ':' s with
    | [] => false
    | lead :: groups => isSpacedDigits lead && groups.all isSixtieth

/-- Whether a text is an exponent with its sign, or nothing at all. -/
def isExponentForm (s : Text) : Bool :=
  match s with
  | [] => true
  | e :: sign :: ds =>
    (e == 'e' || e == 'E') && (sign == '-' || sign == '+') && !ds.isEmpty && ds.all Text.isDigit
  | _ => false

/-- Whether a text is a number with a point, an infinity, or not-a-number. -/
def isRealForm (s : Text) : Bool :=
  let body := unsigned s
  let whole := body.takeWhile (· != '.')
  match body.dropWhile (· != '.') with
  | [] => false
  | _ :: rest =>
    let fraction := rest.takeWhile isSpacedDigit
    let tail := rest.dropWhile isSpacedDigit
    if whole.isEmpty then
      (spellings "inf").contains rest ||
        (body == s && ((rest == "nan" || rest == "NaN" || rest == "NAN") ||
          (fraction.head?.any Text.isDigit && isExponentForm tail)))
    else
      match Text.splitAt ':' whole with
      | [] => false
      | [lead] => isSpacedDigits lead && isExponentForm tail
      | lead :: groups => isSpacedDigits lead && groups.all isSixtieth && tail.isEmpty

structure DateParts where
  year : Text
  month : Text
  day : Text
  /-- Hour, minute, second and fraction. -/
  time : Option (Text × Text × Text × Text)
  /-- Sign, hours and minutes of the offset. -/
  offset : Option (Char × Text × Text)
  deriving DecidableEq, Repr

/-- One or two digits at the beginning of a text, two if possible, and the rest. -/
def oneOrTwoDigits? (s : Text) : Option (Text × Text) :=
  match s with
  | a :: b :: rest =>
    if Text.isDigit a && Text.isDigit b then some ([a, b], rest)
    else if Text.isDigit a then some ([a], b :: rest)
    else none
  | [a] => if Text.isDigit a then some ([a], []) else none
  | [] => none

/-- Exactly `n` digits at the beginning of a text, and the rest. -/
def digits? (n : Nat) (s : Text) : Option (Text × Text) :=
  let ds := s.take n
  if ds.length = n && ds.all Text.isDigit then some (ds, s.drop n) else none

def afterChar? (c : Char) (s : Text) : Option Text :=
  match s with
  | d :: rest => if d = c then some rest else none
  | [] => none

/-- An offset from universal time that takes up a whole text; nothing, or a `Z`, for none. -/
def offset? (s : Text) : Option (Option (Char × Text × Text)) :=
  match s.dropWhile fun c => c == ' ' || c == '\t' with
  | [] => if s.isEmpty then some none else none
  | ['Z'] => some none
  | sign :: rest =>
    if sign == '-' || sign == '+' then do
      let (hours, rest) ← oneOrTwoDigits? rest
      match rest with
      | [] => some (some (sign, hours, []))
      | _ => do
        let rest ← afterChar? ':' rest
        let (minutes, rest) ← digits? 2 rest
        if rest.isEmpty then some (some (sign, hours, minutes)) else none
    else none

/-- The parts of a text that has the form of a date with a time of day or without. -/
def dateParts? (s : Text) : Option DateParts := do
  let (year, s) ← digits? 4 s
  let s ← afterChar? '-' s
  let (month, s) ← oneOrTwoDigits? s
  let s ← afterChar? '-' s
  let (day, s) ← oneOrTwoDigits? s
  match s with
  | [] => some { year, month, day, time := none, offset := none }
  | c :: rest => do
    let s ←
      if c = 'T' ∨ c = 't' then some rest
      else if c = ' ' ∨ c = '\t' then some (rest.dropWhile fun c => c == ' ' || c == '\t')
      else none
    let (hour, s) ← oneOrTwoDigits? s
    let s ← afterChar? ':' s
    let (minute, s) ← digits? 2 s
    let s ← afterChar? ':' s
    let (second, s) ← digits? 2 s
    let (fraction, s) :=
      match s with
      | '.' :: rest => (rest.takeWhile Text.isDigit, rest.dropWhile Text.isDigit)
      | _ => ([], s)
    let offset ← offset? s
    some { year, month, day, time := some (hour, minute, second, fraction), offset }

/-- Whether a text is a date; without a time of day, month and day must have two digits. -/
def isDateForm (s : Text) : Bool :=
  match dateParts? s with
  | none => false
  | some p => p.time.isSome || (p.month.length = 2 && p.day.length = 2)

/-- The tag that the form of a plain scalar implies. -/
def Tag.ofForm (s : Text) : Tag :=
  if isBoolForm s then .bool
  else if isRealForm s then .real
  else if isIntForm s then .int
  else if s = ['<', '<'] then .merge
  else if isNullForm s then .null
  else if isDateForm s then .date
  else if s = ['='] then .default
  else if s = ['!'] ∨ s = ['&'] ∨ s = ['*'] then .unknown
  else .text

end LuaTidy.Yaml
