import LuaTidy.Value.Basic
import LuaTidy.Yaml.Cursor
import LuaTidy.Yaml.Tag
/-! The values of scalars: truth values, numbers and dates from their spellings. -/
namespace LuaTidy.Yaml

def withoutUnderscores (s : Text) : Text := s.filter (· != '_')

def isNegative (s : Text) : Bool := s.head? == some '-'

/-- The mark of a base before its digits. -/
def baseMark (base : Nat) : List Text :=
  match base with
  | 2 => ["0b", "0B"]
  | 8 => ["0o", "0O"]
  | 16 => ["0x", "0X"]
  | _ => []

/-- The whole number that a text writes in a base: blanks around it and one sign are allowed. -/
def readInteger (base : Nat) (s : Text) : Except Error Int :=
  let t := Text.strip s
  let digits := unsigned t
  let digits := if (baseMark base).contains (digits.take 2) then digits.drop 2 else digits
  match if digits.isEmpty then none else Text.readBase? base digits with
  | some n => .ok (if isNegative t then -(n : Int) else n)
  | none =>
    .error (.badValue ("invalid literal for int() with base " ++ Text.decimal base ++ ": " ++
      Text.display s))

/-- The number whose groups in base sixty are given, most significant first. -/
def readGroups (groups : List Text) : Except Error Int :=
  groups.foldlM (fun acc g => (readInteger 10 g).map (acc * 60 + ·)) 0

def readInt (s : Text) : Except Error Int := do
  let s := withoutUnderscores s
  let digits := unsigned s
  if s.isEmpty then .error .emptyNumber
  else
    let n ←
      if digits = ['0'] then .ok 0
      else if ("0b" : Text).isPrefixOf digits then readInteger 2 (digits.drop 2)
      else if ("0x" : Text).isPrefixOf digits then readInteger 16 (digits.drop 2)
      else if digits.isEmpty then .error .emptyNumber
      else if digits.head? = some '0' then readInteger 8 digits
      else if digits.contains ':' then readGroups (Text.splitAt ':' digits)
      else readInteger 10 digits
    .ok (if isNegative s then -n else n)

/-- A row of digits with at most one point and at most one exponent. -/
def readDecimalForm? (s : Text) : Option Real := do
  let mantissa := s.takeWhile (· != 'e')
  let whole := mantissa.takeWhile (· != '.')
  let fraction := (mantissa.dropWhile (· != '.')).drop 1
  let n ← Text.readDecimal? (whole ++ fraction)
  let exponent : Int ←
    match s.dropWhile (· != 'e') with
    | [] => some 0
    | _ :: e =>
      (Text.readDecimal? (unsigned e)).map fun k => if isNegative e then -(k : Int) else k
  some (.decimal n (exponent - fraction.length))

def negate : Real → Real
  | .decimal m e => .decimal (-m) e
  | .infinity negative => .infinity !negative
  | .nan => .nan

/-- How many groups in base sixty a number with a point can have: the first one then counts less
than the greatest number of double precision. -/
def mostGroups : Nat := 174

def readReal (s : Text) : Except Error Real :=
  let s := (withoutUnderscores s).map Char.toLower
  let body := unsigned s
  let bad : Error := .badValue ("could not convert string to float: " ++ Text.display body)
  let value? : Option Real :=
    if body = ".inf" then some (.infinity false)
    else if body = ".nan" then some .nan
    else
      let whole := body.takeWhile (· != '.')
      if whole.contains ':' then do
        let fraction := (body.dropWhile (· != '.')).drop 1
        let groups ← (Text.splitAt ':' whole).mapM Text.readDecimal?
        let n : Nat := groups.foldl (fun acc g => acc * 60 + g) 0
        let f ← if fraction.isEmpty then some 0 else Text.readDecimal? fraction
        some (.decimal (n * Nat.pow 10 fraction.length + f) (-(fraction.length : Int)))
      else readDecimalForm? (Text.strip body)
  let groups := (Text.splitAt ':' (body.takeWhile (· != '.'))).length
  if s.isEmpty then .error .emptyNumber
  else
    match value? with
    | some r =>
      if mostGroups < groups then .error (.outOfRange "int too large to convert to float")
      else .ok (if isNegative s then negate r else r)
    | none => .error bad

/-- The value of a truth value, in any mixture of cases. -/
def readBool (s : Text) : Except Error Bool :=
  let w := s.map Char.toLower
  match boolWords.lookup w with
  | some b => .ok b
  | none => .error (.unknownWord w)

def daysIn (year month : Nat) : Nat :=
  if month = 2 then if year % 4 = 0 ∧ (year % 100 ≠ 0 ∨ year % 400 = 0) then 29 else 28
  else if month = 4 ∨ month = 6 ∨ month = 9 ∨ month = 11 then 30
  else 31

/-- The number that digits write; nothing writes zero. -/
def number (ds : Text) : Nat := (Text.readDecimal? ds).getD 0

/-- What is wrong with an offset from universal time that is a day or more. -/
def offsetFault? (sign : Char) (hours minutes : Nat) : Option Text :=
  let seconds : Int := hours * 3600 + minutes * 60
  if seconds < 86400 then none
  else
    let seconds := if sign = '-' then -seconds else seconds
    let days := seconds.fdiv 86400
    let rest := seconds.fmod 86400
    let seconds : Text := if rest = 0 then [] else ", seconds=" ++ Text.signedDecimal rest
    let words : Text :=
      "offset must be a timedelta strictly between -timedelta(hours=24) and " ++
        "timedelta(hours=24), not datetime.timedelta(days=" ++ Text.signedDecimal days ++
        seconds ++ ")."
    some words

/-- What is wrong with the parts of a date, if it is none of the calendar. -/
def DateParts.fault? (p : DateParts) : Option Text :=
  let (year, month, day) := (number p.year, number p.month, number p.day)
  let offset := p.offset.bind fun (sign, h, m) => offsetFault? sign (number h) (number m)
  let calendar : Option Text :=
    if year = 0 then some "year 0 is out of range"
    else if month = 0 ∨ 12 < month then some "month must be in 1..12"
    else if day = 0 ∨ daysIn year month < day then some "day is out of range for month"
    else none
  let clock : Option Text :=
    p.time.bind fun (h, m, s, _) =>
      if 23 < number h then some "hour must be in 0..23"
      else if 59 < number m then some "minute must be in 0..59"
      else if 59 < number s then some "second must be in 0..59"
      else none
  offset.or (calendar.or clock)

def readDate (s : Text) : Except Error Scalar :=
  match dateParts? s with
  | none => .error .notDate
  | some p =>
    match p.fault? with
    | some words => .error (.badValue words)
    | none => .ok (.date s)

def readScalar (tag : Tag) (s : Text) : Except Error Scalar :=
  match tag with
  | .null => .ok .null
  | .bool => (readBool s).map .bool
  | .int => (readInt s).map .int
  | .real => (readReal s).map .real
  | .date => readDate s
  | .text => .ok (.text s)
  | _ => .error .malformed

end LuaTidy.Yaml
