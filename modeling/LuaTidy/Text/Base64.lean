import LuaTidy.Text.Basic
/-!
The base64 code: three bytes as four characters of an alphabet of 64, with `=` in the places of
missing characters of the last group. Decoding is strict about the alphabet and the padding, but
takes any value in the unused low bits of the last data character.
-/
namespace LuaTidy.Text.Base64

/-- The value of a character of the alphabet. -/
def sextet? (c : Char) : Option Nat :=
  if 'A' ≤ c && c ≤ 'Z' then some (c.toNat - 'A'.toNat)
  else if 'a' ≤ c && c ≤ 'z' then some (c.toNat - 'a'.toNat + 26)
  else if '0' ≤ c && c ≤ '9' then some (c.toNat - '0'.toNat + 52)
  else if c == '+' then some 62
  else if c == '/' then some 63
  else none

def isSextet (c : Char) : Bool := (sextet? c).isSome

/-- The character of the alphabet for a value below 64. -/
def sextetChar (n : Nat) : Char :=
  if n < 26 then Char.ofNat ('A'.toNat + n)
  else if n < 52 then Char.ofNat ('a'.toNat + (n - 26))
  else if n < 62 then Char.ofNat ('0'.toNat + (n - 52))
  else if n = 62 then '+' else '/'

/-- The bytes that sextets write; unused low bits are dropped. -/
def bytesOf : List Nat → List Nat
  | a :: b :: c :: d :: rest =>
    (a * 4 + b / 16) :: (b % 16 * 16 + c / 4) :: (c % 4 * 64 + d) :: bytesOf rest
  | [a, b, c] => [a * 4 + b / 16, b % 16 * 16 + c / 4]
  | [a, b] => [a * 4 + b / 16]
  | _ => []

/-- The code of a row of bytes, padded to a multiple of four characters. -/
def encode : List Nat → Text
  | a :: b :: c :: rest =>
    sextetChar (a / 4) :: sextetChar (a % 4 * 16 + b / 16) ::
      sextetChar (b % 16 * 4 + c / 64) :: sextetChar (c % 64) :: encode rest
  | [a, b] =>
    [sextetChar (a / 4), sextetChar (a % 4 * 16 + b / 16), sextetChar (b % 16 * 4), '=']
  | [a] => [sextetChar (a / 4), sextetChar (a % 4 * 16), '=', '=']
  | [] => []

/-- Whether `pad` equal signs may follow `data` characters of the alphabet. -/
def padding (data pad : Nat) : Bool :=
  match data % 4 with
  | 0 => 0 < data || pad = 0
  | 2 => pad = 2
  | 3 => pad = 1
  | _ => false

/-- The bytes that a code writes, or `none` for a text that is no code. -/
def decode? (s : Text) : Option (List Nat) :=
  let data := s.takeWhile isSextet
  let pad := s.dropWhile isSextet
  if pad.all (· == '=') && padding data.length pad.length then
    some (bytesOf (data.filterMap sextet?))
  else none

end LuaTidy.Text.Base64
