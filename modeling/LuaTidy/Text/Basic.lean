/-!
Texts as lists of characters: white space and trimming, printable characters, splitting at a
character and joining again, the order of texts, and numbers written in digits.
-/
namespace LuaTidy

/-- A text is the list of its code points. -/
abbrev Text := List Char

instance coeText : Coe String (List Char) := ⟨String.toList⟩

namespace Text

/-! ## White space -/

/-- The characters with the Unicode property White_Space. -/
def isWhiteSpace (c : Char) : Bool :=
  let n := c.toNat
  (9 ≤ n && n ≤ 13) || n == 0x20 || n == 0x85 || n == 0xA0 || n == 0x1680 ||
    (0x2000 ≤ n && n ≤ 0x200A) || n == 0x2028 || n == 0x2029 || n == 0x202F ||
    n == 0x205F || n == 0x3000

/-- A blank is a white-space character or one of the four information separators. -/
def isBlank (c : Char) : Bool :=
  isWhiteSpace c || (0x1C ≤ c.toNat && c.toNat ≤ 0x1F)

/-- Drop what satisfies `p` from the end. -/
def dropWhileEnd (p : Char → Bool) (s : Text) : Text :=
  (s.reverse.dropWhile p).reverse

def trim (p : Char → Bool) (s : Text) : Text :=
  dropWhileEnd p (s.dropWhile p)

/-- Drop the blanks at both ends. -/
def strip (s : Text) : Text := trim isBlank s

/-- Whether `t` occurs somewhere in the text. -/
def occursIn (t : Text) : Text → Bool
  | [] => t.isEmpty
  | c :: cs => t.isPrefixOf (c :: cs) || occursIn t cs

/-!
## Printable characters

The characters that a decoded escape or payload may put into a text.
-/

def isAsciiAlphanumeric (c : Char) : Bool :=
  ('a' ≤ c && c ≤ 'z') || ('A' ≤ c && c ≤ 'Z') || ('0' ≤ c && c ≤ '9')

def printablePunctuation : Text := ".,!?;:()\x7b\x7d[]\"'-"

/-- Letters, digits, ASCII white space, the no-break space and common punctuation. -/
def isPrintable (c : Char) : Bool :=
  isAsciiAlphanumeric c || (9 ≤ c.toNat && c.toNat ≤ 13) || c == ' ' || c.toNat == 0xA0 ||
    printablePunctuation.contains c

def allPrintable (s : Text) : Bool := s.all isPrintable

/-! ## Parts and lines -/

/-- The parts of a text between the occurrences of `sep`; there is always at least one. -/
def splitAt (sep : Char) : Text → List Text
  | [] => [[]]
  | c :: cs =>
    if c = sep then [] :: splitAt sep cs
    else
      match splitAt sep cs with
      | [] => [[c]]
      | p :: ps => (c :: p) :: ps

def joinWith (sep : Text) : List Text → Text
  | [] => []
  | [p] => p
  | p :: ps => p ++ sep ++ joinWith sep ps

def lines (s : Text) : List Text := splitAt '\n' s

def unlines (ls : List Text) : Text := joinWith ['\n'] ls

/-- Write every `ret`, with the `feed` after it if there is one, as `feed`. -/
def unifyEnds {α : Type} [DecidableEq α] (ret feed : α) : List α → List α
  | [] => []
  | [c] => if c = ret then [feed] else [c]
  | c :: d :: cs =>
    if c = ret then
      if d = feed then feed :: unifyEnds ret feed cs else feed :: unifyEnds ret feed (d :: cs)
    else c :: unifyEnds ret feed (d :: cs)

/-- A text with the line feed as its only line end. -/
def unifyLineEnds (s : Text) : Text := unifyEnds '\r' '\n' s

/-!
## Order

By code points; a beginning of a text comes before it.
-/

/-- Whether a text comes no later than another one. -/
def atMost : Text → Text → Bool
  | [], _ => true
  | _ :: _, [] => false
  | c :: s, d :: t => if c = d then atMost s t else decide (c.toNat < d.toNat)

theorem atMost_total (s t : Text) : (atMost s t || atMost t s) = true := by
  induction s generalizing t with
  | nil => simp [atMost]
  | cons c s ih =>
    cases t with
    | nil => simp [atMost]
    | cons d t =>
      by_cases h : c = d
      · subst h; simpa [atMost] using ih t
      · have hn : c.toNat ≠ d.toNat := fun e => h (Char.toNat_inj.mp e)
        simp only [atMost, h, Ne.symm h, if_false, Bool.or_eq_true, decide_eq_true_eq]
        omega

theorem atMost_trans {s t u : Text} (h : atMost s t = true) (h' : atMost t u = true) :
    atMost s u = true := by
  induction s generalizing t u with
  | nil => rfl
  | cons c s ih =>
    cases t with
    | nil => simp [atMost] at h
    | cons d t =>
      cases u with
      | nil => simp [atMost] at h'
      | cons e u =>
        simp only [atMost] at h h' ⊢
        by_cases hcd : c = d
        · subst hcd
          by_cases hce : c = e
          · subst hce
            simp only [if_true] at h h' ⊢
            exact ih h h'
          · simpa [hce] using h'
        · by_cases hde : d = e
          · subst hde
            simpa [hcd] using h
          · simp only [hcd, hde, if_false, decide_eq_true_eq] at h h'
            have hce : c ≠ e := fun hce => by subst hce; omega
            simp only [hce, if_false, decide_eq_true_eq]
            omega

/-! ## Numbers -/

def decimal (n : Nat) : Text := Nat.toDigits 10 n

def signedDecimal : Int → Text
  | .ofNat n => decimal n
  | .negSucc n => '-' :: decimal (n + 1)

/-- ASCII decimal digits. -/
def isDigit (c : Char) : Bool := '0' ≤ c && c ≤ '9'

/-- The value of a digit of either case, in bases up to 36. -/
def digitValue? (c : Char) : Option Nat :=
  if '0' ≤ c && c ≤ '9' then some (c.toNat - '0'.toNat)
  else if 'a' ≤ c && c ≤ 'z' then some (c.toNat - 'a'.toNat + 10)
  else if 'A' ≤ c && c ≤ 'Z' then some (c.toNat - 'A'.toNat + 10)
  else none

def hexValue? (c : Char) : Option Nat := (digitValue? c).filter (· < 16)

def isHexDigit (c : Char) : Bool := (hexValue? c).isSome

/-- The number that digits of a base write, most significant first; `none` for other characters. -/
def readBase? (base : Nat) (digits : Text) : Option Nat :=
  digits.foldl (fun acc c => do
    let n ← acc
    let d ← (digitValue? c).filter (· < base)
    some (n * base + d)) (some 0)

/-- The number that a non-empty row of decimal digits writes. -/
def readDecimal? (digits : Text) : Option Nat :=
  if digits.isEmpty then none else readBase? 10 digits

/-- A hexadecimal digit in lower case. -/
def hexDigit (n : Nat) : Char :=
  if n < 10 then Char.ofNat ('0'.toNat + n) else Char.ofNat ('a'.toNat + (n - 10))

/-- The last `width` hexadecimal digits of a number, in lower case. -/
def hex (width n : Nat) : Text :=
  match width with
  | 0 => []
  | w + 1 => hex w (n / 16) ++ [hexDigit (n % 16)]

/-- The last `width` hexadecimal digits of a number, in upper case. -/
def upperHex (width n : Nat) : Text := (hex width n).map Char.toUpper

end Text
end LuaTidy
