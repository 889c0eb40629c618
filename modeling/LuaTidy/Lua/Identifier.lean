import LuaTidy.Entries
import LuaTidy.Text.Basic
import LuaTidy.Text.Pieces
/-!
Identifiers: a text splits into maximal runs of ASCII word characters and the single characters
between them. A run that does not begin with a digit is an identifier token.
-/
namespace LuaTidy.Lua

def isNameStart (c : Char) : Bool :=
  ('a' ≤ c && c ≤ 'z') || ('A' ≤ c && c ≤ 'Z') || c == '_'

/-- The characters of a word: ASCII letters, digits and the underscore. -/
def isWordChar (c : Char) : Bool :=
  isNameStart c || ('0' ≤ c && c ≤ '9')

/-- A word, or one character between words. -/
inductive Lexeme where
  | word (w : Text)
  | gap (c : Char)
  deriving DecidableEq, Repr

def Lexeme.text : Lexeme → Text
  | .word w => w
  | .gap c => [c]

def Lexeme.name? : Lexeme → Option Text
  | .word (c :: cs) => if isNameStart c then some (c :: cs) else none
  | _ => none

/-- Put a character in front of the lexemes of what follows it. -/
def Lexeme.push (c : Char) (rest : List Lexeme) : List Lexeme :=
  if isWordChar c then
    match rest with
    | .word w :: more => .word (c :: w) :: more
    | more => .word [c] :: more
  else .gap c :: rest

/-- Split into maximal words and the characters between them. -/
def lexemes : Text → List Lexeme
  | [] => []
  | c :: cs => Lexeme.push c (lexemes cs)

/-- The identifier tokens in order. -/
def names (s : Text) : List Text := (lexemes s).filterMap Lexeme.name?

/-- The identifier tokens of lexemes that begin at position `p`, each with its own position. -/
def placedNamesFrom : Nat → List Lexeme → List (Nat × Text)
  | _, [] => []
  | p, l :: ls =>
    let more := placedNamesFrom (p + l.text.length) ls
    match l.name? with
    | some n => (p, n) :: more
    | none => more

/-- The identifier tokens in order, each with the position of its first character. -/
def placedNames (s : Text) : List (Nat × Text) := placedNamesFrom 0 (lexemes s)

theorem flatMap_text_push (c : Char) (ls : List Lexeme) :
    (Lexeme.push c ls).flatMap Lexeme.text = c :: ls.flatMap Lexeme.text := by
  unfold Lexeme.push
  split
  · split <;> simp [Lexeme.text]
  · simp [Lexeme.text]

/-- Nothing of the text is lost. -/
theorem flatMap_text_lexemes (s : Text) : (lexemes s).flatMap Lexeme.text = s := by
  induction s with
  | nil => rfl
  | cons c cs ih => rw [lexemes, flatMap_text_push, ih]

/-!
## Renamings

They apply to all identifiers of a text at once.
-/

/-- Old names with their new ones, in the order in which the old names were first given. -/
abbrev Renaming := Entries Text Text

/-- The new name of a name: itself where the renaming says nothing. -/
def Renaming.image (m : Renaming) (name : Text) : Text := (m.get? name).getD name

def Lexeme.rename (m : Renaming) (l : Lexeme) : Text :=
  match l.name? with
  | some n => m.image n
  | none => l.text

/-- Replace every identifier by its new name, all at once: new names are not renamed again. -/
def rename (m : Renaming) (s : Text) : Text := (lexemes s).flatMap (Lexeme.rename m)

/-!
## Function declarations

The word `function`, blanks, a name, and an opening parenthesis.
-/

def after? (lead s : Text) : Option Text :=
  if lead.isPrefixOf s then some (s.drop lead.length) else none

/-- The name that a text declares at its very beginning, and the text after the parenthesis. -/
def declaration? (s : Text) : Option (Text × Text) := do
  let s ← after? "function" s
  let named := s.dropWhile Text.isBlank
  if named.length = s.length then none
  else
    match named with
    | [] => none
    | c :: cs =>
      if isNameStart c then
        match (cs.dropWhile isWordChar).dropWhile Text.isBlank with
        | '(' :: rest => some (c :: cs.takeWhile isWordChar, rest)
        | _ => none
      else none

def declarationAt? : Text.Recogniser Text := fun c cs =>
  (declaration? (c :: cs)).map fun (name, rest) => (cs.length - rest.length, name)

/-- The declared names, in order and with repetitions. -/
def declarations (s : Text) : List Text := Text.findAll declarationAt? s

end LuaTidy.Lua
