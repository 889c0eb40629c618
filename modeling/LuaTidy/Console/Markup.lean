import LuaTidy.Text.Basic
import LuaTidy.Text.Pieces
/-!
Markup in messages: words in brackets open and close styles. On a console without colours styles
leave no trace, but a tag that closes nothing is an error, and so is one that closes a handler whose
arguments mean nothing. A backslash takes the meaning from a tag; control characters that would move
the cursor are dropped.
-/
namespace LuaTidy.Console

/-- A tag that closes nothing, or nothing that has a meaning. -/
structure MarkupError where
  tag : Text
  deriving DecidableEq, Repr

/-- A recognised stretch of markup: backslashes, and a tag. -/
structure Marked where
  backslashes : Nat
  tag : Text
  deriving DecidableEq, Repr

/-- The inside of a tag at the beginning of a text that follows the opening bracket. -/
def tagBody? (s : Text) : Option Text :=
  match s with
  | [] => none
  | c :: rest =>
    if ('a' ≤ c && c ≤ 'z') || c == '#' || c == '/' || c == '@' then
      let inside := rest.takeWhile fun d => d != ']' && d != '['
      match rest.drop inside.length with
      | ']' :: _ => some (c :: inside)
      | _ => none
    else none

def marked? : Text.Recogniser Marked := fun c cs =>
  let run := (c :: cs).takeWhile (· == '\\')
  match (c :: cs).drop run.length with
  | '[' :: rest => (tagBody? rest).map fun t => (run.length + t.length + 1, ⟨run.length, t⟩)
  | _ => none

/-- The words for attributes of a style, with their full names. -/
def attributes : List (Text × Text) :=
  [("bold", "bold"), ("b", "bold"), ("dim", "dim"), ("d", "dim"), ("italic", "italic"),
    ("i", "italic"), ("underline", "underline"), ("u", "underline"), ("blink", "blink"),
    ("blink2", "blink2"), ("reverse", "reverse"), ("r", "reverse"), ("conceal", "conceal"),
    ("c", "conceal"), ("strike", "strike"), ("s", "strike"), ("underline2", "underline2"),
    ("uu", "underline2"), ("frame", "frame"), ("encircle", "encircle"),
    ("overline", "overline"), ("o", "overline")]

/-- The name of a style without blanks around it, in lower case and in full. -/
def styleName (s : Text) : Text :=
  let s := (Text.strip s).map Char.toLower
  (attributes.lookup s).getD s

def isDropped (c : Char) : Bool :=
  let n := c.toNat
  n == 7 || n == 8 || n == 11 || n == 12 || n == 13

/-- Plain text between tags: a bracket may have one backslash before it in vain. -/
def unescapeBrackets : Text → Text
  | '\\' :: '[' :: rest => '[' :: unescapeBrackets rest
  | c :: rest => c :: unescapeBrackets rest
  | [] => []

/-- A tag that is open: the name of its style, or of a handler behind an at sign. -/
structure OpenTag where
  name : Text
  arguments : Text
  deriving DecidableEq, Repr

structure TagRules where
  /-- The name under which a style is known. -/
  styleName : Text → Text := Console.styleName
  /-- Whether the arguments of a handler have a meaning. -/
  accepts : Text → Bool := fun _ => true

/-- Take the last tag with a name off the stack, the last one of all if the name is empty. -/
def TagRules.close? (rules : TagRules) (name : Text) (stack : List OpenTag) :
    Option (List OpenTag) := do
  let t ←
    if name.isEmpty then stack.head? else stack.find? (·.name == rules.styleName name)
  let isHandler := t.name.head? == some '@' && !t.arguments.isEmpty
  if isHandler && !rules.accepts t.arguments then none else some (stack.erase t)

/-- The plain text of pieces of markup. The open tags are given, the innermost one first. -/
def plainFrom (rules : TagRules) (stack : List OpenTag) (kept : Text) :
    List (Text.Piece Marked) → Except MarkupError Text
  | [] => .ok (unescapeBrackets kept.reverse)
  | .kept c :: ps => plainFrom rules stack (c :: kept) ps
  | .found _ m :: ps => do
    let before := unescapeBrackets kept.reverse ++ List.replicate (m.backslashes / 2) '\\'
    if m.backslashes % 2 = 1 then
      let rest ← plainFrom rules stack [] ps
      .ok (before ++ '[' :: m.tag ++ ']' :: rest)
    else
      let name := m.tag.takeWhile (· != '=')
      let stack ←
        match name with
        | '/' :: closed =>
          match rules.close? (Text.strip closed) stack with
          | some stack => .ok stack
          | none => .error ⟨m.tag⟩
        | _ => .ok (⟨rules.styleName name, m.tag.drop (name.length + 1)⟩ :: stack)
      let rest ← plainFrom rules stack [] ps
      .ok (before ++ rest)

def plain (rules : TagRules) (s : Text) : Except MarkupError Text :=
  (plainFrom rules [] [] (Text.pieces marked? s)).map (·.filter (!isDropped ·))

/-!
## Results

On a console that is no terminal, terminal control sequences are left out of them.
-/

/-- Recognises a control sequence at its escape character: parameters and a final letter. -/
def controlSequence? : Text.Recogniser Unit := fun c cs =>
  match c, cs with
  | '\x1b', '[' :: rest =>
    let isParameter (d : Char) : Bool := Text.isDigit d || d == ';' || d == '?'
    let parameters := rest.takeWhile isParameter
    match rest.dropWhile isParameter with
    | d :: _ =>
      if ('a' ≤ d && d ≤ 'z') || ('A' ≤ d && d ≤ 'Z') then some (parameters.length + 2, ())
      else none
    | [] => none
  | _, _ => none

/-- A text as it is printed: without control sequences. -/
def echo (s : Text) : Text :=
  (Text.pieces controlSequence? s).flatMap fun p =>
    match p with
    | .kept c => [c]
    | .found _ _ => []

end LuaTidy.Console
