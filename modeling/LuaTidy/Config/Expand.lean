import LuaTidy.Text.Pieces
import LuaTidy.Text.WordCharacter
import LuaTidy.Value.Basic
/-!
References to environment variables, written `$\{NAME\}`, in the texts of a value. What takes the
place of a reference is not looked at again, and the keys of maps are left alone.
-/
namespace LuaTidy

abbrev Environment := Entries Text Text

namespace Environment

/-- The value of a variable; empty if it is not set. -/
def value (env : Environment) (name : Text) : Text := (env.get? name).getD []

/-- Recognises a reference at its dollar sign; it stands for its name. -/
def reference? : Text.Recogniser Text := fun c cs =>
  match c, cs with
  | '$', '\x7b' :: rest =>
    let name := rest.takeWhile Text.isUnicodeWord
    match rest.dropWhile Text.isUnicodeWord with
    | '\x7d' :: _ => if name.isEmpty then none else some (name.length + 2, name)
    | _ => none
  | _, _ => none

def expandText (env : Environment) (s : Text) : Text :=
  (Text.pieces reference? s).flatMap fun p =>
    match p with
    | .kept c => [c]
    | .found _ name => env.value name

/-- A scalar with the references in it, if it is a text, replaced. -/
def expandScalar (env : Environment) : Scalar → Scalar
  | .text s => .text (env.expandText s)
  | s => s

mutual

/-- A value with the references in all its texts replaced. -/
def expand (env : Environment) : Value → Value
  | .scalar s => .scalar (env.expandScalar s)
  | .list vs => .list (expandItems env vs)
  | .map es => .map (expandEntries env es)

def expandItems (env : Environment) : List Value → List Value
  | [] => []
  | v :: vs => expand env v :: expandItems env vs

def expandEntries (env : Environment) : List (Scalar × Value) → List (Scalar × Value)
  | [] => []
  | (k, v) :: es => (k, expand env v) :: expandEntries env es

end

end Environment
end LuaTidy
