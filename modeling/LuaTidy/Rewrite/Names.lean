import LuaTidy.Lua.Identifier
import LuaTidy.Lua.Literal
import LuaTidy.Rewrite.Layout
import LuaTidy.Text.Basic
/-! Rewrites of long names: those of variables, and those of declared functions. -/
namespace LuaTidy

/-!
## Variables

An identifier longer than a threshold gets a short name numbered by the position of its last token
among all identifier tokens. Names that occur only inside quoted literals are left alone.
-/

/-- A rewritten text with the names that were given on the way. -/
structure Renamed extends Rewritten where
  given : Lua.Renaming
  deriving DecidableEq, Repr

namespace Variables

def shortName (stem : Text) (k : Nat) : Text := stem ++ Text.decimal k

def isLong (minLength : Int) (name : Text) : Bool := minLength < name.length

/-- Short names for the long ones among tokens; a repeated name takes its last number. -/
def numbering (minLength : Int) (stem : Text) (tokens : List Text) : Lua.Renaming :=
  (tokens.zipIdx 1).foldl
    (fun m (name, k) => if isLong minLength name then m.insert name (shortName stem k) else m) []

/-- The identifiers that occur outside all quoted literals. -/
def namesInCode (s : Text) : List Text :=
  let spans := Lua.literalSpans s
  (Lua.placedNames s).filterMap fun (p, name) => if Lua.insideSpan spans p then none else some name

def given (minLength : Int) (stem : Text) (s : Text) : Lua.Renaming :=
  (numbering minLength stem (Lua.names s)).filter fun e => (namesInCode s).contains e.1

def simplify (minLength : Int) (stem : Text) (s : Text) : Renamed :=
  let m := given minLength stem s
  if m.isEmpty then { text := s, hits := 0, given := [] }
  else { text := Lua.rename m s, hits := 1, given := m }

end Variables

/-!
## Functions

The long names that a source declares are numbered in the order of their first declarations, and
renamed in a text under their own name and under the name that an earlier renaming gave them.
-/

namespace Functions

/-- Short names for the long ones among declared names, numbered from one without gaps. -/
def numbering (minLength : Int) (stem : Text) (declared : List Text) : Lua.Renaming :=
  declared.foldl
    (fun m name =>
      if Variables.isLong minLength name && (m.get? name).isNone then
        m ++ [(name, Variables.shortName stem (m.length + 1))]
      else m) []

/-- Carry the new names over to the names that `earlier` gave in place of the old ones. -/
def withAliases (earlier m : Lua.Renaming) : Lua.Renaming :=
  m.foldl
    (fun acc e =>
      match earlier.get? e.1 with
      | some other => acc.insert other e.2
      | none => acc) m

/-- Rename in `s` the functions with long names that `source` declares. -/
def simplify (minLength : Int) (stem : Text) (source : Text) (earlier : Lua.Renaming) (s : Text) :
    Renamed :=
  let m := numbering minLength stem (Lua.declarations source)
  if m.isEmpty then { text := s, hits := 0, given := [] }
  else { text := Lua.rename (withAliases earlier m) s, hits := 1, given := m }

end Functions
end LuaTidy
