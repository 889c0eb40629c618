import LuaTidy.Text.Basic
/-!
Paths: a root and the parts below it. Reading a path drops empty parts and single dots and keeps
double dots; two slashes at the beginning, and no more, are a root of their own.
-/
namespace LuaTidy

/-- A path. The root is empty for relative paths, and else one slash or two. -/
structure Path where
  root : Text
  parts : List Text
  deriving DecidableEq, Repr

namespace Path

def partsOf (s : Text) : List Text :=
  (Text.splitAt '/' s).filter fun p => !p.isEmpty && p != ['.']

def rootOf (s : Text) : Text :=
  match s.takeWhile (· == '/') with
  | [] => []
  | ['/', '/'] => "//"
  | _ => "/"

def ofText (s : Text) : Path := ⟨rootOf s, partsOf s⟩

/-- The text of a path; a path without root and parts is a dot. -/
def text (p : Path) : Text :=
  match p.root ++ Text.joinWith ['/'] p.parts with
  | [] => ['.']
  | s => s

/-- The last part; empty if there is none. -/
def name (p : Path) : Text := p.parts.getLast?.getD []

def parent (p : Path) : Path := { p with parts := p.parts.dropLast }

/-- A path below another one; a path with a root stands by itself. -/
def join (p : Path) (below : Text) : Path :=
  if rootOf below = [] then { p with parts := p.parts ++ partsOf below } else ofText below

inductive NameError where
  | noName (path : Path)
  | invalidName (name : Text)
  deriving DecidableEq, Repr

def isName (s : Text) : Bool :=
  rootOf s = [] && (partsOf s).length = 1 && s.getLast? != some '/'

def withName (p : Path) (name : Text) : Except NameError Path :=
  if p.name.isEmpty then .error (.noName p)
  else if isName name then .ok { p with parts := p.parts.dropLast ++ [name] }
  else .error (.invalidName name)

end Path
end LuaTidy
