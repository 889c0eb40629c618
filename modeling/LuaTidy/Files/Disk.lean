import LuaTidy.Entries
import LuaTidy.Files.Path
import LuaTidy.Text.Visible
import LuaTidy.Text.Utf8
/-!
A disk: files and directories by their place below the root, and a working directory from which
relative paths start. Looking up a path goes through its parts from the left; every part must be
looked up in a directory.
-/
namespace LuaTidy

open Text.Utf8 (Bytes)

inductive Node where
  | file (content : Bytes)
  | directory
  deriving DecidableEq, Repr

/-- The names from the root down to a node. -/
abbrev Place := List Text

/-- Files and directories, and the place where relative paths start. -/
structure Disk where
  nodes : Entries Place Node
  working : Place
  deriving DecidableEq, Repr

inductive Refusal where
  | noEntry
  | alreadyThere
  | notDirectory
  | isDirectory
  | nameTooLong
  deriving DecidableEq, Repr

namespace Refusal

def number : Refusal → Nat
  | .noEntry => 2
  | .alreadyThere => 17
  | .notDirectory => 20
  | .isDirectory => 21
  | .nameTooLong => 36

def words : Refusal → Text
  | .noEntry => "No such file or directory"
  | .alreadyThere => "File exists"
  | .notDirectory => "Not a directory"
  | .isDirectory => "Is a directory"
  | .nameTooLong => "File name too long"

end Refusal

inductive FileError where
  /-- The system refuses access to a path. -/
  | refused (why : Refusal) (path : Text)
  /-- A path holds a NUL character. -/
  | nul
  deriving DecidableEq, Repr

def FileError.message : FileError → Text
  | .refused why path =>
    "[Errno " ++ Text.decimal why.number ++ "] " ++ why.words ++ ": " ++ Text.display path
  | .nul => "embedded null byte"

namespace Disk

/-- The greatest length of a name in bytes. -/
def nameLimit : Nat := 255

/-- The length in bytes from which a path is too long. -/
def pathLimit : Nat := 4096

/-- The node at a place. The root is always there. -/
def node? (d : Disk) (p : Place) : Option Node :=
  if p = [] then some .directory else d.nodes.get? p

def put (d : Disk) (p : Place) (n : Node) : Disk := { d with nodes := d.nodes.insert p n }

/-- Go from a place through names, each of which is looked up in a directory. -/
def walk (d : Disk) (here : Place) : List Text → Except Refusal Place
  | [] => .ok here
  | n :: ns =>
    match d.node? here with
    | none => .error .noEntry
    | some (.file _) => .error .notDirectory
    | some .directory =>
      if n = ".." then walk d here.dropLast ns
      else if n = "." then walk d here ns
      else if nameLimit < (Text.Utf8.encode n).length then .error .nameTooLong
      else walk d (here ++ [n]) ns

/-- The place that a path leads to; its last part need not be there. -/
def locate (d : Disk) (path : Text) : Except FileError Place :=
  if path.contains '\x00' then .error .nul
  else if pathLimit ≤ (Text.Utf8.encode path).length then .error (.refused .nameTooLong path)
  else
    let start := if path.head? = some '/' then [] else d.working
    match d.walk start ((Text.splitAt '/' path).filter (!·.isEmpty)) with
    | .ok p => .ok p
    | .error e => .error (.refused e path)

def stat (d : Disk) (path : Text) : Except FileError Node :=
  match d.locate path with
  | .error e => .error e
  | .ok p =>
    match d.node? p with
    | some n => .ok n
    | none => .error (.refused .noEntry path)

/-- What a lookup says, where a missing entry, a file in between and a NUL all mean no. -/
def ask (d : Disk) (path : Text) (yes : Node → Bool) : Except FileError Bool :=
  match d.stat path with
  | .ok n => .ok (yes n)
  | .error (.refused .nameTooLong p) => .error (.refused .nameTooLong p)
  | .error _ => .ok false

def exists? (d : Disk) (path : Text) : Except FileError Bool := d.ask path fun _ => true

def isDirectory? (d : Disk) (path : Text) : Except FileError Bool := d.ask path (· == .directory)

def read (d : Disk) (path : Text) : Except FileError Bytes :=
  match d.stat path with
  | .ok (.file content) => .ok content
  | .ok .directory => .error (.refused .isDirectory path)
  | .error e => .error e

end Disk

/-- An operation on a disk; the changes made before a failure stay. -/
abbrev FileOp (α : Type) := ExceptT FileError (StateM Disk) α

namespace FileOp

/-- An operation that only looks. -/
def look {α : Type} (f : Disk → Except FileError α) : FileOp α := fun d => (f d, d)

/-- Create one directory, whose parent must be there. -/
def makeDirectory (path : Text) : FileOp Unit := fun d =>
  match d.locate path with
  | .error e => (.error e, d)
  | .ok p =>
    match d.node? p with
    | some _ => (.error (.refused .alreadyThere path), d)
    | none => (.ok (), d.put p .directory)

/-- Accept a refusal to create a directory where the directory is there already. -/
def unlessThere (path : Text) (e : FileError) : FileOp Unit := fun d =>
  match e, d.isDirectory? path with
  | .nul, _ => (.error .nul, d)
  | _, .ok true => (.ok (), d)
  | _, .ok false => (.error e, d)
  | _, .error e' => (.error e', d)

/-- Create a directory whose parts are given from the last one to the first, and its ancestors. -/
def makeDirectoriesFrom (root : Text) : List Text → FileOp Unit
  | [] => fun d =>
    let path := Path.text ⟨root, []⟩
    match makeDirectory path d with
    | (.error e, d') => unlessThere path e d'
    | r => r
  | last :: above => fun d =>
    let path := Path.text ⟨root, above.reverse ++ [last]⟩
    match makeDirectory path d with
    | (.ok (), d') => (.ok (), d')
    | (.error (.refused .noEntry _), d') =>
      match makeDirectoriesFrom root above d' with
      | (.error e, d'') => (.error e, d'')
      | (.ok (), d'') =>
        match makeDirectory path d'' with
        | (.ok (), d3) => (.ok (), d3)
        | (.error (.refused .noEntry p), d3) => (.error (.refused .noEntry p), d3)
        | (.error e, d3) => unlessThere path e d3
    | (.error e, d') => unlessThere path e d'

/-- Create a directory and its missing ancestors; a directory that is there will do. -/
def makeDirectories (p : Path) : FileOp Unit := makeDirectoriesFrom p.root p.parts.reverse

def write (path : Text) (content : Bytes) : FileOp Unit := fun d =>
  match d.locate path with
  | .error e => (.error e, d)
  | .ok p =>
    match d.node? p with
    | some .directory => (.error (.refused .isDirectory path), d)
    | _ => (.ok (), d.put p (.file content))

end FileOp
end LuaTidy
