import LuaTidy.Yaml.Node
import LuaTidy.Yaml.Scalar
/-!
Values from nodes. Mappings merge the entries of others where a merge key asks for it; of two
entries with one key the later one counts. If several things are wrong, the one that is nearest to
the root is reported, and the first one of those.
-/
namespace LuaTidy.Yaml

/-- What is wrong, and how deep below the node at hand. -/
structure Fault where
  depth : Nat
  error : Error
  deriving DecidableEq, Repr

/-- A part of a value, or what is wrong with it. -/
abbrev Built (α : Type) := Except Fault α

namespace Built

variable {α β : Type}

/-- Both parts, or what is wrong nearest to the root. -/
def both (x : Built α) (y : Built β) : Built (α × β) :=
  match x, y with
  | .ok a, .ok b => .ok (a, b)
  | .ok _, .error e => .error e
  | .error e, .ok _ => .error e
  | .error d, .error e => .error (if e.depth < d.depth then e else d)

/-- Faults seen from one level further up. -/
def below (x : Built α) : Built α := x.mapError fun f => { f with depth := f.depth + 1 }

/-- All parts, or what is wrong nearest to the root. -/
def all : List (Built α) → Built (List α)
  | [] => .ok []
  | x :: xs => (both x (all xs)).map fun (a, as) => a :: as

end Built

def fault {α : Type} : Built α := .error ⟨0, .malformed⟩

/-- Whether a node is a key that asks for merging. -/
def Node.isMergeKey : Node → Bool
  | .scalar .merge _ => true
  | _ => false

/-- A key as it is read: the sign for a default value is a text where it is a key. -/
def Node.asKey : Node → Node
  | .scalar .default s => .scalar .text s
  | n => n

/-- The entries of a mapping with those that it merges put in front. -/
def flatten : Nat → List (Node × Node) → Built (List (Node × Node))
  | 0, _ => fault
  | fuel + 1, es => do
    let merged ← (es.filter (·.1.isMergeKey)).mapM fun (_, v) =>
      match v with
      | .mapping _ inner => flatten fuel inner
      | .sequence _ ns => do
        let parts ← ns.mapM fun n =>
          match n with
          | .mapping _ inner => flatten fuel inner
          | _ => fault
        .ok parts.reverse.flatten
      | _ => fault
    .ok (merged.flatten ++ (es.filter (!·.1.isMergeKey)).map fun (k, v) => (k.asKey, v))

def asKey (x : Built Value) : Built Scalar :=
  match x with
  | .ok (.scalar s) => .ok s
  | .ok _ => fault
  | .error e => .error e

/-- The value of a node; what is wrong with a part of a collection lies below the collection. -/
def build : Nat → Node → Built Value
  | 0, _ => fault
  | _ + 1, .scalar tag s =>
    match readScalar tag s with
    | .ok v => .ok (.scalar v)
    | .error e => .error ⟨0, e⟩
  | fuel + 1, .sequence tag ns =>
    match tag with
    | .sequence => (Built.all (ns.map (build fuel))).below.map .list
    | .pairs =>
      (Built.all (ns.map fun n =>
        match n with
        | .mapping _ [(k, v)] =>
          (Built.both (build fuel k) (build fuel v)).map fun (k, v) => .list [k, v]
        | _ => fault)).below.map .list
    | _ => fault
  | fuel + 1, .mapping tag es =>
    let entries : Built (List (Scalar × Value)) := do
      let es ← flatten (fuel + 1) es
      Built.all (es.map fun (k, v) =>
        let key : Built Scalar :=
          match k with
          | .scalar .. => asKey (build fuel k)
          | _ => fault
        Built.both key (build fuel v))
    match tag with
    | .mapping => entries.below.map fun es => .map (Entries.ofList es)
    | .set => entries.below.map fun es => .list (es.map fun e => .scalar e.1)
    | _ => fault

/-- The value that a document writes; an empty document writes null. -/
def read (s : Text) : Except Error Value := do
  match ← Node.read? s with
  | none => .ok .null
  | some n =>
    match build (s.length + 2) n with
    | .ok v => .ok v
    | .error f => .error f.error

end LuaTidy.Yaml
