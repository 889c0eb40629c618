import LuaTidy.Entries
import LuaTidy.Text.Visible
import LuaTidy.Value.Real
/-! Document values: scalars, lists, and maps that keep their order. -/
namespace LuaTidy

/-- A value without parts. -/
inductive Scalar where
  | null
  | bool (b : Bool)
  | int (n : Int)
  | real (r : Real)
  | text (s : Text)
  /-- A calendar date, possibly with a time of day, as written. -/
  | date (written : Text)
  deriving DecidableEq, Repr

inductive Value where
  | scalar (s : Scalar)
  | list (items : List Value)
  | map (entries : List (Scalar × Value))
  deriving Repr

namespace Value

def null : Value := .scalar .null

def text (s : Text) : Value := .scalar (.text s)

instance : Inhabited Value := ⟨null⟩

mutual

def decEq : (v w : Value) → Decidable (v = w)
  | .scalar s, .scalar t => decidable_of_iff (s = t) (by rw [scalar.injEq])
  | .list vs, .list ws =>
    match decEqItems vs ws with
    | .isTrue h => .isTrue (congrArg list h)
    | .isFalse h => .isFalse fun he => h (list.inj he)
  | .map es, .map fs =>
    match decEqEntries es fs with
    | .isTrue h => .isTrue (congrArg map h)
    | .isFalse h => .isFalse fun he => h (map.inj he)
  | .scalar _, .list _ | .scalar _, .map _ | .list _, .scalar _ | .list _, .map _
  | .map _, .scalar _ | .map _, .list _ => .isFalse nofun

def decEqItems : (vs ws : List Value) → Decidable (vs = ws)
  | [], [] => .isTrue rfl
  | v :: vs, w :: ws =>
    match decEq v w, decEqItems vs ws with
    | .isTrue h, .isTrue hs => .isTrue (by rw [h, hs])
    | .isFalse h, _ => .isFalse fun he => h (List.cons.inj he).1
    | _, .isFalse hs => .isFalse fun he => hs (List.cons.inj he).2
  | [], _ :: _ | _ :: _, [] => .isFalse nofun

def decEqEntries : (es fs : List (Scalar × Value)) → Decidable (es = fs)
  | [], [] => .isTrue rfl
  | (k, v) :: es, (l, w) :: fs =>
    match (inferInstance : Decidable (k = l)), decEq v w, decEqEntries es fs with
    | .isTrue h, .isTrue h', .isTrue hs => .isTrue (by rw [h, h', hs])
    | .isFalse h, _, _ => .isFalse fun he => h (Prod.mk.inj (List.cons.inj he).1).1
    | _, .isFalse h, _ => .isFalse fun he => h (Prod.mk.inj (List.cons.inj he).1).2
    | _, _, .isFalse hs => .isFalse fun he => hs (List.cons.inj he).2
  | [], _ :: _ | _ :: _, [] => .isFalse nofun

end

instance : DecidableEq Value := decEq

end Value

/-! ## Values in messages -/

def Real.display : Real → Text
  | .decimal m e => Text.signedDecimal m ++ 'e' :: Text.signedDecimal e
  | .infinity negative => if negative then "-inf" else "inf"
  | .nan => "nan"

def Scalar.display : Scalar → Text
  | .null => "None"
  | .bool b => if b then "True" else "False"
  | .int n => Text.signedDecimal n
  | .real r => r.display
  | .text s => Text.display s
  | .date written => written

def Scalar.typeName : Scalar → Text
  | .null => "NoneType"
  | .bool _ => "bool"
  | .int _ => "int"
  | .real _ => "float"
  | .text _ => "str"
  | .date _ => "date"

namespace Value

def typeName : Value → Text
  | .scalar s => s.typeName
  | .list _ => "list"
  | .map _ => "dict"

mutual

def display : Value → Text
  | .scalar s => s.display
  | .list vs => '[' :: Text.joinWith ", " (displayItems vs) ++ [']']
  | .map es => '\x7b' :: Text.joinWith ", " (displayEntries es) ++ ['\x7d']

def displayItems : List Value → List Text
  | [] => []
  | v :: vs => display v :: displayItems vs

def displayEntries : List (Scalar × Value) → List Text
  | [] => []
  | (k, v) :: es => (k.display ++ ": " ++ display v) :: displayEntries es

end

end Value
end LuaTidy
