/-! Finite maps that remember the order in which their keys came in. -/
namespace LuaTidy

/-- Keys with their values, in the order in which the keys came in. -/
abbrev Entries (κ α : Type) := List (κ × α)

namespace Entries

variable {κ α : Type} [DecidableEq κ]

/-- The value of a key: that of its first entry. -/
def get? (m : Entries κ α) (k : κ) : Option α :=
  match m with
  | [] => none
  | (k', a) :: rest => if k' = k then some a else get? rest k

/-- Give a key a value. A key that is there already keeps its place. -/
def insert (m : Entries κ α) (k : κ) (a : α) : Entries κ α :=
  match m with
  | [] => [(k, a)]
  | (k', a') :: rest => if k' = k then (k', a) :: rest else (k', a') :: insert rest k a

/-- Give the keys of `more` their values, from the left. -/
def update (m more : Entries κ α) : Entries κ α :=
  more.foldl (fun acc e => acc.insert e.1 e.2) m

/-- The entries of a list in which a later value of a key takes the place of an earlier one. -/
def ofList (es : List (κ × α)) : Entries κ α := update [] es

theorem get?_insert (m : Entries κ α) (k l : κ) (a : α) :
    (m.insert k a).get? l = if k = l then some a else m.get? l := by
  induction m with
  | nil => simp [insert, get?]
  | cons e rest ih =>
    obtain ⟨k', a'⟩ := e
    by_cases h : k' = k
    · subst h; by_cases h' : k' = l <;> simp [insert, get?, h']
    · by_cases h' : k' = l
      · subst h'; simp [insert, get?, h, Ne.symm h]
      · simp [insert, get?, h, h', ih]

end Entries
end LuaTidy
