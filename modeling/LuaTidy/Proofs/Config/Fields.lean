import LuaTidy.Config.Validate
import LuaTidy.Proofs.Value.Reordering

/-!
Checks that are made of the checks of fields. Such a check asks every field on its own and then
puts the answers together: its problems are those of the fields, in the order in which the fields
are declared, and nothing else about the entries can be noticed.
-/
namespace LuaTidy

namespace Checked

variable {α β : Type}

/-- What is wrong; nothing, if a check yields a value. -/
def problems : Checked α → List Problem
  | .ok _ => []
  | .error ps => ps

/-- The check yields a value. -/
def Accepted (x : Checked α) : Prop := ∃ a, x = .ok a

/-- If nothing is wrong, there is a value. -/
def Telling (x : Checked α) : Prop := x.problems = [] → x.Accepted

/-- Problems of a part, as problems of the whole. -/
def placed (step : PlaceStep) (ps : List Problem) : List Problem :=
  ps.map fun p => { p with place := step :: p.place }

@[simp] theorem problems_map (f : α → β) (x : Checked α) : problems (x.map f) = x.problems := by
  cases x <;> rfl

@[simp] theorem problems_apply (f : Checked (α → β)) (x : Checked α) :
    problems (apply f x) = f.problems ++ x.problems := by
  cases f <;> cases x <;> simp [apply, problems]

@[simp] theorem problems_under (step : PlaceStep) (x : Checked α) :
    problems (under step x) = placed step x.problems := by
  cases x <;> rfl

theorem map_eq_ok_iff {f : α → β} {x : Checked α} {b : β} :
    x.map f = .ok b ↔ ∃ a, x = .ok a ∧ f a = b := by
  cases x <;> simp [Except.map]

theorem apply_eq_ok_iff {f : Checked (α → β)} {x : Checked α} {b : β} :
    apply f x = .ok b ↔ ∃ g a, f = .ok g ∧ x = .ok a ∧ g a = b := by
  cases f <;> cases x <;> simp [apply]

theorem under_eq_ok_iff {step : PlaceStep} {x : Checked α} {a : α} :
    under step x = .ok a ↔ x = .ok a := by
  cases x <;> simp [under]

theorem accepted_iff {x : Checked α} (h : x.Telling) : x.Accepted ↔ x.problems = [] :=
  ⟨fun ⟨_, ha⟩ => ha ▸ rfl, h⟩

namespace Telling

theorem ok (a : α) : Telling (.ok a : Checked α) := fun _ => ⟨a, rfl⟩

theorem refuse (c : Cause) : Telling (refuse c : Checked α) := nofun

theorem map {x : Checked α} (h : x.Telling) (f : α → β) : Telling (x.map f) := by
  intro hp
  obtain ⟨a, ha⟩ := h (by rwa [problems_map] at hp)
  exact ⟨f a, map_eq_ok_iff.mpr ⟨a, ha, rfl⟩⟩

theorem apply {f : Checked (α → β)} {x : Checked α} (hf : f.Telling) (hx : x.Telling) :
    Telling (apply f x) := by
  intro hp
  rw [problems_apply, List.append_eq_nil_iff] at hp
  obtain ⟨g, hg⟩ := hf hp.1
  obtain ⟨a, ha⟩ := hx hp.2
  exact ⟨g a, apply_eq_ok_iff.mpr ⟨g, a, hg, ha, rfl⟩⟩

theorem under {x : Checked α} (h : x.Telling) (step : PlaceStep) : Telling (under step x) := by
  intro hp
  obtain ⟨a, ha⟩ := h (List.map_eq_nil_iff.mp (by rwa [problems_under] at hp))
  exact ⟨a, under_eq_ok_iff.mpr ha⟩

end Telling
end Checked

open Checked

/-- A field: its name, the names of its own fields if it is a record, and the check of its value. -/
structure Field where
  name : Text
  members : Option (List Text)
  {Content : Type}
  check : Value → Checked Content

namespace Field

/-- A field that is no record. -/
def leaf {α : Type} (name : Text) (check : Value → Checked α) : Field := ⟨name, none, check⟩

/-- A field that is a record with these fields. -/
def record {α : Type} (name : Text) (fields : List Field) (check : Value → Checked α) : Field :=
  ⟨name, some (fields.map Field.name), check⟩

/-- What a field finds wrong with the entries that it is one of. -/
def problems (f : Field) (es : Entries Scalar Value) : List Problem :=
  ((es.get? (.text f.name)).map fun v => placed (.field f.name) (f.check v).problems).getD []

end Field

theorem checkField_eq {α : Type} (es : Entries Scalar Value) (name : Text) (default : α)
    (check : Value → Checked α) : Value.checkField es name default check =
      (((es.get? (.text name)).map check).map (under (.field name))).getD (.ok default) := by
  rw [Value.checkField]
  cases es.get? (.text name) <;> rfl

theorem problems_checkField (f : Field) (es : Entries Scalar Value) (default : f.Content) :
    (Value.checkField es f.name default f.check).problems = f.problems es := by
  rw [checkField_eq, Field.problems]
  cases es.get? (.text f.name) with
  | none => rfl
  | some v => exact problems_under _ _

theorem telling_checkField {α : Type} {es : Entries Scalar Value} {name : Text} {default : α}
    {check : Value → Checked α} (h : ∀ v, (check v).Telling) :
    (Value.checkField es name default check).Telling := by
  rw [Value.checkField]
  split
  · exact (h _).under _
  · exact .ok _

/-- A check of entries that asks these fields, in this order, and combines what they yield. The list
grows at its end, as the field that is asked last is asked outermost. -/
inductive Assembled : {α : Type} → List Field → (Entries Scalar Value → Checked α) → Prop where
  | first {α : Type} {f : Field} (default : f.Content) (g : f.Content → α) :
      Assembled [f] fun es => (Value.checkField es f.name default f.check).map g
  | next {α : Type} {fields : List Field} {f : Field}
      {check : Entries Scalar Value → Checked (f.Content → α)} (h : Assembled fields check)
      (default : f.Content) :
      Assembled (fields ++ [f]) fun es =>
        Checked.apply (check es) (Value.checkField es f.name default f.check)

namespace Assembled

variable {α : Type} {fields : List Field} {check : Entries Scalar Value → Checked α}

/-- Entries for which every field has the same answer have the same answer as a whole. -/
theorem congr (h : Assembled fields check) {es fs : Entries Scalar Value}
    (hsame : ∀ f ∈ fields,
      (fs.get? (.text f.name)).map f.check = (es.get? (.text f.name)).map f.check) :
    check fs = check es := by
  induction h with
  | first default g => simp only [checkField_eq, hsame _ List.mem_cons_self]
  | next _ default ih =>
    simp only [checkField_eq, hsame _ (List.mem_append_right _ List.mem_cons_self),
      ih fun f hf => hsame f (List.mem_append_left _ hf)]

theorem problems_eq (h : Assembled fields check) (es : Entries Scalar Value) :
    (check es).problems = fields.flatMap fun f => f.problems es := by
  induction h with
  | first default g => simp [problems_checkField]
  | next _ default ih => simp [problems_checkField, ih]

theorem telling (h : Assembled fields check) (hfields : ∀ f ∈ fields, ∀ v, (f.check v).Telling)
    (es : Entries Scalar Value) : (check es).Telling := by
  induction h with
  | first default g => exact (telling_checkField (hfields _ List.mem_cons_self)).map g
  | next _ default ih =>
    exact (ih fun f hf => hfields f (List.mem_append_left _ hf)).apply
      (telling_checkField (hfields _ (List.mem_append_right _ List.mem_cons_self)))

end Assembled

/-- A check that does not notice in which order keys stand. -/
def Steady {α : Type} (check : Value → Checked α) : Prop :=
  ∀ {v w : Value}, v.Distinct → v.Reordered w → check w = check v

theorem map_eq_of_rel {α β : Type} {R : α → α → Prop} {x y : Option α} {g : α → β}
    (h : Option.Rel R x y) (hg : ∀ a b, x = some a → R a b → g b = g a) : y.map g = x.map g := by
  cases h with
  | none => rfl
  | some hab => exact congrArg some (hg _ _ rfl hab)

theorem Assembled.steady {α : Type} {fields : List Field} {check : Entries Scalar Value → Checked α}
    (h : Assembled fields check) (hfields : ∀ f ∈ fields, Steady f.check) (recordName : Text) :
    Steady (Value.asRecord recordName check) := by
  intro v w hdistinct hreordered
  cases hreordered with
  | scalar s => rfl
  | list _ => rfl
  | map hperm hkeys hvalues =>
    refine h.congr fun f hf => ?_
    have hrel := (Value.Reordered.map hperm hkeys hvalues).get? hdistinct (.text f.name)
    exact map_eq_of_rel hrel fun v w hv hvw => hfields f hf (hdistinct.get? hv) hvw

/-- The part of a value that a record with these fields looks at. -/
def Value.within : Option (List Text) → Value → Value
  | some names, .map es => .map (es.filter fun e => e.1 ∈ names.map Scalar.text)
  | _, v => v

/--
A field whose check is made of regular ones if it is a record; if it is not, its check does not
look into maps.
-/
inductive Field.Regular : Field → Prop where
  | leaf {α : Type} {name : Text} {check : Value → Checked α} (hsteady : Steady check)
      (htelling : ∀ v, (check v).Telling) : Regular (.leaf name check)
  | record {α : Type} {name recordName : Text} {fields : List Field}
      {check : Entries Scalar Value → Checked α} (hcheck : Assembled fields check)
      (hnames : (fields.map Field.name).Nodup) (hfields : ∀ f ∈ fields, Regular f) :
      Regular (.record name fields (Value.asRecord recordName check))

namespace Field.Regular

variable {f : Field}

theorem steady (h : f.Regular) : Steady f.check := by
  induction h with
  | leaf hsteady _ => exact hsteady
  | record hcheck _ _ ih => exact hcheck.steady ih _

theorem telling (h : f.Regular) (v : Value) : (f.check v).Telling := by
  induction h generalizing v with
  | leaf _ htelling => exact htelling v
  | record hcheck _ _ ih =>
    cases v with
    | scalar s => exact .refuse _
    | list vs => exact .refuse _
    | map es => exact hcheck.telling ih es

/-- A field does not notice entries of its value that are no fields of its own. -/
theorem check_within (h : f.Regular) (v : Value) : f.check (v.within f.members) = f.check v := by
  cases h with
  | leaf => rfl
  | record hcheck =>
    cases v with
    | scalar s => rfl
    | list vs => rfl
    | map es =>
      refine hcheck.congr fun g hg => ?_
      have hplace : (Scalar.text g.name ∈ (List.map Field.name _).map Scalar.text) :=
        List.mem_map_of_mem (List.mem_map_of_mem hg)
      rw [Entries.get?_filter es (fun k => decide (k ∈ _)), if_pos (decide_eq_true hplace)]

end Field.Regular

/-- A check of entries that is made of the checks of regular fields with different names. -/
structure MadeOf {α : Type} (fields : List Field) (check : Entries Scalar Value → Checked α) :
    Prop where
  assembled : Assembled fields check
  names : (fields.map Field.name).Nodup
  regular : ∀ f ∈ fields, f.Regular

/--
A check of entries that is decided field by field. Its problems are those that each field would
have alone, in the order of the names, and it accepts entries exactly if it accepts each of these
fields that is there alone.
-/
structure FieldWise {α : Type} (names : List Text) (check : Entries Scalar Value → Checked α) :
    Prop where
  problems (es : Entries Scalar Value) :
    (check es).problems = names.flatMap fun n => (check (es.only (.text n))).problems
  accepted (es : Entries Scalar Value) :
    (check es).Accepted ↔
      ∀ n ∈ names, ∀ v, es.get? (.text n) = some v → (check [(.text n, v)]).Accepted

/-- What holds of a part holds of a whole that has just the problems of this part. -/
theorem FieldWise.inside {α β : Type} {names : List Text} {inner : Entries Scalar Value → Checked α}
    {outer : Entries Scalar Value → Checked β} {step : PlaceStep} (h : FieldWise names inner)
    (hinner : ∀ es, (inner es).Telling) (houter : ∀ es, (outer es).Telling)
    (hproblems : ∀ es, (outer es).problems = placed step (inner es).problems) :
    FieldWise names outer := by
  have haccepted (es : Entries Scalar Value) : (outer es).Accepted ↔ (inner es).Accepted := by
    rw [accepted_iff (houter es), accepted_iff (hinner es), hproblems, placed, List.map_eq_nil_iff]
  refine ⟨fun es => ?_, fun es => ?_⟩
  · simp only [hproblems, h.problems es, placed, List.map_flatMap]
  · simp only [haccepted]
    exact h.accepted es

/-- The part of a value that a record with these fields and the records among them look at. -/
def Value.known (fields : List Field) : Value → Value
  | .map es => .map <| es.filterMap fun e =>
      (fields.find? fun f => .text f.name = e.1).map fun f => (e.1, e.2.within f.members)
  | v => v

namespace Field

theorem problems_only (f : Field) (es : Entries Scalar Value) (n : Text) :
    f.problems (es.only (.text n)) = if f.name = n then f.problems es else [] := by
  rw [problems, Entries.get?_only]
  by_cases h : f.name = n
  · simp [h, problems]
  · simp [h, Ne.symm h]

theorem flatMap_problems_only {fields : List Field} (hnames : (fields.map name).Nodup) {f : Field}
    (hf : f ∈ fields) (es : Entries Scalar Value) :
    (fields.flatMap fun g => g.problems (es.only (.text f.name))) = f.problems es := by
  induction fields with
  | nil => cases hf
  | cons g gs ih =>
    obtain ⟨hg, hgs⟩ := List.nodup_cons.mp hnames
    rw [List.flatMap_cons, problems_only]
    rcases List.mem_cons.mp hf with rfl | hf
    · have hrest : (gs.flatMap fun g => g.problems (es.only (.text f.name))) = [] := by
        refine List.flatMap_eq_nil_iff.mpr fun g' hg' => ?_
        rw [problems_only, if_neg fun h : g'.name = f.name => hg (h ▸ List.mem_map_of_mem hg')]
      rw [if_pos rfl, hrest, List.append_nil]
    · rw [if_neg fun h : g.name = f.name => hg (h ▸ List.mem_map_of_mem hf), List.nil_append,
        ih hgs hf]

theorem find?_name {fields : List Field} (hnames : (fields.map name).Nodup) {f : Field}
    (hf : f ∈ fields) :
    (fields.find? fun g => Scalar.text g.name = .text f.name) = some f := by
  induction fields with
  | nil => cases hf
  | cons g gs ih =>
    obtain ⟨hg, hgs⟩ := List.nodup_cons.mp hnames
    rcases List.mem_cons.mp hf with rfl | hf
    · simp
    · have hne : g.name ≠ f.name := fun h => hg (h ▸ List.mem_map_of_mem hf)
      simpa [hne] using ih hgs hf

end Field

namespace MadeOf

variable {α : Type} {fields : List Field} {check : Entries Scalar Value → Checked α}

theorem telling (h : MadeOf fields check) (es : Entries Scalar Value) : (check es).Telling :=
  h.assembled.telling (fun f hf => (h.regular f hf).telling) es

theorem problems_only (h : MadeOf fields check) {f : Field} (hf : f ∈ fields)
    (es : Entries Scalar Value) : (check (es.only (.text f.name))).problems = f.problems es := by
  rw [h.assembled.problems_eq, Field.flatMap_problems_only h.names hf]

theorem fieldWise (h : MadeOf fields check) : FieldWise (fields.map Field.name) check := by
  have hproblems (es : Entries Scalar Value) : (check es).problems =
      (fields.map Field.name).flatMap fun n => (check (es.only (.text n))).problems := by
    rw [h.assembled.problems_eq, List.flatMap_map]
    exact List.flatMap_congr fun f hf => (h.problems_only hf es).symm
  refine ⟨hproblems, fun es => ?_⟩
  rw [accepted_iff (h.telling es), hproblems, List.flatMap_eq_nil_iff]
  refine forall₂_congr fun n _ => ?_
  rw [Entries.only]
  cases hv : es.get? (.text n) with
  | none => simp [h.assembled.problems_eq, Field.problems]
  | some v => simp [accepted_iff (h.telling _)]

/-- Entries of which only one field is there have the problems of that field. -/
theorem problems_single (h : MadeOf fields check) {f : Field} (hf : f ∈ fields) (v : Value) :
    (check [(.text f.name, v)]).problems = placed (.field f.name) (f.check v).problems := by
  have honly : Entries.only [(Scalar.text f.name, v)] (.text f.name) = [(.text f.name, v)] := by
    simp [Entries.only, Entries.get?_cons]
  rw [← honly, h.problems_only hf, Field.problems]
  simp [Entries.get?_cons]

/-- Neither does a check that asks a record notice anything but the fields of that record. -/
theorem fieldWise_members (h : MadeOf fields check) {f : Field} (hf : f ∈ fields)
    {names : List Text} (hmembers : f.members = some names) :
    FieldWise names fun es => check [(.text f.name, .map es)] := by
  have hregular := h.regular f hf
  cases hregular with
  | leaf => cases hmembers
  | @record _ name recordName fields' inner hcheck hnames hfields =>
    cases hmembers
    have hinner : MadeOf fields' inner := ⟨hcheck, hnames, hfields⟩
    exact hinner.fieldWise.inside hinner.telling (fun es => h.telling _)
      fun es => h.problems_single hf (.map es)

theorem record (h : MadeOf fields check) {name recordName : Text} :
    (Field.record name fields (Value.asRecord recordName check)).Regular :=
  .record h.assembled h.names h.regular

theorem steady (h : MadeOf fields check) (recordName : Text) :
    Steady (Value.asRecord recordName check) :=
  h.assembled.steady (fun f hf => (h.regular f hf).steady) recordName

theorem check_known (h : MadeOf fields check) (recordName : Text) (v : Value) :
    Value.asRecord recordName check (v.known fields) = Value.asRecord recordName check v := by
  cases v with
  | scalar s => rfl
  | list vs => rfl
  | map es =>
    refine h.assembled.congr fun f hf => ?_
    rw [Entries.get?_filterMap es (fun k => fields.find? fun f => .text f.name = k)
      (fun f v => v.within f.members), Field.find?_name h.names hf, Option.bind_some, Option.map_map]
    exact congrArg (Option.map · _) (funext (h.regular f hf).check_within)

end MadeOf
end LuaTidy
