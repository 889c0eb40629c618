import LuaTidy.Config.Document
import LuaTidy.Proofs.Config.Fields

/-!
Settings are checked field by field. Neither the order of keys nor unknown keys make a difference,
no problem hides or moves another one, and what has been accepted is accepted again as it is.
-/
namespace LuaTidy

open Checked

namespace Value

theorem steady_checkBool : Steady checkBool := fun _ h => by cases h <;> rfl

theorem steady_checkCount : Steady checkCount := fun _ h => by cases h <;> rfl

theorem steady_checkText : Steady checkText := fun _ h => by cases h <;> rfl

theorem steady_checkWord {α : Type} (first : List (Text × α)) (last : Text × α) :
    Steady (checkWord first last) := fun _ h => by cases h <;> rfl

theorem telling_checkBool (v : Value) : (checkBool v).Telling := by
  fun_cases checkBool v <;> first | exact .ok _ | exact .refuse _

theorem telling_checkInt (v : Value) : (checkInt v).Telling := by
  fun_cases checkInt v <;> first | exact .ok _ | exact .refuse _

theorem telling_checkCount (v : Value) : (checkCount v).Telling := by
  have hint := telling_checkInt v
  rw [checkCount]
  cases hv : checkInt v with
  | ok n =>
    simp only
    split
    · exact .refuse _
    · exact .ok n
  | error ps => rwa [hv] at hint

theorem telling_checkText (v : Value) : (checkText v).Telling := by
  fun_cases checkText v <;> first | exact .ok _ | exact .refuse _

theorem telling_checkWord {α : Type} (first : List (Text × α)) (last : Text × α) (v : Value) :
    (checkWord first last v).Telling := by
  fun_cases checkWord first last v <;> first | exact .ok _ | exact .refuse _

theorem checkCount_of_nonneg {n : Int} (h : 0 ≤ n) : checkCount (.scalar (.int n)) = .ok n :=
  if_neg (by omega)

theorem nonneg_of_checkCount {v : Value} {n : Int} (h : checkCount v = .ok n) : 0 ≤ n := by
  rw [checkCount] at h
  cases hv : checkInt v with
  | error ps => rw [hv] at h; cases h
  | ok m =>
    simp only [hv] at h
    split at h
    · cases h
    · next hm =>
      obtain rfl := Except.ok.inj h
      omega

theorem checkField_of_get? {α : Type} {es : Entries Scalar Value} {name : Text} {default a : α}
    {check : Value → Checked α} {v : Value} (hv : es.get? (.text name) = some v)
    (ha : check v = .ok a) : checkField es name default check = .ok a := by
  rw [checkField, hv]
  exact under_eq_ok_iff.mpr ha

/-- What holds of the default and of all that is accepted holds of a field. -/
theorem of_checkField {α : Type} {P : α → Prop} {es : Entries Scalar Value} {name : Text}
    {default a : α} {check : Value → Checked α} (h : checkField es name default check = .ok a)
    (hdefault : P default) (hchecked : ∀ v a, check v = .ok a → P a) : P a := by
  rw [checkField] at h
  split at h
  · next v _ => exact hchecked v a (under_eq_ok_iff.mp h)
  · exact Except.ok.inj h ▸ hdefault

theorem asRecord_eq_ok {α : Type} {recordName : Text} {check : Entries Scalar Value → Checked α}
    {v : Value} {a : α} (h : asRecord recordName check v = .ok a) : ∃ es, check es = .ok a := by
  cases v with
  | scalar s => cases h
  | list vs => cases h
  | map es => exact ⟨es, h⟩

end Value

namespace StageFlags

def field (k : StageKind) : Field := .leaf k.name Value.checkBool

/-- The switches in the order of their declaration. -/
def fields : List Field := StageKind.all.map field

theorem madeOf : MadeOf fields check where
  assembled :=
    Assembled.first (f := field .whitespace) true StageFlags.mk
      |>.next (f := field .concat) true
      |>.next (f := field .variableNames) true
      |>.next (f := field .functionNames) true
      |>.next (f := field .base64) true
      |>.next (f := field .hex) true
      |>.next (f := field .escapes) true
      |>.next (f := field .formatting) true
  names := by decide
  regular := List.forall_mem_map.mpr fun _ _ => .leaf Value.steady_checkBool Value.telling_checkBool

end StageFlags

namespace RenameSettings

def fields : List Field := [
  .leaf "min_length" Value.checkCount,
  .leaf "variable_prefix" Value.checkText,
  .leaf "function_prefix" Value.checkText]

theorem madeOf : MadeOf fields check where
  assembled :=
    Assembled.first (f := .leaf "min_length" Value.checkCount) (10 : Int) RenameSettings.mk
      |>.next (f := .leaf "variable_prefix" Value.checkText) "var_".toList
      |>.next (f := .leaf "function_prefix" Value.checkText) "func_".toList
  names := by decide
  regular := by
    have htext (name : Text) : (Field.leaf name Value.checkText).Regular :=
      .leaf Value.steady_checkText Value.telling_checkText
    simp only [fields, List.forall_mem_cons]
    exact ⟨.leaf Value.steady_checkCount Value.telling_checkCount, htext _, htext _, nofun⟩

theorem nonneg_of_ofValue {v : Value} {r : RenameSettings} (h : ofValue v = .ok r) :
    0 ≤ r.minLength := by
  obtain ⟨es, hes⟩ := Value.asRecord_eq_ok h
  obtain ⟨f, _, hf, _, rfl⟩ := apply_eq_ok_iff.mp hes
  obtain ⟨g, _, hg, _, rfl⟩ := apply_eq_ok_iff.mp hf
  obtain ⟨n, hn, rfl⟩ := map_eq_ok_iff.mp hg
  exact Value.of_checkField hn (by decide) fun _ _ => Value.nonneg_of_checkCount

theorem ofValue_dump {r : RenameSettings} (h : 0 ≤ r.minLength) :
    ofValue (.map [
      (.text "min_length", .scalar (.int r.minLength)),
      (.text "variable_prefix", .text r.variableStem),
      (.text "function_prefix", .text r.functionStem)]) = .ok r := by
  show check _ = _
  rw [check, Value.checkField_of_get? rfl (Value.checkCount_of_nonneg h)]
  rfl

end RenameSettings

namespace FormatSettings

def fields : List Field := [.leaf "indent_width" Value.checkCount]

theorem madeOf : MadeOf fields check where
  assembled := .first (f := .leaf "indent_width" Value.checkCount) (2 : Int) FormatSettings.mk
  names := by decide
  regular := by
    simp only [fields, List.forall_mem_cons]
    exact ⟨.leaf Value.steady_checkCount Value.telling_checkCount, nofun⟩

theorem nonneg_of_ofValue {v : Value} {f : FormatSettings} (h : ofValue v = .ok f) :
    0 ≤ f.indentWidth := by
  obtain ⟨es, hes⟩ := Value.asRecord_eq_ok h
  obtain ⟨n, hn, rfl⟩ := map_eq_ok_iff.mp hes
  exact Value.of_checkField hn (by decide) fun _ _ => Value.nonneg_of_checkCount

theorem ofValue_dump {f : FormatSettings} (h : 0 ≤ f.indentWidth) :
    ofValue (.map [(.text "indent_width", .scalar (.int f.indentWidth))]) = .ok f := by
  show check _ = _
  rw [check, Value.checkField_of_get? rfl (Value.checkCount_of_nonneg h)]
  rfl

end FormatSettings

namespace OutputSettings

def fields : List Field := [
  .leaf "filename" Value.checkText,
  .leaf "report" Value.checkBool,
  .leaf "report_suffix" Value.checkText]

theorem madeOf : MadeOf fields check where
  assembled :=
    Assembled.first (f := .leaf "filename" Value.checkText) "deobfuscated.lua".toList
        OutputSettings.mk
      |>.next (f := .leaf "report" Value.checkBool) false
      |>.next (f := .leaf "report_suffix" Value.checkText) ".techniques.yaml".toList
  names := by decide
  regular := by
    have htext (name : Text) : (Field.leaf name Value.checkText).Regular :=
      .leaf Value.steady_checkText Value.telling_checkText
    simp only [fields, List.forall_mem_cons]
    exact ⟨htext _, .leaf Value.steady_checkBool Value.telling_checkBool, htext _, nofun⟩

end OutputSettings

namespace Config

def fields : List Field := [
  .record "stages" StageFlags.fields StageFlags.ofValue,
  .record "rename" RenameSettings.fields RenameSettings.ofValue,
  .record "formatting" FormatSettings.fields FormatSettings.ofValue,
  .record "output" OutputSettings.fields OutputSettings.ofValue,
  .leaf "log_level" LogLevel.ofValue,
  .leaf "log_format" LogFormat.ofValue]

theorem madeOf : MadeOf fields check where
  assembled :=
    Assembled.first (f := .record "stages" StageFlags.fields StageFlags.ofValue) {} Config.mk
      |>.next (f := .record "rename" RenameSettings.fields RenameSettings.ofValue) {}
      |>.next (f := .record "formatting" FormatSettings.fields FormatSettings.ofValue) {}
      |>.next (f := .record "output" OutputSettings.fields OutputSettings.ofValue) {}
      |>.next (f := .leaf "log_level" LogLevel.ofValue) LogLevel.warn
      |>.next (f := .leaf "log_format" LogFormat.ofValue) LogFormat.text
  names := by decide
  regular := by
    simp only [fields, List.forall_mem_cons]
    exact ⟨StageFlags.madeOf.record, RenameSettings.madeOf.record, FormatSettings.madeOf.record,
      OutputSettings.madeOf.record,
      .leaf (Value.steady_checkWord _ _) (Value.telling_checkWord _ _),
      .leaf (Value.steady_checkWord _ _) (Value.telling_checkWord _ _), nofun⟩

theorem nonneg_of_ofValue {v : Value} {c : Config} (h : ofValue v = .ok c) :
    0 ≤ c.rename.minLength ∧ 0 ≤ c.formatting.indentWidth := by
  obtain ⟨es, hes⟩ := Value.asRecord_eq_ok h
  obtain ⟨_, _, hformat, _, rfl⟩ := apply_eq_ok_iff.mp hes
  obtain ⟨_, _, hlevel, _, rfl⟩ := apply_eq_ok_iff.mp hformat
  obtain ⟨_, _, houtput, _, rfl⟩ := apply_eq_ok_iff.mp hlevel
  obtain ⟨_, formatting, hrest, hformatting, rfl⟩ := apply_eq_ok_iff.mp houtput
  obtain ⟨_, rename, hstages, hrename, rfl⟩ := apply_eq_ok_iff.mp hrest
  obtain ⟨stages, _, rfl⟩ := map_eq_ok_iff.mp hstages
  constructor
  · exact Value.of_checkField (P := fun r : RenameSettings => 0 ≤ r.minLength) hrename (by decide)
      fun _ _ => RenameSettings.nonneg_of_ofValue
  · exact Value.of_checkField (P := fun f : FormatSettings => 0 ≤ f.indentWidth) hformatting
      (by decide) fun _ _ => FormatSettings.nonneg_of_ofValue

theorem ofValue_dump {c : Config} (hlength : 0 ≤ c.rename.minLength)
    (hwidth : 0 ≤ c.formatting.indentWidth) : ofValue c.dump = .ok c := by
  have hlevel : LogLevel.ofValue (.text c.logLevel.name) = .ok c.logLevel := by
    cases c.logLevel <;> rfl
  have hformat : LogFormat.ofValue (.text c.logFormat.name) = .ok c.logFormat := by
    cases c.logFormat <;> rfl
  show check _ = _
  rw [check, Value.checkField_of_get? rfl hformat, Value.checkField_of_get? rfl hlevel,
    Value.checkField_of_get? rfl (FormatSettings.ofValue_dump hwidth),
    Value.checkField_of_get? rfl (RenameSettings.ofValue_dump hlength)]
  rfl

/-- Settings are checked field by field, at both levels: the order of keys and unknown keys make no
difference, each field has the problems that it has alone, in the order of their declaration, and
settings are accepted exactly if all their fields are. Accepted settings have no negative numbers,
and the value that describes them is accepted as the same settings. -/
theorem checked_field_by_field :
    (∀ v w : Value, v.Distinct → v.Reordered w → ofValue w = ofValue v) ∧
    (∀ v w : Value, w.known fields = v.known fields → ofValue w = ofValue v) ∧
    FieldWise (fields.map Field.name) (fun es => ofValue (.map es)) ∧
    (∀ f ∈ fields, ∀ names, f.members = some names →
      FieldWise names fun es => ofValue (.map [(.text f.name, .map es)])) ∧
    ∀ (v : Value) (c : Config), ofValue v = .ok c →
      0 ≤ c.rename.minLength ∧ 0 ≤ c.formatting.indentWidth ∧ ofValue c.dump = .ok c := by
  refine ⟨fun v w => madeOf.steady _, fun v w h => ?_, madeOf.fieldWise,
    fun f hf names => madeOf.fieldWise_members hf, fun v c h => ?_⟩
  · calc ofValue w = ofValue (w.known fields) := (madeOf.check_known _ w).symm
      _ = ofValue (v.known fields) := by rw [h]
      _ = ofValue v := madeOf.check_known _ v
  · obtain ⟨hlength, hwidth⟩ := nonneg_of_ofValue h
    exact ⟨hlength, hwidth, ofValue_dump hlength hwidth⟩

/-- Three wrong fields in two orders, and a right one next to an unknown one. -/
theorem checked_field_by_field_shuffled :
    let rename : List (Scalar × Value) :=
      [(.text "min_length", .scalar (.int (-1))), (.text "function_prefix", .text "f")]
    let stages : List (Scalar × Value) := [(.text "hex", .scalar (.int 2)), (.text "all", .null)]
    let v : Value :=
      .map [(.text "log_level", .text "loud"), (.text "rename", .map rename),
        (.text "stages", .map stages)]
    let w : Value :=
      .map [(.text "stages", .map stages.reverse), (.text "rename", .map rename.reverse),
        (.text "log_level", .text "loud")]
    let u : Value := .map [(.text "color", .null), (.text "formatting", .map [
      (.text "indent_width", .text "+4.0")])]
    let c : Config := { formatting := { indentWidth := 4 } }
    v.Distinct ∧ v.Reordered w ∧ ofValue w = ofValue v ∧
      (ofValue w).problems = [
        ⟨[.field "stages", .field "hex"], .badBool⟩,
        ⟨[.field "rename", .field "min_length"], .negative⟩,
        ⟨[.field "log_level"], .notAmong ["debug", "info", "warn"] "error"⟩] ∧
      ofValue u = .ok c ∧ ofValue c.dump = .ok c := by
  intro rename stages v w u c
  have hdistinct : v.Distinct := by
    refine .map (by decide) ?_
    simp only [List.forall_mem_cons]
    refine ⟨.scalar _, .map (by decide) ?_, .map (by decide) ?_, nofun⟩
    · simp only [rename, List.forall_mem_cons]
      exact ⟨.scalar _, .scalar _, nofun⟩
    · simp only [stages, List.forall_mem_cons]
      exact ⟨.scalar _, .scalar _, nofun⟩
  have hrename : Value.Reordered (.map rename) (.map rename.reverse) :=
    .map (List.reverse_perm rename).symm rfl (.cons (.scalar _) (.cons (.scalar _) .nil))
  have hstages : Value.Reordered (.map stages) (.map stages.reverse) :=
    .map (List.reverse_perm stages).symm rfl (.cons (.scalar _) (.cons (.scalar _) .nil))
  have hreordered : v.Reordered w :=
    .map (List.reverse_perm _).symm rfl (.cons hstages (.cons hrename (.cons (.scalar _) .nil)))
  obtain ⟨hreorders, -, -, -, haccepts⟩ := checked_field_by_field
  have hu : ofValue u = .ok c := by decide
  exact ⟨hdistinct, hreordered, hreorders v w hdistinct hreordered, by decide, hu,
    (haccepts u c hu).2.2⟩

end Config
end LuaTidy
