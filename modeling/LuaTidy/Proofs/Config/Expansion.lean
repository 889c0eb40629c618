import LuaTidy.Config.Expand
import LuaTidy.Proofs.Text.PieceScan
import LuaTidy.Proofs.Text.Trimming
import LuaTidy.Proofs.Value.TextLeaves
import Mathlib.Data.List.TakeWhile

/-!
What the expansion of a value can change. In a text, every reference gives way to the value of its
variable, and the parts before and behind it are expanded for themselves, so that nothing that is put
in is read again. In a value, texts are expanded in their places, and the environment has no say in
anything else.
-/
namespace LuaTidy.Environment
open Text (Piece pieces isUnicodeWord)

/-- What can be the name of a variable in a reference. -/
structure IsVariableName (name : Text) : Prop where
  ne_nil : name ≠ []
  word : ∀ c ∈ name, isUnicodeWord c = true

def referenceTo (name : Text) : Text := '$' :: '\x7b' :: (name ++ ['\x7d'])

theorem IsVariableName.not_mem {name : Text} (h : IsVariableName name) :
    '$' ∉ '\x7b' :: (name ++ ['\x7d']) := by
  intro hmem
  simp only [List.mem_cons, List.mem_append, List.not_mem_nil, or_false, Char.reduceEq,
    false_or] at hmem
  exact absurd (h.word '$' hmem) (by decide)

/-- A reference is recognised exactly where one stands. -/
theorem reference?_eq_some_iff {c : Char} {cs v : Text} {n : Nat} :
    reference? c cs = some (n, v) ↔
      IsVariableName v ∧ n = v.length + 2 ∧ ∃ t, c :: cs = referenceTo v ++ t := by
  constructor
  · intro h
    rw [reference?.eq_def] at h
    split at h
    · next rest =>
      simp only at h
      split at h
      · next t ht =>
        split at h
        · cases h
        · next hne =>
          cases h
          have hrest : rest = rest.takeWhile isUnicodeWord ++ '\x7d' :: t := by
            rw [← ht, List.takeWhile_append_dropWhile]
          refine ⟨⟨by simpa using hne, fun c hc => List.mem_takeWhile_imp hc⟩, rfl, t, ?_⟩
          conv_lhs => rw [hrest]
          simp [referenceTo]
      · cases h
    · cases h
  · rintro ⟨hname, rfl, t, heq⟩
    have hbrace : ∀ c ∈ ('\x7d' :: t).head?, isUnicodeWord c = false := by
      rintro c ⟨rfl⟩
      decide
    obtain ⟨rfl, rfl⟩ : c = '$' ∧ cs = '\x7b' :: (v ++ '\x7d' :: t) := by
      simpa [referenceTo] using heq
    simp only [reference?, Text.takeWhile_append_of_head hname.word hbrace,
      Text.dropWhile_append_of_head hname.word hbrace]
    rw [if_neg (by simpa using hname.ne_nil)]

theorem reference?_of_ne {c : Char} (hc : c ≠ '$') (cs : Text) : reference? c cs = none := by
  rw [Option.eq_none_iff_forall_ne_some]
  rintro ⟨n, v⟩ h
  obtain ⟨-, -, t, heq⟩ := reference?_eq_some_iff.mp h
  cases heq
  exact hc rfl

/-- A reference does not reach beyond another dollar sign. -/
theorem reference?_append_dollar (t : Text) (c : Char) (cs : Text) :
    reference? c (cs ++ '$' :: t) = reference? c cs := by
  apply Option.ext
  rintro ⟨n, v⟩
  rw [reference?_eq_some_iff, reference?_eq_some_iff]
  refine and_congr_right fun hname => and_congr_right fun _ => ⟨?_, ?_⟩
  · rintro ⟨u, heq⟩
    obtain ⟨rfl, hcs⟩ := List.cons.inj heq
    obtain ⟨w, rfl, -⟩ := Text.split_at_char hname.not_mem hcs.symm
    exact ⟨w, rfl⟩
  · rintro ⟨u, heq⟩
    exact ⟨u ++ '$' :: t, by rw [← List.cons_append, heq, List.append_assoc]⟩

theorem length_le_of_reference? {c : Char} {cs v : Text} {n : Nat}
    (h : reference? c cs = some (n, v)) : n ≤ cs.length := by
  obtain ⟨-, rfl, t, heq⟩ := reference?_eq_some_iff.mp h
  have hlen := congrArg List.length heq
  simp only [referenceTo, List.length_cons, List.length_append, List.length_nil] at hlen
  omega

theorem expandText_append_dollar (env : Environment) (s t : Text) :
    env.expandText (s ++ '$' :: t) = env.expandText s ++ env.expandText ('$' :: t) := by
  have hpieces := Text.pieces_append_of_unseen (reference?_append_dollar t)
    (fun _ _ _ _ => length_le_of_reference?) s
  rw [expandText, hpieces, List.flatMap_append]
  rfl

/-- Characters that are no dollar signs are kept, whatever follows. -/
theorem expandText_append_of_not_mem (env : Environment) {s : Text} (h : '$' ∉ s) (t : Text) :
    env.expandText (s ++ t) = s ++ env.expandText t := by
  have hnone : ∀ c ∈ s, ∀ cs, reference? c cs = none := fun c hc cs =>
    reference?_of_ne (fun he => h (he ▸ hc)) cs
  rw [expandText, Text.pieces_append_of_none hnone, List.flatMap_append, List.flatMap_map]
  exact congrArg (· ++ env.expandText t) (List.flatMap_singleton' s)

/-- The value of the variable takes the place of a reference at the very beginning. -/
theorem expandText_referenceTo (env : Environment) {name : Text} (h : IsVariableName name)
    (t : Text) : env.expandText (referenceTo name ++ t) = env.value name ++ env.expandText t := by
  have hread : reference? '$' ('\x7b' :: (name ++ ['\x7d']) ++ t) = some (name.length + 2, name) :=
    reference?_eq_some_iff.mpr ⟨h, rfl, t, rfl⟩
  have hdrop : ('\x7b' :: (name ++ ['\x7d']) ++ t).drop (name.length + 2) = t :=
    List.drop_left' (by simp)
  have hpieces := Text.pieces_cons_found hread
  rw [hdrop] at hpieces
  rw [expandText, referenceTo, List.cons_append, hpieces]
  rfl

/-- A text without references is left alone. -/
theorem expandText_of_no_reference (env : Environment) {s : Text}
    (h : ∀ name, IsVariableName name → ¬ referenceTo name <:+: s) : env.expandText s = s := by
  calc env.expandText s = (pieces reference? s).flatMap Piece.source := by
        rw [expandText]
        refine List.flatMap_congr fun p hp => ?_
        cases p with
        | kept c => rfl
        | found source name =>
          -- a piece that is put in would have been read from a reference in the text
          obtain ⟨c, cs, n, hr, rfl, hsuffix⟩ := Text.found_of_mem_pieces hp
          obtain ⟨hname, -, t, heq⟩ := reference?_eq_some_iff.mp hr
          rw [heq] at hsuffix
          exact absurd ((List.prefix_append _ t).isInfix.trans hsuffix.isInfix) (h name hname)
    _ = s := Text.flatMap_source_pieces reference? s

/-- A stretch of a text: one without dollar signs, or a reference. -/
inductive Segment where
  | plain (s : Text) (h : '$' ∉ s)
  | reference (name : Text) (h : IsVariableName name)

namespace Segment

def written : Segment → Text
  | .plain s _ => s
  | .reference name _ => referenceTo name

/-- What a segment stands for in an environment. -/
def meaning (env : Environment) : Segment → Text
  | .plain s _ => s
  | .reference name _ => env.value name

end Segment

theorem expandText_segments (env : Environment) (segments : List Segment) :
    env.expandText (segments.flatMap Segment.written) = segments.flatMap (Segment.meaning env) := by
  induction segments with
  | nil => rfl
  | cons segment segments ih =>
    rw [List.flatMap_cons, List.flatMap_cons, ← ih]
    cases segment with
    | plain s h => exact expandText_append_of_not_mem env h _
    | reference name h => exact expandText_referenceTo env h _

theorem expandItems_eq_map (env : Environment) (vs : List Value) :
    expandItems env vs = vs.map env.expand := by
  induction vs with
  | nil => rfl
  | cons v vs ih => rw [expandItems, ih, List.map_cons]

theorem expandEntries_eq_map (env : Environment) (es : List (Scalar × Value)) :
    expandEntries env es = es.map fun e => (e.1, env.expand e.2) := by
  induction es with
  | nil => rfl
  | cons e es ih => rw [expandEntries, ih, List.map_cons]

theorem leafWise_expand (env : Environment) : Value.LeafWise env.expand env.expandText where
  text := fun s => by rw [Value.text, expand, expandScalar, Value.text]
  scalar := fun s h => by
    rw [expand]
    cases s with
    | text t => exact absurd rfl (h t)
    | _ => rfl
  list := fun vs => by rw [expand, expandItems_eq_map]
  map := fun es => by rw [expand, expandEntries_eq_map]

/-- Expansion keeps the shape of a value and expands its texts in their places, so that what two
environments make of it differs in texts only. In a text made of references and of parts without
dollar signs, the values take the places of the references, as they are; a text without references is
left alone; and wherever a reference stands in a text, its value is put between what the parts before
and behind it expand to. -/
theorem texts_expanded_in_place (env env' : Environment) (v : Value) :
    Value.SameShape (fun s t => t = env.expandText s) v (env.expand v) ∧
      Value.SameShape (fun t t' => ∃ s, t = env.expandText s ∧ t' = env'.expandText s)
        (env.expand v) (env'.expand v) ∧
      (∀ segments : List Segment, env.expandText (segments.flatMap Segment.written) =
        segments.flatMap (Segment.meaning env)) ∧
      (∀ s, (∀ name, IsVariableName name → ¬ referenceTo name <:+: s) → env.expandText s = s) ∧
      ∀ s name t, IsVariableName name →
        env.expandText (s ++ (referenceTo name ++ t)) =
          env.expandText s ++ (env.value name ++ env.expandText t) := by
  refine ⟨?_, ?_, expandText_segments env, fun s => expandText_of_no_reference env, ?_⟩
  · exact Value.leafWise_id.sameShape (leafWise_expand env) (fun _ => rfl) v
  · exact (leafWise_expand env).sameShape (leafWise_expand env') (fun s => ⟨s, rfl, rfl⟩) v
  · intro s name t hname
    have hsplit := env.expandText_append_dollar s ('\x7b' :: (name ++ ['\x7d']) ++ t)
    rw [← env.expandText_referenceTo hname t]
    exact hsplit

/-- A value that looks like a reference is not expanded, a key is none of the texts, and a dollar sign
before a reference stays. -/
example :
    let env : Environment := [("A", "$\x7bB\x7d"), ("B", "x")]
    env.expand (.map [(.text "$\x7bB\x7d", .list [.text "$$\x7bA\x7d$\x7bnone\x7d.", .null])]) =
      .map [(.text "$\x7bB\x7d", .list [.text "$$\x7bB\x7d.", .null])] := by
  decide

end LuaTidy.Environment
