import LuaTidy.Proofs.Lua.TokenPlaces
import LuaTidy.Proofs.Pipeline.StageHits
import LuaTidy.Proofs.Rewrite.SettledNames

/-!
The variable stage by tokens and their places: which names it chooses, in which order it notes them,
and which numbers they take.
-/
namespace LuaTidy.Variables
open Functions (longNames longNames_concat pairwise_longNames)
open Lua (Lexeme InLiteral Separated TokenAt names placedNames)
open Text (FirstBefore Lists)

theorem keys_numbering (n : Int) (stem : Text) (ts : List Text) :
    (numbering n stem ts).keys = longNames n ts := by
  induction ts using List.reverseRecOn with
  | nil => rfl
  | append_singleton ts t ih =>
    rw [numbering_concat, longNames_concat]
    cases ht : isLong n t with
    | false => simpa using ih
    | true => simp only [if_true, Entries.keys_insert, ih, true_and, ite_not]

/-- Names are noted in the order of their first tokens. -/
theorem pairwise_keys_given (n : Int) (stem s : Text) :
    (given n stem s).keys.Pairwise (FirstBefore (TokenAt s)) := by
  have hfirst := pairwise_longNames n (names s)
  rw [← keys_numbering n stem, ← Lua.map_snd_placedNames] at hfirst
  refine (hfirst.imp fun h => (Lua.lists_placedNames s).firstBefore h).sublist ?_
  rw [Lua.map_snd_placedNames]
  exact Entries.keys_filter_sublist _ _

theorem given_eq_map {n : Int} {stem s : Text} {last : Text → Nat}
    (hlast : ∀ x ∈ (given n stem s).keys, LastAt (names s) x (last x)) :
    given n stem s =
      (given n stem s).keys.map fun x => (x, shortName stem (last x + 1)) := by
  refine Entries.eq_map_keys (nodup_keys_given n stem s) fun x v hv => ?_
  obtain ⟨-, -, k, hk, rfl⟩ := (get?_given n stem s x v).mp hv
  rw [hk.place_unique (hlast x (List.mem_map_of_mem (Entries.mem_of_get? hv)))]

theorem image_given {n : Int} {stem s : Text} {last : Text → Nat}
    (hlast : ∀ x ∈ (given n stem s).keys, LastAt (names s) x (last x)) (x : Text) :
    (given n stem s).image x =
      if x ∈ (given n stem s).keys then shortName stem (last x + 1) else x := by
  split
  · next hx =>
    obtain ⟨hcode, hlong⟩ := (mem_keys_given n stem s x).mp hx
    exact Lua.Renaming.image_of_get?
      ((get?_given n stem s x _).mpr ⟨hcode, hlong, _, hlast x hx, rfl⟩)
  · next hx => exact Lua.Renaming.image_of_get?_none ((Entries.get?_eq_none_iff _ x).mpr hx)

/-- Each token of a chosen name takes the number of the last one. -/
theorem rename_given_eq {n : Int} {stem s : Text} {last : Text → Nat}
    (hlast : ∀ x ∈ (given n stem s).keys, LastAt (names s) x (last x)) :
    Lua.rename (given n stem s) s = (Lua.lexemes s).flatMap fun l => l.name?.elim l.text fun x =>
      if x ∈ (given n stem s).keys then shortName stem (last x + 1) else x := by
  rw [Lua.rename]
  refine List.flatMap_congr fun l _ => ?_
  cases hl : l.name? with
  | none => simp [Lexeme.rename, hl]
  | some x => simpa [Lexeme.rename, hl] using image_given hlast x

/-- Exactly the long names that stand in the code are chosen. Each of their tokens, in literals too,
becomes the stem with the number of the name's last token among all tokens, and nothing else of the
text changes. The names are noted in the order of their first tokens. -/
theorem long_names_take_last_numbers (n : Int) (stem s : Text) (notes : Notes) :
    let r := (Stage.variableNames n stem).apply notes s
    ∃ (ls : List Lexeme) (places : List (Nat × Text)) (chosen : List Text) (last : Text → Nat),
      let short := fun x => stem ++ Text.decimal (last x + 1)
      (Separated ls ∧ ls.flatMap Lexeme.text = s) ∧
      Lists (TokenAt s) places ∧
      (∀ x, x ∈ chosen ↔ n < x.length ∧ ∃ p, TokenAt s p x ∧ ¬ InLiteral s p) ∧
      chosen.Pairwise (FirstBefore (TokenAt s)) ∧
      (∀ x ∈ chosen, LastAt (places.map Prod.snd) x (last x)) ∧
      r.text = ls.flatMap (fun l =>
        l.name?.elim l.text fun x => if x ∈ chosen then short x else x) ∧
      r.hits = (if chosen = [] then 0 else 1) ∧
      r.notes = if chosen = [] then notes else
        { notes with
          renamed := some
            ((notes.renamed.getD []).update (chosen.map fun x => (x, short x))) } := by
  intro r
  have hexists : ∀ x ∈ (given n stem s).keys, ∃ k, LastAt (names s) x k := by
    intro x hx
    exact exists_lastAt (mem_names_of_mem_namesInCode ((mem_keys_given n stem s x).mp hx).1)
  choose! last hlast using hexists
  have hchosen : ∀ x, x ∈ (given n stem s).keys ↔
      n < x.length ∧ ∃ p, TokenAt s p x ∧ ¬ InLiteral s p := by
    intro x
    rw [mem_keys_given, Lua.mem_namesInCode_iff, isLong, decide_eq_true_iff, and_comm]
  have hnil : (given n stem s).keys = [] ↔ given n stem s = [] := List.map_eq_nil_iff
  refine ⟨Lua.lexemes s, placedNames s, (given n stem s).keys, last,
    ⟨Lua.separated_lexemes s, Lua.flatMap_text_lexemes s⟩, Lua.lists_placedNames s,
    hchosen, pairwise_keys_given n stem s, ?_, ?_, ?_, ?_⟩
  · rwa [Lua.map_snd_placedNames]
  · have htext : r.text = Lua.rename (given n stem s) s := simplify_text n stem s
    exact htext.trans (rename_given_eq hlast)
  · have hhits : r.hits = (simplify n stem s).hits := rfl
    rw [hhits, simplify_hits]
    simp [hnil]
  · have hmap := given_eq_map hlast
    simp only [shortName] at hmap
    simp only [r, Stage.apply, simplify_given, hnil, ← hmap, List.isEmpty_iff]
    split <;> rfl

example : ((Stage.variableNames 3 "v_").apply ⟨none, none⟩ "name = 'lone' .. name, 'name'").text =
    ("v_4 = 'lone' .. v_4, 'v_4'" : Text) := by
  decide +kernel

end LuaTidy.Variables
