import LuaTidy.Proofs.Pipeline.Runs

/-!
When the labels of a run appear. They are decided by the untouched input, whatever other stages take
part, and for the last stage by the text it is given.
-/
namespace LuaTidy.Config

variable {cfg : Config} {skip : List StageKind}

theorem mem_techniques_iff {k : StageKind} {l : Text} (hl : k.label? = some l)
    (h : cfg.uses skip k = true) (s : Text) :
    l ∈ (runStages (cfg.chosen skip) s).techniques ↔
      0 < ((runStages (cfg.before skip k) s).observed (cfg.stage k)).hits := by
  rw [← count_techniques hl h, List.count_pos_iff]

theorem count_techniques_le_one {k : StageKind} {l : Text} (hl : k.label? = some l)
    (hk : k ∈ StageKind.single) (s : Text) :
    (runStages (cfg.chosen skip) s).techniques.count l ≤ 1 := by
  cases h : cfg.uses skip k with
  | true =>
    rw [count_techniques hl h]
    exact Stage.apply_hits_le_one (by rwa [kind_stage]) _ _
  | false =>
    rw [count_techniques_of_not_uses hl h]
    exact Nat.zero_le 1

theorem whitespace_hits (h : cfg.uses skip .whitespace = true) (s : Text) :
    ((runStages (cfg.before skip .whitespace) s).observed (cfg.stage .whitespace)).hits =
      if Blanks.hasLongRun s then 1 else 0 := by
  rw [(chosen_eq [] _ rfl h).1]
  exact Blanks.normalize_hits s

/-- Whether two dots stand in the text that joins are sought in is decided by the input. -/
theorem concat_hits (h : cfg.uses skip .concat = true) (s : Text) :
    ((runStages (cfg.before skip .concat) s).observed (cfg.stage .concat)).hits =
      if Text.occursIn Text.dots s then 1 else 0 := by
  rw [(chosen_eq [.whitespace] _ rfl h).1]
  cases hw : cfg.uses skip .whitespace with
  | true =>
    rw [List.filter_cons_of_pos hw]
    exact (Joins.merge_hits (Blanks.normalize s).text).trans
      (by rw [Blanks.occursIn_dots_normalize])
  | false =>
    rw [List.filter_cons_of_neg (by simp [hw])]
    exact Joins.merge_hits s

/-- The function stage reads the source, which is still noted when its turn comes. -/
theorem function_hits_pos_iff (s : Text) :
    0 < ((runStages (cfg.before skip .functionNames) s).observed (cfg.stage .functionNames)).hits ↔
      ∃ d, Lua.Declares s d ∧ cfg.rename.minLength < d.length := by
  have hsource := runStages_source (cfg.before skip .functionNames) s
  simp only [Progress.observed, stage, Stage.apply, hsource, Option.getD_some]
  exact Functions.simplify_hits_pos_iff ..

theorem formatting_text (h : cfg.uses skip .formatting = true) (s : Text) :
    (runStages (cfg.chosen skip) s).text =
      ((cfg.stage .formatting).apply (runStages (cfg.before skip .formatting) s).notes
        (runStages (cfg.before skip .formatting) s).text).text := by
  have hall : StageKind.all = [.whitespace, .concat, .variableNames, .functionNames, .base64, .hex,
      .escapes] ++ .formatting :: [] := rfl
  rw [(chosen_eq _ [] hall h).2, List.filter_nil, List.map_nil, runStages_concat]
  rfl

/-- Five labels appear at most once; four of them exactly if what their stage looks for is in the
input, or for formatting, if it changes the text it is given. -/
theorem labels_decided (cfg : Config) (skip : List StageKind) (s : Text) :
    cfg.Yields (skip.map StageKind.name) s fun p =>
      (∀ l ∈ (["Whitespace normalization", "String concatenation simplification",
          "Variable name simplification", "Function name simplification", "Code formatting"] :
            List Text), p.techniques.count l ≤ 1) ∧
      (cfg.uses skip .whitespace = true →
        (("Whitespace normalization" : Text) ∈ p.techniques ↔
          ∃ run, run <:+: s ∧ 3 ≤ run.length ∧ ∀ c ∈ run, Text.isBlank c = true)) ∧
      (cfg.uses skip .concat = true →
        (("String concatenation simplification" : Text) ∈ p.techniques ↔ ['.', '.'] <:+: s)) ∧
      (cfg.uses skip .functionNames = true →
        (("Function name simplification" : Text) ∈ p.techniques ↔
          ∃ d, Lua.Declares s d ∧ cfg.rename.minLength < d.length)) ∧
      (cfg.uses skip .formatting = true →
        (("Code formatting" : Text) ∈ p.techniques ↔
          p.text ≠ (runStages (cfg.before skip .formatting) s).text)) := by
  refine yields_names ⟨?_, ?_, ?_, ?_, ?_⟩
  · simp only [List.forall_mem_cons]
    exact ⟨count_techniques_le_one (k := .whitespace) rfl (by decide) s,
      count_techniques_le_one (k := .concat) rfl (by decide) s,
      count_techniques_le_one (k := .variableNames) rfl (by decide) s,
      count_techniques_le_one (k := .functionNames) rfl (by decide) s,
      count_techniques_le_one (k := .formatting) rfl (by decide) s,
      fun l hl => absurd hl List.not_mem_nil⟩
  · intro h
    rw [mem_techniques_iff (k := .whitespace) rfl h, whitespace_hits h, ← Blanks.hasLongRun_iff]
    cases Blanks.hasLongRun s <;> simp
  · intro h
    have hdots := Text.occursIn_iff Text.dots s
    rw [Text.dots] at hdots
    rw [mem_techniques_iff (k := .concat) rfl h, concat_hits h, Text.dots, ← hdots]
    cases Text.occursIn ['.', '.'] s <;> simp
  · intro h
    rw [mem_techniques_iff (k := .functionNames) rfl h, function_hits_pos_iff]
  · intro h
    have hkind : (cfg.stage .formatting).kind ∈ StageKind.exact := by
      rw [kind_stage]
      decide
    rw [mem_techniques_iff (k := .formatting) rfl h, formatting_text h]
    exact Stage.apply_hits_pos_iff hkind _ _

end LuaTidy.Config
