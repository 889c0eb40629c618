import LuaTidy.Proofs.Pipeline.Runs
import LuaTidy.Proofs.Rewrite.ForeignCharacters

/-!
Text in other scripts survives a run: whatever stages take part in it, the characters that are
neither ASCII nor blank come out as they went in, in the same order and number.
-/
namespace LuaTidy
open Text (foreign isAscii)

namespace Stage

/-- The stem of the names that a stage gives; empty for a stage that gives none. -/
def stem : Stage → Text
  | .variableNames _ stem => stem
  | .functionNames _ stem => stem
  | _ => []

theorem foreign_apply {st : Stage} (h : foreign st.stem = []) (notes : Notes) (s : Text) :
    foreign (st.apply notes s).text = foreign s := by
  cases st with
  | whitespace => exact Blanks.foreign_normalize s
  | concat => exact Joins.foreign_merge s
  | variableNames n stem => exact Variables.foreign_simplify h n s
  | functionNames n stem => exact Functions.foreign_simplify h n _ _ s
  | base64 => exact Payloads.foreign_decode s
  | hex => exact HexEscapes.foreign_decode s
  | escapes => exact Backslashes.foreign_resolve s
  | formatting width => exact Indentation.foreign_reindent width s

end Stage

theorem foreign_runStages {ss : List Stage} (h : ∀ st ∈ ss, foreign st.stem = []) (s : Text) :
    foreign (runStages ss s).text = foreign s := by
  induction ss using List.reverseRecOn with
  | nil => rfl
  | append_singleton ss st ih =>
    have hst := h st (List.mem_append_right ss List.mem_cons_self)
    rw [runStages_concat, Progress.step_text, Stage.foreign_apply hst]
    exact ih fun st' hst' => h st' (List.mem_append_left _ hst')

namespace Config

theorem foreign_stem_stage {cfg : Config} (hv : foreign cfg.rename.variableStem = [])
    (hf : foreign cfg.rename.functionStem = []) (k : StageKind) :
    foreign (cfg.stage k).stem = [] := by
  cases k with
  | variableNames => exact hv
  | functionNames => exact hf
  | _ => rfl

/-- With ASCII stems for new names, a run of any stages keeps all characters that are neither ASCII
nor blank. -/
theorem foreign_text_kept (cfg : Config) (skip : List StageKind) (s : Text)
    (hv : ∀ c ∈ cfg.rename.variableStem, isAscii c = true)
    (hf : ∀ c ∈ cfg.rename.functionStem, isAscii c = true) :
    cfg.Yields (skip.map StageKind.name) s fun p =>
      p.text.filter (fun c => !isAscii c && !Text.isBlank c) =
        s.filter fun c => !isAscii c && !Text.isBlank c := by
  have hascii : ∀ stem : Text, (∀ c ∈ stem, isAscii c = true) → foreign stem = [] := fun _ h =>
    Text.foreign_eq_nil fun c hc => Text.not_isForeign_of_isAscii (h c hc)
  have hstages : ∀ st ∈ cfg.chosen skip, foreign st.stem = [] := by
    intro st hst
    obtain ⟨k, -, rfl⟩ := List.mem_map.mp hst
    exact foreign_stem_stage (hascii _ hv) (hascii _ hf) k
  exact yields_names (foreign_runStages hstages s)

/-- Foreign letters in names, in a literal that is joined, and next to an encoded no-break space. -/
theorem foreign_text_kept_in_names_and_literals :
    let cfg : Config := {}
    let s : Text := "naïveIdentifier   = 'é' .. 'ß' \\xa0“日本”"
    (∀ c ∈ cfg.rename.variableStem, isAscii c = true) ∧
      (∀ c ∈ cfg.rename.functionStem, isAscii c = true) ∧
      ∃ p, cfg.run ([StageKind.functionNames].map StageKind.name) s = .ok p ∧
        p.text.filter (fun c => !isAscii c && !Text.isBlank c) = ("ïéß“日本”" : Text) := by
  intro cfg s
  have hv : ∀ c ∈ cfg.rename.variableStem, isAscii c = true :=
    List.all_eq_true.mp (by decide)
  have hf : ∀ c ∈ cfg.rename.functionStem, isAscii c = true :=
    List.all_eq_true.mp (by decide)
  refine ⟨hv, hf, ?_⟩
  have hrun := cfg.run_of_fits [.functionNames] (by decide) s
  refine ⟨_, hrun, ((foreign_text_kept cfg [.functionNames] s hv hf).of_run hrun).trans ?_⟩
  decide

end Config
end LuaTidy
