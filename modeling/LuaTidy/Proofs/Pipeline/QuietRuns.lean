import LuaTidy.Proofs.Pipeline.Runs
import Mathlib.Logic.Function.Iterate

/-!
No text changes unnoticed: a stage that counts nothing leaves its text alone, and a run that records
nothing has done no more than replace backslash escapes.
-/
namespace LuaTidy

namespace Progress

theorem labels_eq_nil_iff {p : Progress} {st : Stage} (h : st.kind ≠ .escapes) :
    (p.observed st).labels = [] ↔ (st.apply p.notes p.text).hits = 0 := by
  have hstage : (p.observed st).stage = st := rfl
  rw [Observed.labels, hstage]
  split
  · rw [List.replicate_eq_nil_iff]
    rfl
  · next hnone =>
    exfalso
    cases hk : st.kind <;> simp [hk, StageKind.label?] at h hnone

/-- A step that records nothing does nothing, if it is not one that never records. -/
theorem step_text_of_quiet {p : Progress} {st : Stage} (h : (p.step st).techniques = []) :
    p.techniques = [] ∧ (p.step st).text =
      if st.kind = .escapes then (Backslashes.resolve p.text).text else p.text := by
  rw [step_techniques, List.append_eq_nil_iff] at h
  obtain ⟨hp, hst⟩ := h
  refine ⟨hp, ?_⟩
  split
  · next hk =>
    cases st with
    | escapes => rfl
    | _ => simp [Stage.kind] at hk
  · next hk => exact Stage.apply_text_of_no_hits hk ((labels_eq_nil_iff hk).mp hst)

/-- Steps that record nothing replace escapes as often as a stage for it is among them. -/
theorem foldl_text_of_quiet {ss : List Stage} {p : Progress}
    (h : (ss.foldl step p).techniques = []) :
    (ss.foldl step p).text =
      (fun t => (Backslashes.resolve t).text)^[ss.countP (·.kind = .escapes)] p.text := by
  induction ss using List.reverseRecOn with
  | nil => rfl
  | append_singleton ss st ih =>
    rw [List.foldl_concat] at h ⊢
    obtain ⟨hp, htext⟩ := step_text_of_quiet h
    rw [htext, ih hp, List.countP_append]
    split
    · next hk =>
      rw [List.countP_cons_of_pos (by simp [hk]), List.countP_nil, Function.iterate_succ_apply']
    · next hk => rw [List.countP_cons_of_neg (by simp [hk]), List.countP_nil, Nat.add_zero]

end Progress

namespace Config

variable {cfg : Config} {skip : List StageKind}

theorem countP_kind_chosen (k : StageKind) :
    (cfg.chosen skip).countP (·.kind = k) = if cfg.uses skip k then 1 else 0 := by
  have hcount : (cfg.chosen skip).countP (·.kind = k) =
      (StageKind.all.filter (cfg.uses skip)).count k := by
    rw [← kinds_chosen, List.count, List.countP_map]
    exact List.countP_congr fun st _ => by simp
  rw [hcount]
  split
  · next h =>
    rw [List.count_filter h]
    exact List.count_eq_one_of_mem StageKind.nodup_all (StageKind.mem_all k)
  · next h =>
    rw [List.count_eq_zero]
    exact fun hmem => h (List.mem_filter.mp hmem).2

/-- In every run, what a stage counts tells whether it changed its text, and a run without labels
leaves the input alone but for its backslash escapes. -/
theorem no_silent_rewriting (cfg : Config) (skip : List StageKind) (s : Text) :
    cfg.Yields (skip.map StageKind.name) s fun p =>
      p.trace.map (·.stage) = cfg.chosen skip ∧
      (∀ i o, p.trace[i]? = some o →
        let input := (runStages ((cfg.chosen skip).take i) s).text
        let output := (runStages ((cfg.chosen skip).take (i + 1)) s).text
        (o.stage.kind ≠ .escapes → o.hits = 0 → output = input) ∧
          (o.stage.kind ∈ [.whitespace, .base64, .hex, .formatting] →
            (0 < o.hits ↔ output ≠ input))) ∧
      (p.techniques = [] →
        p.text = if cfg.uses skip .escapes then (Backslashes.resolve s).text else s) := by
  refine yields_names ⟨?_, ?_, ?_⟩
  · apply List.ext_getElem?
    intro i
    rw [List.getElem?_map, getElem?_trace, Option.map_map]
    exact Option.map_id'
  · intro i o ho
    rw [getElem?_trace] at ho
    obtain ⟨st, hst, rfl⟩ := Option.map_eq_some_iff.mp ho
    have hnext : (cfg.chosen skip).take (i + 1) = (cfg.chosen skip).take i ++ [st] := by
      rw [List.take_add_one, hst, Option.toList_some]
    simp only [hnext, runStages_concat, Progress.step_text]
    exact ⟨fun hk h => Stage.apply_text_of_no_hits hk h,
      fun hk => Stage.apply_hits_pos_iff hk _ _⟩
  · intro hquiet
    rw [runStages] at hquiet ⊢
    rw [Progress.foldl_text_of_quiet hquiet, countP_kind_chosen]
    split <;> rfl

end Config
end LuaTidy
