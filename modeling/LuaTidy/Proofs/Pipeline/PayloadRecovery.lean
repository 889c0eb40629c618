import LuaTidy.Proofs.Pipeline.Runs
import LuaTidy.Proofs.Rewrite.PayloadProgram

/-!
A run over a program with encoded literals brings all of them back. The stages before the decoding
count nothing, and neither do those after it.
-/
namespace LuaTidy

/-- Stages that count nothing on a source leave it alone and record nothing. -/
theorem runStages_of_no_hits {ss : List Stage} {s : Text}
    (h : ∀ st ∈ ss, st.kind ≠ .escapes ∧
      ∀ notes : Notes, notes.source = some s → (st.apply notes s).hits = 0) :
    (runStages ss s).text = s ∧ (runStages ss s).techniques = [] := by
  refine runStages_of_idle fun st hst => ?_
  obtain ⟨hk, hhits⟩ := h st hst
  exact Stage.idle_of_no_hits hk hhits

namespace Payloads

variable {ps : List (Text × Text)}

private theorem not_mem_name {p : Text × Text} (hp : Recoverable p) {c : Char}
    (hword : Lua.isWordChar c = false) : c ∉ p.1 := by
  intro hc
  have h := (Lua.isWord_of_isName hp.name).2 c hc
  rw [hword] at h
  cases h

private theorem not_mem_encoded (hps : ∀ p ∈ ps, Recoverable p) {c : Char}
    (hc : c ∉ [' ', '=', '"']) (hword : Lua.isWordChar c = false)
    (hdata : ∀ n < 64, Text.Base64.sextetChar n ≠ c) : c ∉ program (encoded ps) := by
  rw [program_eq]
  refine not_mem_assignments List.not_mem_nil hc ?_
  intro q hq
  obtain ⟨p, hp, rfl⟩ := List.mem_map.mp hq
  have hpad : '=' ≠ c := fun h => hc (by simp [← h])
  refine ⟨not_mem_name (hps p hp) hword, fun hmem => ?_⟩
  exact forall_mem_codeOf (P := (· ≠ c)) hdata hpad (hps p hp).printable c hmem rfl

theorem backslash_not_mem_program (hps : ∀ p ∈ ps, Recoverable p) : '\\' ∉ program ps := by
  rw [program_eq]
  refine not_mem_assignments List.not_mem_nil (by decide) fun p hp => ?_
  refine ⟨not_mem_name (hps p hp) (by decide), fun hmem => ?_⟩
  have hprintable := List.all_eq_true.mp (hps p hp).printable _ hmem
  revert hprintable
  decide

/-- The stages before the decoding, none of which finds anything to do. -/
theorem apply_hits_encoded (hps : ∀ p ∈ ps, Recoverable p) :
    ∀ st ∈ Config.before {} [.formatting] .base64, st.kind ≠ .escapes ∧
      ∀ notes : Notes, notes.source = some (program (encoded ps)) →
        (st.apply notes (program (encoded ps))).hits = 0 := by
  have hbefore : Config.before {} [.formatting] .base64 =
      [.whitespace, .concat, .variableNames 10 "var_", .functionNames 10 "func_"] := by
    decide
  have hruns : Blanks.hasLongRun (program (encoded ps)) = false := by
    rw [program_eq]
    exact hasLongRun_assignments (Or.inl rfl) hps
  have hdots : Text.occursIn Text.dots (program (encoded ps)) = false :=
    Text.not_occursIn_of_not_mem (c := '.') (by decide)
      (not_mem_encoded hps (by decide) (by decide) (by decide))
  have hgiven : Variables.given 10 "var_" (program (encoded ps)) = [] := by
    refine Variables.given_eq_nil "var_" fun x hx => ?_
    rw [Lua.namesInCode_eq, program_eq] at hx
    have hlen := length_le_of_mem_namesOutside (Or.inl rfl) hps hx
    rw [Variables.isLong, decide_eq_false_iff_not]
    omega
  have hdeclared : ∀ d, ¬ Lua.Declares (program (encoded ps)) d := by
    rintro d ⟨gap, space, _, hheader⟩
    refine not_mem_encoded hps (c := '(') (by decide) (by decide) (by decide) (hheader.subset ?_)
    simp [Lua.header]
  rw [hbefore]
  simp only [List.forall_mem_cons]
  refine ⟨⟨by decide, fun notes _ => ?_⟩, ⟨by decide, fun notes _ => ?_⟩,
    ⟨by simp [Stage.kind], fun notes _ => ?_⟩, ⟨by simp [Stage.kind], fun notes hsource => ?_⟩,
    fun st hst => absurd hst List.not_mem_nil⟩
  · exact (Blanks.normalize_hits _).trans (by rw [hruns]; rfl)
  · exact (Joins.merge_hits _).trans (by rw [hdots]; rfl)
  · exact (Variables.simplify_hits 10 "var_" _).trans (by rw [hgiven]; rfl)
  · simp only [Stage.apply, hsource, Option.getD_some]
    by_contra hne
    obtain ⟨d, hd, _⟩ := (Functions.simplify_hits_pos_iff ..).mp (Nat.pos_of_ne_zero hne)
    exact hdeclared d hd

/-- The stages after the decoding look for backslashes only. -/
private theorem outcome_of_no_backslash {p : Progress} (h : '\\' ∉ p.text) :
    ([.hex, .escapes].foldl Progress.step p).outcome = p.outcome := by
  have hhextext : (p.step .hex).text = p.text :=
    congrArg Rewritten.text (HexEscapes.decode_of_not_mem h)
  have hhexhits : (p.observed .hex).hits = 0 :=
    congrArg Rewritten.hits (HexEscapes.decode_of_not_mem h)
  have htext : ((p.step .hex).step .escapes).text = p.text := by
    rw [Progress.step_text, hhextext]
    exact Backslashes.resolve_of_not_mem h
  have hhextech : (p.step .hex).techniques = p.techniques := by
    rw [Progress.step_techniques, Observed.labels, hhexhits]
    exact List.append_nil _
  have htech : ((p.step .hex).step .escapes).techniques = p.techniques :=
    (List.append_nil _).trans hhextech
  rw [List.foldl_cons, List.foldl_cons, List.foldl_nil, Progress.outcome, htext, htech,
    Progress.outcome]

/-- Every payload is brought back, and nothing else is recorded. -/
theorem payloads_recovered (hps : ∀ p ∈ ps, Recoverable p) :
    let s := program (encoded ps)
    ∃ p, Config.run {} (["formatting"] : List Text) s = .ok p ∧
      p.outcome = ⟨program ps, List.replicate ps.length ("Base64 decoding" : Text)⟩ ∧
      (runStages (Config.before {} [.formatting] .base64) s).text = s ∧
      (runStages (Config.before {} [.formatting] .hex) s).text = program ps := by
  intro s
  have hskip : (["formatting"] : List Text) = [StageKind.formatting].map StageKind.name := rfl
  obtain ⟨htext, htech⟩ := runStages_of_no_hits (apply_hits_encoded hps)
  have hhex : Config.before {} [.formatting] .hex =
      Config.before {} [.formatting] .base64 ++ [.base64] := by decide
  have hchosen : Config.chosen {} [.formatting] =
      Config.before {} [.formatting] .hex ++ [.hex, .escapes] := by decide
  have hdecode : decode (program (encoded ps)) = ⟨program ps, ps.length⟩ := by
    rw [program_eq, program_eq]
    exact decode_assignments (by simp) hps
  have hbackslash := backslash_not_mem_program hps
  have hhits : (Payloads.decode s).hits = ps.length := by rw [hdecode]
  have hhextext : (runStages (Config.before {} [.formatting] .hex) s).text = program ps := by
    rw [hhex, runStages_concat, Progress.step_text, htext]
    exact congrArg Rewritten.text hdecode
  have hhextech : (runStages (Config.before {} [.formatting] .hex) s).techniques =
      List.replicate ps.length ("Base64 decoding" : Text) := by
    rw [hhex, runStages_concat, Progress.step_techniques, htech, List.nil_append, Progress.observed,
      htext]
    exact congrArg (List.replicate · ("Base64 decoding" : Text)) hhits
  refine ⟨_, hskip ▸ Config.run_of_fits _ [.formatting] (by decide) s, ?_, htext, hhextext⟩
  rw [hchosen, runStages_append, ← hhextext, ← hhextech]
  exact outcome_of_no_backslash (hhextext ▸ hbackslash)

/-- One payload ends its statement with a quote and a line feed, the other one holds a no-break
space and words that stages look for. -/
theorem payloads_recovered_quote_and_space :
    let ps : List (Text × Text) :=
      [("a", "print(\"\"..'')\n"), ("_b2", "\u00a0function longerThanTen () end")]
    (∀ p ∈ ps, Recoverable p) ∧
      (Config.run {} (["formatting"] : List Text) (program (encoded ps))).map Progress.outcome =
        .ok ⟨program ps, ["Base64 decoding", "Base64 decoding"]⟩ := by
  intro ps
  have hps : ∀ p ∈ ps, Recoverable p := by
    simp only [ps, List.forall_mem_cons]
    exact ⟨⟨by decide, by decide, by decide, by decide⟩, ⟨by decide, by decide, by decide, by decide⟩,
      fun p hp => absurd hp List.not_mem_nil⟩
  refine ⟨hps, ?_⟩
  obtain ⟨p, hrun, houtcome, -⟩ := payloads_recovered hps
  rw [hrun]
  exact congrArg Except.ok houtcome

end Payloads
end LuaTidy
