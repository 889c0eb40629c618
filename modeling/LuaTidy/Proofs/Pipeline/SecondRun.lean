import LuaTidy.Proofs.Pipeline.Labels
import LuaTidy.Proofs.Rewrite.SettledNames

/-!
A run that has only renamed variables has reached an end: a second run, over the text that it left,
finds nothing to do. What each stage looks for is in the renamed text only if it was in the input.
-/
namespace LuaTidy

theorem StageKind.all_eq (k : StageKind) :
    all = all.takeWhile (· ≠ k) ++ k :: (all.dropWhile (· ≠ k)).tail := by
  cases k <;> decide

namespace Progress

theorem step_notes_of_ne {st : Stage} (h : st.kind ≠ .variableNames) (p : Progress) :
    (p.step st).notes = p.notes := by
  cases st with
  | variableNames => exact absurd rfl h
  | _ => rfl

theorem foldl_notes_of_ne {ss : List Stage} (h : ∀ st ∈ ss, st.kind ≠ .variableNames)
    (p : Progress) : (ss.foldl step p).notes = p.notes := by
  induction ss generalizing p with
  | nil => rfl
  | cons st ss ih =>
    rw [List.foldl_cons, ih (fun st' h' => h st' (List.mem_cons_of_mem _ h')),
      step_notes_of_ne (h st List.mem_cons_self)]

end Progress

namespace Config

variable {cfg : Config} {skip : List StageKind} {s : Text}

/-- The names that a run gives to the variables of an input that no stage before has changed. -/
def renames (cfg : Config) (skip : List StageKind) (s : Text) : Lua.Renaming :=
  if cfg.uses skip .variableNames then
    Variables.given cfg.rename.minLength cfg.rename.variableStem s
  else []

/-- A run in which no stage but the one for variables has counted anything or changed its text. -/
structure OnlyRenames (cfg : Config) (skip : List StageKind) (s : Text) : Prop where
  hits : ∀ k, cfg.uses skip k = true → k ≠ .variableNames →
    ((runStages (cfg.before skip k) s).observed (cfg.stage k)).hits = 0
  text : ∀ k, cfg.uses skip k = true → k ≠ .variableNames →
    ((runStages (cfg.before skip k) s).step (cfg.stage k)).text =
      (runStages (cfg.before skip k) s).text

theorem onlyRenames_of_techniques
    (honly : ∀ l ∈ (runStages (cfg.chosen skip) s).techniques, l = "Variable name simplification")
    (hescapes : cfg.uses skip .escapes = true →
      ((runStages (cfg.before skip .escapes) s).step .escapes).text =
        (runStages (cfg.before skip .escapes) s).text) : OnlyRenames cfg skip s := by
  have hhits : ∀ k, cfg.uses skip k = true → k ≠ .variableNames →
      ((runStages (cfg.before skip k) s).observed (cfg.stage k)).hits = 0 := by
    intro k hk hne
    cases hl : k.label? with
    | none =>
      cases k with
      | escapes => rfl
      | _ => cases hl
    | some l =>
      rw [← count_techniques hl hk, List.count_eq_zero]
      intro hmem
      rw [honly l hmem] at hl
      exact hne (StageKind.label?_injective hl rfl)
  refine ⟨hhits, fun k hk hne => ?_⟩
  by_cases he : k = .escapes
  · subst he
    exact hescapes hk
  · rw [Progress.step_text]
    exact Stage.apply_text_of_no_hits (by rwa [kind_stage]) (hhits k hk hne)

/-- Up to the stage for variables such a run keeps its input, and from there on its renamed form. -/
theorem OnlyRenames.text_prefix (h : OnlyRenames cfg skip s) {es ls : List StageKind}
    (hall : StageKind.all = es ++ ls) :
    (runStages ((es.filter (cfg.uses skip)).map cfg.stage) s).text =
      Lua.rename (if .variableNames ∈ es then cfg.renames skip s else []) s := by
  induction es using List.reverseRecOn generalizing ls with
  | nil =>
    rw [if_neg List.not_mem_nil, Lua.rename_nil]
    rfl
  | append_singleton es k ih =>
    rw [List.append_assoc, List.singleton_append] at hall
    have hbefore := ih hall
    cases hk : cfg.uses skip k with
    | false =>
      rw [List.filter_append, List.filter_cons_of_neg (by simp [hk]), List.filter_nil,
        List.append_nil, hbefore]
      by_cases hv : k = .variableNames
      · subst hv
        rw [renames, hk, if_neg Bool.false_ne_true, ite_self, ite_self]
      · simp [Ne.symm hv]
    | true =>
      rw [List.filter_append, List.filter_cons_of_pos hk, List.filter_nil, List.map_append,
        List.map_cons, List.map_nil, runStages_concat]
      by_cases hv : k = .variableNames
      · subst hv
        have hnodup := StageKind.nodup_all
        rw [hall, List.nodup_append] at hnodup
        have hes : StageKind.variableNames ∉ es := fun hmem =>
          hnodup.2.2 _ hmem _ List.mem_cons_self rfl
        rw [if_neg hes, Lua.rename_nil] at hbefore
        rw [Progress.step_text, hbefore, if_pos (List.mem_append_right _ List.mem_cons_self),
          renames, if_pos hk]
        exact Variables.simplify_text ..
      · have hkeep := h.text k hk hv
        rw [(chosen_eq es ls hall hk).1] at hkeep
        rw [hkeep, hbefore]
        simp [Ne.symm hv]

/-- The notes of a run tell the names that it has given to variables. -/
theorem renamed_runStages (h : cfg.uses skip .variableNames = true) :
    (runStages (cfg.chosen skip) s).notes.renamed =
      some (Entries.update [] (Variables.given cfg.rename.minLength cfg.rename.variableStem
        (runStages (cfg.before skip .variableNames) s).text)) := by
  obtain ⟨hbefore, hchosen⟩ := chosen_eq _ _ (StageKind.all_eq _) h
  have hne : ∀ ks : List StageKind, .variableNames ∉ ks →
      ∀ st ∈ (ks.filter (cfg.uses skip)).map cfg.stage, st.kind ≠ .variableNames := by
    rintro ks hks st hst hkind
    obtain ⟨k, hk, rfl⟩ := List.mem_map.mp hst
    rw [kind_stage] at hkind
    exact hks (hkind ▸ List.mem_of_mem_filter hk)
  have hstart : (runStages (cfg.before skip .variableNames) s).notes.renamed = some [] := by
    rw [hbefore, runStages, Progress.foldl_notes_of_ne (hne _ (by decide))]
    rfl
  rw [hchosen, runStages_append, List.foldl_cons, Progress.foldl_notes_of_ne (hne _ (by decide))]
  simp only [Progress.step, stage, Stage.apply, Variables.simplify_given, hstart,
    Option.getD_some]
  split
  · next hgiven =>
    rw [List.isEmpty_iff.mp hgiven]
    rfl
  · rfl

theorem OnlyRenames.mem_renamed (h : OnlyRenames cfg skip s) {e : Text × Text}
    (he : e ∈ cfg.renames skip s) :
    e ∈ (runStages (cfg.chosen skip) s).notes.renamed.getD [] := by
  rw [renames] at he
  split at he
  · next hv =>
    have hall := StageKind.all_eq .variableNames
    have hinput := h.text_prefix hall
    rw [if_neg (by decide), Lua.rename_nil, ← (chosen_eq _ _ hall hv).1] at hinput
    have hkeys := Variables.nodup_keys_given cfg.rename.minLength cfg.rename.variableStem s
    rw [renamed_runStages hv, hinput, Option.getD_some]
    refine Entries.mem_of_get? ?_
    rw [Entries.get?_update _ hkeys, Entries.get?_of_mem hkeys he, Option.some_or]
  · exact absurd he List.not_mem_nil

/-- The text that every stage after the one for variables is given. -/
theorem OnlyRenames.text_before (h : OnlyRenames cfg skip s) {k : StageKind}
    (hv : .variableNames ∈ StageKind.all.takeWhile (· ≠ k)) (hk : cfg.uses skip k = true) :
    (runStages (cfg.before skip k) s).text = Lua.rename (cfg.renames skip s) s := by
  have hall := StageKind.all_eq k
  rw [(chosen_eq _ _ hall hk).1, h.text_prefix hall, if_pos hv]

theorem OnlyRenames.text_chosen (h : OnlyRenames cfg skip s) :
    (runStages (cfg.chosen skip) s).text = Lua.rename (cfg.renames skip s) s := by
  have hprefix := h.text_prefix (List.append_nil StageKind.all).symm
  rwa [if_pos (StageKind.mem_all _)] at hprefix

/-- A stage that reads no notes and has done nothing is idle on the text it was given. -/
theorem OnlyRenames.idle (h : OnlyRenames cfg skip s) {k : StageKind} {t source : Text}
    (hk : cfg.uses skip k = true) (hne : k ≠ .variableNames)
    (hnotes : ∀ notes notes' : Notes, ((cfg.stage k).apply notes t).toRewritten =
      ((cfg.stage k).apply notes' t).toRewritten)
    (hbefore : (runStages (cfg.before skip k) s).text = t) : (cfg.stage k).Idle source t := by
  have hhits := h.hits k hk hne
  have htext := h.text k hk hne
  rw [Progress.observed, hbefore] at hhits
  rw [Progress.step_text, hbefore] at htext
  intro notes _
  have hsame := hnotes notes (runStages (cfg.before skip k) s).notes
  exact ⟨(congrArg Rewritten.text hsame).trans htext, (congrArg Rewritten.hits hsame).trans hhits⟩

theorem givesNames_renames (hstem : Lua.isName cfg.rename.variableStem = true) :
    (cfg.renames skip s).GivesNames := by
  rw [renames]
  split
  · exact Variables.givesNames_given _ hstem s
  · exact fun e he => absurd he List.not_mem_nil

theorem OnlyRenames.not_hasLongRun (h : OnlyRenames cfg skip s)
    (hk : cfg.uses skip .whitespace = true) {m : Lua.Renaming} (hm : m.GivesNames) :
    Blanks.hasLongRun (Lua.rename m s) = false := by
  have hinput := h.hits _ hk (by decide)
  rw [whitespace_hits hk] at hinput
  rw [Bool.eq_false_iff]
  intro hlong
  obtain ⟨run, hrun, hlen, hblank⟩ := (Blanks.hasLongRun_iff _).mp hlong
  have hgaps : ∀ c ∈ run, Lua.isWordChar c = false := fun c hc =>
    Text.not_isWordChar_of_isBlank (hblank c hc)
  have hlong' := (Blanks.hasLongRun_iff s).mpr
    ⟨run, Lua.infix_of_infix_rename hm hgaps hrun, hlen, hblank⟩
  rw [if_pos hlong'] at hinput
  cases hinput

theorem OnlyRenames.not_occursIn_dots (h : OnlyRenames cfg skip s)
    (hk : cfg.uses skip .concat = true) {m : Lua.Renaming} (hm : m.GivesNames) :
    Text.occursIn Text.dots (Lua.rename m s) = false := by
  have hinput := h.hits _ hk (by decide)
  rw [concat_hits hk] at hinput
  rw [Bool.eq_false_iff]
  intro hdots
  have hfree : ∀ c ∈ Text.dots, Lua.isWordChar c = false := by
    intro c hc
    rw [List.eq_of_mem_replicate (n := 2) hc]
    decide
  have hinfix := Lua.infix_of_infix_rename hm hfree ((Text.occursIn_iff _ _).mp hdots)
  rw [if_pos ((Text.occursIn_iff _ _).mpr hinfix)] at hinput
  cases hinput

theorem OnlyRenames.length_le_of_declares (h : OnlyRenames cfg skip s)
    (hk : cfg.uses skip .functionNames = true)
    (hstem : Lua.isName cfg.rename.variableStem = true)
    (hshort : ∀ e ∈ cfg.renames skip s, (e.2.length : Int) ≤ cfg.rename.minLength) {d : Text}
    (hd : Lua.Declares (Lua.rename (cfg.renames skip s) s) d) :
    (d.length : Int) ≤ cfg.rename.minLength := by
  have hinput := h.hits _ hk (by decide)
  by_contra hlong
  rw [Int.not_le] at hlong
  have hdeclares : Lua.Declares s d := by
    rw [renames] at hd hshort
    split at hd
    · next hv =>
      rw [if_pos hv] at hshort
      exact Variables.declares_of_declares_rename_given hstem hshort hlong hd
    · rwa [Lua.rename_nil] at hd
  exact Nat.ne_of_gt ((function_hits_pos_iff s).mpr ⟨d, hdeclares, hlong⟩) hinput

/-- After a run that only renames, every stage is idle on the renamed text. -/
theorem OnlyRenames.idle_renamed (h : OnlyRenames cfg skip s)
    (hstem : Lua.isName cfg.rename.variableStem = true)
    (hshort : ∀ e ∈ cfg.renames skip s, (e.2.length : Int) ≤ cfg.rename.minLength) {k : StageKind}
    (hk : cfg.uses skip k = true) :
    (cfg.stage k).Idle (Lua.rename (cfg.renames skip s) s)
      (Lua.rename (cfg.renames skip s) s) := by
  cases k with
  | whitespace =>
    refine Stage.idle_of_no_hits (by simp) fun notes _ => (Blanks.normalize_hits _).trans ?_
    rw [h.not_hasLongRun hk (givesNames_renames hstem)]
    rfl
  | concat =>
    refine Stage.idle_of_no_hits (by simp) fun notes _ => (Joins.merge_hits _).trans ?_
    rw [h.not_occursIn_dots hk (givesNames_renames hstem)]
    rfl
  | variableNames =>
    refine Stage.idle_of_no_hits (by simp) fun notes _ => (Variables.simplify_hits ..).trans ?_
    rw [renames, if_pos hk] at hshort ⊢
    rw [Variables.given_rename_given hstem hshort]
    rfl
  | functionNames =>
    refine Stage.idle_of_no_hits (by simp) fun notes hsource => ?_
    simp only [stage, Stage.apply, hsource, Option.getD_some]
    by_contra hne
    obtain ⟨d, hd, hlong⟩ := (Functions.simplify_hits_pos_iff ..).mp (Nat.pos_of_ne_zero hne)
    exact Int.not_lt.mpr (h.length_le_of_declares hk hstem hshort hd) hlong
  -- the other stages are given the renamed text in the first run as well
  | base64 => exact h.idle hk (by decide) (fun _ _ => rfl) (h.text_before (by decide) hk)
  | hex => exact h.idle hk (by decide) (fun _ _ => rfl) (h.text_before (by decide) hk)
  | escapes => exact h.idle hk (by decide) (fun _ _ => rfl) (h.text_before (by decide) hk)
  | formatting => exact h.idle hk (by decide) (fun _ _ => rfl) (h.text_before (by decide) hk)

/-- Run again on the text of a run that has done nothing but give variables short names, the same
stages change nothing and record nothing. -/
theorem second_run_quiet (cfg : Config) (skip : List StageKind) (s : Text) (p : Progress)
    (hstem : Lua.isName cfg.rename.variableStem = true)
    (hrun : cfg.run (skip.map StageKind.name) s = .ok p)
    (honly : ∀ l ∈ p.techniques, l = "Variable name simplification")
    (hescapes : cfg.uses skip .escapes = true →
      ((runStages (cfg.before skip .escapes) s).step .escapes).text =
        (runStages (cfg.before skip .escapes) s).text)
    (hshort : ∀ e ∈ p.notes.renamed.getD [], (e.2.length : Int) ≤ cfg.rename.minLength) :
    ∃ q, cfg.run (skip.map StageKind.name) p.text = .ok q ∧ q.outcome = ⟨p.text, []⟩ := by
  obtain ⟨hfits, rfl⟩ := run_eq_ok hrun
  have h := onlyRenames_of_techniques honly hescapes
  refine ⟨_, Config.run_of_fits _ skip hfits _, ?_⟩
  rw [h.text_chosen]
  have hidle : ∀ st ∈ cfg.chosen skip, st.Idle (Lua.rename (cfg.renames skip s) s)
      (Lua.rename (cfg.renames skip s) s) := by
    intro st hst
    obtain ⟨k, hk, rfl⟩ := List.mem_map.mp hst
    exact h.idle_renamed hstem (fun e he => hshort e (h.mem_renamed he)) (List.mem_filter.mp hk).2
  obtain ⟨htext, htech⟩ := runStages_of_idle hidle
  rw [Progress.outcome, htext, htech]

/-- A long name in code, and again in a literal with a backslash that no escape follows. -/
theorem second_run_quiet_name_in_literal :
    let cfg : Config := {}
    let s : Text := "local counterOfThings = 'counterOfThings \\q'"
    let p := runStages (cfg.chosen []) s
    Lua.isName cfg.rename.variableStem = true ∧
      cfg.run ([].map StageKind.name) s = .ok p ∧
      (∀ l ∈ p.techniques, l = "Variable name simplification") ∧
      ((runStages (cfg.before [] .escapes) s).step .escapes).text =
        (runStages (cfg.before [] .escapes) s).text ∧
      (∀ e ∈ p.notes.renamed.getD [], (e.2.length : Int) ≤ cfg.rename.minLength) ∧
      p.techniques = ["Variable name simplification"] ∧
      ∃ q, cfg.run ([].map StageKind.name) p.text = .ok q ∧
        q.outcome = ⟨"local var_3 = 'var_3 \\q'", []⟩ := by
  intro cfg s p
  have hstem : Lua.isName cfg.rename.variableStem = true := by decide +kernel
  have hrun : cfg.run ([].map StageKind.name) s = .ok p :=
    cfg.run_of_fits [] (by decide) s
  have honly : ∀ l ∈ p.techniques, l = "Variable name simplification" := by decide +kernel
  have hescapes : ((runStages (cfg.before [] .escapes) s).step .escapes).text =
      (runStages (cfg.before [] .escapes) s).text := by decide +kernel
  have hshort : ∀ e ∈ p.notes.renamed.getD [], (e.2.length : Int) ≤ cfg.rename.minLength := by
    decide +kernel
  have htext : p.text = "local var_3 = 'var_3 \\q'" := by decide +kernel
  refine ⟨hstem, hrun, honly, hescapes, hshort, by decide +kernel, ?_⟩
  rw [← htext]
  exact second_run_quiet cfg [] s p hstem hrun honly (fun _ => hescapes) hshort

end Config
end LuaTidy
