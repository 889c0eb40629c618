import LuaTidy.Pipeline.Run
import LuaTidy.Proofs.Pipeline.StageHits
import Mathlib.Data.List.TakeWhile

/-!
Runs as sequences of steps: which stages a run consists of, what it keeps of every one of them, and
how often a label is recorded.
-/
namespace LuaTidy

namespace StageKind

theorem mem_all (k : StageKind) : k ∈ all := by
  cases k <;> decide

theorem nodup_all : all.Nodup := by decide

theorem name_injective : Function.Injective name := by
  have h : ∀ k ∈ all, ∀ k' ∈ all, k.name = k'.name → k = k' := by decide
  exact fun k k' => h k (mem_all k) k' (mem_all k')

theorem label?_injective {k k' : StageKind} {l : Text} (h : k.label? = some l)
    (h' : k'.label? = some l) : k = k' := by
  have hall : ∀ k ∈ all, ∀ k' ∈ all, k.label? = k'.label? → k.label? ≠ none → k = k' := by
    decide
  exact hall k (mem_all k) k' (mem_all k') (h.trans h'.symm) (by simp [h])

theorem contains_map_name (ks : List StageKind) (k : StageKind) :
    (ks.map name).contains k.name = ks.contains k := by
  rw [Bool.eq_iff_iff, List.contains_iff_mem, List.contains_iff_mem,
    List.mem_map_of_injective name_injective]

end StageKind

/-- The labels recorded of a stage. -/
def Observed.labels (o : Observed) : List Text :=
  match o.stage.kind.label? with
  | some l => List.replicate o.hits l
  | none => []

/-- What one more stage adds to the trace. -/
def Progress.observed (p : Progress) (st : Stage) : Observed :=
  ⟨st, (st.apply p.notes p.text).hits, (st.apply p.notes p.text).namesGiven⟩

namespace Progress

theorem step_text (p : Progress) (st : Stage) : (p.step st).text = (st.apply p.notes p.text).text :=
  rfl

theorem step_trace (p : Progress) (st : Stage) : (p.step st).trace = p.trace ++ [p.observed st] :=
  rfl

theorem step_techniques (p : Progress) (st : Stage) :
    (p.step st).techniques = p.techniques ++ (p.observed st).labels := rfl

theorem count_labels (p : Progress) (st : Stage) {k : StageKind} {l : Text}
    (hl : k.label? = some l) :
    (p.observed st).labels.count l = if st.kind = k then (p.observed st).hits else 0 := by
  have hstage : (p.observed st).stage = st := rfl
  rw [Observed.labels, hstage]
  split
  · next l' hl' =>
    by_cases hk : st.kind = k
    · rw [hk, hl] at hl'
      cases hl'
      rw [if_pos hk, List.count_replicate_self]
    · have hne : l' ≠ l := fun h => hk (StageKind.label?_injective (h ▸ hl') hl)
      rw [if_neg hk, List.count_replicate, if_neg (by simp [hne])]
  · next hnone =>
    have hk : st.kind ≠ k := by
      intro h
      rw [h, hl] at hnone
      cases hnone
    rw [if_neg hk, List.count_nil]

theorem count_foldl_of_ne {k : StageKind} {l : Text} (hl : k.label? = some l) {ss : List Stage}
    (hss : ∀ st ∈ ss, st.kind ≠ k) (p : Progress) :
    (ss.foldl step p).techniques.count l = p.techniques.count l := by
  induction ss generalizing p with
  | nil => rfl
  | cons st ss ih =>
    rw [List.foldl_cons, ih (fun st' h => hss st' (List.mem_cons_of_mem _ h)), step_techniques,
      List.count_append, count_labels p st hl, if_neg (hss st List.mem_cons_self), Nat.add_zero]

end Progress

theorem runStages_append (ss ts : List Stage) (s : Text) :
    runStages (ss ++ ts) s = ts.foldl Progress.step (runStages ss s) := by
  rw [runStages, List.foldl_append, runStages]

theorem runStages_concat (ss : List Stage) (st : Stage) (s : Text) :
    runStages (ss ++ [st]) s = (runStages ss s).step st := runStages_append ss [st] s

theorem runStages_source (ss : List Stage) (s : Text) :
    (runStages ss s).notes.source = some s := by
  induction ss using List.reverseRecOn with
  | nil => rfl
  | append_singleton ss st ih =>
    rw [runStages_concat]
    exact (st.apply_source _ _).trans ih

/-- Nothing to do: in a run over `source`, the stage keeps the text `t` and counts nothing. -/
def Stage.Idle (st : Stage) (source t : Text) : Prop :=
  ∀ notes : Notes, notes.source = some source →
    (st.apply notes t).text = t ∧ (st.apply notes t).hits = 0

theorem Stage.idle_of_no_hits {st : Stage} (hk : st.kind ≠ .escapes) {source t : Text}
    (h : ∀ notes : Notes, notes.source = some source → (st.apply notes t).hits = 0) :
    st.Idle source t := fun notes hsource =>
  ⟨Stage.apply_text_of_no_hits hk (h notes hsource), h notes hsource⟩

theorem runStages_of_idle {ss : List Stage} {s : Text} (h : ∀ st ∈ ss, st.Idle s s) :
    (runStages ss s).text = s ∧ (runStages ss s).techniques = [] := by
  induction ss using List.reverseRecOn with
  | nil => exact ⟨rfl, rfl⟩
  | append_singleton ss st ih =>
    obtain ⟨htext, htech⟩ := ih fun st' hst' => h st' (List.mem_append_left _ hst')
    obtain ⟨hsame, hzero⟩ := h st (List.mem_append_right _ List.mem_cons_self) _
      (runStages_source ss s)
    have hobserved : ((runStages ss s).observed st).hits = 0 := by
      rw [Progress.observed, htext]
      exact hzero
    rw [runStages_concat, Progress.step_text, Progress.step_techniques, htech, htext,
      Observed.labels, hobserved]
    refine ⟨hsame, ?_⟩
    split <;> rfl

/-- The trace tells of every stage what it did in the state that the stages before it left. -/
theorem getElem?_trace (ss : List Stage) (s : Text) (i : Nat) :
    (runStages ss s).trace[i]? = ss[i]?.map (runStages (ss.take i) s).observed := by
  have hlen : ∀ ss, (runStages ss s).trace.length = ss.length := by
    intro ss
    induction ss using List.reverseRecOn with
    | nil => rfl
    | append_singleton ss st ih => simp [runStages_concat, Progress.step_trace, ih]
  induction ss using List.reverseRecOn with
  | nil => rfl
  | append_singleton ss st ih =>
    rw [runStages_concat, Progress.step_trace]
    rcases Nat.lt_trichotomy i ss.length with hi | rfl | hi
    · rw [List.getElem?_append_left (by rw [hlen]; exact hi), ih, List.getElem?_append_left hi,
        List.take_append_of_le_length (Nat.le_of_lt hi)]
    · rw [List.getElem?_append_right (Nat.le_of_eq (hlen ss)), hlen, Nat.sub_self,
        List.getElem?_append_right (Nat.le_refl _), Nat.sub_self, List.take_left]
      rfl
    · rw [List.getElem?_eq_none (by simp [hlen]; omega),
        List.getElem?_eq_none (by simp; omega), Option.map_none]

namespace Config

/-- The stage of a kind, with the parameters that the settings give it. -/
def stage (cfg : Config) : StageKind → Stage
  | .whitespace => .whitespace
  | .concat => .concat
  | .variableNames => .variableNames cfg.rename.minLength cfg.rename.variableStem
  | .functionNames => .functionNames cfg.rename.minLength cfg.rename.functionStem
  | .base64 => .base64
  | .hex => .hex
  | .escapes => .escapes
  | .formatting => .formatting cfg.formatting.indentWidth

/-- Whether the stage of a kind is switched on and not skipped. -/
def uses (cfg : Config) (skip : List StageKind) (k : StageKind) : Bool :=
  cfg.stages.enabled k && !skip.contains k

def chosen (cfg : Config) (skip : List StageKind) : List Stage :=
  (StageKind.all.filter (cfg.uses skip)).map cfg.stage

/-- The stages of a run that come before the one of a kind. -/
def before (cfg : Config) (skip : List StageKind) (k : StageKind) : List Stage :=
  (cfg.chosen skip).takeWhile (·.kind ≠ k)

/-- A run yields what has the property `P`, unless it fails because its margin is too wide. -/
def Yields (cfg : Config) (skip : List Text) (s : Text) (P : Progress → Prop) : Prop :=
  match cfg.run skip s with
  | .ok p => P p
  | .error e => e = .tooWide cfg.formatting.indentWidth ∧
      Indentation.fits cfg.formatting.indentWidth = false

variable (cfg : Config) (skip : List StageKind)

@[simp] theorem kind_stage (k : StageKind) : (cfg.stage k).kind = k := by
  cases k <;> rfl

theorem kinds_chosen : (cfg.chosen skip).map Stage.kind = StageKind.all.filter (cfg.uses skip) := by
  have hkind : Stage.kind ∘ cfg.stage = id := funext cfg.kind_stage
  rw [chosen, List.map_map, hkind, List.map_id]

theorem buildStages_of_fits (h : Indentation.fits cfg.formatting.indentWidth = true) :
    cfg.buildStages = .ok cfg.allStages := if_pos h

theorem buildStages_of_not_fits (h : Indentation.fits cfg.formatting.indentWidth = false) :
    cfg.buildStages = .error (.tooWide cfg.formatting.indentWidth) := by
  rw [buildStages]
  exact if_neg (by rw [h]; exact Bool.false_ne_true)

/-- Names of stages are all known, and select the stages that are meant. -/
theorem selectStages_names : cfg.selectStages (skip.map StageKind.name) =
    cfg.buildStages.map fun _ => cfg.chosen skip := by
  have hunknown : unknownNames (skip.map StageKind.name) = [] := by
    have hnone : (skip.map StageKind.name).filter
        (fun n => !(StageKind.all.map StageKind.name).contains n) = [] := by
      rw [List.filter_eq_nil_iff]
      intro n hn
      obtain ⟨k, _, rfl⟩ := List.mem_map.mp hn
      simp [List.mem_map_of_mem (StageKind.mem_all k)]
    rw [unknownNames, hnone, List.eraseDups_nil, List.mergeSort_nil]
  have hall : cfg.allStages = StageKind.all.map cfg.stage := rfl
  have huses : ((fun st : Stage => cfg.stages.enabled st.kind &&
      !(skip.map StageKind.name).contains st.kind.name) ∘ cfg.stage) = cfg.uses skip := by
    funext k
    simp only [Function.comp_apply, kind_stage, StageKind.contains_map_name, uses]
  have hfilter : (cfg.allStages.filter fun st => cfg.stages.enabled st.kind &&
      !(skip.map StageKind.name).contains st.kind.name) = cfg.chosen skip := by
    rw [hall, List.filter_map, huses, chosen]
  simp only [selectStages, hunknown, List.isEmpty_nil, if_true]
  cases hfits : Indentation.fits cfg.formatting.indentWidth with
  | true =>
    rw [cfg.buildStages_of_fits hfits]
    exact congrArg Except.ok hfilter
  | false =>
    rw [cfg.buildStages_of_not_fits hfits]
    rfl

theorem run_names (s : Text) : cfg.run (skip.map StageKind.name) s =
    cfg.buildStages.map fun _ => runStages (cfg.chosen skip) s := by
  rw [run, selectStages_names]
  cases cfg.buildStages <;> rfl

theorem run_of_fits (h : Indentation.fits cfg.formatting.indentWidth = true) (s : Text) :
    cfg.run (skip.map StageKind.name) s = .ok (runStages (cfg.chosen skip) s) := by
  rw [run_names, cfg.buildStages_of_fits h]
  rfl

theorem run_of_not_fits (h : Indentation.fits cfg.formatting.indentWidth = false) (s : Text) :
    cfg.run (skip.map StageKind.name) s = .error (.tooWide cfg.formatting.indentWidth) := by
  rw [run_names, cfg.buildStages_of_not_fits h]
  rfl

variable {cfg skip} {s : Text} {p : Progress} {P : Progress → Prop}

theorem run_eq_ok (h : cfg.run (skip.map StageKind.name) s = .ok p) :
    Indentation.fits cfg.formatting.indentWidth = true ∧ p = runStages (cfg.chosen skip) s := by
  cases hfits : Indentation.fits cfg.formatting.indentWidth with
  | true =>
    rw [cfg.run_of_fits skip hfits] at h
    exact ⟨rfl, (Except.ok.inj h).symm⟩
  | false =>
    rw [cfg.run_of_not_fits skip hfits] at h
    cases h

theorem yields_names (h : P (runStages (cfg.chosen skip) s)) :
    cfg.Yields (skip.map StageKind.name) s P := by
  rw [Yields]
  cases hfits : Indentation.fits cfg.formatting.indentWidth with
  | true =>
    rw [cfg.run_of_fits skip hfits]
    exact h
  | false =>
    rw [cfg.run_of_not_fits skip hfits]
    exact ⟨rfl, rfl⟩

theorem Yields.of_run {names : List Text} (h : cfg.Yields names s P)
    (hrun : cfg.run names s = .ok p) : P p := by
  rwa [Yields, hrun] at h

/-- The stages of a run, seen from the stage of a kind that takes part in it. -/
theorem chosen_eq {k : StageKind} (es ls : List StageKind) (hall : StageKind.all = es ++ k :: ls)
    (h : cfg.uses skip k = true) :
    cfg.before skip k = (es.filter (cfg.uses skip)).map cfg.stage ∧
      cfg.chosen skip = cfg.before skip k ++ cfg.stage k ::
        (ls.filter (cfg.uses skip)).map cfg.stage := by
  have hes : ∀ e ∈ es, e ≠ k := by
    have hnodup := StageKind.nodup_all
    rw [hall, List.nodup_append] at hnodup
    exact fun e he => hnodup.2.2 e he k List.mem_cons_self
  have hchosen : cfg.chosen skip = (es.filter (cfg.uses skip)).map cfg.stage ++ cfg.stage k ::
      (ls.filter (cfg.uses skip)).map cfg.stage := by
    rw [chosen, hall, List.filter_append, List.filter_cons_of_pos h, List.map_append, List.map_cons]
  have hbefore : cfg.before skip k = (es.filter (cfg.uses skip)).map cfg.stage := by
    rw [before, hchosen, List.takeWhile_append_of_pos, List.takeWhile_cons_of_neg (by simp),
      List.append_nil]
    intro st hst
    obtain ⟨e, he, rfl⟩ := List.mem_map.mp hst
    simpa using hes e (List.mem_of_mem_filter he)
  exact ⟨hbefore, hbefore ▸ hchosen⟩

theorem kind_ne_of_mem_chosen {k : StageKind} (h : cfg.uses skip k = false) :
    ∀ st ∈ cfg.chosen skip, st.kind ≠ k := by
  intro st hst hk
  have hmem := List.mem_map_of_mem (f := Stage.kind) hst
  rw [kinds_chosen, List.mem_filter, hk, h] at hmem
  exact Bool.false_ne_true hmem.2

/-- How often a label is recorded is what the one stage of its kind counts. -/
theorem count_techniques {k : StageKind} {l : Text} (hl : k.label? = some l)
    (h : cfg.uses skip k = true) (s : Text) :
    (runStages (cfg.chosen skip) s).techniques.count l =
      ((runStages (cfg.before skip k) s).observed (cfg.stage k)).hits := by
  obtain ⟨es, ls, hall⟩ := List.append_of_mem (StageKind.mem_all k)
  have hnodup := StageKind.nodup_all
  rw [hall, List.nodup_append] at hnodup
  have hearlier : ∀ st ∈ cfg.before skip k, st.kind ≠ k := fun st hst => by
    simpa using List.mem_takeWhile_imp hst
  have hlater : ∀ st ∈ (ls.filter (cfg.uses skip)).map cfg.stage, st.kind ≠ k := by
    intro st hst hk
    obtain ⟨e, he, rfl⟩ := List.mem_map.mp hst
    rw [kind_stage] at hk
    exact (List.nodup_cons.mp hnodup.2.1).1 (hk ▸ List.mem_of_mem_filter he)
  have hstart : (runStages (cfg.before skip k) s).techniques.count l = 0 :=
    (Progress.count_foldl_of_ne hl hearlier _).trans List.count_nil
  rw [(chosen_eq es ls hall h).2, runStages_append, List.foldl_cons,
    Progress.count_foldl_of_ne hl hlater, Progress.step_techniques, List.count_append, hstart,
    Nat.zero_add, Progress.count_labels _ _ hl, if_pos (cfg.kind_stage k)]

theorem count_techniques_of_not_uses {k : StageKind} {l : Text} (hl : k.label? = some l)
    (h : cfg.uses skip k = false) (s : Text) :
    (runStages (cfg.chosen skip) s).techniques.count l = 0 :=
  (Progress.count_foldl_of_ne hl (kind_ne_of_mem_chosen h) _).trans List.count_nil

end Config
end LuaTidy
