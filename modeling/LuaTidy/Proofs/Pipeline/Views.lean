import LuaTidy.Config.Validate
import LuaTidy.Proofs.Pipeline.Runs
import Mathlib.Algebra.GroupWithZero.Nat

/-!
The views of one run. What is told of every stage decides the labels, how often each of them is
counted, and how many there are; and stages left out by name might as well be switched off.
-/
namespace LuaTidy

namespace Outcome

open Entries (keys)

theorem tally_of_not_mem {m : Entries Text Nat} {l : Text} (h : l ∉ keys m) :
    tally m l = m ++ [(l, 1)] := by
  rw [tally, (Entries.get?_eq_none_iff m l).mpr h, Entries.insert_of_not_mem h]
  rfl

theorem tally_append_of_not_mem {m : Entries Text Nat} {l : Text} (h : l ∉ keys m) (n : Nat) :
    tally (m ++ [(l, n)]) l = m ++ [(l, n + 1)] := by
  rw [tally, Entries.get?_append, (Entries.get?_eq_none_iff m l).mpr h,
    Entries.insert_append_of_not_mem h]
  simp [Entries.get?]

/-- A block of one new label adds one entry, with its length as the count. -/
theorem foldl_tally_replicate {m : Entries Text Nat} {l : Text} (h : l ∉ keys m) (n : Nat) :
    (List.replicate (n + 1) l).foldl tally m = m ++ [(l, n + 1)] := by
  induction n with
  | zero => exact tally_of_not_mem h
  | succ n ih =>
    rw [List.replicate_succ', List.foldl_concat, ih, tally_append_of_not_mem h]

theorem sum_insert (m : Entries Text Nat) (l : Text) (n : Nat) :
    ((m.insert l n).map Prod.snd).sum + (m.get? l).getD 0 = (m.map Prod.snd).sum + n := by
  induction m with
  | nil => simp [Entries.insert, Entries.get?]
  | cons e m ih =>
    obtain ⟨k, a⟩ := e
    by_cases h : k = l
    · simp [Entries.insert, Entries.get?, h]
      omega
    · simp only [Entries.insert, Entries.get?, h, if_false, List.map_cons, List.sum_cons]
      omega

/-- Every label is counted once. -/
theorem sum_counts (r : Outcome) : (r.counts.map Prod.snd).sum = r.techniques.length := by
  have hfold : ∀ (ls : List Text) (m : Entries Text Nat),
      ((ls.foldl tally m).map Prod.snd).sum = (m.map Prod.snd).sum + ls.length := by
    intro ls
    induction ls with
    | nil => exact fun m => rfl
    | cons l ls ih =>
      intro m
      have hone := sum_insert m l ((m.get? l).getD 0 + 1)
      rw [List.foldl_cons, ih, List.length_cons, tally]
      omega
  rw [counts, hfold, List.map_nil, List.sum_nil, Nat.zero_add]

end Outcome

namespace Observed

/-- The count that a stage is shown with: none for a stage without label or without hits. -/
def counted? (o : Observed) : Option (Text × Nat) :=
  if o.hits = 0 then none else o.stage.kind.label?.map fun l => (l, o.hits)

theorem labels_of_counted?_none {o : Observed} (h : o.counted? = none) : o.labels = [] := by
  rw [labels]
  split
  · next l hl =>
    rw [counted?, hl] at h
    split at h
    · next hzero => rw [hzero, List.replicate_zero]
    · cases h
  · rfl

theorem labels_of_counted?_some {o : Observed} {e : Text × Nat} (h : o.counted? = some e) :
    o.stage.kind.label? = some e.1 ∧ ∃ n, e.2 = n + 1 ∧ o.labels = List.replicate (n + 1) e.1 := by
  rw [counted?] at h
  split at h
  · cases h
  · next hpos =>
    obtain ⟨l, hl, rfl⟩ := Option.map_eq_some_iff.mp h
    obtain ⟨n, hn⟩ := Nat.exists_eq_succ_of_ne_zero hpos
    refine ⟨hl, n, hn, ?_⟩
    rw [labels, hl, hn]

/-- Of stages of different kinds, the counts of the labels are the numbers of hits. -/
theorem foldl_tally_labels {t : List Observed} (ht : (t.map (·.stage.kind)).Nodup)
    {m : Entries Text Nat} (hm : ∀ o ∈ t, ∀ l, o.stage.kind.label? = some l → l ∉ Entries.keys m) :
    (t.flatMap labels).foldl Outcome.tally m = m ++ t.filterMap counted? := by
  induction t generalizing m with
  | nil => simp
  | cons o t ih =>
    rw [List.map_cons, List.nodup_cons] at ht
    have hlater : ∀ o' ∈ t, ∀ l, o'.stage.kind.label? = some l → l ∉ Entries.keys m :=
      fun o' ho' => hm o' (List.mem_cons_of_mem _ ho')
    cases he : o.counted? with
    | none =>
      rw [List.flatMap_cons, labels_of_counted?_none he, List.nil_append, ih ht.2 hlater,
        List.filterMap_cons_none he]
    | some e =>
      obtain ⟨hl, n, hn, hlabels⟩ := labels_of_counted?_some he
      have hfresh := hm o List.mem_cons_self e.1 hl
      have hnext : ∀ o' ∈ t, ∀ l, o'.stage.kind.label? = some l →
          l ∉ Entries.keys (m ++ [(e.1, n + 1)]) := by
        intro o' ho' l hl'
        rw [Entries.keys, List.map_append, List.mem_append, not_or]
        refine ⟨hlater o' ho' l hl', ?_⟩
        intro hmem
        obtain rfl : l = e.1 := List.mem_singleton.mp hmem
        exact ht.1 (StageKind.label?_injective hl hl' ▸
          List.mem_map_of_mem (f := fun o : Observed => o.stage.kind) ho')
      rw [List.flatMap_cons, hlabels, List.foldl_append, Outcome.foldl_tally_replicate hfresh,
        ih ht.2 hnext, List.filterMap_cons_some he, List.append_assoc, ← hn]
      rfl

end Observed

theorem stages_trace (ss : List Stage) (s : Text) : (runStages ss s).trace.map (·.stage) = ss := by
  induction ss using List.reverseRecOn with
  | nil => rfl
  | append_singleton ss st ih =>
    rw [runStages_concat, Progress.step_trace, List.map_append, ih]
    rfl

theorem techniques_eq_flatMap (ss : List Stage) (s : Text) :
    (runStages ss s).techniques = (runStages ss s).trace.flatMap Observed.labels := by
  induction ss using List.reverseRecOn with
  | nil => rfl
  | append_singleton ss st ih =>
    rw [runStages_concat, Progress.step_techniques, Progress.step_trace, List.flatMap_append, ih,
      List.flatMap_singleton]

theorem counts_eq_filterMap {ss : List Stage} (hss : (ss.map Stage.kind).Nodup) (s : Text) :
    (runStages ss s).outcome.counts = (runStages ss s).trace.filterMap Observed.counted? := by
  have hkinds : ((runStages ss s).trace.map (·.stage.kind)).Nodup := by
    have hmap : (runStages ss s).trace.map (·.stage.kind) = ss.map Stage.kind := by
      rw [← stages_trace ss s, List.map_map, stages_trace]
      rfl
    rwa [hmap]
  rw [Outcome.counts, Progress.outcome, techniques_eq_flatMap]
  exact Observed.foldl_tally_labels hkinds fun _ _ _ _ => List.not_mem_nil

/-- The flags with those of some stages set to false. -/
def StageFlags.without (f : StageFlags) (skip : List Text) : StageFlags :=
  let keep (k : StageKind) : Bool := f.enabled k && !skip.contains k.name
  { whitespace := keep .whitespace, concat := keep .concat, variableNames := keep .variableNames,
    functionNames := keep .functionNames, base64 := keep .base64, hex := keep .hex,
    escapes := keep .escapes, formatting := keep .formatting }

@[simp] theorem StageFlags.enabled_without (f : StageFlags) (skip : List Text) (k : StageKind) :
    (f.without skip).enabled k = (f.enabled k && !skip.contains k.name) := by
  cases k <;> rfl

theorem mem_unknownNames (skip : List Text) (n : Text) :
    n ∈ unknownNames skip ↔ n ∈ skip ∧ n ∉ StageKind.all.map StageKind.name := by
  rw [unknownNames, List.mem_mergeSort, List.mem_eraseDups, List.mem_filter, Bool.not_eq_true',
    ← Bool.not_eq_true, List.contains_iff_mem]

/-- In order of code points, and none of them twice. -/
theorem pairwise_unknownNames (skip : List Text) :
    (unknownNames skip).Pairwise fun m n => Text.atMost m n = true ∧ m ≠ n := by
  have hsorted := @List.pairwise_mergeSort Text Text.atMost (fun _ _ _ => Text.atMost_trans)
    Text.atMost_total
  exact (hsorted _).and (List.nodup_mergeSort.mpr (Entries.nodup_eraseDups _))

namespace Config

/-- The settings with some stages switched off. -/
def without (cfg : Config) (skip : List Text) : Config :=
  { cfg with stages := cfg.stages.without skip }

variable (cfg : Config) (skip : List Text)

theorem exists_kinds {skip : List Text} (h : ∀ n ∈ skip, n ∈ StageKind.all.map StageKind.name) :
    ∃ ks : List StageKind, skip = ks.map StageKind.name := by
  induction skip with
  | nil => exact ⟨[], rfl⟩
  | cons n skip ih =>
    obtain ⟨k, -, rfl⟩ := List.mem_map.mp (h n List.mem_cons_self)
    obtain ⟨ks, rfl⟩ := ih fun n hn => h n (List.mem_cons_of_mem _ hn)
    exact ⟨k :: ks, rfl⟩

theorem chosen_without (ks : List StageKind) :
    (cfg.without (ks.map StageKind.name)).chosen [] = cfg.chosen ks := by
  have huses : (cfg.without (ks.map StageKind.name)).uses [] = cfg.uses ks := by
    funext k
    rw [uses, uses, without, StageFlags.enabled_without, StageKind.contains_map_name,
      List.contains_nil, Bool.not_false, Bool.and_true]
  have hstage : (cfg.without (ks.map StageKind.name)).stage = cfg.stage := by
    funext k
    cases k <;> rfl
  rw [chosen, chosen, huses, hstage]

theorem selectStages_of_unknown {n : Text} (hn : n ∈ skip)
    (hunknown : n ∉ StageKind.all.map StageKind.name) :
    cfg.selectStages skip = .error (.unknown (unknownNames skip)) := by
  have hmem := (mem_unknownNames skip n).mpr ⟨hn, hunknown⟩
  exact if_neg (by simpa using List.ne_nil_of_mem hmem)

variable {cfg skip}

/-- There are no stages because a name to skip is unknown, or else because the margin is too wide. -/
theorem selectStages_eq_error {e : StagesError} (h : cfg.selectStages skip = .error e) :
    (∃ n ∈ skip, n ∉ StageKind.all.map StageKind.name) ∧ e = .unknown (unknownNames skip) ∨
      Indentation.fits cfg.formatting.indentWidth = false ∧
        e = .tooWide cfg.formatting.indentWidth := by
  by_cases hknown : ∀ n ∈ skip, n ∈ StageKind.all.map StageKind.name
  · obtain ⟨ks, rfl⟩ := exists_kinds hknown
    rw [selectStages_names] at h
    cases hfits : Indentation.fits cfg.formatting.indentWidth with
    | true =>
      rw [cfg.buildStages_of_fits hfits] at h
      cases h
    | false =>
      rw [cfg.buildStages_of_not_fits hfits] at h
      exact .inr ⟨rfl, (Except.error.inj h).symm⟩
  · push Not at hknown
    obtain ⟨n, hn, hunknown⟩ := hknown
    rw [cfg.selectStages_of_unknown skip hn hunknown] at h
    exact .inl ⟨⟨n, hn, hunknown⟩, (Except.error.inj h).symm⟩

theorem fits_of_selectStages {stages : List Stage} (h : cfg.selectStages skip = .ok stages) :
    Indentation.fits cfg.formatting.indentWidth = true := by
  cases hfits : Indentation.fits cfg.formatting.indentWidth with
  | true => rfl
  | false =>
    rw [selectStages, cfg.buildStages_of_not_fits hfits] at h
    simp only [Except.map] at h
    split at h <;> cases h

theorem selectStages_of_run_eq_error {s : Text} {e : StagesError}
    (h : cfg.run skip s = .error e) : cfg.selectStages skip = .error e := by
  rw [run] at h
  cases hselect : cfg.selectStages skip with
  | ok stages =>
    rw [hselect] at h
    cases h
  | error e' =>
    rw [hselect] at h
    exact congrArg Except.error (Except.error.inj h)

/-- What a run tells of its stages decides its labels and their counts. Each stage that is switched
on and not skipped takes part once, in the fixed order, and skipping stages by name is the same as
switching them off. No run takes place if the margin is too wide, even if no stage is to indent; nor
if other names are among those to skip, and these are named. -/
theorem views_agree (cfg : Config) (skip : List Text) (s : Text) :
    ((∀ n ∈ skip, n ∈ StageKind.all.map StageKind.name) →
      Indentation.fits cfg.formatting.indentWidth = true →
      ∃ p, cfg.run skip s = .ok p ∧
        p.trace.map (·.stage) = (StageKind.all.filter fun k =>
          cfg.stages.enabled k && !skip.contains k.name).map cfg.stage ∧
        p.techniques = p.trace.flatMap Observed.labels ∧
        p.outcome.counts = p.trace.filterMap Observed.counted? ∧
        (p.outcome.counts.map Prod.snd).sum = p.techniques.length ∧
        (cfg.without skip).run [] s = .ok p) ∧
    ((∀ n ∈ skip, n ∈ StageKind.all.map StageKind.name) →
      Indentation.fits cfg.formatting.indentWidth = false →
      let e := StagesError.tooWide cfg.formatting.indentWidth
      cfg.selectStages skip = .error e ∧ cfg.run skip s = .error e ∧
        (cfg.without skip).run [] s = .error e) ∧
    ((∃ n ∈ skip, n ∉ StageKind.all.map StageKind.name) →
      ∃ names, let e := StagesError.unknown names
        cfg.selectStages skip = .error e ∧ cfg.run skip s = .error e ∧
        (∀ n, n ∈ names ↔ n ∈ skip ∧ n ∉ StageKind.all.map StageKind.name) ∧
        (names.Pairwise fun m n => Text.atMost m n = true ∧ m ≠ n) ∧
        e.message = "Unknown stage(s): " ++ Text.joinWith ", " names ++ ". Known stages: " ++
          Text.joinWith ", " (StageKind.all.map StageKind.name)) := by
  refine ⟨fun hknown hfits => ?_, fun hknown hfits => ?_, ?_⟩
  · obtain ⟨ks, rfl⟩ := exists_kinds hknown
    have hstages : cfg.chosen ks = (StageKind.all.filter fun k => cfg.stages.enabled k &&
        !(ks.map StageKind.name).contains k.name).map cfg.stage := by
      simp only [StageKind.contains_map_name]
      rfl
    have hkinds : ((cfg.chosen ks).map Stage.kind).Nodup := by
      rw [kinds_chosen]
      exact StageKind.nodup_all.filter _
    refine ⟨runStages (cfg.chosen ks) s, cfg.run_of_fits ks hfits s, ?_, techniques_eq_flatMap _ s,
      counts_eq_filterMap hkinds s, Outcome.sum_counts _, ?_⟩
    · rw [stages_trace, hstages]
    · rw [← cfg.chosen_without ks]
      exact (cfg.without _).run_of_fits [] hfits s
  · obtain ⟨ks, rfl⟩ := exists_kinds hknown
    refine ⟨?_, cfg.run_of_not_fits ks hfits s, (cfg.without _).run_of_not_fits [] hfits s⟩
    rw [selectStages_names, cfg.buildStages_of_not_fits hfits]
    rfl
  · rintro ⟨n, hn, hunknown⟩
    have hselect := cfg.selectStages_of_unknown skip hn hunknown
    exact ⟨_, hselect, by rw [run, hselect]; rfl, mem_unknownNames skip,
      pairwise_unknownNames skip, rfl⟩

/-- A number of spaces that settings accept is too many for a margin; then there is no run, whether
lines are to be indented or not. -/
theorem no_run_with_wide_margin :
    let w : Int := 0x8000000000000000
    let cfg : Config := { formatting := { indentWidth := w } }
    let formatting : Value := .map [(.text "indent_width", .scalar (.int w))]
    Config.ofValue (.map [(.text "formatting", formatting)]) = .ok cfg ∧
      cfg.run [] "x = 1" = .error (.tooWide w) ∧
      cfg.run ["formatting"] "x = 1" = .error (.tooWide w) := by
  decide +kernel

end Config
end LuaTidy
