import LuaTidy.Config.Load
import Mathlib.Data.List.DropRight

/-!
Which file of settings counts. The candidates are tried in order; one that is absent or empty is
passed over, and the first other one decides, whether it has settings or an error. Nothing behind
it has a say, and neither have the usual places if a file is given.
-/
namespace LuaTidy

namespace Disk

/-- What is found at a path decides whether there is anything, and what is read. -/
theorem exists?_congr {d d' : Disk} {path : Text} (h : d'.stat path = d.stat path) :
    d'.exists? path = d.exists? path := by
  rw [exists?, exists?, ask, ask, h]

theorem read_congr {d d' : Disk} {path : Text} (h : d'.stat path = d.stat path) :
    d'.read path = d.read path := by
  rw [read, read, h]

theorem exists?_of_read {d : Disk} {path : Text} {content : Text.Utf8.Bytes}
    (h : d.read path = .ok content) : d.exists? path = .ok true := by
  rw [read] at h
  split at h
  · next hstat => simp [exists?, ask, hstat]
  · cases h
  · cases h

end Disk

namespace Config

/-- The files of settings that are looked for: a given one, or those in the usual places. -/
def searched (host : Host) (env : Environment) (explicit : Option Text) :
    Except LoadError (List Path) :=
  if explicit.getD [] = [] then
    (homeDirectory host env).map fun home =>
      [projectFile, { home with parts := home.parts ++ userFileParts }]
  else .ok [Path.ofText (explicit.getD [])]

/-- A file is given, and is not there. -/
def Missing (d : Disk) (explicit : Option Text) : Prop :=
  explicit.getD [] ≠ [] ∧ d.exists? (Path.ofText (explicit.getD [])).text = .ok false

section
variable (host : Host) (d : Disk)

/-- A candidate has nothing to say. -/
inductive PassedOver (p : Path) : Prop where
  | absent (hexists : d.exists? p.text = .ok false)
  | empty {bytes : Text.Utf8.Bytes} {s : Text} (hread : d.read p.text = .ok bytes)
      (hdecode : Text.Utf8.decode bytes = .ok s)
      (hnull : host.reader (Text.unifyLineEnds s) = .ok (.scalar .null))

/-- A candidate has settings or an error. -/
inductive Says (env : Environment) (p : Path) : Except LoadError Config → Prop where
  | lookup {e : FileError} (hexists : d.exists? p.text = .error e) : Says env p (.error (.lookup e))
  | unreadable {e : FileError} (hexists : d.exists? p.text = .ok true)
      (hread : d.read p.text = .error e) : Says env p (.error (.unreadable p.text e))
  | badEncoding {bytes : Text.Utf8.Bytes} {m : Text.Utf8.Malformation}
      (hread : d.read p.text = .ok bytes) (hdecode : Text.Utf8.decode bytes = .error m) :
      Says env p (.error (.badEncoding p.text m))
  | notDocument {bytes : Text.Utf8.Bytes} {s : Text} (hread : d.read p.text = .ok bytes)
      (hdecode : Text.Utf8.decode bytes = .ok s)
      (hreader : host.reader (Text.unifyLineEnds s) = .error .malformed) :
      Says env p (.error (.notDocument p.text (host.complaint (Text.unifyLineEnds s))))
  | noValue {bytes : Text.Utf8.Bytes} {s : Text} {e : Yaml.Error}
      (hread : d.read p.text = .ok bytes) (hdecode : Text.Utf8.decode bytes = .ok s)
      (hreader : host.reader (Text.unifyLineEnds s) = .error e) (he : e ≠ .malformed) :
      Says env p (.error (.noValue e))
  | notMap {bytes : Text.Utf8.Bytes} {s : Text} {v : Value} (hread : d.read p.text = .ok bytes)
      (hdecode : Text.Utf8.decode bytes = .ok s)
      (hreader : host.reader (Text.unifyLineEnds s) = .ok v) (hnull : v ≠ .scalar .null)
      (hmap : ∀ es, v ≠ .map es) : Says env p (.error (.notMap p.text))
  | tooDeep {bytes : Text.Utf8.Bytes} {s : Text} {es : List (Scalar × Value)}
      (hread : d.read p.text = .ok bytes) (hdecode : Text.Utf8.decode bytes = .ok s)
      (hreader : host.reader (Text.unifyLineEnds s) = .ok (.map es))
      (hdeep : host.overflows (.map es) = true) : Says env p (.error .tooDeep)
  | invalid {bytes : Text.Utf8.Bytes} {s : Text} {es : List (Scalar × Value)} {ps : List Problem}
      (hread : d.read p.text = .ok bytes) (hdecode : Text.Utf8.decode bytes = .ok s)
      (hreader : host.reader (Text.unifyLineEnds s) = .ok (.map es))
      (hdeep : host.overflows (.map es) = false)
      (hcheck : host.validator (env.expand (.map es)) = .error ps) :
      Says env p (.error (.invalid p.text ps (host.report (env.expand (.map es)) ps)))
  | valid {bytes : Text.Utf8.Bytes} {s : Text} {es : List (Scalar × Value)} {cfg : Config}
      (hread : d.read p.text = .ok bytes) (hdecode : Text.Utf8.decode bytes = .ok s)
      (hreader : host.reader (Text.unifyLineEnds s) = .ok (.map es))
      (hdeep : host.overflows (.map es) = false)
      (hcheck : host.validator (env.expand (.map es)) = .ok cfg) : Says env p (.ok cfg)

end

variable {host : Host} {d d' : Disk} {env : Environment} {explicit : Option Text}
  {p : Path}

theorem consult_of_read_error {e : FileError} (hexists : d.exists? p.text = .ok true)
    (hread : d.read p.text = .error e) :
    consult host d env p = .error (.unreadable p.text e) := by
  rw [consult, hexists, hread]
  rfl

theorem consult_of_decode_error {bytes : Text.Utf8.Bytes} {m : Text.Utf8.Malformation}
    (hread : d.read p.text = .ok bytes) (hdecode : Text.Utf8.decode bytes = .error m) :
    consult host d env p = .error (.badEncoding p.text m) := by
  rw [consult, Disk.exists?_of_read hread, hread]
  simp only [Except.mapError, bind, Except.bind, hdecode]

theorem consult_of_document {bytes : Text.Utf8.Bytes} {s : Text} (hread : d.read p.text = .ok bytes)
    (hdecode : Text.Utf8.decode bytes = .ok s) :
    consult host d env p =
      match host.reader (Text.unifyLineEnds s) with
      | .error .malformed =>
        .error (.notDocument p.text (host.complaint (Text.unifyLineEnds s)))
      | .error e => .error (.noValue e)
      | .ok (.scalar .null) => .ok none
      | .ok (.map es) =>
        if host.overflows (.map es) then .error .tooDeep
        else
          match host.validator (env.expand (.map es)) with
          | .ok cfg => .ok (some cfg)
          | .error ps =>
            .error (.invalid p.text ps (host.report (env.expand (.map es)) ps))
      | .ok _ => .error (.notMap p.text) := by
  have hdecoded : (Text.Utf8.decode bytes).mapError (LoadError.badEncoding p.text) = .ok s := by
    rw [hdecode]
    rfl
  rw [consult, Disk.exists?_of_read hread, hread]
  show ((Text.Utf8.decode bytes).mapError (LoadError.badEncoding p.text) >>= _) = _
  rw [hdecoded]
  rfl

theorem PassedOver.consult (h : PassedOver host d p) : consult host d env p = .ok none := by
  cases h with
  | absent hexists => rw [Config.consult, hexists]
  | empty hread hdecode hnull => rw [consult_of_document hread hdecode, hnull]

theorem Says.consult {r : Except LoadError Config} (h : Says host d env p r) :
    consult host d env p = r.map some := by
  cases h with
  | lookup hexists => rw [Config.consult, hexists]; rfl
  | unreadable hexists hread => exact consult_of_read_error hexists hread
  | badEncoding hread hdecode => exact consult_of_decode_error hread hdecode
  | notDocument hread hdecode hreader => rw [consult_of_document hread hdecode, hreader]; rfl
  | noValue hread hdecode hreader he =>
    rw [consult_of_document hread hdecode, hreader]
    split
    · next h => exact absurd (Except.error.inj h) he
    · next h => rw [Except.error.inj h]; rfl
    · next h => cases h
    · next h => cases h
    · next h => cases h
  | notMap hread hdecode hreader hnull hmap =>
    rw [consult_of_document hread hdecode, hreader]
    split
    · next h => cases h
    · next h => cases h
    · next h => exact absurd (Except.ok.inj h) hnull
    · next h => exact absurd (Except.ok.inj h) (hmap _)
    · rfl
  | tooDeep hread hdecode hreader hdeep =>
    rw [consult_of_document hread hdecode, hreader]
    simp only [hdeep, if_true]
    rfl
  | invalid hread hdecode hreader hdeep hcheck =>
    rw [consult_of_document hread hdecode, hreader]
    simp only [hdeep, hcheck, Bool.false_eq_true, if_false]
    rfl
  | valid hread hdecode hreader hdeep hcheck =>
    rw [consult_of_document hread hdecode, hreader]
    simp only [hdeep, hcheck, Bool.false_eq_true, if_false]
    rfl

/-- Every candidate has something to say, or nothing. -/
theorem passedOver_or_says (host : Host) (d : Disk) (env : Environment) (p : Path) :
    PassedOver host d p ∨ ∃ r, Says host d env p r := by
  cases hexists : d.exists? p.text with
  | error e => exact .inr ⟨_, .lookup hexists⟩
  | ok there =>
    cases there with
    | false => exact .inl (.absent hexists)
    | true =>
      cases hread : d.read p.text with
      | error e => exact .inr ⟨_, .unreadable hexists hread⟩
      | ok bytes =>
        cases hdecode : Text.Utf8.decode bytes with
        | error m => exact .inr ⟨_, .badEncoding hread hdecode⟩
        | ok s =>
          cases hreader : host.reader (Text.unifyLineEnds s) with
          | error e =>
            by_cases he : e = .malformed
            · exact .inr ⟨_, .notDocument hread hdecode (he ▸ hreader)⟩
            · exact .inr ⟨_, .noValue hread hdecode hreader he⟩
          | ok v =>
            cases v with
            | scalar c =>
              by_cases hc : c = .null
              · exact .inl (.empty hread hdecode (hc ▸ hreader))
              · exact .inr ⟨_, .notMap hread hdecode hreader (by simpa using hc) (by simp)⟩
            | list vs => exact .inr ⟨_, .notMap hread hdecode hreader (by simp) (by simp)⟩
            | map es =>
              cases hdeep : host.overflows (.map es) with
              | true => exact .inr ⟨_, .tooDeep hread hdecode hreader hdeep⟩
              | false =>
                cases hcheck : host.validator (env.expand (.map es)) with
                | error ps => exact .inr ⟨_, .invalid hread hdecode hreader hdeep hcheck⟩
                | ok cfg => exact .inr ⟨_, .valid hread hdecode hreader hdeep hcheck⟩

theorem consult_congr (h : d'.stat p.text = d.stat p.text) :
    consult host d' env p = consult host d env p := by
  rw [consult, consult, Disk.exists?_congr h, Disk.read_congr h]

theorem firstOf_append {before : List Path} (h : ∀ q ∈ before, consult host d env q = .ok none)
    (ps : List Path) : firstOf host d env (before ++ ps) = firstOf host d env ps := by
  induction before with
  | nil => rfl
  | cons q before ih =>
    rw [List.cons_append, firstOf, h q List.mem_cons_self]
    exact ih fun q' hq' => h q' (List.mem_cons_of_mem _ hq')

theorem firstOf_cons {r : Except LoadError Config} (h : consult host d env p = r.map some)
    (ps : List Path) : firstOf host d env (p :: ps) = r := by
  rw [firstOf, h]
  cases r <;> rfl

/-- Either all candidates are passed over, or there is a first one that has something to say. -/
theorem all_passedOver_or_says (host : Host) (d : Disk) (env : Environment)
    (ps : List Path) : (∀ q ∈ ps, PassedOver host d q) ∨
      ∃ before p after r, ps = before ++ p :: after ∧ (∀ q ∈ before, PassedOver host d q) ∧
        Says host d env p r := by
  induction ps with
  | nil => exact .inl fun q hq => absurd hq List.not_mem_nil
  | cons q ps ih =>
    rcases passedOver_or_says host d env q with hq | ⟨r, hr⟩
    · rcases ih with hall | ⟨before, p, after, r, rfl, hbefore, hr⟩
      · exact .inl (List.forall_mem_cons.mpr ⟨hq, hall⟩)
      · exact .inr ⟨q :: before, p, after, r, rfl, List.forall_mem_cons.mpr ⟨hq, hbefore⟩, hr⟩
    · exact .inr ⟨[], q, ps, r, rfl, fun q' hq' => absurd hq' List.not_mem_nil, hr⟩

theorem head?_dropWhileEnd {f : Char → Bool} {c : Char} (hc : f c = false) (s : Text) :
    (Text.dropWhileEnd f s).head? = some c ↔ s.head? = some c := by
  obtain ⟨t, ht⟩ : Text.dropWhileEnd f s <+: s := List.rdropWhile_prefix f s
  constructor
  · intro h
    rw [← ht, List.head?_append, h, Option.some_or]
  · intro h
    obtain ⟨s', rfl⟩ := List.head?_eq_some_iff.mp h
    cases hd : Text.dropWhileEnd f (c :: s') with
    | nil =>
      have hall := List.rdropWhile_eq_nil_iff.mp hd c List.mem_cons_self
      rw [hc] at hall
      cases hall
    | cons c' t' =>
      rw [hd] at ht
      cases ht
      rfl

/-- There is no home directory to search exactly if none is known, or if the one that is known is
written as someone's home directory. -/
theorem homeDirectory_eq_error_iff (host : Host) (env : Environment) (e : LoadError) :
    homeDirectory host env = .error e ↔ e = .noHome ∧
      ∀ home, (env.get? "HOME").or host.account = some home → home.head? = some '~' := by
  simp only [homeDirectory]
  cases (env.get? "HOME").or host.account with
  | none => simp [eq_comm]
  | some home =>
    simp only [Option.some.injEq, forall_eq']
    rw [← head?_dropWhileEnd (f := (· == '/')) (c := '~') (by decide) home]
    cases Text.dropWhileEnd (fun c => c == '/') home with
    | nil => simp
    | cons c s =>
      by_cases hc : c = '~'
      · simp [hc, eq_comm]
      · simp [hc]

theorem candidates_of_given (h : explicit.getD [] ≠ []) :
    candidates host d env explicit =
      match d.exists? (Path.ofText (explicit.getD [])).text with
      | .error e => .error (.lookup e)
      | .ok false => .error (.notFound (explicit.getD []))
      | .ok true => .ok [Path.ofText (explicit.getD [])] := by
  rw [candidates]
  exact (if_neg (by simpa using h)).trans rfl

theorem candidates_of_not_given (h : explicit.getD [] = []) :
    candidates host d env explicit = searched host env explicit := by
  rw [candidates, searched, if_pos (by simp [h]), if_pos h]
  cases homeDirectory host env <;> rfl

theorem load_of_missing (h : Missing d explicit) :
    load host d env explicit = .error (.notFound (explicit.getD [])) := by
  rw [load, candidates_of_given h.1, h.2]
  rfl

theorem load_of_searched_error {e : LoadError} (h : searched host env explicit = .error e) :
    load host d env explicit = .error e ∧ explicit.getD [] = [] ∧
      homeDirectory host env = .error e := by
  by_cases hgiven : explicit.getD [] = []
  · refine ⟨?_, hgiven, ?_⟩
    · rw [load, candidates_of_not_given hgiven, h]
      rfl
    · rw [searched, if_pos hgiven] at h
      cases hhome : homeDirectory host env with
      | error e' =>
        rw [hhome] at h
        cases h
        rfl
      | ok home =>
        rw [hhome] at h
        cases h
  · rw [searched, if_neg hgiven] at h
    cases h

theorem load_of_searched {ps : List Path} (h : searched host env explicit = .ok ps)
    (hthere : ¬ Missing d explicit) :
    load host d env explicit = firstOf host d env ps := by
  by_cases hgiven : explicit.getD [] = []
  · rw [load, candidates_of_not_given hgiven, h]
    rfl
  · rw [searched, if_neg hgiven] at h
    cases h
    rw [load, candidates_of_given hgiven]
    cases hexists : d.exists? (Path.ofText (explicit.getD [])).text with
    | error e => exact (firstOf_cons (Says.lookup hexists).consult []).symm
    | ok there =>
      cases there with
      | false => exact absurd ⟨hgiven, hexists⟩ hthere
      | true => rfl

theorem searched_of_given (h : explicit.getD [] ≠ []) :
    searched host env explicit = .ok [Path.ofText (explicit.getD [])] := if_neg h

/-- Where an error about the settings comes from. -/
theorem load_eq_error {e : LoadError} (h : load host d env explicit = .error e) :
    e = .notFound (explicit.getD []) ∨ searched host env explicit = .error e ∨
      ∃ ps p, searched host env explicit = .ok ps ∧ p ∈ ps ∧ Says host d env p (.error e) := by
  by_cases hthere : Missing d explicit
  · rw [load_of_missing hthere] at h
    cases h
    exact .inl rfl
  · cases hsearched : searched host env explicit with
    | error e' =>
      rw [(load_of_searched_error hsearched).1] at h
      cases h
      exact .inr (.inl rfl)
    | ok ps =>
      rw [load_of_searched hsearched hthere] at h
      rcases all_passedOver_or_says host d env ps with
        hall | ⟨before, p, after, r, rfl, hbefore, hr⟩
      · rw [← List.append_nil ps, firstOf_append fun q hq => (hall q hq).consult] at h
        cases h
      · rw [firstOf_append fun q hq => (hbefore q hq).consult, firstOf_cons hr.consult] at h
        exact .inr (.inr ⟨_, p, rfl, List.mem_append_right _ List.mem_cons_self, h ▸ hr⟩)

/-- Disks that agree where they are looked at also agree on whether a given file is there. -/
theorem missing_iff_of_agree {looked : List Path}
    (hgiven : explicit.getD [] ≠ [] → Path.ofText (explicit.getD []) ∈ looked)
    (hsame : ∀ q ∈ looked, d'.stat q.text = d.stat q.text) :
    Missing d' explicit ↔ Missing d explicit :=
  and_congr_right fun h => by rw [Disk.exists?_congr (hsame _ (hgiven h))]

/-- The first candidate with something to say decides, for every disk that agrees on the candidates
up to it; the defaults hold if there is none. A given file must be there, and is all that is looked
at. Where the usual places are searched, a home directory must be known first. -/
theorem first_candidate_decides (host : Host) (d : Disk) (env : Environment)
    (explicit : Option Text) :
    (Missing d explicit → load host d env explicit = .error (.notFound (explicit.getD []))) ∧
    (∀ ps, searched host env explicit = .ok ps → ¬ Missing d explicit →
      (∀ before p after r, ps = before ++ p :: after → (∀ q ∈ before, PassedOver host d q) →
        Says host d env p r → ∀ d' : Disk, (∀ q ∈ before ++ [p], d'.stat q.text = d.stat q.text) →
          load host d' env explicit = r) ∧
      ((∀ q ∈ ps, PassedOver host d q) → ∀ d' : Disk,
        (∀ q ∈ ps, d'.stat q.text = d.stat q.text) → load host d' env explicit = .ok {}) ∧
      ((∀ q ∈ ps, PassedOver host d q) ∨ ∃ before p after r, ps = before ++ p :: after ∧
        (∀ q ∈ before, PassedOver host d q) ∧ Says host d env p r)) ∧
    (explicit.getD [] ≠ [] → ∀ d' : Disk,
      d'.stat (Path.ofText (explicit.getD [])).text = d.stat (Path.ofText (explicit.getD [])).text →
        load host d' env explicit = load host d env explicit) ∧
    (∀ e, searched host env explicit = .error e → load host d env explicit = .error e ∧
      e = .noHome ∧ explicit.getD [] = [] ∧
      ∀ home, (env.get? "HOME").or host.account = some home → home.head? = some '~') := by
  refine ⟨load_of_missing, fun ps hps hthere => ⟨?_, ?_, all_passedOver_or_says host d env ps⟩,
    fun h d' hsame => ?_, fun e he => ?_⟩
  · rintro before p after r rfl hbefore hr d' hsame
    have hgiven : explicit.getD [] ≠ [] → Path.ofText (explicit.getD []) ∈ before ++ [p] := by
      intro h
      have hone := Except.ok.inj ((searched_of_given h).symm.trans hps)
      rw [List.singleton_eq_append_iff] at hone
      rcases hone with ⟨rfl, hp⟩ | ⟨-, hp⟩
      · cases hp
        exact List.mem_cons_self
      · cases hp
    have hnone : ∀ q ∈ before, consult host d' env q = .ok none := fun q hq =>
      (consult_congr (hsame q (List.mem_append_left _ hq))).trans (hbefore q hq).consult
    have hp : consult host d' env p = r.map some :=
      (consult_congr (hsame p (List.mem_append_right _ List.mem_cons_self))).trans hr.consult
    rw [load_of_searched hps (mt (missing_iff_of_agree hgiven hsame).mp hthere),
      firstOf_append hnone, firstOf_cons hp]
  · intro hall d' hsame
    have hgiven : explicit.getD [] ≠ [] → Path.ofText (explicit.getD []) ∈ ps := by
      intro h
      obtain rfl := Except.ok.inj ((searched_of_given h).symm.trans hps)
      exact List.mem_cons_self
    have hnone : ∀ q ∈ ps, consult host d' env q = .ok none := fun q hq =>
      (consult_congr (hsame q hq)).trans (hall q hq).consult
    rw [load_of_searched hps (mt (missing_iff_of_agree hgiven hsame).mp hthere),
      ← List.append_nil ps, firstOf_append hnone, firstOf]
  · have hlooked : ∀ q ∈ [Path.ofText (explicit.getD [])], d'.stat q.text = d.stat q.text :=
      List.forall_mem_singleton.mpr hsame
    have hmissing := missing_iff_of_agree (fun _ => List.mem_cons_self) hlooked
    by_cases hthere : Missing d explicit
    · rw [load_of_missing hthere, load_of_missing (hmissing.mpr hthere)]
    · rw [load_of_searched (searched_of_given h) hthere,
        load_of_searched (searched_of_given h) (mt hmissing.mp hthere), firstOf, firstOf,
        consult_congr hsame]
      rfl
  · obtain ⟨hload, hgiven, hhome⟩ := load_of_searched_error he
    obtain ⟨rfl, htilde⟩ := (homeDirectory_eq_error_iff host env e).mp hhome
    exact ⟨hload, rfl, hgiven, htilde⟩

/-- A home directory that is not known counts more than the settings of the project. -/
theorem project_settings_masked :
    let env : Environment := [("HOME", "~")]
    let d : Disk :=
      { nodes := [(["luadeob.yaml"], .file (Text.Utf8.encode "rename:\n  min_length: 5\n"))],
        working := [] }
    consult {} d env projectFile = .ok (some { rename := { minLength := 5 } }) ∧
      load {} d env none = .error .noHome := by
  decide +kernel

end Config
end LuaTidy
