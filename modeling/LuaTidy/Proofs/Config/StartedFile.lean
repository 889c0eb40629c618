import LuaTidy.Config.Document
import LuaTidy.Proofs.Config.FieldWise
import LuaTidy.Proofs.Config.Precedence

/-!
The file of settings that a project is started with. It is a document of all settings with their
defaults, in the order of their declaration; so where it is the first file of settings, the defaults
are loaded, whatever the environment is.
-/
namespace LuaTidy.Config

/-- The file is written and read as one text, and this text says what the defaults are. -/
theorem template_document :
    Text.Utf8.decode (Text.Utf8.encode template) = .ok template ∧
      Text.unifyLineEnds template = template ∧ Yaml.read template = .ok (dump {}) := by
  -- The characters of the lines are spelled out once, and not again at every step of a reader.
  simp only [template, templateLines, List.map_cons, List.map_nil, String.reduceToList]
  decide +kernel

/-- Nothing in the defaults refers to the environment. -/
theorem expand_dump_defaults (env : Environment) : env.expand (dump {}) = dump {} := rfl

/-- A host reads and checks the file of settings for a project like the usual libraries. -/
structure UsualHost (host : Host) : Prop where
  reads : host.reader template = Yaml.read template
  room : host.overflows (dump {}) = false
  accepts : host.validator (dump {}) = ofValue (dump {})

section
variable {host : Host} {d : Disk} {env : Environment} {explicit : Option Text} {home : Path}

theorem says_defaults {p : Path} (hhost : UsualHost host) (env : Environment)
    (hread : d.read p.text = .ok (Text.Utf8.encode template)) : Says host d env p (.ok {}) := by
  obtain ⟨hdecode, hlines, hdocument⟩ := template_document
  obtain ⟨es, hes⟩ : ∃ es, dump {} = .map es := ⟨_, rfl⟩
  have hreader : host.reader (Text.unifyLineEnds template) = .ok (.map es) := by
    rw [hlines, hhost.reads, hdocument, hes]
  refine .valid hread hdecode hreader (hes ▸ hhost.room) ?_
  rw [← hes, expand_dump_defaults, hhost.accepts]
  exact ofValue_dump (by decide) (by decide)

/-- Without a given file, what the file of the project says is loaded; if it says nothing, the file
below the home directory counts. -/
theorem load_of_projectFile (hgiven : explicit.getD [] = [])
    (hhome : homeDirectory host env = .ok home) :
    (∀ r, Says host d env projectFile r → load host d env explicit = r) ∧
    (PassedOver host d projectFile → load host d env explicit =
      firstOf host d env [{ home with parts := home.parts ++ userFileParts }]) := by
  have hsearched : searched host env explicit =
      .ok [projectFile, { home with parts := home.parts ++ userFileParts }] := by
    rw [searched, if_pos hgiven, hhome]
    rfl
  rw [load_of_searched hsearched fun h => h.1 hgiven]
  refine ⟨fun r hr => firstOf_cons hr.consult _, fun hnone => ?_⟩
  rw [firstOf, hnone.consult]
  rfl

/-- Where the project has its file of settings as it is started, the defaults are loaded, if there
is a home directory at all. -/
theorem load_started (hhost : UsualHost host) (hgiven : explicit.getD [] = [])
    (hread : d.read projectFile.text = .ok (Text.Utf8.encode template)) :
    load host d env explicit = (homeDirectory host env).map fun _ => {} := by
  cases hhome : homeDirectory host env with
  | error e =>
    have hsearched : searched host env explicit = .error e := by
      rw [searched, if_pos hgiven, hhome]
      rfl
    exact (load_of_searched_error hsearched).1
  | ok home => exact (load_of_projectFile hgiven hhome).1 _ (says_defaults hhost env hread)

end
end LuaTidy.Config
