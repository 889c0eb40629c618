import LuaTidy.Text.Basic
import LuaTidy.Proofs.Lua.NamesInCode
import LuaTidy.Proofs.Rewrite.BlankRuns
import LuaTidy.Proofs.Rewrite.QuotedPayloads

/-!
Programs that give names to literals in double quotes. When the literals are codes, the programs
hold nothing that a stage before decoding acts on; decoding puts every text in place of its code.
-/
namespace LuaTidy.Payloads

/-- The statement that gives a name a literal. -/
def assignment (x body : Text) : Text := x ++ ([' ', '=', ' '] ++ '"' :: (body ++ ['"']))

/-- Statements with single spaces between them. -/
def program (ps : List (Text × Text)) : Text :=
  Text.joinWith [' '] (ps.map fun p => assignment p.1 p.2)

/-- The same statements with codes in place of the texts. -/
def encoded (ps : List (Text × Text)) : List (Text × Text) := ps.map fun p => (p.1, codeOf p.2)

/-- The statements read one by one, the first one after `lead` and the others after a space. -/
def assignments (lead : Text) : List (Text × Text) → Text
  | [] => []
  | p :: ps => (lead ++ (p.1 ++ [' ', '=', ' '])) ++ '"' :: (p.2 ++ '"' :: assignments [' '] ps)

theorem program_eq (ps : List (Text × Text)) : program ps = assignments [] ps := by
  induction ps with
  | nil => rfl
  | cons p ps ih =>
    cases ps with
    | nil => simp [program, assignments, assignment, Text.joinWith]
    | cons q ps =>
      have hjoin : program (p :: q :: ps) = assignment p.1 p.2 ++ [' '] ++ program (q :: ps) := rfl
      rw [hjoin, ih]
      simp [assignments, assignment]

/-- A short name and a text that can be brought back from its code. -/
structure Recoverable (p : Text × Text) : Prop where
  name : Lua.isName p.1 = true
  short : p.1.length ≤ 10
  ne_nil : p.2 ≠ []
  printable : Text.allPrintable p.2 = true

theorem not_mem_assignments {c : Char} {lead : Text} (hlead : c ∉ lead)
    (hc : c ∉ [' ', '=', '"']) {ps : List (Text × Text)} (hps : ∀ p ∈ ps, c ∉ p.1 ∧ c ∉ p.2) :
    c ∉ assignments lead ps := by
  simp only [List.mem_cons, List.not_mem_nil, or_false, not_or] at hc
  induction ps generalizing lead with
  | nil => simp [assignments]
  | cons p ps ih =>
    obtain ⟨hx, hbody⟩ := hps p List.mem_cons_self
    have hrest : c ∉ assignments [' '] ps :=
      ih (by simp [hc]) fun q hq => hps q (List.mem_cons_of_mem _ hq)
    simp [assignments, hlead, hx, hbody, hrest, hc]

theorem isBlank_of_mem_code {d : Text} (hd : Text.allPrintable d = true) :
    ∀ c ∈ codeOf d, Text.isBlank c = false := forall_mem_codeOf (by decide) (by decide) hd

theorem hasLongRun_assignments {lead : Text} (hlead : lead = [] ∨ lead = [' '])
    {ps : List (Text × Text)} (hps : ∀ p ∈ ps, Recoverable p) :
    Blanks.hasLongRun (assignments lead (encoded ps)) = false := by
  induction ps generalizing lead with
  | nil => rfl
  | cons p ps ih =>
    have hp := hps p List.mem_cons_self
    have hrest : Blanks.hasLongRun (assignments [' '] (encoded ps)) = false :=
      ih (Or.inr rfl) fun q hq => hps q (List.mem_cons_of_mem _ hq)
    obtain ⟨hne, hword⟩ := Lua.isWord_of_isName hp.name
    obtain ⟨c, cs, hx⟩ := List.exists_cons_of_ne_nil hne
    have hblank : ∀ d ∈ p.1, Text.isBlank d = false := fun d hd =>
      Text.not_isBlank_of_isWordChar (hword d hd)
    have hfirst : Blanks.hasLongRun (lead ++ (p.1 ++ [' ', '=', ' '])) = false := by
      rw [hx] at hblank ⊢
      rw [List.cons_append, Blanks.hasLongRun_append_cons (hblank c List.mem_cons_self),
        Blanks.hasLongRun_append_of_no_blank fun d hd => hblank d (List.mem_cons_of_mem _ hd)]
      rcases hlead with rfl | rfl <;> decide
    have hquote := Blanks.hasLongRun_append_cons (c := '"') (by decide) []
      (assignments [' '] (encoded ps))
    simp only [encoded, List.map_cons, assignments] at hrest hquote ⊢
    rw [Blanks.hasLongRun_append_cons (by decide), hfirst,
      Blanks.hasLongRun_append_of_no_blank (isBlank_of_mem_code hp.printable)]
    exact hquote.trans hrest

private theorem not_isQuote_opening {lead x : Text} (hlead : ∀ c ∈ lead, Lua.isQuote c = false)
    (hx : Lua.isName x = true) :
    ∀ c ∈ lead ++ (x ++ [' ', '=', ' ']), Lua.isQuote c = false := by
  have hsign : ∀ c ∈ [' ', '=', ' '], Lua.isQuote c = false := by simp [Lua.isQuote]
  intro c hc
  rcases List.mem_append.mp hc with hc | hc
  · exact hlead c hc
  rcases List.mem_append.mp hc with hc | hc
  · exact Text.not_isQuote_of_isWordChar ((Lua.isWord_of_isName hx).2 c hc)
  · exact hsign c hc

private theorem names_opening {lead x : Text} (hlead : lead = [] ∨ lead = [' '])
    (hx : Lua.isName x = true) : Lua.names (lead ++ (x ++ [' ', '=', ' '])) = [x] := by
  have hnil : Lua.names ([] : Text) = [] := rfl
  have hsign : Lua.names ['=', ' '] = [] := by decide
  have hname : Lua.names (x ++ [' ', '=', ' ']) = [x] := by
    rw [Lua.names_append_gap (by decide), Lua.names_of_isName hx, hsign, List.append_nil]
  rcases hlead with rfl | rfl
  · exact hname
  · have hspace := Lua.names_append_gap (c := ' ') (by decide) [] (x ++ [' ', '=', ' '])
    rw [hname, hnil] at hspace
    exact hspace

/-- All long names of such a program stand inside its codes. -/
theorem length_le_of_mem_namesOutside {lead : Text} (hlead : lead = [] ∨ lead = [' '])
    {ps : List (Text × Text)} (hps : ∀ p ∈ ps, Recoverable p) {k : Nat} {n : Text}
    (hn : n ∈ Lua.namesOutsideFrom k (assignments lead (encoded ps))) : n.length ≤ 10 := by
  induction ps generalizing lead k with
  | nil => simp [encoded, assignments, Lua.namesOutsideFrom, Lua.lexemes, Lua.placedNamesFrom] at hn
  | cons p ps ih =>
    have hp := hps p List.mem_cons_self
    have hplain : ∀ c ∈ codeOf p.2, c ≠ '"' ∧ c ≠ '\\' ∧ c ≠ '\n' :=
      forall_mem_codeOf (by decide) (by decide) hp.printable
    have hclose := Lua.closing?_append hplain (assignments [' '] (encoded ps))
    have hquote : ∀ c ∈ lead, Lua.isQuote c = false := by
      rcases hlead with rfl | rfl <;> simp [Lua.isQuote]
    have hopening := not_isQuote_opening hquote hp.name
    rcases Lua.mem_namesOutsideFrom_quoted hopening (by decide) hclose hn with hn | hn
    · rw [names_opening hlead hp.name] at hn
      cases List.mem_singleton.mp hn
      exact hp.short
    · exact ih (Or.inr rfl) (fun q hq => hps q (List.mem_cons_of_mem _ hq)) hn

/-- Decoding such a program puts every text in the place of its code. -/
theorem decode_assignments {lead : Text} (hlead : ∀ c ∈ lead, Lua.isQuote c = false)
    {ps : List (Text × Text)} (hps : ∀ p ∈ ps, Recoverable p) :
    decode (assignments lead (encoded ps)) = ⟨assignments lead ps, ps.length⟩ := by
  induction ps generalizing lead with
  | nil => rfl
  | cons p ps ih =>
    have hp := hps p List.mem_cons_self
    have hrest : decode (assignments [' '] (encoded ps)) = ⟨assignments [' '] ps, ps.length⟩ :=
      ih (by simp [Lua.isQuote]) fun q hq => hps q (List.mem_cons_of_mem _ hq)
    have hopening := not_isQuote_opening hlead hp.name
    have hfound := decode_found
      (payload?_codeOf hp.ne_nil hp.printable (t := assignments [' '] (encoded ps)))
    have hdecode := decode_plain_append hopening
      ('"' :: (codeOf p.2 ++ '"' :: assignments [' '] (encoded ps)))
    rw [hfound, hrest] at hdecode
    refine hdecode.trans ?_
    simp [assignments, written, Text.Piece.value?]

end LuaTidy.Payloads
