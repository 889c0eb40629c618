import LuaTidy.Json.Reader
import LuaTidy.Output.Writer
import LuaTidy.Proofs.Json.Strings
import LuaTidy.Proofs.Text.Parts

/-!
Outcomes as documents: the document of an outcome is read back as a map with its text and its list
of techniques. Reading is followed token by token, with the rest of the document kept general.
-/
namespace LuaTidy.Json

section
variable {fuel : Nat} {s rest more tail : Text} {v : Value}

theorem skip_append (blanks : Text) (hblanks : blanks.all isSpace = true) {c : Char}
    (hc : isSpace c = false) (cs : Text) : skip (blanks ++ c :: cs) = c :: cs := by
  rw [skip, List.dropWhile_append_of_pos (List.all_eq_true.mp hblanks),
    List.dropWhile_cons_of_neg (by simp [hc])]

theorem skip_cons {c : Char} (hc : isSpace c = false) (cs : Text) : skip (c :: cs) = c :: cs :=
  skip_append [] (by simp) hc cs

theorem quote_append (s tail : Text) :
    quote s ++ tail = '"' :: (s.flatMap escape ++ '"' :: tail) := by
  simp [quote]

theorem value?_quote (fuel : Nat) (blanks : Text) (hblanks : blanks.all isSpace = true)
    (s tail : Text) : value? (fuel + 1) (blanks ++ (quote s ++ tail)) = some (.text s, tail) := by
  rw [quote_append, value?, skip_append blanks hblanks (by decide)]
  simp only [unquote?_escaped, Option.map_some]

theorem items?_more (hv : value? fuel s = some (v, rest)) (hskip : skip rest = ',' :: more) :
    items? (fuel + 1) s = (items? fuel more).map fun p => (v :: p.1, p.2) := by
  simp only [items?, hv, Option.bind_eq_bind, Option.bind_some, hskip]

theorem items?_last (hv : value? fuel s = some (v, rest)) (hskip : skip rest = ']' :: tail) :
    items? (fuel + 1) s = some ([v], tail) := by
  simp only [items?, hv, Option.bind_eq_bind, Option.bind_some, hskip]

/-- One item after another, each on a line of its own, up to the closing bracket. -/
theorem items?_quotes (fuel : Nat) (blanks : Text) (hblanks : blanks.all isSpace = true)
    (t : Text) (ts : List Text) (hfuel : ts.length + 1 < fuel) (tail : Text) :
    items? fuel (blanks ++ (Text.joinWith ",\n" ((t :: ts).map fun t => "    " ++ quote t) ++
      ("\n  ]" ++ tail))) = some ((t :: ts).map Value.text, tail) := by
  have hcomma : (",\n" : Text) = [',', '\n'] := by decide
  have hclose : ("\n  ]" : Text) = ['\n', ' ', ' '] ++ [']'] := by decide
  induction ts generalizing fuel blanks t with
  | nil =>
    obtain ⟨f, rfl⟩ : ∃ f, fuel = f + 1 + 1 := Nat.exists_eq_add_of_le' hfuel
    have hindent : (blanks ++ "    ").all isSpace = true := by
      rw [List.all_append, hblanks]
      decide
    have hskip : skip ("\n  ]" ++ tail) = ']' :: tail := by
      rw [hclose, List.append_assoc]
      exact skip_append _ (by decide) (by decide) tail
    have hvalue := value?_quote f _ hindent t ("\n  ]" ++ tail)
    rw [List.append_assoc] at hvalue
    simp only [List.map_cons, List.map_nil, Text.joinWith, List.append_assoc]
    exact items?_last hvalue hskip
  | cons u ts ih =>
    rw [List.length_cons] at hfuel
    obtain ⟨f, rfl⟩ : ∃ f, fuel = f + 1 + 1 := ⟨fuel - 2, by omega⟩
    have hindent : (blanks ++ "    ").all isSpace = true := by
      rw [List.all_append, hblanks]
      decide
    have hmore := ih (f + 1) ['\n'] (by decide) u (by omega)
    have hskip : ∀ w : Text, skip (",\n" ++ w) = ',' :: '\n' :: w := by
      intro w
      rw [hcomma]
      exact skip_cons (by decide) _
    rw [List.map_cons] at hmore
    rw [List.map_cons, List.map_cons, Text.joinWith_cons_cons]
    simp only [List.append_assoc] at hmore ⊢
    have hvalue := value?_quote f _ hindent t (",\n" ++
      (Text.joinWith ",\n" (("    " ++ quote u) :: ts.map fun t => "    " ++ quote t) ++
        ("\n  ]" ++ tail)))
    rw [List.append_assoc] at hvalue
    rw [items?_more hvalue (hskip _)]
    have hitems := congrArg (Option.map fun p : List Value × Text => (Value.text t :: p.1, p.2)) hmore
    exact hitems

/-- The techniques of an outcome as they stand in its document. -/
def listed (ts : List Text) : Text :=
  if ts.isEmpty then "[]"
  else "[\n" ++ Text.joinWith ",\n" (ts.map fun t => "    " ++ quote t) ++ "\n  ]"

theorem value?_list (fuel : Nat) (ts : List Text) (hfuel : ts.length + 2 < fuel) (tail : Text) :
    value? fuel (' ' :: (listed ts ++ tail)) = some (.list (ts.map .text), tail) := by
  obtain ⟨f, rfl⟩ : ∃ f, fuel = f + 1 := ⟨fuel - 1, by omega⟩
  have hopen : ∀ w, skip (' ' :: '[' :: w) = '[' :: w := fun w =>
    skip_append [' '] (by decide) (by decide) w
  cases ts with
  | nil =>
    have hlist : listed [] = ['[', ']'] := by decide
    have hclose : skip (']' :: tail) = ']' :: tail := skip_cons (by decide) tail
    simp only [hlist, List.cons_append, List.nil_append, value?, hopen, hclose]
    rfl
  | cons t ts =>
    have hstart : ("[\n" : Text) = ['[', '\n'] := by decide
    have hlist : listed (t :: ts) ++ tail = '[' :: ('\n' :: (Text.joinWith ",\n"
        ((t :: ts).map fun t => "    " ++ quote t) ++ ("\n  ]" ++ tail))) := by
      simp only [listed, List.isEmpty_cons, Bool.false_eq_true, if_false, hstart, List.append_assoc]
      rfl
    have hitems := items?_quotes f ['\n'] (by decide) t ts (by simp at hfuel; omega) tail
    -- what follows the bracket begins with a quote, so the list is not empty
    obtain ⟨w, hw⟩ := Text.exists_joinWith_cons ",\n" ("    " ++ quote t)
      (ts.map fun t => "    " ++ quote t)
    have hquote : skip ('\n' :: (Text.joinWith ",\n"
        ((t :: ts).map fun t => "    " ++ quote t) ++ ("\n  ]" ++ tail))) =
        '"' :: (t.flatMap escape ++ '"' :: (w ++ ("\n  ]" ++ tail))) := by
      rw [List.map_cons, hw, List.append_assoc, List.append_assoc, quote_append]
      exact skip_append "\n    " (by decide) (by decide) _
    rw [hlist]
    simp only [value?, hopen, hquote]
    exact congrArg (Option.map fun p : List Value × Text => (Value.list p.1, p.2)) hitems

theorem members?_more (blanks : Text) (hblanks : blanks.all isSpace = true) (k : Text)
    (hv : value? fuel s = some (v, rest)) (hskip : skip rest = ',' :: more) :
    members? (fuel + 1) (blanks ++ (quote k ++ ':' :: s)) =
      (members? fuel more).map fun p => ((.text k, v) :: p.1, p.2) := by
  have hcolon : skip (':' :: s) = ':' :: s := skip_cons (by decide) s
  rw [quote_append]
  simp only [members?, skip_append blanks hblanks (c := '"') (by decide), unquote?_escaped,
    Option.bind_eq_bind, Option.bind_some, hcolon, hv, hskip]

theorem members?_last (blanks : Text) (hblanks : blanks.all isSpace = true) (k : Text)
    (hv : value? fuel s = some (v, rest)) (hskip : skip rest = '\x7d' :: tail) :
    members? (fuel + 1) (blanks ++ (quote k ++ ':' :: s)) = some ([(.text k, v)], tail) := by
  have hcolon : skip (':' :: s) = ':' :: s := skip_cons (by decide) s
  rw [quote_append]
  simp only [members?, skip_append blanks hblanks (c := '"') (by decide), unquote?_escaped,
    Option.bind_eq_bind, Option.bind_some, hcolon, hv, hskip]

theorem value?_members {w : Text} {es : List (Scalar × Value)} (hquote : skip s = '"' :: w)
    (h : members? fuel s = some (es, tail)) :
    value? (fuel + 1) ('\x7b' :: s) = some (.map (Entries.ofList es), tail) := by
  simp only [value?, skip_cons (c := '\x7b') (by decide), hquote, h, Option.map_some]
  rfl

end

theorem length_le_length_joinWith (sep : Text) (ps : List Text) (h : ∀ p ∈ ps, p ≠ []) :
    ps.length ≤ (Text.joinWith sep ps).length := by
  induction ps with
  | nil => exact Nat.zero_le _
  | cons p ps ih =>
    have hp := List.length_pos_iff.mpr (h p List.mem_cons_self)
    have hps := ih fun q hq => h q (List.mem_cons_of_mem _ hq)
    cases ps with
    | nil => exact hp
    | cons q ps =>
      rw [Text.joinWith_cons_cons, List.length_append, List.length_append, List.length_cons]
      omega

theorem length_le_length_listed (ts : List Text) : ts.length ≤ (listed ts).length := by
  rw [listed]
  split
  · next h => rw [List.isEmpty_iff.mp h]; exact Nat.zero_le _
  · have hitems := length_le_length_joinWith ",\n" (ts.map fun t => "    " ++ quote t)
      fun p hp => by
        obtain ⟨t, -, rfl⟩ := List.mem_map.mp hp
        simp [quote]
    rw [List.length_map] at hitems
    rw [List.length_append, List.length_append]
    omega

/-- The tokens of the document of an outcome. -/
theorem json_eq (o : Outcome) : o.json ++ ['\n'] =
    '\x7b' :: (['\n', ' ', ' '] ++ (quote "text" ++ ':' :: ([' '] ++ (quote o.text ++ ',' ::
      (['\n', ' ', ' '] ++ (quote "techniques" ++ ':' :: ' ' ::
        (listed o.techniques ++ ['\n', '\x7d', '\n'])))))))  := by
  have hfirst : ("\x7b\n  \"text\": " : Text) =
      '\x7b' :: (['\n', ' ', ' '] ++ (quote "text" ++ [':', ' '])) := by rfl
  have hsecond : (",\n  \"techniques\": " : Text) =
      ',' :: (['\n', ' ', ' '] ++ (quote "techniques" ++ [':', ' '])) := by rfl
  have hlast : ("\n\x7d" : Text) = ['\n', '\x7d'] := by decide
  have hjson : o.json = "\x7b\n  \"text\": " ++ quote o.text ++ ",\n  \"techniques\": " ++
      listed o.techniques ++ "\n\x7d" := rfl
  rw [hjson, hfirst, hsecond, hlast]
  simp only [List.append_assoc, List.cons_append, List.nil_append]

/-- The document of an outcome, with a line end behind it, is a map with the text and the
techniques of the outcome. -/
theorem read?_json (o : Outcome) : read? (o.json ++ ['\n']) =
    some (.map [(.text "text", .text o.text),
      (.text "techniques", .list (o.techniques.map Value.text))]) := by
  have hblanks : ['\n', ' ', ' '].all isSpace = true := by decide
  have hend : skip ['\n', '\x7d', '\n'] = ['\x7d', '\n'] := by decide
  have hkeys : Entries.ofList [(Scalar.text "text", Value.text o.text),
      (Scalar.text "techniques", Value.list (o.techniques.map Value.text))] =
      [(Scalar.text "text", Value.text o.text),
        (Scalar.text "techniques", Value.list (o.techniques.map Value.text))] := by
    simp [Entries.ofList, Entries.update, Entries.insert]
  -- one unit of fuel for the map, one for each member, and the rest for the list
  obtain ⟨f, hlength, hfuel⟩ : ∃ f, (o.json ++ ['\n']).length = f + 1 + 1 ∧
      o.techniques.length + 2 < f := by
    have hlisted := length_le_length_listed o.techniques
    have htotal := congrArg List.length (json_eq o)
    simp only [List.length_cons, List.length_append] at htotal
    exact ⟨(o.json ++ ['\n']).length - 2, by simp only [List.length_append]; omega,
      by simp only [List.length_append]; omega⟩
  have hlist := value?_list f o.techniques hfuel ['\n', '\x7d', '\n']
  have htechniques := members?_last _ hblanks "techniques" hlist hend
  have htext := value?_quote f [' '] (by decide) o.text (',' :: (['\n', ' ', ' '] ++
    (quote "techniques" ++ ':' :: ' ' :: (listed o.techniques ++ ['\n', '\x7d', '\n']))))
  have hmembers := members?_more _ hblanks "text" htext (skip_cons (by decide) _)
  rw [htechniques, Option.map_some] at hmembers
  have hquote : ∀ w, skip (['\n', ' ', ' '] ++ (quote "text" ++ w)) =
      '"' :: (("text" : Text).flatMap escape ++ '"' :: w) := by
    intro w
    rw [quote_append]
    exact skip_append _ hblanks (by decide) _
  have hvalue := value?_members (hquote _) hmembers
  rw [← json_eq] at hvalue
  rw [read?, hlength, hvalue, hkeys]
  rfl

/-- No control characters but line ends. -/
def Clear (s : Text) : Prop := ∀ c ∈ s, c = '\n' ∨ 0x20 ≤ c.toNat

instance decidableClear (s : Text) : Decidable (Clear s) :=
  decidable_of_iff (s.all fun c => decide (c = '\n' ∨ 0x20 ≤ c.toNat)) (by simp [Clear])

theorem Clear.append {s t : Text} (hs : Clear s) (ht : Clear t) : Clear (s ++ t) := by
  intro c hc
  rcases List.mem_append.mp hc with hc | hc
  · exact hs c hc
  · exact ht c hc

theorem clear_quote (s : Text) : Clear (quote s) := fun _ hc => Or.inr (toNat_of_mem_quote hc)

theorem clear_listed (ts : List Text) : Clear (listed ts) := by
  rw [listed]
  split
  · decide
  · refine (Clear.append (by decide) ?_).append (by decide)
    intro c hc
    have hcomma : Clear ",\n" := by decide
    rcases Text.mem_joinWith hc with hc | ⟨p, hp, hc⟩
    · exact hcomma c hc
    · obtain ⟨t, -, rfl⟩ := List.mem_map.mp hp
      exact Clear.append (by decide) (clear_quote t) c hc

theorem clear_json (o : Outcome) : Clear (o.json ++ ['\n']) := by
  have hjson : o.json = "\x7b\n  \"text\": " ++ quote o.text ++ ",\n  \"techniques\": " ++
      listed o.techniques ++ "\n\x7d" := rfl
  rw [hjson]
  refine ((((Clear.append ?_ (clear_quote _)).append ?_).append (clear_listed _)).append ?_).append ?_
  all_goals decide

end LuaTidy.Json
