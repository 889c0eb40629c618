import LuaTidy.Console.Markup
import LuaTidy.Proofs.Text.CharacterClasses
import LuaTidy.Proofs.Text.PieceScan
import LuaTidy.Proofs.Text.Trimming
import Mathlib.Data.List.TakeWhile

/-!
What printing leaves out. A text is printed as it is exactly if no control sequence occurs in it.
-/
namespace LuaTidy.Console

/-- The characters between the bracket and the letter of a control sequence. -/
def isParameter (c : Char) : Bool := Text.isDigit c || c == ';' || c == '?'

/-- The letters that end a control sequence. -/
def isFinal (c : Char) : Bool := ('a' ≤ c && c ≤ 'z') || ('A' ≤ c && c ≤ 'Z')

/-- An escape character, a bracket, parameters, and a letter. -/
def IsControl (t : Text) : Prop :=
  ∃ ps d, t = '\x1b' :: '[' :: (ps ++ [d]) ∧ (∀ c ∈ ps, isParameter c = true) ∧ isFinal d = true

theorem not_isParameter_of_isFinal {c : Char} (h : isFinal c = true) : isParameter c = false := by
  have hletter : 0x41 ≤ c.toNat := by
    simp only [isFinal, Bool.or_eq_true, Bool.and_eq_true, decide_eq_true_eq, Text.le_iff_toNat_le,
      Char.reduceToNat] at h
    omega
  cases hp : isParameter c with
  | false => rfl
  | true =>
    exfalso
    simp only [isParameter, Text.isDigit, Bool.or_eq_true, Bool.and_eq_true, decide_eq_true_eq,
      beq_iff_eq, Text.le_iff_toNat_le, Char.reduceToNat] at hp
    rcases hp with (hp | rfl) | rfl
    · omega
    · exact absurd hletter (by decide)
    · exact absurd hletter (by decide)

theorem controlSequence?_bracket (rest : Text) :
    controlSequence? '\x1b' ('[' :: rest) =
      match rest.dropWhile isParameter with
      | d :: _ => if isFinal d then some ((rest.takeWhile isParameter).length + 2, ()) else none
      | [] => none := rfl

/-- Control sequences are recognised where they begin. -/
theorem isSome_controlSequence?_iff (c : Char) (cs : Text) :
    (controlSequence? c cs).isSome ↔ ∃ t, IsControl t ∧ t <+: c :: cs := by
  constructor
  · intro h
    have hopen : c = '\x1b' ∧ ∃ rest, cs = '[' :: rest := by
      rw [controlSequence?.eq_def] at h
      split at h
      · exact ⟨rfl, _, rfl⟩
      · cases h
    obtain ⟨rfl, rest, rfl⟩ := hopen
    rw [controlSequence?_bracket] at h
    have hsplit : rest.takeWhile isParameter ++ rest.dropWhile isParameter = rest :=
      List.takeWhile_append_dropWhile
    split at h
    · next d more hd =>
      split at h
      · next hfinal =>
        refine ⟨_, ⟨rest.takeWhile isParameter, d, rfl, ?_, hfinal⟩, more, ?_⟩
        · exact fun e he => List.mem_takeWhile_imp he
        · rw [hd] at hsplit
          simp [hsplit]
      · cases h
    · cases h
  · rintro ⟨_, ⟨ps, d, rfl, hps, hd⟩, more, hs⟩
    simp only [List.cons_append, List.append_assoc, List.nil_append, List.cons.injEq] at hs
    obtain ⟨rfl, rfl⟩ := hs
    have hstop : ∀ c ∈ (d :: more).head?, isParameter c = false := by
      intro c hc
      cases hc
      exact not_isParameter_of_isFinal hd
    rw [controlSequence?_bracket, Text.dropWhile_append_of_head hps hstop]
    simp [hd]

theorem echo_cons_kept {c : Char} {cs : Text} (h : controlSequence? c cs = none) :
    echo (c :: cs) = c :: echo cs := by
  rw [echo, Text.pieces_cons_kept h]
  rfl

theorem echo_cons_found {c : Char} {cs : Text} {n : Nat} (h : controlSequence? c cs = some (n, ())) :
    echo (c :: cs) = echo (cs.drop n) := by
  rw [echo, Text.pieces_cons_found h]
  rfl

theorem length_echo_le (s : Text) : (echo s).length ≤ s.length := by
  induction hn : s.length using Nat.strongRecOn generalizing s with
  | _ n ih =>
    cases s with
    | nil => exact Nat.zero_le _
    | cons c cs =>
      rw [List.length_cons] at hn
      cases h : controlSequence? c cs with
      | none =>
        rw [echo_cons_kept h, List.length_cons]
        have hcs := ih cs.length (by omega) cs rfl
        omega
      | some p =>
        rw [echo_cons_found h]
        have hrest := ih (cs.drop p.1).length (by rw [List.length_drop]; omega) _ rfl
        rw [List.length_drop] at hrest
        omega

/-- A text is printed as it is exactly if no control sequence occurs in it. -/
theorem echo_eq_self_iff (s : Text) : echo s = s ↔ ∀ t, IsControl t → ¬ t <:+: s := by
  induction s with
  | nil =>
    refine ⟨fun _ => ?_, fun _ => rfl⟩
    rintro _ ⟨ps, d, rfl, -⟩ h
    exact absurd (List.eq_nil_of_infix_nil h) (List.cons_ne_nil _ _)
  | cons c cs ih =>
    cases h : controlSequence? c cs with
    | none =>
      have hstart : ∀ t, IsControl t → ¬ t <+: c :: cs := by
        intro t ht hprefix
        have hsome := (isSome_controlSequence?_iff c cs).mpr ⟨t, ht, hprefix⟩
        rw [h] at hsome
        cases hsome
      rw [echo_cons_kept h, List.cons.injEq, and_iff_right rfl, ih]
      refine forall₂_congr fun t ht => ?_
      rw [List.infix_cons_iff, or_iff_right (hstart t ht)]
    | some p =>
      refine ⟨fun he => ?_, fun hnone => ?_⟩
      · -- what is left out is missing
        have hlen := congrArg List.length he
        have hle := length_echo_le (cs.drop p.1)
        rw [echo_cons_found h, List.length_cons] at hlen
        rw [List.length_drop] at hle
        omega
      · obtain ⟨t, ht, hprefix⟩ := (isSome_controlSequence?_iff c cs).mp (by rw [h]; rfl)
        exact absurd hprefix.isInfix (hnone t ht)

theorem echo_of_not_mem {s : Text} (h : '\x1b' ∉ s) : echo s = s := by
  refine (echo_eq_self_iff s).mpr ?_
  rintro _ ⟨ps, d, rfl, -⟩ hoccurs
  exact h (hoccurs.subset List.mem_cons_self)

/-- A line is printed as it is exactly if no control sequence occurs before its end. -/
theorem echo_line_eq_self_iff (s : Text) :
    echo (s ++ ['\n']) = s ++ ['\n'] ↔ ∀ t, IsControl t → ¬ t <:+: s := by
  rw [echo_eq_self_iff]
  refine forall₂_congr fun t ht => ?_
  obtain ⟨ps, d, rfl, -, hd⟩ := ht
  have hend : ¬ '\x1b' :: '[' :: (ps ++ [d]) <:+ s ++ ['\n'] := by
    rintro ⟨u, hu⟩
    have hlast := congrArg List.getLast? hu
    rw [← List.cons_append, ← List.cons_append, ← List.append_assoc, List.getLast?_concat,
      List.getLast?_concat, Option.some.injEq] at hlast
    rw [hlast] at hd
    revert hd
    decide
  rw [List.infix_concat_iff, or_iff_right hend]

end LuaTidy.Console
