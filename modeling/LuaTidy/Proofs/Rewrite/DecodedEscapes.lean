import LuaTidy.Proofs.Rewrite.HexOccurrences
import LuaTidy.Proofs.Text.Trimming

/-!
What decoding escapes comes to: every escape of a printable character is replaced, nothing else is
touched, and a text is read back from all the ways in which its characters can be written. Decoding
twice can find more, but only behind a backslash that begins no escape.
-/
namespace LuaTidy.HexEscapes
open Text (Piece hexValue? isPrintable)

/-- The escapes of printable characters in a text, all of them, and the characters beside them. -/
structure EscapesOf (s : Text) (ps : List (Piece Char)) : Prop where
  whole : ps.flatMap Piece.source = s
  escapes : ∀ e d, .found e d ∈ ps → IsEscape e d ∧ isPrintable d = true
  every : ∀ u e d v, s = u ++ (e ++ v) → IsEscape e d → isPrintable d = true →
    ∃ before after, ps = before ++ .found e d :: after ∧ before.flatMap Piece.source = u

/-- The character that takes the place of a piece. -/
def standsFor : Piece Char → Char
  | .kept c => c
  | .found _ d => d

namespace EscapesOf

variable {s : Text} {ps : List (Piece Char)}

theorem nil : EscapesOf [] [] where
  whole := rfl
  escapes := by simp
  every := by
    intro u e d v heq he _
    have hlen := congrArg List.length heq
    simp only [List.length_nil, List.length_append, he.length_eq] at hlen
    omega

theorem kept {c : Char} (hc : ¬ Begins (c :: s)) (h : EscapesOf s ps) :
    EscapesOf (c :: s) (.kept c :: ps) where
  whole := congrArg (c :: ·) h.whole
  escapes e d hmem := by
    rcases List.mem_cons.mp hmem with hmem | hmem
    · cases hmem
    · exact h.escapes e d hmem
  every := by
    intro u e d v heq he hd
    cases u with
    | nil => exact absurd ⟨e, d, v, he, hd, heq⟩ hc
    | cons b u =>
      cases heq
      obtain ⟨before, after, rfl, hu⟩ := h.every u e d v rfl he hd
      exact ⟨.kept c :: before, after, rfl, congrArg (c :: ·) hu⟩

theorem escape {e : Text} {d : Char} (he : IsEscape e d) (hd : isPrintable d = true)
    (h : EscapesOf s ps) : EscapesOf (e ++ s) (.found e d :: ps) where
  whole := congrArg (e ++ ·) h.whole
  escapes e' d' hmem := by
    rcases List.mem_cons.mp hmem with hmem | hmem
    · cases hmem
      exact ⟨he, hd⟩
    · exact h.escapes e' d' hmem
  every := by
    intro u e' d' v heq he' hd'
    cases u with
    | nil =>
      obtain ⟨rfl, rfl⟩ := he.unique he' heq
      exact ⟨[], ps, rfl, rfl⟩
    | cons b u =>
      -- another escape begins with a backslash, and so behind this one
      obtain ⟨ds', rfl, -⟩ := he'.exists_cons
      obtain ⟨rfl, ds, rfl, hu, -, hds⟩ := he.cons_eq heq.symm
      obtain ⟨w, rfl, hs⟩ := Text.split_at_char (fun hmem => (hds _ hmem).1 rfl) hu.symm
      obtain ⟨before, after, rfl, hw⟩ := h.every w _ d' v hs he' hd'
      refine ⟨.found ('\\' :: ds) d :: before, after, rfl, ?_⟩
      rw [List.flatMap_cons, hw]
      rfl

end EscapesOf

/-- The text after decoding and the number of its replacements, read off the escapes. -/
theorem exists_escapesOf (s : Text) : ∃ ps, EscapesOf s ps ∧
    decode s = ⟨ps.map standsFor, ps.countP fun p => p.value?.isSome⟩ := by
  induction s using escape_induction with
  | nil => exact ⟨[], .nil, rfl⟩
  | kept c cs hc ih =>
    obtain ⟨ps, hps, hdecode⟩ := ih
    refine ⟨_, hps.kept hc, ?_⟩
    rw [decode_cons hc, hdecode]
    rfl
  | escape e d t he hd ih =>
    obtain ⟨ps, hps, hdecode⟩ := ih
    refine ⟨_, hps.escape he hd, ?_⟩
    rw [decode_escape he hd, hdecode, List.countP_cons]
    rfl

/-- Each replacement takes three characters away. -/
theorem length_decode (s : Text) : (decode s).text.length + 3 * (decode s).hits = s.length := by
  induction s using escape_induction with
  | nil => rfl
  | kept c cs hc ih =>
    simp only [decode_cons hc, List.length_cons]
    omega
  | escape e d t he hd ih =>
    simp only [decode_escape he hd, List.length_append, he.length_eq, List.length_cons]
    omega

/-- How a character is written: by itself, or as an escape with digits in these letter cases. -/
inductive Way where
  | plain
  | escape (upperHigh upperLow : Bool)
  deriving DecidableEq, Repr

/-- A hexadecimal digit in one of the letter cases. -/
def digit (upper : Bool) (n : Nat) : Char :=
  if upper then (Text.hexDigit n).toUpper else Text.hexDigit n

namespace Way

def text (w : Way) (c : Char) : Text :=
  match w with
  | .plain => [c]
  | .escape upperHigh upperLow =>
    ['\\', 'x', digit upperHigh (c.toNat / 16), digit upperLow (c.toNat % 16)]

/-- A backslash must not be written by itself, and only printable characters have escapes. -/
def Admits (w : Way) (c : Char) : Prop :=
  match w with
  | .plain => c ≠ '\\'
  | .escape _ _ => isPrintable c = true ∧ c.toNat ≤ 255

theorem hexValue?_digit (upper : Bool) {n : Nat} (h : n < 16) :
    hexValue? (digit upper n) = some n := by
  have hall : ∀ n < 16, ∀ upper, hexValue? (digit upper n) = some n := by decide
  exact hall n h upper

theorem isEscape {c : Char} (hc : c.toNat ≤ 255) (upperHigh upperLow : Bool) :
    IsEscape ((Way.escape upperHigh upperLow).text c) c := by
  have hhigh := hexValue?_digit upperHigh (show c.toNat / 16 < 16 by omega)
  have hlow := hexValue?_digit upperLow (show c.toNat % 16 < 16 by omega)
  have hescape := IsEscape.intro hhigh hlow
  rwa [Nat.div_add_mod', Char.ofNat_toNat] at hescape

end Way

theorem decode_written {ws : List (Char × Way)} (h : ∀ p ∈ ws, p.2.Admits p.1) :
    decode (ws.flatMap fun p => p.2.text p.1) =
      ⟨ws.map Prod.fst, ws.countP fun p => p.2 ≠ .plain⟩ := by
  induction ws with
  | nil => rfl
  | cons p ws ih =>
    obtain ⟨c, w⟩ := p
    have hrest := ih fun p hp => h p (List.mem_cons_of_mem _ hp)
    have hc : w.Admits c := h (c, w) List.mem_cons_self
    rw [List.flatMap_cons]
    cases w with
    | plain =>
      have hstep := decode_cons (not_begins_of_ne hc (ws.flatMap fun p => p.2.text p.1))
      rw [hrest] at hstep
      exact hstep
    | escape upperHigh upperLow =>
      have hstep := decode_escape (Way.isEscape hc.2 upperHigh upperLow) hc.1
        (ws.flatMap fun p => p.2.text p.1)
      rw [hrest] at hstep
      rw [List.countP_cons]
      exact hstep

/-- Where every backslash begins a complete escape, the escapes that are left after decoding are
not decoded either the second time. -/
theorem decode_decode {s : Text}
    (hs : ∀ u v, s = u ++ '\\' :: v → ∃ e d t, IsEscape e d ∧ '\\' :: v = e ++ t) :
    decode (decode s).text = ⟨(decode s).text, 0⟩ := by
  induction s using escape_induction with
  | nil => rfl
  | kept c cs hc ih =>
    have hnext := ih fun u v h => hs (c :: u) v (congrArg (c :: ·) h)
    have hkept : ¬ Begins (c :: (decode cs).text) := by
      by_cases hb : c = '\\'
      · subst hb
        obtain ⟨e, d, t, he, heq⟩ := hs [] cs rfl
        obtain ⟨-, ds, rfl, rfl, -, hds⟩ := he.cons_eq heq
        rw [decode_append_of_not_mem fun hmem => (hds _ hmem).1 rfl]
        rintro ⟨e', d', t', he', hd', heq'⟩
        obtain ⟨rfl, rfl⟩ := he.unique he' heq'
        exact hc ⟨_, d, t, he, hd', heq⟩
      · exact not_begins_of_ne hb _
    rw [decode_cons hc, decode_cons hkept, hnext]
  | escape e d t he hd ih =>
    have hnext := ih fun u v h => hs (e ++ u) v (by rw [h, List.append_assoc])
    have hplain : d ≠ '\\' := by
      rintro rfl
      exact absurd hd (by decide)
    rw [decode_escape he hd, decode_cons (not_begins_of_ne hplain _), hnext]

/-- Decoding puts the character in the place of every escape of a printable character, counts these
escapes, and keeps everything else in order. A text without backslashes is decoded from all that is
written for it, with one hit for each escape. If every backslash begins a complete escape, nothing
is left to decode. -/
theorem escapes_decoded_exactly :
    (∀ s, ∃ ps, EscapesOf s ps ∧ (decode s).text = ps.map standsFor ∧
      (decode s).hits = ps.countP (fun p => p.value?.isSome) ∧
      (decode s).text.length + 3 * (decode s).hits = s.length) ∧
    (∀ ws : List (Char × Way), (∀ p ∈ ws, p.2.Admits p.1) →
      decode (ws.flatMap fun p => p.2.text p.1) =
        ⟨ws.map Prod.fst, ws.countP fun p => p.2 ≠ .plain⟩) ∧
    ∀ s : Text, (∀ u v, s = u ++ '\\' :: v → ∃ e d t, IsEscape e d ∧ '\\' :: v = e ++ t) →
      decode (decode s).text = ⟨(decode s).text, 0⟩ := by
  refine ⟨fun s => ?_, fun ws => decode_written, fun s => decode_decode⟩
  obtain ⟨ps, hps, hdecode⟩ := exists_escapesOf s
  refine ⟨ps, hps, ?_, ?_, length_decode s⟩
  · rw [hdecode]
  · rw [hdecode]

/-- Digits of both letter cases, and an escape of a character that is not printable. -/
theorem escapes_decoded_exactly_beside_unprintable :
    let ws : List (Char × Way) :=
      [('J', .escape false true), ('z', .plain), ('-', .escape true false)]
    let s : Text := ['\\', 'x', '4', 'A', '\\', 'x', '0', '7']
    ((∀ p ∈ ws, p.2.Admits p.1) ∧ decode "\\x4Az\\x2d" = ⟨"Jz-", 2⟩) ∧
      (∀ u v, s = u ++ '\\' :: v → ∃ e d t, IsEscape e d ∧ '\\' :: v = e ++ t) ∧
      (decode s).text.length + 3 * (decode s).hits = s.length ∧
      decode (decode s).text = ⟨(decode s).text, 0⟩ := by
  intro ws s
  have hadmits : ∀ p ∈ ws, p.2.Admits p.1 := by
    simp only [ws, List.forall_mem_cons, Way.Admits]
    exact ⟨by decide, by decide, by decide, by simp⟩
  have hcomplete : ∀ u v, s = u ++ '\\' :: v → ∃ e d t, IsEscape e d ∧ '\\' :: v = e ++ t := by
    have hfirst : '\\' ∉ ['x', '4', 'A'] := by decide
    have hsecond : '\\' ∉ ['x', '0', '7'] := by decide
    rintro (_ | ⟨b, u⟩) v h
    · exact ⟨_, _, _, @IsEscape.intro '4' 'A' 4 10 rfl rfl, h.symm⟩
    · obtain ⟨(_ | ⟨c, w⟩), rfl, hw⟩ := Text.split_at_char hfirst (List.cons.inj h).2
      · exact ⟨_, _, [], @IsEscape.intro '0' '7' 0 7 rfl rfl, hw.symm⟩
      · rw [(List.cons.inj hw).2] at hsecond
        exact absurd (List.mem_append_right w List.mem_cons_self) hsecond
  obtain ⟨hparts, hwritten, hagain⟩ := escapes_decoded_exactly
  obtain ⟨ps, -, -, -, hlen⟩ := hparts s
  exact ⟨⟨hadmits, hwritten ws hadmits⟩, hcomplete, hlen, hagain s hcomplete⟩

/-- A character that is decoded behind a stray backslash can complete an escape. -/
example : decode (decode "\\\\x7841").text = ⟨"A", 1⟩ := by decide

end LuaTidy.HexEscapes
