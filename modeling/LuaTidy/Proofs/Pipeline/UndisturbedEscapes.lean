import LuaTidy.Proofs.Pipeline.Views
import LuaTidy.Proofs.Rewrite.HexOccurrences
import LuaTidy.Proofs.Rewrite.QuotedPayloads

/-!
Decoding payloads leaves the hexadecimal escapes of a text alone. A payload is put into quotes and
has no backslash in it, and neither has its code, so that no escape begins inside the one or the
other; an escape that begins before it ends before the quote. The number of escapes decoded in a
run is therefore the same with and without the stage for payloads.
-/
namespace LuaTidy
open Lua (isQuote)

namespace HexEscapes

/-- Whether an escape begins at a character is decided by the text up to the next quote. -/
theorem Begins.of_takeWhile {c : Char} {cs cs' : Text} (h : Begins (c :: cs))
    (hcs : cs.takeWhile (!isQuote ·) = cs'.takeWhile (!isQuote ·)) : Begins (c :: cs') := by
  obtain ⟨e, d, t, he, hd, heq⟩ := h
  obtain ⟨rfl, ds, rfl, rfl, -, hds⟩ := he.cons_eq heq
  have hplain : ∀ b ∈ ds, (!isQuote b) = true := fun b hb => by rw [(hds b hb).2, Bool.not_false]
  have hfront : cs' = ds ++ (t.takeWhile (!isQuote ·) ++ cs'.dropWhile (!isQuote ·)) := by
    rw [← List.append_assoc, ← List.takeWhile_append_of_pos hplain, hcs,
      List.takeWhile_append_dropWhile]
  exact ⟨_, d, _, he, hd, congrArg ('\\' :: ·) hfront⟩

/-- An escape is counted where it begins, and at no other character. -/
theorem hits_cons_of_begins {c : Char} {cs : Text} (h : Begins (c :: cs)) :
    (decode (c :: cs)).hits = (decode cs).hits + 1 := by
  obtain ⟨e, d, t, he, hd, heq⟩ := h
  obtain ⟨rfl, ds, rfl, rfl, -, hds⟩ := he.cons_eq heq
  have htail := decode_append_of_not_mem (fun hmem => (hds _ hmem).1 rfl) t
  rw [heq, decode_escape he hd, htail]

theorem hits_cons_congr {c : Char} {cs cs' : Text}
    (hcs : cs.takeWhile (!isQuote ·) = cs'.takeWhile (!isQuote ·))
    (hhits : (decode cs).hits = (decode cs').hits) :
    (decode (c :: cs)).hits = (decode (c :: cs')).hits := by
  by_cases h : Begins (c :: cs)
  · rw [hits_cons_of_begins h, hits_cons_of_begins (h.of_takeWhile hcs), hhits]
  · have h' : ¬ Begins (c :: cs') := fun h' => h (h'.of_takeWhile hcs.symm)
    rw [decode_cons h, decode_cons h']
    exact hhits

end HexEscapes

namespace Payloads
open Text (Piece)
open Text.Base64 (IsCode)

theorem backslash_not_mem_code {code : Text} (h : IsCode code) : '\\' ∉ code := by
  intro hmem
  rcases h.alphabet_or_equals hmem with hs | he
  · exact absurd hs (by decide)
  · exact absurd he (by decide)

/-- A stretch with a payload begins with a quote and has no backslash in it. -/
theorem payload_source {c : Char} {cs : Text} {n : Nat} {v : Option Text}
    (h : payload? c cs = some (n, v)) : isQuote c = true ∧ '\\' ∉ c :: cs.take n := by
  obtain ⟨hc, code, q, hcode, hq, htake, -⟩ := payload?_eq_some h
  refine ⟨hc, fun hmem => ?_⟩
  rw [htake, List.mem_cons, List.mem_append, List.mem_singleton] at hmem
  rcases hmem with rfl | hmem | rfl
  · exact absurd hc (by decide)
  · exact backslash_not_mem_code hcode hmem
  · exact absurd hq (by decide)

/-- What is written in its place begins with a quote too, and has no backslash in it either. -/
theorem payload_written {c : Char} {cs : Text} {n : Nat} {v : Option Text}
    (h : payload? c cs = some (n, v)) :
    ∃ q t, written (.found (c :: cs.take n) v) = q :: t ∧ isQuote q = true ∧ '\\' ∉ q :: t := by
  cases v with
  | none =>
    obtain ⟨hc, hsource⟩ := payload_source h
    exact ⟨c, cs.take n, rfl, hc, hsource⟩
  | some d =>
    obtain ⟨-, code, -, -, -, -, hd⟩ := payload?_eq_some h
    have hprintable := List.all_eq_true.mp (allPrintable_of_decode? hd.symm)
    have hplain : '\\' ∉ d := fun hmem => absurd (hprintable _ hmem) (by decide)
    exact ⟨'"', d ++ ['"'], rfl, by decide, by simp [hplain]⟩

theorem flatMap_written_kept (c : Char) (ps : List (Piece (Option Text))) :
    (.kept c :: ps).flatMap written = c :: ps.flatMap written := rfl

/-- Up to the first quote nothing changes. -/
theorem takeWhile_decode (s : Text) :
    (decode s).text.takeWhile (!isQuote ·) = s.takeWhile (!isQuote ·) := by
  refine Text.pieces_induction (motive := fun s ps =>
    (ps.flatMap written).takeWhile (!isQuote ·) = s.takeWhile (!isQuote ·)) rfl ?_ ?_ s
  · intro c cs _ ih
    rw [flatMap_written_kept, List.takeWhile_cons, List.takeWhile_cons, ih]
  · intro c cs n v h _
    obtain ⟨q, t, hwritten, hq, -⟩ := payload_written h
    have hc := (payload_source h).1
    rw [List.flatMap_cons, hwritten, List.cons_append, List.takeWhile_cons_of_neg (by simp [hq]),
      List.takeWhile_cons_of_neg (by simp [hc])]

/-- As many escapes are decoded after payloads as before. -/
theorem hex_hits_decode (s : Text) :
    (HexEscapes.decode (decode s).text).hits = (HexEscapes.decode s).hits := by
  refine Text.pieces_induction (motive := fun s ps =>
    (HexEscapes.decode (ps.flatMap written)).hits = (HexEscapes.decode s).hits) rfl ?_ ?_ s
  · intro c cs _ ih
    rw [flatMap_written_kept]
    exact HexEscapes.hits_cons_congr (takeWhile_decode cs) ih
  · intro c cs n v h ih
    obtain ⟨q, t, hwritten, -, hplain⟩ := payload_written h
    have hsource := HexEscapes.decode_append_of_not_mem (payload_source h).2 (cs.drop n)
    rw [List.cons_append, List.take_append_drop] at hsource
    rw [List.flatMap_cons, hwritten, HexEscapes.decode_append_of_not_mem hplain, hsource]
    exact ih

end Payloads

namespace Config

variable {cfg : Config}

/-- The kinds of stage that come before the one for payloads. -/
def beforePayloads : List StageKind := [.whitespace, .concat, .variableNames, .functionNames]

/-- What the stage for escapes counts is decided before the stage for payloads. -/
theorem hex_hits {skip : List StageKind} (h : cfg.uses skip .hex = true) (s : Text) :
    ((runStages (cfg.before skip .hex) s).observed (cfg.stage .hex)).hits =
      (HexEscapes.decode
        (runStages ((beforePayloads.filter (cfg.uses skip)).map cfg.stage) s).text).hits := by
  have hall : StageKind.all = (beforePayloads ++ [.base64]) ++ .hex :: [.escapes, .formatting] := rfl
  rw [(chosen_eq _ _ hall h).1, List.filter_append, List.map_append]
  cases hbase : cfg.uses skip .base64 with
  | true =>
    rw [List.filter_cons_of_pos hbase, List.filter_nil, List.map_singleton, runStages_concat]
    exact Payloads.hex_hits_decode _
  | false =>
    rw [List.filter_cons_of_neg (by simp [hbase]), List.filter_nil, List.map_nil, List.append_nil]
    rfl

theorem uses_cons (skip : List StageKind) {k k' : StageKind} (h : k' ≠ k) :
    cfg.uses (k :: skip) k' = cfg.uses skip k' := by
  rw [uses, uses, List.contains_cons, beq_eq_false_iff_ne.mpr h, Bool.false_or]

theorem count_hex_skip_base64 (cfg : Config) (skip : List StageKind) (s : Text) {l : Text}
    (hl : StageKind.hex.label? = some l) :
    (runStages (cfg.chosen (.base64 :: skip)) s).techniques.count l =
      (runStages (cfg.chosen skip) s).techniques.count l := by
  have huses : cfg.uses (.base64 :: skip) .hex = cfg.uses skip .hex := uses_cons skip (by decide)
  cases h : cfg.uses skip .hex with
  | true =>
    rw [h] at huses
    have hbefore : beforePayloads.filter (cfg.uses (.base64 :: skip)) =
        beforePayloads.filter (cfg.uses skip) := by
      refine List.filter_congr fun k hk => uses_cons skip ?_
      rintro rfl
      exact absurd hk (by decide)
    rw [count_techniques hl huses, count_techniques hl h, hex_hits huses, hex_hits h, hbefore]
  | false =>
    rw [h] at huses
    rw [count_techniques_of_not_uses hl huses, count_techniques_of_not_uses hl h]

/-- The name of a stage is never among the unknown ones. -/
theorem unknownNames_cons (k : StageKind) (skip : List Text) :
    unknownNames (k.name :: skip) = unknownNames skip := by
  have hk : (StageKind.all.map StageKind.name).contains k.name = true :=
    List.contains_iff_mem.mpr (List.mem_map_of_mem (StageKind.mem_all k))
  rw [unknownNames, unknownNames, List.filter_cons_of_neg (by rw [hk]; decide)]

/-- Decoding payloads makes no difference to the number of escapes that are decoded after it, and
so none to how often a run records their label. -/
theorem payloads_leave_escapes_alone :
    (∀ s, (HexEscapes.decode (Payloads.decode s).text).hits = (HexEscapes.decode s).hits) ∧
    ∀ (cfg : Config) (skip : List Text) (s : Text),
      (cfg.run (StageKind.base64.name :: skip) s).map
          (fun p => p.techniques.count ("Hex string decoding" : Text)) =
        (cfg.run skip s).map fun p => p.techniques.count ("Hex string decoding" : Text) := by
  refine ⟨Payloads.hex_hits_decode, fun cfg skip s => ?_⟩
  by_cases hknown : ∀ n ∈ skip, n ∈ StageKind.all.map StageKind.name
  · obtain ⟨ks, rfl⟩ := exists_kinds hknown
    have hcount := count_hex_skip_base64 cfg ks s (l := "Hex string decoding") rfl
    rw [← List.map_cons, run_names, run_names]
    cases cfg.buildStages with
    | ok stages => exact congrArg Except.ok hcount
    | error e => rfl
  · push Not at hknown
    obtain ⟨n, hn, hunknown⟩ := hknown
    have hne : (unknownNames skip).isEmpty = false := by
      rw [List.isEmpty_eq_false_iff]
      exact List.ne_nil_of_mem ((mem_unknownNames skip n).mpr ⟨hn, hunknown⟩)
    simp only [run, selectStages, unknownNames_cons, hne]
    rfl

end Config
end LuaTidy
