import CalcDoc.Proofs.Documents.Keeping
import CalcDoc.Proofs.Evaluation.Operators
import CalcDoc.Proofs.Grammar.Literals
import CalcDoc.Proofs.Grammar.Programs
import CalcDoc.Proofs.Lexemes.Tokens

/-!
# How much blocks can store

Only `+` and `*` have a limit for the strings that they make. But no other operation makes a string
longer than that from shorter ones, and the strings that a block begins with are parts of the
document. So no name is ever given a longer string, if the document is not longer.

- `fits_of_literals`: the literals of a source that is not too long.
- `source_sublist`: the source of a block is the document with characters left out.
- `Session.requests_fit`: the strings that programs and sessions store.
-/

namespace CalcDoc

open Script (Namespace Value maxStringBytes)

/-! ## The literals of a source -/

namespace Script

theorem literal?_eq_str {k : Token} {s : String} (h : k.literal? = some (.str s)) : k = .str s := by
  unfold Token.literal? at h
  split at h
  all_goals cases h
  rfl

/-- The literals of a program fit if its source does. -/
theorem fits_of_literals {source : Text} {p : Program} (h : Program.ofText source = .ok p)
    (hsize : Text.byteSize source ≤ maxStringBytes) : ∀ v ∈ p.literals, v.Fits := by
  intro v hv
  unfold Program.ofText at h
  split at h
  · next ts hts =>
    obtain ⟨l, hl, hlv⟩ := (derivesProgram_of_read h).exists_literal v hv
    cases v with
    | str s => exact Nat.le_trans (stringsWithin_of_scan hts l hl s (literal?_eq_str hlv)) hsize
    | absent | bool | int | float => exact trivial
  · cases h

/-- What the names have after the run of a source that fits. -/
theorem fits_of_runSource {source : Text} (hsize : Text.byteSize source ≤ maxStringBytes)
    {ns : Namespace} (hns : ∀ q ∈ ns, q.2.Fits) : ∀ q ∈ (runSource ns source).names, q.2.Fits := by
  unfold runSource
  split
  · next p hp => exact ((operations_of_fits fun _ h => h).run hns p (fits_of_literals hp hsize)).1
  · exact hns

end Script

/-! ## The sources of a document -/

/-- The lines of a block are those of a part of the document. -/
theorem exists_code_of_mem {helper : Text} {n index references : Nat} {parts : List (Part Text)}
    {b : Block} (h : b ∈ blocksOf helper n index references parts) :
    ∃ opening closing, .code opening b.lines closing ∈ parts := by
  induction parts generalizing n index references with
  | nil => cases h
  | cons part parts ih =>
    have later {n index references : Nat} (h : b ∈ blocksOf helper n index references parts) :
        ∃ opening closing, .code opening b.lines closing ∈ part :: parts := by
      obtain ⟨opening, closing, hmem⟩ := ih h
      exact ⟨opening, closing, List.mem_cons_of_mem _ hmem⟩
    cases part with
    | plain line => exact later h
    | listing opening body => exact later h
    | code opening body closing =>
      rcases List.mem_cons.1 h with rfl | h
      · exact ⟨opening, closing, List.mem_cons_self⟩
      · exact later h

/-- The source of a block is the document with characters left out. -/
theorem source_sublist {m : Markers} {text : Text} {s : Segmentation} (h : segment m text = .ok s)
    {b : Block} (hb : b ∈ s.blocks) : b.source.Sublist text := by
  obtain ⟨parts, -, hlines, rfl⟩ := exists_parts h
  obtain ⟨opening, closing, hmem⟩ := exists_code_of_mem hb
  have hpart : b.lines.Sublist (Part.lines (.code opening b.lines closing)) :=
    (List.sublist_append_left _ _).trans (List.sublist_cons_self _ _)
  have hall : b.lines.Sublist (Text.lines text) := by
    rw [hlines, List.flatMap]
    exact hpart.trans (List.sublist_flatten_of_mem (List.mem_map_of_mem hmem))
  have hsource := Text.unlines_sublist hall
  rw [Text.unlines_lines] at hsource
  exact hsource

namespace Session

/-- No string that is stored is longer than `2 ^ 24` bytes, if none is that a program begins with:
neither among the names before it nor among its literals. So no request to a session of a document
of at most `2 ^ 24` bytes stores one, be it answered or not. -/
theorem requests_fit :
    (∀ (ns : Namespace) (p : Script.Program), (∀ q ∈ ns, q.2.Fits) → (∀ v ∈ p.literals, v.Fits) →
      ∀ q ∈ (p.run ns).names, q.2.Fits) ∧
    ∀ (text : Text) (settings : Settings) (start : Session),
      (String.ofList text).utf8ByteSize ≤ 2 ^ 24 → ofText? text settings = .ok start →
      ∀ xs x s, Table.get? (start.requests xs).2.names x = some (.str s) →
        s.utf8ByteSize ≤ 2 ^ 24 := by
  refine ⟨fun ns p hns hp => ?_, fun text settings start hsize h xs x s hs => ?_⟩
  · exact ((Script.operations_of_fits fun _ hv => hv).run hns p hp).1
  · obtain ⟨segmentation, hsegment, rfl⟩ := exists_of_map h
    have hkeeping : (ofSegmentation segmentation settings).Keeping Value.Fits fun _ => True := by
      refine ⟨fun q hq => absurd hq List.not_mem_nil, fun b hb ns hns => ⟨?_, fun _ _ => trivial⟩⟩
      have hsource := Text.byteSize_le_of_sublist (source_sublist hsegment hb)
      exact Script.fits_of_runSource (Nat.le_trans hsource hsize) hns
    exact (hkeeping.requests xs).1.names _ (Table.mem_of_get? hs)

/-- A string that a program repeats, and one that a block of a document repeats before it fails. -/
theorem requests_fit_of_repeated :
    (∀ q ∈ (Script.Program.run [("s", .str "ab")]
        [⟨1, .augment "s" .mul (.literal (.int 3))⟩]).names, q.2.Fits) ∧
    ∃ start s,
      ofText? "```calc\ns = 'ab' * 3\ns / 0\n```\n\x7b\x7b_ \"s\"\x7d\x7d".toList {} = .ok start ∧
      Table.get? (start.requests ["s"]).2.names "s" = some (.str s) ∧
      (start.requests ["s"]).2.aborted = true ∧ s.utf8ByteSize ≤ 2 ^ 24 := by
  let start : Session := ⟨[⟨0, 0, 1, ["s = 'ab' * 3".toList, "s / 0".toList]⟩], [], 0, 0, 1, 1,
    "???", false⟩
  have hstart : ofText?
      "```calc\ns = 'ab' * 3\ns / 0\n```\n\x7b\x7b_ \"s\"\x7d\x7d".toList {} = .ok start := rfl
  have hkind : (Table.get? (start.requests ["s"]).2.names "s").map Value.kind = some .str := by
    decide +kernel
  obtain ⟨v, hv, hkind⟩ := Option.map_eq_some_iff.1 hkind
  constructor
  · refine requests_fit.1 _ _ (fun q hq => ?_) fun v hv => ?_
    · rw [List.mem_singleton.1 hq]
      show "ab".utf8ByteSize ≤ maxStringBytes
      decide
    · rw [List.mem_singleton.1 hv]
      exact trivial
  · cases v with
    | str s =>
      have hs := requests_fit.2 _ {} start (by decide +kernel) hstart ["s"] "s" s hv
      exact ⟨start, s, hstart, hv, by decide +kernel, hs⟩
    | absent | bool | int | float => cases hkind

end Session

end CalcDoc
