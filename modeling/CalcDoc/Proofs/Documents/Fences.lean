import CalcDoc.Proofs.Documents.Parts
import CalcDoc.Proofs.Templates.Progress

/-!
# Fences without a partner

A text has a segmentation unless one of its lines closes nothing, or opens a block that is never
closed. Above the line that is to blame there is nothing but lines of prose, listings with their end
and blocks with their end.

- `Markers.Whole`: the parts of a document that need nothing below them.
- `Markers.Blames`: the lines that are to blame, said without a scan.
- `Markers.ending`: every row of lines consists of whole parts and of what comes below them.
- `segmentLines_whole`, `segmentLines_wholes`: behind whole parts a scan goes on as if it had just
  begun.
- `segment_eq_error_iff`: which texts have no segmentation, and which line is to blame.
-/

namespace CalcDoc

/-! ## Markers -/

theorem Text.stripStart?_append (start rest : Text) :
    stripStart? start (start ++ rest) = some rest := by
  induction start with
  | nil => rfl
  | cons c start ih => rw [List.cons_append, stripStart?, if_pos rfl, ih]

theorem Text.startsWith_iff {start t : Text} : startsWith start t ↔ start <+: t := by
  rw [startsWith]
  constructor
  · intro h
    obtain ⟨rest, hrest⟩ := Option.isSome_iff_exists.1 h
    exact ⟨rest, (eq_append_of_stripStart? hrest).symm⟩
  · rintro ⟨rest, rfl⟩
    rw [stripStart?_append]
    rfl

theorem Markers.opens_eq_false {m : Markers} {line : Text} :
    m.opens line = false ↔ ¬ m.openMarker <+: line := by
  rw [← Text.startsWith_iff, Bool.not_eq_true, opens]

theorem Markers.closes_eq_false {m : Markers} {line : Text} :
    m.closes line = false ↔ ¬ m.closeMarker <+: line := by
  rw [← Text.startsWith_iff, Bool.not_eq_true, closes]

/-- A line is the close marker alone if nothing but blanks stands behind the marker. -/
theorem Markers.isBareClose_iff {m : Markers} {line : Text} :
    m.isBareClose line ↔ ∃ blanks, line = m.closeMarker ++ blanks ∧ ∀ c ∈ blanks, isBlank c := by
  rw [isBareClose]
  constructor
  · intro h
    split at h
    · next rest hrest =>
      exact ⟨rest, Text.eq_append_of_stripStart? hrest, List.all_eq_true.1 h⟩
    · cases h
  · rintro ⟨blanks, rfl, hblanks⟩
    rw [Text.stripStart?_append]
    exact List.all_eq_true.2 hblanks

theorem Markers.isBareClose_of_closes {m : Markers} {line : Text} (h : m.closes line = false) :
    m.isBareClose line = false := by
  refine Bool.eq_false_iff.2 fun hbare => closes_eq_false.1 h ?_
  obtain ⟨blanks, rfl, -⟩ := isBareClose_iff.1 hbare
  exact List.prefix_append _ _

/-! ## Lines that are to blame -/

/-- The parts of a document that need nothing below them. -/
inductive Markers.Whole (m : Markers) : Part Text → Prop where
  | plain {line} :
      m.opens line = false → m.closes line = false →
      Whole m (.plain line)
  | listing {opening inside closing} :
      m.opens opening = false → m.closes opening → m.isBareClose opening = false →
      (∀ l ∈ inside, m.isBareClose l = false) → m.isBareClose closing →
      Whole m (.listing opening (inside ++ [closing]))
  | code {opening body closing} :
      m.opens opening → (∀ l ∈ body, m.closes l = false) → m.closes closing →
      Whole m (.code opening body closing)

/-- Line `n` of a text is `line`, with whole parts above it and the lines `below` under it. -/
def Markers.ComesTo (m : Markers) (text : Text) (n : Nat) (line : Text) (below : List Text) :
    Prop :=
  ∃ parts : List (Part Text), (∀ part ∈ parts, m.Whole part) ∧
    Text.lines text = parts.flatMap Part.lines ++ line :: below ∧
    n = (parts.flatMap Part.lines).length + 1

/-- What a text is like if an error is right to blame a line of it: the line is the close marker
alone and closes nothing, or it opens a block that is never closed. -/
def Markers.Blames (m : Markers) (text : Text) : FenceError → Prop
  | .unmatched n => ∃ line below, m.ComesTo text n line below ∧ ¬ m.openMarker <+: line ∧
      ∃ blanks, line = m.closeMarker ++ blanks ∧ ∀ c ∈ blanks, isBlank c
  | .unterminated n => ∃ line below, m.ComesTo text n line below ∧ m.openMarker <+: line ∧
      ∀ l ∈ below, ¬ m.closeMarker <+: l

section Endings

variable {m : Markers} {ls : List Text}

/-- What may come below whole parts: nothing, a listing without an end, or a line that is to
blame. -/
inductive Markers.Tail (m : Markers) : List Text → Prop where
  | nil :
      Tail m []
  | listing {opening body} :
      m.opens opening = false → m.closes opening → m.isBareClose opening = false →
      (∀ l ∈ body, m.isBareClose l = false) → Tail m (opening :: body)
  | unmatched {line below} :
      m.opens line = false → m.isBareClose line → Tail m (line :: below)
  | unterminated {line below} :
      m.opens line → (∀ l ∈ below, m.closes l = false) → Tail m (line :: below)

/-- Of some lines none has a property, or there is a first one that has it. -/
theorem forall_or_exists_first (p : Text → Bool) (ls : List Text) :
    (∀ l ∈ ls, p l = false) ∨
      ∃ above line below, ls = above ++ line :: below ∧ (∀ l ∈ above, p l = false) ∧ p line := by
  cases hfind : ls.find? p with
  | none =>
    left
    intro l hl
    exact Bool.eq_false_iff.2 (List.find?_eq_none.1 hfind l hl)
  | some line =>
    obtain ⟨hline, above, below, hls, habove⟩ := List.find?_eq_some_iff_append.1 hfind
    right
    refine ⟨above, line, below, hls, fun l hl => ?_, hline⟩
    simpa using habove l hl

/-- Some lines that consist of whole parts and of what comes below them. -/
def Markers.Ending (m : Markers) (ls : List Text) : Prop :=
  ∃ (parts : List (Part Text)) (rest : List Text), (∀ part ∈ parts, m.Whole part) ∧
    ls = parts.flatMap Part.lines ++ rest ∧ m.Tail rest

theorem Markers.Tail.ending (h : m.Tail ls) : m.Ending ls :=
  ⟨[], ls, fun _ h => absurd h List.not_mem_nil, rfl, h⟩

theorem Markers.Ending.below {part : Part Text} (h : m.Ending ls) (hpart : m.Whole part) :
    m.Ending (part.lines ++ ls) := by
  obtain ⟨parts, rest, hparts, rfl, htail⟩ := h
  refine ⟨part :: parts, rest, List.forall_mem_cons.2 ⟨hpart, hparts⟩, ?_, htail⟩
  rw [List.flatMap_cons, List.append_assoc]

/-- All rows of lines are such. The first line says of which kind the first part is, and the part
goes on to the first line that closes it. -/
theorem Markers.ending (m : Markers) (ls : List Text) : m.Ending ls := by
  match ls with
  | [] => exact Tail.nil.ending
  | line :: below =>
    by_cases hopens : m.opens line
    · rcases forall_or_exists_first m.closes below with
        hnone | ⟨body, closing, rest, rfl, hbody, hclosing⟩
      · exact (Tail.unterminated hopens hnone).ending
      · have hcode := (m.ending rest).below (.code hopens hbody hclosing)
        simpa [Part.lines] using hcode
    · rw [Bool.not_eq_true] at hopens
      by_cases hbare : m.isBareClose line
      · exact (Tail.unmatched hopens hbare).ending
      · rw [Bool.not_eq_true] at hbare
        by_cases hcloses : m.closes line
        · rcases forall_or_exists_first m.isBareClose below with
            hnone | ⟨inside, closing, rest, rfl, hinside, hclosing⟩
          · exact (Tail.listing hopens hcloses hbare hnone).ending
          · have hlisting :=
              (m.ending rest).below (.listing hopens hcloses hbare hinside hclosing)
            simpa [Part.lines] using hlisting
        · rw [Bool.not_eq_true] at hcloses
          exact (m.ending below).below (.plain hopens hcloses)
termination_by ls.length

end Endings

/-! ## Scans -/

/-- Two scans that fail together, with the same error. -/
def FailTogether (x y : Except FenceError Segmentation) : Prop :=
  ∀ e, x = .error e ↔ y = .error e

theorem FailTogether.trans {x y z : Except FenceError Segmentation} (h : FailTogether x y)
    (h' : FailTogether y z) : FailTogether x z :=
  fun e => (h e).trans (h' e)

theorem failTogether_map (f : Segmentation → Segmentation) (x : Except FenceError Segmentation) :
    FailTogether (x.map f) x := by
  intro e
  cases x with
  | error e' => exact Iff.rfl
  | ok s =>
    constructor
    · intro h
      cases h
    · intro h
      cases h

section Scans

variable {m : Markers} {n index references : Nat}

/-- The rest of a block, down to its end. -/
theorem segmentLines_body {body : List Text} {closing : Text}
    (hbody : ∀ l ∈ body, m.closes l = false) (hclosing : m.closes closing) (fence : Nat)
    (linesBack below : List Text) :
    FailTogether (segmentLines m (.block fence linesBack) n index references
        (body ++ closing :: below))
      (segmentLines m .prose (n + body.length + 1) (index + 1) references below) := by
  induction body generalizing n linesBack with
  | nil =>
    rw [List.nil_append, segmentLines, if_pos hclosing]
    exact failTogether_map _ _
  | cons line body ih =>
    obtain ⟨hline, hbody⟩ := List.forall_mem_cons.1 hbody
    rw [List.cons_append, segmentLines, if_neg (ne_true_of_eq_false hline), List.length_cons,
      ← Nat.add_assoc, Nat.add_right_comm n]
    exact ih hbody (line :: linesBack)

/-- The rest of a listing, down to its end. -/
theorem segmentLines_inside {inside : List Text} {closing : Text}
    (hinside : ∀ l ∈ inside, m.isBareClose l = false) (hclosing : m.isBareClose closing)
    (below : List Text) :
    ∃ references', FailTogether
      (segmentLines m .listing n index references (inside ++ closing :: below))
      (segmentLines m .prose (n + inside.length + 1) index references' below) := by
  induction inside generalizing n references with
  | nil =>
    rw [List.nil_append, segmentLines, if_pos hclosing]
    exact ⟨_, failTogether_map _ _⟩
  | cons line inside ih =>
    obtain ⟨hline, hinside⟩ := List.forall_mem_cons.1 hinside
    obtain ⟨references', hrest⟩ :=
      @ih (n + 1) (references + countReferences m.helper line) hinside
    rw [List.cons_append, segmentLines, if_neg (ne_true_of_eq_false hline), List.length_cons,
      ← Nat.add_assoc, Nat.add_right_comm n]
    exact ⟨references', (failTogether_map _ _).trans hrest⟩

/-- Behind a whole part a scan goes on as if it had just begun. -/
theorem segmentLines_whole {part : Part Text} (h : m.Whole part) (below : List Text) :
    ∃ index' references', FailTogether
      (segmentLines m .prose n index references (part.lines ++ below))
      (segmentLines m .prose (n + part.lines.length) index' references' below) := by
  cases h with
  | @plain line hopens hcloses =>
    have hbare := Markers.isBareClose_of_closes hcloses
    refine ⟨index, references + countReferences m.helper line, ?_⟩
    rw [Part.lines, List.singleton_append, segmentLines, if_neg (ne_true_of_eq_false hopens),
      if_neg (ne_true_of_eq_false hbare), if_neg (ne_true_of_eq_false hcloses)]
    exact failTogether_map _ _
  | @listing opening inside closing hopens hcloses hbare hinside hclosing =>
    obtain ⟨references', hrest⟩ := @segmentLines_inside m (n + 1) index
      (references + countReferences m.helper opening) inside closing hinside hclosing below
    have hlength : n + (Part.listing opening (inside ++ [closing])).lines.length =
        n + 1 + inside.length + 1 := by
      simp only [Part.lines, List.length_cons, List.length_append, List.length_nil]
      omega
    refine ⟨index, references', ?_⟩
    rw [hlength, Part.lines, List.cons_append, List.append_assoc, List.singleton_append,
      segmentLines, if_neg (ne_true_of_eq_false hopens), if_neg (ne_true_of_eq_false hbare),
      if_pos hcloses]
    exact (failTogether_map _ _).trans hrest
  | @code opening body closing hopens hbody hclosing =>
    have hlength : n + (Part.code opening body closing).lines.length =
        n + 1 + body.length + 1 := by
      simp only [Part.lines, List.length_cons, List.length_append, List.length_nil]
      omega
    refine ⟨index + 1, references, ?_⟩
    rw [hlength, Part.lines, List.cons_append, List.append_assoc, List.singleton_append,
      segmentLines, if_pos hopens]
    exact segmentLines_body hbody hclosing n [] below

/-- Behind a row of whole parts a scan goes on as if it had just begun. -/
theorem segmentLines_wholes {parts : List (Part Text)} (h : ∀ part ∈ parts, m.Whole part)
    (below : List Text) :
    ∃ index' references', FailTogether
      (segmentLines m .prose n index references (parts.flatMap Part.lines ++ below))
      (segmentLines m .prose (n + (parts.flatMap Part.lines).length) index' references'
        below) := by
  induction parts generalizing n index references with
  | nil => exact ⟨index, references, fun _ => Iff.rfl⟩
  | cons part parts ih =>
    obtain ⟨hpart, hparts⟩ := List.forall_mem_cons.1 h
    obtain ⟨index', references', hfirst⟩ :=
      segmentLines_whole hpart (parts.flatMap Part.lines ++ below)
    obtain ⟨index'', references'', hrest⟩ := ih hparts
    refine ⟨index'', references'', ?_⟩
    rw [List.flatMap_cons, List.append_assoc, List.length_append, ← Nat.add_assoc]
    exact hfirst.trans hrest

/-- A close marker that closes nothing stops a scan. -/
theorem segmentLines_unmatched {line : Text} (hopens : m.opens line = false)
    (hbare : m.isBareClose line) (below : List Text) :
    segmentLines m .prose n index references (line :: below) = .error (.unmatched n) := by
  rw [segmentLines, if_neg (ne_true_of_eq_false hopens), if_pos hbare]

/-- A block that is never closed is reported at the end, for the line that opens it. -/
theorem segmentLines_unterminated {line : Text} {below : List Text} (hopens : m.opens line)
    (hbelow : ∀ l ∈ below, m.closes l = false) :
    segmentLines m .prose n index references (line :: below) = .error (.unterminated n) := by
  have hblock : ∀ k linesBack, segmentLines m (.block n linesBack) k index references below =
      .error (.unterminated n) := by
    induction below with
    | nil => exact fun _ _ => rfl
    | cons line below ih =>
      obtain ⟨hline, hbelow⟩ := List.forall_mem_cons.1 hbelow
      intro k linesBack
      rw [segmentLines, if_neg (ne_true_of_eq_false hline)]
      exact ih hbelow _ _
  rw [segmentLines, if_pos hopens]
  exact hblock _ _

/-- A listing may go on to the end. -/
theorem segmentLines_listing_ne_error {body : List Text}
    (hbody : ∀ l ∈ body, m.isBareClose l = false) (e : FenceError) :
    segmentLines m .listing n index references body ≠ .error e := by
  induction body generalizing n references with
  | nil =>
    intro h
    cases h
  | cons line body ih =>
    obtain ⟨hline, hbody⟩ := List.forall_mem_cons.1 hbody
    rw [segmentLines, if_neg (ne_true_of_eq_false hline)]
    exact fun h => ih hbody ((failTogether_map _ _ e).1 h)

end Scans

/-! ## Whole documents -/

section Documents

variable {m : Markers} {text : Text} {n : Nat}

/-- A text fails in the way of what stands below its whole parts. -/
theorem segment_of_comesTo {line : Text} {below : List Text} (h : m.ComesTo text n line below) :
    ∃ index references, FailTogether (segment m text)
      (segmentLines m .prose n index references (line :: below)) := by
  obtain ⟨parts, hparts, hlines, rfl⟩ := h
  rw [segment, hlines, Nat.add_comm]
  exact segmentLines_wholes hparts (line :: below)

/-- A line that is to blame is blamed. -/
theorem segment_of_blames {e : FenceError} (h : m.Blames text e) : segment m text = .error e := by
  cases e with
  | unmatched n =>
    obtain ⟨line, below, hcomes, hopens, hbare⟩ := h
    obtain ⟨index, references, hsame⟩ := segment_of_comesTo hcomes
    exact (hsame _).2 (segmentLines_unmatched (Markers.opens_eq_false.2 hopens)
      (Markers.isBareClose_iff.2 hbare) below)
  | unterminated n =>
    obtain ⟨line, below, hcomes, hopens, hbelow⟩ := h
    obtain ⟨index, references, hsame⟩ := segment_of_comesTo hcomes
    exact (hsame _).2 (segmentLines_unterminated (Text.startsWith_iff.2 hopens)
      fun l hl => Markers.closes_eq_false.2 (hbelow l hl))

/-- A text has a line that is to blame, or a segmentation. -/
theorem exists_blames_or_ok (m : Markers) (text : Text) :
    (∃ e, m.Blames text e) ∨ ∃ s, segment m text = .ok s := by
  obtain ⟨parts, rest, hparts, hlines, htail⟩ := m.ending (Text.lines text)
  have hok (h : ∀ n index references e, segmentLines m .prose n index references rest ≠ .error e) :
      ∃ s, segment m text = .ok s := by
    obtain ⟨index, references, hsame⟩ := @segmentLines_wholes m 1 0 0 parts hparts rest
    cases hsegment : segment m text with
    | ok s => exact ⟨s, rfl⟩
    | error e =>
      rw [segment, hlines] at hsegment
      exact absurd ((hsame e).1 hsegment) (h _ _ _ e)
  cases htail with
  | nil =>
    refine .inr (hok fun n index references e h => ?_)
    cases h
  | @listing opening body hopens hcloses hbare hbody =>
    refine .inr (hok fun n index references e h => ?_)
    rw [segmentLines, if_neg (ne_true_of_eq_false hopens), if_neg (ne_true_of_eq_false hbare),
      if_pos hcloses] at h
    exact segmentLines_listing_ne_error hbody e ((failTogether_map _ _ e).1 h)
  | @unmatched line below hopens hbare =>
    exact .inl ⟨.unmatched _, line, below, ⟨parts, hparts, hlines, rfl⟩,
      Markers.opens_eq_false.1 hopens, Markers.isBareClose_iff.1 hbare⟩
  | @unterminated line below hopens hbelow =>
    exact .inl ⟨.unterminated _, line, below, ⟨parts, hparts, hlines, rfl⟩,
      Text.startsWith_iff.1 hopens, fun l hl => Markers.closes_eq_false.1 (hbelow l hl)⟩

end Documents

/-- A text has no segmentation in two cases exactly, each with its error: below whole parts, a line
is the close marker alone and opens no block, or a line opens a block and no further line closes it.
The error names the number of this line. -/
theorem segment_eq_error_iff (m : Markers) (text : Text) :
    (∀ e, segment m text = .error e ↔ m.Blames text e) ∧
    ((∃ s, segment m text = .ok s) ↔ ∀ e, ¬ m.Blames text e) := by
  constructor
  · intro e
    constructor
    · intro h
      rcases exists_blames_or_ok m text with ⟨e', he'⟩ | ⟨s, hs⟩
      · rw [segment_of_blames he'] at h
        rwa [← Except.error.inj h]
      · rw [hs] at h
        cases h
    · exact segment_of_blames
  · constructor
    · rintro ⟨s, hs⟩ e h
      rw [segment_of_blames h] at hs
      cases hs
    · intro h
      exact (exists_blames_or_ok m text).resolve_left fun ⟨e, he⟩ => h e he

/-- Below a listing and a block, a close marker too many and a block without an end: the close
marker comes first, so it is the line to blame. -/
theorem segment_eq_error_iff_of_two_lines :
    let text := "```sh\nx\n```\n```calc\nx = 2\n```\n``` \n```calc".toList
    ({} : Settings).markers.Blames text (.unmatched 7) ∧
      ¬ ({} : Settings).markers.Blames text (.unterminated 8) := by
  intro text
  obtain ⟨herrors, -⟩ := segment_eq_error_iff ({} : Settings).markers text
  have hsegment : segment ({} : Settings).markers text = .error (.unmatched 7) := rfl
  refine ⟨(herrors _).1 hsegment, fun h => ?_⟩
  rw [(herrors _).2 h] at hsegment
  cases hsegment

end CalcDoc
