import CalcDoc.Proofs.Lines
import CalcDoc.Segmentation

/-!
# The parts of documents

What a document is made of, said without a scan: lines of prose, listings and code blocks, one after
the other.

- `Part`, `Markers.Admits`: a part of a document, and the rows of parts that the markers admit.
- `Segmentation.ofParts`: the segmentation that belongs to a row of parts.
- `exists_parts`: every segmentation belongs to a row of parts that makes up its text.
- `referencesOn_prose`: the references of a segmentation are those on the lines of its prose.
-/

namespace CalcDoc

/-- A part of a document, with prose lines of some kind. -/
inductive Part (α : Type) where
  | plain (line : α)
  | listing (opening : α) (body : List α)
  | code (opening : Text) (body : List Text) (closing : Text)

namespace Part

/-- The prose lines of a part. -/
def prose {α : Type} : Part α → List α
  | .plain line => [line]
  | .listing opening body => opening :: body
  | .code _ _ _ => []

/-- The part with other prose lines in place of its own. -/
def map {α β : Type} (f : α → β) : Part α → Part β
  | .plain line => .plain (f line)
  | .listing opening body => .listing (f opening) (body.map f)
  | .code opening body closing => .code opening body closing

theorem prose_map {α β : Type} (f : α → β) (p : Part α) : (p.map f).prose = p.prose.map f := by
  cases p <;> rfl

/-- All lines of a part. -/
def lines : Part Text → List Text
  | .plain line => [line]
  | .listing opening body => opening :: body
  | .code opening body closing => opening :: (body ++ [closing])

end Part

/-- The lines of a listing below its first one. A bare close marker ends them, unless the listing
is the last part and has none. -/
def ListingBody (m : Markers) (body : List Text) (below : List (Part Text)) : Prop :=
  (∃ inside closing, body = inside ++ [closing] ∧ (∀ l ∈ inside, m.isBareClose l = false) ∧
    m.isBareClose closing) ∨
  (below = [] ∧ ∀ l ∈ body, m.isBareClose l = false)

/-- The rows of parts that the markers admit. -/
inductive Markers.Admits (m : Markers) : List (Part Text) → Prop where
  | nil :
      Admits m []
  | plain {line parts} :
      m.opens line = false → m.closes line = false → Admits m parts →
      Admits m (.plain line :: parts)
  | listing {opening body parts} :
      m.opens opening = false → m.closes opening → m.isBareClose opening = false →
      ListingBody m body parts → Admits m parts →
      Admits m (.listing opening body :: parts)
  | code {opening body closing parts} :
      m.opens opening → (∀ l ∈ body, m.closes l = false) → m.closes closing → Admits m parts →
      Admits m (.code opening body closing :: parts)

theorem ListingBody.cons {m : Markers} {line : Text} {body : List Text} {below : List (Part Text)}
    (h : ListingBody m body below) (hline : m.isBareClose line = false) :
    ListingBody m (line :: body) below := by
  rcases h with ⟨inside, closing, rfl, hinside, hclosing⟩ | ⟨hbelow, hbody⟩
  · exact .inl ⟨line :: inside, closing, rfl, List.forall_mem_cons.2 ⟨hline, hinside⟩, hclosing⟩
  · exact .inr ⟨hbelow, List.forall_mem_cons.2 ⟨hline, hbody⟩⟩

/-- The references on some lines. -/
def referencesOn (helper : Text) : List Text → Nat
  | [] => 0
  | l :: ls => countReferences helper l + referencesOn helper ls

/-- The blocks of a row of parts that begins on line `n`, with `index` blocks and `references`
references above it. -/
def blocksOf (helper : Text) (n index references : Nat) : List (Part Text) → List Block
  | [] => []
  | .code _ body _ :: parts =>
    ⟨index, references, n, body⟩ ::
      blocksOf helper (n + body.length + 2) (index + 1) references parts
  | part :: parts =>
    blocksOf helper (n + part.prose.length) index (references + referencesOn helper part.prose)
      parts

/-- The segmentation of some lines of prose from line `n` on and such a row of parts below them. -/
def Segmentation.below (helper : Text) (n index references : Nat) (prose : List Text)
    (parts : List (Part Text)) : Segmentation where
  blocks :=
    blocksOf helper (n + prose.length) index (references + referencesOn helper prose) parts
  references := references + referencesOn helper (prose ++ parts.flatMap Part.prose)
  lines := prose ++ parts.flatMap Part.prose

/-- The segmentation of such a row of parts. -/
def Segmentation.ofParts (helper : Text) (n index references : Nat) (parts : List (Part Text)) :
    Segmentation :=
  below helper n index references [] parts

@[simp] theorem referencesOn_nil (helper : Text) : referencesOn helper [] = 0 := rfl

@[simp] theorem referencesOn_cons (helper line : Text) (ls : List Text) :
    referencesOn helper (line :: ls) = countReferences helper line + referencesOn helper ls := rfl

@[simp] theorem referencesOn_append (helper : Text) (ls ms : List Text) :
    referencesOn helper (ls ++ ms) = referencesOn helper ls + referencesOn helper ms := by
  induction ls with
  | nil => simp
  | cons l ls ih => simp [ih, Nat.add_assoc]

namespace Segmentation

variable (helper : Text) (n index references : Nat) (parts : List (Part Text))

theorem addLine_below (line : Text) (prose : List Text) :
    (below helper (n + 1) index (references + countReferences helper line) prose parts).addLine
      line = below helper n index references (line :: prose) parts := by
  simp [below, addLine, Nat.add_assoc, Nat.add_comm 1]

theorem ofParts_plain (line : Text) :
    ofParts helper n index references (.plain line :: parts) =
      below helper n index references [line] parts := by
  simp [ofParts, below, blocksOf, Part.prose]

theorem ofParts_listing (opening : Text) (body : List Text) :
    ofParts helper n index references (.listing opening body :: parts) =
      below helper n index references (opening :: body) parts := by
  simp [ofParts, below, blocksOf, Part.prose]

theorem ofParts_code (opening closing : Text) (body : List Text) :
    ofParts helper n index references (.code opening body closing :: parts) =
      (ofParts helper (n + body.length + 2) (index + 1) references parts).addBlock
        ⟨index, references, n, body⟩ := by
  simp [ofParts, below, addBlock, blocksOf, Part.prose]

end Segmentation

/-! ## From segmentations to parts -/

/-- The lines `ls` from line `n` on, which lie in a region, are made of parts and have the
segmentation `s`. In a listing or a block they begin with the rest of it. -/
def MadeOfParts (m : Markers) (n index references : Nat) (ls : List Text) (s : Segmentation) :
    Region → Prop
  | .prose => ∃ parts, m.Admits parts ∧ ls = parts.flatMap Part.lines ∧
      s = Segmentation.ofParts m.helper n index references parts
  | .listing => ∃ body parts, ListingBody m body parts ∧ m.Admits parts ∧
      ls = body ++ parts.flatMap Part.lines ∧
      s = Segmentation.below m.helper n index references body parts
  | .block fence linesBack => ∃ body closing parts, (∀ l ∈ body, m.closes l = false) ∧
      m.closes closing ∧ m.Admits parts ∧ ls = body ++ closing :: parts.flatMap Part.lines ∧
      s = (Segmentation.ofParts m.helper (n + body.length + 1) (index + 1) references
        parts).addBlock ⟨index, references, fence, linesBack.reverse ++ body⟩

theorem exists_of_map {α β ε : Type} {f : α → β} {x : Except ε α} {b : β}
    (h : x.map f = .ok b) : ∃ a, x = .ok a ∧ f a = b := by
  cases x with
  | error e => cases h
  | ok a => exact ⟨a, rfl, Except.ok.inj h⟩

/-- A scan that succeeds has found the parts of what it has scanned. -/
theorem madeOfParts_of_segmentLines {m : Markers} {region : Region} {n index references : Nat}
    {ls : List Text} {s : Segmentation}
    (h : segmentLines m region n index references ls = .ok s) :
    MadeOfParts m n index references ls s region := by
  induction ls generalizing region n index references s with
  | nil =>
    cases region with
    | prose =>
      cases h
      exact ⟨[], .nil, rfl, rfl⟩
    | listing =>
      -- a listing may go on to the end of the text
      cases h
      exact ⟨[], [], .inr ⟨rfl, by simp⟩, .nil, rfl, rfl⟩
    | block => cases h
  | cons line ls ih =>
    cases region with
    | prose =>
      rw [segmentLines] at h
      split at h
      · next hopens =>
        obtain ⟨body, closing, parts, hbody, hclosing, hparts, rfl, rfl⟩ := ih h
        refine ⟨.code line body closing :: parts, .code hopens hbody hclosing hparts, ?_, ?_⟩
        · simp [Part.lines]
        · rw [Segmentation.ofParts_code, Nat.add_right_comm n 1]
          rfl
      · next hopens =>
        -- a line of prose, which may be the first of a listing
        split at h
        · cases h
        · next hbare =>
          obtain ⟨t, ht, rfl⟩ := exists_of_map h
          rw [Bool.not_eq_true] at hopens hbare
          by_cases hcloses : m.closes line
          · rw [if_pos hcloses] at ht
            obtain ⟨body, parts, hbody, hparts, rfl, rfl⟩ := ih ht
            refine ⟨.listing line body :: parts, .listing hopens hcloses hbare hbody hparts, ?_, ?_⟩
            · simp [Part.lines]
            · rw [Segmentation.addLine_below, Segmentation.ofParts_listing]
          · rw [if_neg hcloses] at ht
            obtain ⟨parts, hparts, rfl, rfl⟩ := ih ht
            rw [Bool.not_eq_true] at hcloses
            refine ⟨.plain line :: parts, .plain hopens hcloses hparts, rfl, ?_⟩
            rw [Segmentation.ofParts_plain, ← Segmentation.addLine_below]
            rfl
    | listing =>
      rw [segmentLines] at h
      obtain ⟨t, ht, rfl⟩ := exists_of_map h
      by_cases hbare : m.isBareClose line
      · rw [if_pos hbare] at ht
        obtain ⟨parts, hparts, rfl, rfl⟩ := ih ht
        refine ⟨[line], parts, .inl ⟨[], line, rfl, by simp, hbare⟩, hparts, rfl, ?_⟩
        rw [← Segmentation.addLine_below]
        rfl
      · rw [if_neg hbare] at ht
        obtain ⟨body, parts, hbody, hparts, rfl, rfl⟩ := ih ht
        rw [Bool.not_eq_true] at hbare
        exact ⟨line :: body, parts, hbody.cons hbare, hparts, rfl,
          Segmentation.addLine_below ..⟩
    | block fence linesBack =>
      rw [segmentLines] at h
      split at h
      · next hcloses =>
        obtain ⟨t, ht, rfl⟩ := exists_of_map h
        obtain ⟨parts, hparts, rfl, rfl⟩ := ih ht
        exact ⟨[], line, parts, by simp, hcloses, hparts, rfl, by simp⟩
      · next hcloses =>
        obtain ⟨body, closing, parts, hbody, hclosing, hparts, rfl, rfl⟩ := ih h
        rw [Bool.not_eq_true] at hcloses
        refine ⟨line :: body, closing, parts, List.forall_mem_cons.2 ⟨hcloses, hbody⟩, hclosing,
          hparts, rfl, ?_⟩
        rw [List.length_cons, List.reverse_cons, List.append_assoc, List.singleton_append,
          Nat.add_right_comm n 1, Nat.add_assoc n]

/-- Every segmentation belongs to a row of parts that makes up its text. -/
theorem exists_parts {m : Markers} {text : Text} {s : Segmentation} (h : segment m text = .ok s) :
    ∃ parts, m.Admits parts ∧ Text.lines text = parts.flatMap Part.lines ∧
      s = Segmentation.ofParts m.helper 1 0 0 parts :=
  madeOfParts_of_segmentLines h

/-! ## The prose -/

theorem mem_lines_of_mem_prose {parts : List (Part Text)} {l : Text}
    (h : l ∈ parts.flatMap Part.prose) : l ∈ parts.flatMap Part.lines := by
  obtain ⟨part, hpart, hl⟩ := List.mem_flatMap.1 h
  refine List.mem_flatMap.2 ⟨part, hpart, ?_⟩
  cases part with
  | plain line => exact hl
  | listing opening body => exact hl
  | code opening body closing => cases hl

/-- The lines of the prose are the lines outside of blocks, if there are any. -/
theorem lines_prose {m : Markers} {text : Text} {s : Segmentation} (h : segment m text = .ok s)
    (hne : s.lines ≠ []) : Text.lines s.prose = s.lines := by
  obtain ⟨parts, -, hlines, rfl⟩ := exists_parts h
  refine Text.lines_unlines hne fun l hl => ?_
  have hmem : l ∈ Text.lines text := hlines ▸ mem_lines_of_mem_prose hl
  exact Text.notMem_of_mem_split hmem

/-- The references of a segmentation are those on the lines of its prose. -/
theorem referencesOn_prose {m : Markers} {text : Text} {s : Segmentation}
    (h : segment m text = .ok s) : referencesOn m.helper (Text.lines s.prose) = s.references := by
  have hlines : s.references = referencesOn m.helper s.lines := by
    obtain ⟨parts, -, -, rfl⟩ := exists_parts h
    exact Nat.zero_add _
  by_cases hnone : s.lines = []
  · -- the prose is the empty line then, which has no references
    rw [hlines, Segmentation.prose, hnone]
    rfl
  · rw [lines_prose h hnone, hlines]

end CalcDoc
