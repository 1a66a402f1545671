import CalcDoc.Proofs.Documents.Parts

/-!
# Blocks above references

The threshold of a block counts the references above it; so the blocks with a threshold below `k`
are those that the text has above its reference number `k`.

- `referenceLines`: the lines that references stand on, outside of blocks.
- `index_blocksOf`, `pairwise_blocksOf`: blocks are numbered from top to bottom, and their
  thresholds never fall.
- `separates_blocksOf`, `exists_referenceLine`: thresholds and lines order blocks and references
  alike.
-/

namespace CalcDoc

/-- Whether a line is one of the block, its two markers included. -/
def Block.covers (b : Block) (n : Nat) : Bool :=
  b.fenceLine ≤ n && n ≤ b.fenceLine + b.lines.length + 1

/-- For each reference on the lines from line `n` on, outside of blocks, the line that it is on. -/
def referenceLines (helper : Text) (blocks : List Block) (n : Nat) : List Text → List Nat
  | [] => []
  | line :: ls =>
    (if blocks.any (·.covers n) then [] else List.replicate (countReferences helper line) n) ++
      referenceLines helper blocks (n + 1) ls

section Lines

variable {helper : Text} {blocks : List Block}

theorem referenceLines_append (n : Nat) (ls ms : List Text) :
    referenceLines helper blocks n (ls ++ ms) =
      referenceLines helper blocks n ls ++ referenceLines helper blocks (n + ls.length) ms := by
  induction ls generalizing n with
  | nil => rfl
  | cons line ls ih =>
    rw [List.cons_append, referenceLines, ih, referenceLines, List.append_assoc, List.length_cons,
      Nat.add_right_comm n 1, Nat.add_assoc n]

/-- Lines in blocks have no references. -/
theorem referenceLines_covered {n : Nat} {ls : List Text}
    (h : ∀ k, n ≤ k → k < n + ls.length → blocks.any (·.covers k)) :
    referenceLines helper blocks n ls = [] := by
  induction ls generalizing n with
  | nil => rfl
  | cons line ls ih =>
    rw [List.length_cons] at h
    rw [referenceLines, if_pos (h n (Nat.le_refl n) (by omega)), List.nil_append]
    exact ih fun k hn hk => h k (by omega) (by omega)

/-- Lines outside of blocks have all their references, on these lines. -/
theorem referenceLines_uncovered {n : Nat} {ls : List Text}
    (h : ∀ k, n ≤ k → k < n + ls.length → blocks.any (·.covers k) = false) :
    (referenceLines helper blocks n ls).length = referencesOn helper ls ∧
      ∀ k ∈ referenceLines helper blocks n ls, n ≤ k ∧ k < n + ls.length := by
  induction ls generalizing n with
  | nil => exact ⟨rfl, by simp [referenceLines]⟩
  | cons line ls ih =>
    rw [List.length_cons] at h ⊢
    obtain ⟨hlength, hmem⟩ := ih (n := n + 1) fun k hn hk => h k (by omega) (by omega)
    rw [referenceLines, h n (Nat.le_refl n) (by omega), if_neg Bool.false_ne_true]
    constructor
    · rw [List.length_append, List.length_replicate, hlength, referencesOn_cons]
    · intro k hk
      rcases List.mem_append.1 hk with hk | hk
      · obtain rfl := List.eq_of_mem_replicate hk
        omega
      · have := hmem k hk
        omega

end Lines

/-! ## The blocks of a row of parts -/

section Blocks

variable {helper : Text} {n index references : Nat} {parts : List (Part Text)}

/-- Nothing in a row of parts is above its first line. -/
theorem le_of_mem_blocksOf {b : Block} (hb : b ∈ blocksOf helper n index references parts) :
    references ≤ b.threshold ∧ n ≤ b.fenceLine := by
  induction parts generalizing n index references with
  | nil => cases hb
  | cons part parts ih =>
    cases part with
    | code opening body closing =>
      rcases List.mem_cons.1 hb with rfl | hb
      · exact ⟨Nat.le_refl _, Nat.le_refl _⟩
      · have := ih hb
        omega
    | plain line =>
      have := ih hb
      omega
    | listing opening body =>
      have := ih hb
      omega

/-- Blocks are numbered from top to bottom. -/
theorem index_blocksOf : (blocksOf helper n index references parts).map Block.index =
    List.range' index (blocksOf helper n index references parts).length := by
  induction parts generalizing n index references with
  | nil => rfl
  | cons part parts ih =>
    cases part with
    | code opening body closing =>
      rw [blocksOf, List.map_cons, ih, List.length_cons, List.range'_succ]
    | plain line => exact ih
    | listing opening body => exact ih

/-- Thresholds never fall from top to bottom. -/
theorem pairwise_blocksOf :
    (blocksOf helper n index references parts).Pairwise (·.threshold ≤ ·.threshold) := by
  induction parts generalizing n index references with
  | nil => exact .nil
  | cons part parts ih =>
    cases part with
    | code opening body closing =>
      exact .cons (fun b hb => (le_of_mem_blocksOf hb).1) ih
    | plain line => exact ih
    | listing opening body => exact ih

end Blocks

/-! ## The line of a reference -/

/-- Reference number `k`, with `references` before those on the lines `ls` from line `n` on, is on
one of these lines, below exactly those of the blocks `below` that have a threshold below `k`. -/
def Separates (helper : Text) (blocks : List Block) (n references k : Nat) (ls : List Text)
    (below : List Block) : Prop :=
  ∃ line, (referenceLines helper blocks n ls)[k - references - 1]? = some line ∧ n ≤ line ∧
    ∀ b ∈ below, b.threshold < k ↔ b.fenceLine < line

section Separation

variable {helper : Text} {n references k : Nat} {blocks below : List Block}

/-- The references on lines of prose are above all blocks below these lines. -/
theorem separates_prose {ls rest : List Text}
    (hblocks : ∀ i, n ≤ i → blocks.any (·.covers i) = below.any (·.covers i))
    (hbelow : ∀ b ∈ below,
      references + referencesOn helper ls ≤ b.threshold ∧ n + ls.length ≤ b.fenceLine)
    (hk : references < k)
    (hrest : references + referencesOn helper ls < k →
      Separates helper blocks (n + ls.length) (references + referencesOn helper ls) k rest below) :
    Separates helper blocks n references k (ls ++ rest) below := by
  -- the blocks of the text that could cover these lines begin below them
  have huncovered : ∀ i, n ≤ i → i < n + ls.length → blocks.any (·.covers i) = false := by
    intro i hn hi
    rw [hblocks i hn, List.any_eq_false]
    intro b hb hcovers
    have := (hbelow b hb).2
    simp only [Block.covers, Bool.and_eq_true, decide_eq_true_eq] at hcovers
    omega
  have hlength : (referenceLines helper blocks n ls).length = referencesOn helper ls :=
    (referenceLines_uncovered huncovered).1
  have hmem : ∀ i ∈ referenceLines helper blocks n ls, n ≤ i ∧ i < n + ls.length :=
    (referenceLines_uncovered huncovered).2
  unfold Separates
  rw [referenceLines_append]
  by_cases hle : k ≤ references + referencesOn helper ls
  · -- the reference is on one of the lines `ls`
    have hlt : k - references - 1 < (referenceLines helper blocks n ls).length := by omega
    have hline := hmem _ (List.getElem_mem hlt)
    refine ⟨_, ?_, hline.1, fun b hb => ?_⟩
    · rw [List.getElem?_append_left hlt, List.getElem?_eq_getElem hlt]
    · have := hbelow b hb
      omega
  · -- it comes after all references on these lines
    obtain ⟨line, hline, hn, hsep⟩ := hrest (by omega)
    refine ⟨line, ?_, by omega, hsep⟩
    rw [List.getElem?_append_right (by omega), hlength, ← hline]
    congr 1
    omega

/-- All references below a block are below its fences. -/
theorem separates_code {ls rest : List Text} (b : Block) (hlength : ls.length = b.lines.length + 2)
    (hblocks : ∀ i, b.fenceLine ≤ i → blocks.any (·.covers i) = (b :: below).any (·.covers i))
    (hb : b.threshold < k)
    (hrest : Separates helper blocks (b.fenceLine + ls.length) references k rest below) :
    Separates helper blocks b.fenceLine references k (ls ++ rest) (b :: below) := by
  have hcovered : ∀ i, b.fenceLine ≤ i → i < b.fenceLine + ls.length → blocks.any (·.covers i) := by
    intro i hn hi
    rw [hblocks i hn, List.any_cons, Bool.or_eq_true]
    left
    simp only [Block.covers, Bool.and_eq_true, decide_eq_true_eq]
    omega
  obtain ⟨line, hline, hn, hsep⟩ := hrest
  refine ⟨line, ?_, by omega, ?_⟩
  · rw [referenceLines_append, referenceLines_covered hcovered, List.nil_append, hline]
  · intro c hc
    rcases List.mem_cons.1 hc with rfl | hc
    · omega
    · exact hsep c hc

/-- Thresholds and lines order the blocks and the references of a row of parts alike. The given
blocks are those of the parts, and perhaps others that end above. -/
theorem separates_blocksOf {index : Nat} {parts : List (Part Text)}
    (hblocks : ∀ i, n ≤ i → blocks.any (·.covers i) =
      (blocksOf helper n index references parts).any (·.covers i))
    (hk : references < k)
    (hle : k ≤ references + referencesOn helper (parts.flatMap Part.prose)) :
    Separates helper blocks n references k (parts.flatMap Part.lines)
      (blocksOf helper n index references parts) := by
  induction parts generalizing n index references with
  | nil =>
    simp only [List.flatMap_nil, referencesOn_nil] at hle
    omega
  | cons part parts ih =>
    have prose (ls : List Text)
        (hblocks : ∀ i, n ≤ i → blocks.any (·.covers i) = (blocksOf helper (n + ls.length) index
          (references + referencesOn helper ls) parts).any (·.covers i))
        (hle : k ≤ references + referencesOn helper (ls ++ parts.flatMap Part.prose)) :
        Separates helper blocks n references k (ls ++ parts.flatMap Part.lines)
          (blocksOf helper (n + ls.length) index (references + referencesOn helper ls) parts) := by
      rw [referencesOn_append] at hle
      exact separates_prose hblocks (fun b hb => le_of_mem_blocksOf hb) hk fun hrest =>
        ih (fun i hi => hblocks i (by omega)) hrest (by omega)
    cases part with
    | plain line => exact prose [line] hblocks hle
    | listing opening body => exact prose (opening :: body) hblocks hle
    | code opening body closing =>
      have hlength : (opening :: (body ++ [closing])).length = body.length + 2 := by simp
      have hrest : Separates helper blocks (n + (body.length + 2)) references k
          (parts.flatMap Part.lines)
          (blocksOf helper (n + body.length + 2) (index + 1) references parts) := by
        refine ih (fun i hi => ?_) hk hle
        -- the block ends above the rest of the text, so it covers none of its lines
        have habove : Block.covers ⟨index, references, n, body⟩ i = false := by
          refine Bool.eq_false_iff.2 fun hcovers => ?_
          simp only [Block.covers, Bool.and_eq_true, decide_eq_true_eq] at hcovers
          omega
        rw [hblocks i (by omega), blocksOf, List.any_cons, habove, Bool.false_or,
          Nat.add_assoc n]
      rw [← hlength] at hrest
      exact separates_code ⟨index, references, n, body⟩ hlength hblocks hk hrest

/-- The blocks with a threshold below `k` are those above reference number `k` of the text. -/
theorem exists_referenceLine {m : Markers} {text : Text} {s : Segmentation}
    (h : segment m text = .ok s) (hpos : 0 < k) (hk : k ≤ s.references) :
    ∃ line, (referenceLines m.helper s.blocks 1 (Text.lines text))[k - 1]? = some line ∧
      s.blocks.filter (·.threshold < k) = s.blocks.filter (·.fenceLine < line) := by
  obtain ⟨parts, -, hlines, rfl⟩ := exists_parts h
  have hparts : (Segmentation.ofParts m.helper 1 0 0 parts).blocks =
      blocksOf m.helper 1 0 0 parts := rfl
  rw [hlines, hparts]
  obtain ⟨line, hline, -, hsep⟩ := separates_blocksOf (fun _ _ => rfl) hpos hk
  refine ⟨line, hline, List.filter_congr fun b hb => ?_⟩
  exact decide_eq_decide.2 (hsep b hb)

end Separation

end CalcDoc
