import CalcDoc.Document
import CalcDoc.Proofs.Documents.Parts

/-!
# Documents without their blocks

The prose of a document is a document again. The scan of it goes through the regions that the scan
of the whole document goes through, without the blocks between them.

- `Region.withoutBlock`: the region that a line of prose lies in.
- `segmentLines_lines`: the scan of the prose, by the steps of the scan of the whole.
- `segment_prose`: the segmentation of the prose.
-/

namespace CalcDoc

/-- The region of a scan that does not see the block it is in. -/
def Region.withoutBlock : Region → Region
  | .block _ _ => .prose
  | region => region

/-- The scan of the prose alone ends as the scan of the document does, and finds no blocks. The
positions of its lines do not matter. -/
theorem segmentLines_lines {m : Markers} {region : Region} {n index references : Nat}
    {ls : List Text} {s : Segmentation} (h : segmentLines m region n index references ls = .ok s)
    (n' index' : Nat) :
    segmentLines m region.withoutBlock n' index' references s.lines =
      .ok ⟨[], s.references, s.lines⟩ := by
  induction ls generalizing region n index references s n' with
  | nil =>
    cases region with
    | prose =>
      cases h
      rfl
    | listing =>
      cases h
      rfl
    | block => cases h
  | cons line ls ih =>
    cases region with
    | prose =>
      rw [segmentLines] at h
      split at h
      · -- a block begins, and the prose goes on behind it
        exact ih h n'
      · next hopens =>
        split at h
        · cases h
        · next hbare =>
          obtain ⟨t, ht, rfl⟩ := exists_of_map h
          have hrest := ih ht (n' + 1)
          have hregion : (if m.closes line then Region.listing else .prose).withoutBlock =
              if m.closes line then .listing else .prose := by
            split <;> rfl
          rw [hregion] at hrest
          show segmentLines m .prose n' index' references (line :: t.lines) = _
          rw [segmentLines, if_neg hopens, if_neg hbare]
          dsimp only
          rw [hrest]
          rfl
    | listing =>
      rw [segmentLines] at h
      obtain ⟨t, ht, rfl⟩ := exists_of_map h
      have hrest := ih ht (n' + 1)
      have hregion : (if m.isBareClose line then Region.prose else .listing).withoutBlock =
          if m.isBareClose line then .prose else .listing := by
        split <;> rfl
      rw [hregion] at hrest
      show segmentLines m .listing n' index' references (line :: t.lines) = _
      rw [segmentLines, hrest]
      rfl
    | block fence linesBack =>
      rw [segmentLines] at h
      split at h
      · -- the block ends, and what it holds is no prose
        obtain ⟨t, ht, rfl⟩ := exists_of_map h
        exact ih ht n'
      · exact ih h n'

/-- An empty line is prose, unless a marker is empty too. -/
theorem segment_nil {m : Markers} (hopen : m.openMarker ≠ []) (hclose : m.closeMarker ≠ []) :
    segment m [] = .ok ⟨[], 0, [[]]⟩ := by
  have none_of_ne {marker : Text} (h : marker ≠ []) : Text.stripStart? marker [] = none := by
    cases marker with
    | nil => exact absurd rfl h
    | cons c marker => rfl
  simp [segment, Text.lines, Text.split, segmentLines, Markers.opens, Markers.isBareClose,
    Markers.closes, Text.startsWith, none_of_ne hopen, none_of_ne hclose, countReferences,
    Except.map, Segmentation.addLine]

/-- The prose of a document has a segmentation with the same prose, no blocks and the same
references, which are those on its lines. So a document that is shown without its blocks has as
many references as its session expects. -/
theorem segment_prose {m : Markers} {text : Text} {s : Segmentation}
    (hopen : m.openMarker ≠ []) (hclose : m.closeMarker ≠ []) (h : segment m text = .ok s) :
    (∃ s', segment m s.prose = .ok s' ∧ s'.blocks = [] ∧ s'.prose = s.prose ∧
      s'.references = s.references) ∧
    s.references = referencesOn m.helper (Text.lines s.prose) ∧
    ∀ settings : Settings, settings.blocks = .strip →
      (Session.ofSegmentation s settings).expected =
        referencesOn m.helper (Text.lines (Document.body settings text s)) := by
  have hsum := referencesOn_prose h
  refine ⟨?_, hsum.symm, fun settings hstrip => ?_⟩
  · by_cases hnil : s.lines = []
    · -- nothing is left but the empty line that every text has
      have hprose : s.prose = [] := by
        rw [Segmentation.prose, hnil]
        rfl
      rw [hprose] at hsum ⊢
      exact ⟨_, segment_nil hopen hclose, rfl, rfl, hsum⟩
    · refine ⟨⟨[], s.references, s.lines⟩, ?_, rfl, rfl, rfl⟩
      rw [segment, lines_prose h hnil]
      exact segmentLines_lines h 1 0
  · rw [Document.body, hstrip]
    exact hsum.symm

/-- A listing that holds the open marker, a block, and a listing without an end. -/
def blockBetweenListings : Text :=
  "```sh\n```calc\n\x7b\x7b_ \"x\"\x7d\x7d\n```\n```calc\nx = 2\n```\n```py\nx".toList

/-- The block between the listings is gone, and both listings are found again. -/
theorem segment_prose_of_listings :
    ∃ s s', segment ({} : Settings).markers blockBetweenListings = .ok s ∧
      s.blocks.length = 1 ∧ s.references = 1 ∧ segment ({} : Settings).markers s.prose = .ok s' ∧
      s'.blocks = [] ∧ s'.prose = s.prose ∧ s'.references = 1 := by
  have hsegment : segment ({} : Settings).markers blockBetweenListings =
      .ok ⟨[⟨0, 1, 5, ["x = 2".toList]⟩], 1,
        ["```sh".toList, "```calc".toList, "\x7b\x7b_ \"x\"\x7d\x7d".toList, "```".toList,
          "```py".toList, "x".toList]⟩ := rfl
  obtain ⟨⟨s', h⟩, -⟩ := segment_prose (by decide) (by decide) hsegment
  exact ⟨_, s', hsegment, rfl, rfl, h⟩

end CalcDoc
