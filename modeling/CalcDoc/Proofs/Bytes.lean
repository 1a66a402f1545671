import CalcDoc.Text.Lines

/-!
# The bytes of texts

- `Text.byteSize`: the number of bytes of a text in UTF-8.
- `Text.byteSize_le_of_sublist`: a text with some characters left out has no more bytes.
- `Text.unlines_sublist`: leaving lines out of a text leaves characters out.
-/

namespace CalcDoc.Text

/-- The number of bytes of a text in UTF-8. -/
def byteSize (t : Text) : Nat :=
  (String.ofList t).utf8ByteSize

@[simp] theorem byteSize_nil : byteSize [] = 0 := rfl

@[simp] theorem byteSize_cons (c : Char) (t : Text) :
    byteSize (c :: t) = c.utf8Size + byteSize t := by
  rw [byteSize, byteSize, String.ofList_cons, String.utf8ByteSize_append,
    String.utf8ByteSize_singleton]

@[simp] theorem byteSize_append (t u : Text) : byteSize (t ++ u) = byteSize t + byteSize u := by
  rw [byteSize, String.ofList_append, String.utf8ByteSize_append]
  rfl

/-- A text has at most four bytes for each of its characters. -/
theorem byteSize_le_length (t : Text) : byteSize t ≤ 4 * t.length := by
  induction t with
  | nil => exact Nat.le_refl 0
  | cons c t ih =>
    rw [byteSize_cons, List.length_cons]
    have := c.utf8Size_le_four
    omega

theorem byteSize_le_of_sublist {t u : Text} (h : t.Sublist u) : byteSize t ≤ byteSize u := by
  induction h with
  | slnil => exact Nat.le_refl 0
  | cons c _ ih =>
    rw [byteSize_cons]
    omega
  | cons_cons c _ ih =>
    rw [byteSize_cons, byteSize_cons]
    omega

theorem unlines_cons_sublist (l : Text) (ls : List Text) :
    l.Sublist (unlines (l :: ls)) ∧ (unlines ls).Sublist (unlines (l :: ls)) := by
  cases ls with
  | nil => exact ⟨List.Sublist.refl l, List.nil_sublist l⟩
  | cons m ls =>
    constructor
    · exact List.sublist_append_left l _
    · exact (List.sublist_cons_self _ _).trans (List.sublist_append_right l _)

/-- Leaving lines out of a text leaves characters out. -/
theorem unlines_sublist {ls ms : List Text} (h : ls.Sublist ms) :
    (unlines ls).Sublist (unlines ms) := by
  induction h with
  | slnil => exact List.Sublist.refl []
  | cons l _ ih => exact ih.trans (unlines_cons_sublist l _).2
  | @cons_cons ls ms l h ih =>
    cases ls with
    | nil => exact (unlines_cons_sublist l ms).1
    | cons m ls =>
      cases ms with
      | nil => cases h
      | cons n ms => exact (ih.cons_cons '\n').append_left l

end CalcDoc.Text
